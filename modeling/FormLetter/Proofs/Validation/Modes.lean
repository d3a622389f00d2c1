import FormLetter.Proofs.Outcome
import FormLetter.Proofs.Validation.Blocks
import FormLetter.Proofs.Validation.Findings
import FormLetter.Proofs.Validation.Order
import FormLetter.Validation
import Mathlib.Data.List.Basic

namespace FormLetter.Validation

open Outcome

/-- What can be wrong with a tag whatever the schema. -/
def IssueCode.isSyntax (c : IssueCode) : Bool :=
  c = syntaxError ∨ c = unsupportedExpression ∨ c.isBlockIssue

theorem code_place (h : f ∈ (place tags span kind).1) : f.code.isSyntax = true := by
  cases kind with
  | text | value | includeTag | pageBreak | ifTag | unlessTag | forTag => cases h
  | elsifTag =>
    cases tags with
    | nil =>
      obtain rfl := List.mem_singleton.mp h
      rfl
    | cons tag rest =>
      simp only [place] at h
      split at h
      · split at h
        · obtain rfl := List.mem_singleton.mp h
          rfl
        · cases h
      · obtain rfl := List.mem_singleton.mp h
        rfl
  | elseTag =>
    cases tags with
    | nil =>
      obtain rfl := List.mem_singleton.mp h
      rfl
    | cons tag rest =>
      simp only [place] at h
      split at h
      · split at h
        · obtain rfl := List.mem_singleton.mp h
          rfl
        · cases h
      · obtain rfl := List.mem_singleton.mp h
        rfl
  | endTag =>
    cases tags with
    | nil =>
      obtain rfl := List.mem_singleton.mp h
      rfl
    | cons tag rest => cases h

theorem code_visit (h : f ∈ (visit tags span).1) : f.code.isSyntax = true := by
  unfold visit at h
  split at h
  · obtain rfl := List.mem_singleton.mp h
    rfl
  · rcases List.mem_append.mp h with h | h
    · rw [code_textFindings h]
      rfl
    · exact code_place h

theorem code_blockRemarks (h : r ∈ blockRemarks tags spans) : r.finding.code.isSyntax = true := by
  induction spans generalizing tags with
  | nil =>
    obtain ⟨tag, _, rfl⟩ := List.mem_map.mp h
    rfl
  | cons span spans ih =>
    rcases List.mem_append.mp h with h | h
    · obtain ⟨f, hf, rfl⟩ := List.mem_map.mp h
      exact code_visit hf
    · exact ih h

namespace Env

theorem code_reference (env : Env) (path : ReferencePath) (h : f ∈ (env.reference path).2) :
    f.code = .unknownField := by
  unfold reference at h
  split at h
  · split at h
    · cases h
    · obtain rfl := List.mem_singleton.mp h
      rfl
  · split at h
    · cases h
    · split at h
      · cases h
      · split at h
        · cases h
        · obtain rfl := List.mem_singleton.mp h
          rfl

theorem code_call (env : Env) (name : String) (types : List TypeInfo)
    (h : f ∈ (env.call name types).2) : f.code.isSyntax = false := by
  rcases of_mem_call h with ⟨names, rfl⟩ | ⟨function, rfl | h⟩
  · rfl
  · rfl
  · obtain ⟨_, _, _, _, _, _, rfl⟩ := of_mem_argumentFindings h
    rfl

mutual
/-- What a schema does not know is never about the tag itself. -/
theorem code_infer (env : Env) : (e : Expr) → f ∈ (env.infer e).2 → f.code.isSyntax = false
  | .literal _, h => nomatch h
  | .var name, h => by
    rw [code_reference env ⟨name, []⟩ h]
    rfl
  | .field object name, h => by
    rw [infer] at h
    split at h
    · rename_i path _
      rcases List.mem_append.mp h with h | h
      · exact code_keyFindings env object h
      · rw [code_reference env path h]
        rfl
    · exact code_infer env object h
  | .index object key, h => by
    rw [infer] at h
    split at h
    · rename_i path _
      rcases List.mem_append.mp h with h | h
      · rcases List.mem_append.mp h with h | h
        · exact code_keyFindings env object h
        · exact code_infer env key h
      · rw [code_reference env path h]
        rfl
    · rcases List.mem_append.mp h with h | h
      · exact code_infer env object h
      · exact code_infer env key h
  | .unary _ operand, h => code_infer env operand h
  | .binary _ left right, h => by
    rcases List.mem_append.mp h with h | h
    · exact code_infer env left h
    · exact code_infer env right h
  | .call name args, h => by
    rcases List.mem_append.mp h with h | h
    · exact code_inferAll env args h
    · exact code_call env name _ h
termination_by structural e => e

theorem code_keyFindings (env : Env) : (e : Expr) → f ∈ env.keyFindings e →
    f.code.isSyntax = false
  | .field object _, h => code_keyFindings env object h
  | .index object key, h => by
    rcases List.mem_append.mp h with h | h
    · exact code_keyFindings env object h
    · exact code_infer env key h
  | .literal _, h | .var _, h | .unary _ _, h | .binary _ _ _, h | .call _ _, h => nomatch h
termination_by structural e => e

theorem code_inferAll (env : Env) : (es : List Expr) → f ∈ (env.inferAll es).2 →
    f.code.isSyntax = false
  | [], h => nomatch h
  | e :: es, h => by
    rcases List.mem_append.mp h with h | h
    · exact code_infer env e h
    · exact code_inferAll env es h
termination_by structural es => es
end

end Env

theorem code_visitSpan (h : f ∈ (visitSpan schema scopes span).1) : f.code.isSyntax = false := by
  have hexpression {env : Env} {value : String} (h : f ∈ expressionFindings env value) :
      f.code.isSyntax = false := by
    unfold expressionFindings at h
    split at h
    · exact Env.code_infer env _ h
    · cases h
  unfold visitSpan at h
  split at h
  · cases h
  · unfold visitToken at h
    split at h
    · cases h
    · cases h
    · cases h
    · exact hexpression h
    · exact hexpression h
    · exact hexpression h
    · exact hexpression h
    · exact hexpression h
    · split at h
      · exact Env.code_infer _ _ h
      · cases h
    · cases h

theorem code_scopeRemarks (h : r ∈ scopeRemarks schema scopes spans) :
    r.finding.code.isSyntax = false := by
  induction spans generalizing scopes with
  | nil => cases h
  | cons span spans ih =>
    rcases List.mem_append.mp h with h | h
    · obtain ⟨f, hf, rfl⟩ := List.mem_map.mp h
      exact code_visitSpan hf
    · exact ih h

theorem isSyntax_of_syntaxIssues (h : i ∈ syntaxIssues spans) : i.code.isSyntax = true := by
  obtain ⟨r, hr, rfl⟩ := List.mem_map.mp h
  exact code_blockRemarks hr

theorem isSyntax_of_schemaIssues (h : i ∈ schemaIssues schema strict spans) :
    i.code.isSyntax = false := by
  obtain ⟨r, hr, rfl⟩ := List.mem_map.mp h
  exact code_scopeRemarks hr

theorem severity_syntaxIssues (h : i ∈ syntaxIssues spans) : i.severity = .error := by
  obtain ⟨r, _, rfl⟩ := List.mem_map.mp h
  rfl

theorem severity_schemaIssues (h : i ∈ schemaIssues schema strict spans) :
    i.severity = if strict then .error else .warning := by
  obtain ⟨r, _, rfl⟩ := List.mem_map.mp h
  rfl

/-- All issues of a document in one of the modes. -/
def allIssues (schema : Schema) (strict : Bool) (spans : List Span) : List Issue :=
  syntaxIssues spans ++ schemaIssues schema strict spans

/-- The code of an issue settles how severe it is. -/
theorem severity_eq_of_code (ha : a ∈ allIssues schema strict spans)
    (hb : b ∈ allIssues schema strict spans) (h : a.code = b.code) : a.severity = b.severity := by
  rcases List.mem_append.mp ha with ha | ha
  · rcases List.mem_append.mp hb with hb | hb
    · rw [severity_syntaxIssues ha, severity_syntaxIssues hb]
    · have hc := isSyntax_of_schemaIssues hb
      rw [← h, isSyntax_of_syntaxIssues ha] at hc
      cases hc
  · rcases List.mem_append.mp hb with hb | hb
    · have hc := isSyntax_of_schemaIssues ha
      rw [h, isSyntax_of_syntaxIssues hb] at hc
      cases hc
    · rw [severity_schemaIssues ha, severity_schemaIssues hb]

theorem map_ungraded_allIssues (schema : Schema) (strict : Bool) (spans : List Span) :
    (allIssues schema strict spans).map Issue.ungraded = allIssues schema true spans := by
  simp [allIssues, syntaxIssues, schemaIssues, Remark.issue, Issue.ungraded, Function.comp_def]

/-- In all modes the same issues come in the same order. -/
theorem map_ungraded_sort_allIssues (schema : Schema) (strict : Bool) (spans : List Span) :
    (Issue.sort (allIssues schema strict spans)).map Issue.ungraded =
      Issue.sort (allIssues schema true spans) := by
  rw [Issue.map_ungraded_sort fun a ha b hb => severity_eq_of_code ha hb, map_ungraded_allIssues]

/-- The issues of the tags are those with the codes for them. -/
theorem filter_isSyntax (schema : Schema) (strict : Bool) (spans : List Span) :
    (allIssues schema strict spans).filter (·.code.isSyntax) = syntaxIssues spans := by
  rw [allIssues, List.filter_append,
    List.filter_eq_self.mpr fun i hi => isSyntax_of_syntaxIssues hi,
    List.filter_eq_nil_iff.mpr fun i hi => by simp [isSyntax_of_schemaIssues hi], List.append_nil]

/-- In lenient mode the errors are the issues of the tags. -/
theorem kept_allIssues (schema : Schema) (spans : List Span) :
    kept false (allIssues schema false spans) = syntaxIssues spans := by
  rw [kept, if_neg (by simp), allIssues, List.filter_append,
    List.filter_eq_self.mpr fun i hi => by simp [severity_syntaxIssues hi],
    List.filter_eq_nil_iff.mpr fun i hi => by simp [severity_schemaIssues hi], List.append_nil]

/-- All issues in strict mode count, and so do all issues of the tags. -/
theorem kept_of_errors {issues : List Issue} (h : ∀ i ∈ issues, i.severity = .error)
    (warnings : Bool) : kept warnings issues = issues := by
  unfold kept
  split
  · rfl
  · exact List.filter_eq_self.mpr fun i hi => by simp [h i hi]

theorem severity_strict (h : i ∈ allIssues schema true spans) : i.severity = .error := by
  rcases List.mem_append.mp h with h | h
  · exact severity_syntaxIssues h
  · exact severity_schemaIssues h

namespace Report

/-- A document is valid if there is no issue that counts. -/
theorem valid_build (issues : List Issue) (checked : Nat) (metadata : Metadata) (warnings : Bool)
    (limit : Option Nat) :
    (build issues checked metadata warnings limit).valid = (kept warnings issues).isEmpty := by
  have hle :=
    List.countP_le_length (p := fun i : Issue => decide (i.severity = .error)) (l := issues)
  rw [Bool.eq_iff_iff, List.isEmpty_iff_length_eq_zero]
  cases warnings with
  | false => simp [build, kept, List.countP_eq_length_filter]
  | true =>
    simp only [build, kept, Bool.not_true, Bool.false_or, Bool.and_eq_true, decide_eq_true_eq,
      if_true]
    omega

/-- Reports that say the same but for how severe each issue is. -/
structure SameButSeverity (a b : Report) : Prop where
  valid : a.valid = b.valid
  truncated : a.truncated = b.truncated
  issues : a.issues.map Issue.ungraded = b.issues.map Issue.ungraded

/-- Issues that are the same in order but for how severe they are make such reports. -/
theorem sameButSeverity_build {as bs : List Issue} {w w' : Bool}
    (h : (Issue.sort (kept w as)).map Issue.ungraded = (Issue.sort (kept w' bs)).map Issue.ungraded)
    (checked : Nat) (metadata : Metadata) (limit : Option Nat) :
    (build as checked metadata w limit).SameButSeverity (build bs checked metadata w' limit) := by
  have hlength : (kept w as).length = (kept w' bs).length := by
    simpa [Issue.sort] using congrArg List.length h
  refine ⟨?_, ?_, ?_⟩
  · rw [valid_build, valid_build, Bool.eq_iff_iff, List.isEmpty_iff_length_eq_zero,
      List.isEmpty_iff_length_eq_zero, hlength]
  · cases limit with
    | none => simp [build]
    | some limit => simp [build, Issue.sort, hlength]
  · cases limit with
    | none => exact h
    | some limit =>
      simp only [build, List.map_take]
      rw [h]

end Report

variable (archive : List UInt8) (schema : Schema) (spans : List Span)

/-- The report on the tags of a document that has these spans. -/
def syntaxReport (limit : Option Nat) : Report :=
  .build (syntaxIssues spans) spans.length (.ofDocument archive) true limit

/-- The report in one of the modes on a document that has these spans. -/
def schemaReport (strict warnings : Bool) (limit : Option Nat) : Report :=
  .build (allIssues schema strict spans) spans.length (.ofDocument archive) warnings limit

theorem validateSyntax_eq (h : Span.ofDocument archive = .ok spans) (limit : Option Nat) :
    validateSyntax archive ⟨limit⟩ = .ok (syntaxReport archive spans limit) := by
  rw [validateSyntax, h]
  rfl

theorem validateSchema_eq (h : Span.ofDocument archive = .ok spans) (strict warnings : Bool)
    (limit : Option Nat) : validateSchema archive schema ⟨strict, warnings, limit⟩ =
      .ok (schemaReport archive schema spans strict warnings limit) := by
  rw [validateSchema, h]
  rfl

/-- Strict mode, where all issues count anyway, and lenient mode with its warnings. -/
theorem sameButSeverity_schemaReport (warnings : Bool) (limit : Option Nat) :
    (schemaReport archive schema spans true warnings limit).SameButSeverity
      (schemaReport archive schema spans false true limit) := by
  apply Report.sameButSeverity_build
  rw [kept_of_errors (fun i hi => severity_strict hi), kept, if_pos rfl,
    map_ungraded_sort_allIssues, map_ungraded_sort_allIssues]

/-- Lenient mode without its warnings, which are counted all the same. -/
theorem schemaReport_lenient (limit : Option Nat) :
    schemaReport archive schema spans false false limit =
      { syntaxReport archive spans limit with
        summary.warnings :=
          (schemaReport archive schema spans false false limit).summary.warnings } := by
  have htags : kept true (syntaxIssues spans) = syntaxIssues spans := rfl
  have herrors : (allIssues schema false spans).countP (·.severity = .error) =
      (syntaxIssues spans).countP (·.severity = .error) := by
    have hnone : (schemaIssues schema false spans).countP (·.severity = .error) = 0 :=
      List.countP_eq_zero.mpr fun i hi => by simp [severity_schemaIssues hi]
    rw [allIssues, List.countP_append, hnone, Nat.add_zero]
  have hvalid :=
    Report.valid_build (syntaxIssues spans) spans.length (.ofDocument archive) true limit
  have hvalid' := Report.valid_build (allIssues schema false spans) spans.length
    (.ofDocument archive) false limit
  rw [kept_allIssues, ← htags, ← hvalid] at hvalid'
  rw [Report.mk.injEq]
  refine ⟨hvalid', ?_, ?_, ?_, rfl⟩
  · simp only [schemaReport, syntaxReport, Report.build, kept_allIssues, htags]
  · simp only [schemaReport, syntaxReport, Report.build, kept_allIssues, htags, herrors]
  · simp only [schemaReport, syntaxReport, Report.build, kept_allIssues, htags]

/-- The issues of the tags in the whole of a report. -/
theorem filter_issues_schemaReport (strict warnings : Bool) :
    (schemaReport archive schema spans strict warnings none).issues.filter (·.code.isSyntax) =
      (syntaxReport archive spans none).issues := by
  have htags : (kept warnings (allIssues schema strict spans)).filter (·.code.isSyntax) =
      syntaxIssues spans := by
    cases warnings with
    | true => exact filter_isSyntax schema strict spans
    | false =>
      rw [kept, if_neg (by simp), List.filter_comm, filter_isSyntax]
      exact kept_of_errors (fun i hi => severity_syntaxIssues hi) false
  change (Issue.sort _).filter _ = Issue.sort (syntaxIssues spans)
  rw [Issue.filter_sort, htags]

/-- A document that can be read has a report in every mode. The strict report is the lenient one
with warnings but for how severe the issues are; the lenient report without warnings is the one on
the tags, but for the number of warnings; and in all modes the issues with the codes of the tags, in
their order, are those of the report on the tags. A document that cannot be read fails alike. -/
theorem validateSchema_modes (archive : List UInt8) (schema : Schema) :
    (∃ error, ∀ limit, validateSyntax archive ⟨limit⟩ = .error error ∧
      ∀ strict warnings, validateSchema archive schema ⟨strict, warnings, limit⟩ = .error error) ∨
    ∃ (tags : Option Nat → Report) (full : Bool → Bool → Option Nat → Report),
      (∀ limit, validateSyntax archive ⟨limit⟩ = .ok (tags limit) ∧
        ∀ strict warnings,
          validateSchema archive schema ⟨strict, warnings, limit⟩ =
            .ok (full strict warnings limit)) ∧
      (∀ limit warnings, (full true warnings limit).SameButSeverity (full false true limit)) ∧
      (∀ limit, full false false limit =
        { tags limit with summary.warnings := (full false false limit).summary.warnings }) ∧
      ∀ strict warnings,
        (full strict warnings none).issues.filter (·.code.isSyntax) = (tags none).issues := by
  cases h : Span.ofDocument archive with
  | error error =>
    refine .inl ⟨error, fun limit => ⟨?_, fun strict warnings => ?_⟩⟩
    · rw [validateSyntax, h, error_bind]
    · rw [validateSchema, h, error_bind]
  | ok spans =>
    refine .inr ⟨syntaxReport archive spans, schemaReport archive schema spans,
      fun limit => ⟨validateSyntax_eq archive spans h limit, fun strict warnings =>
        validateSchema_eq archive schema spans h strict warnings limit⟩,
      fun limit warnings => ?_, fun limit => ?_, fun strict warnings => ?_⟩
    · exact sameButSeverity_schemaReport archive schema spans warnings limit
    · exact schemaReport_lenient archive schema spans limit
    · exact filter_issues_schemaReport archive schema spans strict warnings

end FormLetter.Validation
