import FormLetter.Proofs.Document.Fragments
import FormLetter.Proofs.Schema.Index
import FormLetter.Proofs.Template.Grammar
import FormLetter.Proofs.Validation.Mentions
import FormLetter.Validation

namespace FormLetter

open Document (Paragraph)
open Outcome

theorem Template.addBranches_append (locals : List String) (branches rest : List (Expr × Body))
    (found : List String) :
    Template.addBranches locals (branches ++ rest) found =
      Template.addBranches locals rest (Template.addBranches locals branches found) := by
  induction branches generalizing found with
  | nil => rfl
  | cons branch branches ih => exact ih _

namespace Validation

/-- What is wrong with tags, and the scopes after them. -/
def visitTokens (schema : Schema.Index) (scopes : List Scope) :
    List MarkupToken → List Finding × List Scope
  | [] => ([], scopes)
  | t :: ts =>
    let (found, after) := visitToken schema scopes t
    let (more, last) := visitTokens schema after ts
    (found ++ more, last)

theorem visitTokens_append (schema : Schema.Index) (scopes : List Scope)
    (ts us : List MarkupToken) :
    visitTokens schema scopes (ts ++ us) =
      let (found, after) := visitTokens schema scopes ts
      let (more, last) := visitTokens schema after us
      (found ++ more, last) := by
  induction ts generalizing scopes with
  | nil => rfl
  | cons t ts ih => simp [visitTokens, ih, List.append_assoc]

/-- Text is passed over. -/
theorem visitTokens_filter (schema : Schema.Index) (scopes : List Scope) (ts : List MarkupToken) :
    visitTokens schema scopes (ts.filter MarkupToken.isTag) = visitTokens schema scopes ts := by
  induction ts generalizing scopes with
  | nil => rfl
  | cons t ts ih =>
    by_cases ht : t.kind = .text
    · rw [List.filter_cons_of_neg (by simp [MarkupToken.isTag, ht]), ih]
      simp [visitTokens, visitToken, ht]
    · rw [List.filter_cons_of_pos (by simp [MarkupToken.isTag, ht]), visitTokens, visitTokens]
      simp only [ih]

/-- Where tags stand in their text does not matter. -/
theorem visitTokens_unplaced (schema : Schema.Index) (scopes : List Scope)
    (ts : List MarkupToken) :
    visitTokens schema scopes (ts.map MarkupToken.unplaced) = visitTokens schema scopes ts := by
  induction ts generalizing scopes with
  | nil => rfl
  | cons t ts ih =>
    have ht : visitToken schema scopes t.unplaced = visitToken schema scopes t := rfl
    rw [List.map_cons, visitTokens, visitTokens, ht]
    simp only [ih]

/-- Spans that are all closed are visited as their tags are. -/
theorem findings_scopeRemarks (schema : Schema.Index) (scopes : List Scope) {spans : List Span}
    {ts : List MarkupToken} (h : spans.map Span.content = ts.map .ok) :
    (scopeRemarks schema scopes spans).map Remark.finding = (visitTokens schema scopes ts).1 := by
  induction spans generalizing scopes ts with
  | nil =>
    obtain rfl := List.map_eq_nil_iff.mp h.symm
    rfl
  | cons span spans ih =>
    cases ts with
    | nil => cases h
    | cons t ts =>
      obtain ⟨hspan, hspans⟩ := List.cons.inj h
      have hvisit : visitSpan schema scopes span = visitToken schema scopes t := by
        rw [visitSpan, hspan]
      simp only [scopeRemarks, visitTokens, hvisit, List.map_append, List.map_map, ih _ hspans]
      simp [Function.comp_def]

/-- Tags lead from scopes to others, and what is not known in them is what is added. -/
structure Visits (schema : Schema.Index) (scopes after : List Scope) (ts : List MarkupToken)
    (add : List String → List String) : Prop where
  ends : (visitTokens schema scopes ts).2 = after
  adds : ∀ found s, s ∈ add found ↔ s ∈ found ∨ Misses (visitTokens schema scopes ts).1 s

namespace Visits

variable {schema : Schema.Index} {scopes between after : List Scope}

theorem nil (schema : Schema.Index) (scopes : List Scope) : Visits schema scopes scopes [] id :=
  ⟨rfl, fun found s => by simp [visitTokens]⟩

theorem single (ht : visitToken schema scopes t = (findings, after))
    (hadd : ∀ found s, s ∈ add found ↔ s ∈ found ∨ Misses findings s) :
    Visits schema scopes after [t] add := by
  have hrun : visitTokens schema scopes [t] = (findings, after) := by simp [visitTokens, ht]
  exact ⟨by rw [hrun], by rw [hrun]; exact hadd⟩

/-- A tag without an expression adds nothing. -/
theorem silent (ht : visitToken schema scopes t = ([], after)) :
    Visits schema scopes after [t] id :=
  single ht fun found s => by simp

theorem append (h : Visits schema scopes between ts first)
    (h' : Visits schema between after us rest) :
    Visits schema scopes after (ts ++ us) (rest ∘ first) := by
  have hrun : visitTokens schema scopes (ts ++ us) =
      ((visitTokens schema scopes ts).1 ++ (visitTokens schema between us).1,
        (visitTokens schema between us).2) := by
    rw [visitTokens_append, ← h.ends]
  refine ⟨by rw [hrun]; exact h'.ends, ?_⟩
  intro found s
  rw [Function.comp, h'.adds, h.adds, hrun, misses_append, or_assoc]

/-- A tag with an expression. -/
theorem expression {t : MarkupToken} (hk : Env.KnowsOnly locals ⟨schema, scopes⟩)
    (he : Expr.parse t.value = .ok e)
    (ht : visitToken schema scopes t = (expressionFindings ⟨schema, scopes⟩ t.value, after)) :
    Visits schema scopes after [t] (Template.addExpr locals e) := by
  refine single ht fun found s => ?_
  rw [expressionFindings, he]
  exact Env.mem_addExpr hk e found

theorem endTag {t : MarkupToken} (ht : t.kind = .endTag) :
    Visits schema (scope :: scopes) scopes [t] id :=
  .silent (by simp [visitToken, ht])

end Visits

end Validation

open Validation

/-- How the tags of a phrase are visited, whatever loops are around them. -/
def Phrase.Visited (schema : Schema.Index) (phrase : Phrase) (ts : List MarkupToken) : Prop :=
  ∀ {locals scopes}, Env.KnowsOnly locals ⟨schema, scopes⟩ →
    match phrase with
    | .node n => Visits schema scopes scopes ts (Template.addNode locals n)
    | .body nodes => Visits schema scopes scopes ts (Template.addBody locals nodes)
    | .branches found => Visits schema scopes ([] :: scopes) ts (Template.addBranches locals found)
    | .orElse otherwise => Visits schema scopes scopes ts (Template.addOtherwise locals otherwise)

theorem Phrase.Yields.visited (schema : Schema.Index) (h : Yields phrase ts) :
    phrase.Visited schema ts := by
  induction h with
  | text ht | pageBreak ht => exact fun _ => .silent (by simp [visitToken, ht])
  | value ht | fragment ht => exact fun hk => .expression hk ht.2 (by simp [visitToken, ht.1])
  | ifBlock _ _ hstop ihbranches ihelse =>
    intro locals scopes hk
    exact ((ihbranches hk).append (ihelse hk.openBlock)).append (.endTag hstop)
  | @unlessBlock _ _ _ _ _ t _ ht _ _ hstop ihbody ihelse =>
    intro locals scopes hk
    have hopen : Visits schema scopes ([] :: scopes) [t] _ :=
      .expression hk ht.2 (by simp [visitToken, ht.1])
    have hbody := hopen.append (ihbody hk.openBlock)
    exact (hbody.append (ihelse hk.openBlock)).append (.endTag hstop)
  | @forBlock _ _ header t _ ht _ hstop ihbody =>
    intro locals scopes hk
    let env : Env := ⟨schema, scopes⟩
    have ht : visitToken schema scopes t = ((env.infer header.collection).2,
        headerScope env header (env.infer header.collection).1 :: scopes) := by
      simp [visitToken, ht.1, ht.2, env]
    have hopen : Visits schema scopes _ [t] (Template.addExpr locals header.collection) :=
      .single ht fun found s => Env.mem_addExpr hk header.collection found
    exact (hopen.append (ihbody (hk.openLoop header _))).append (.endTag hstop)
  | nil => exact fun _ => .nil schema _
  | cons _ _ ihnode ihbody => exact fun hk => (ihnode hk).append (ihbody hk)
  | @ifTag _ _ _ t ht _ ihbody =>
    intro locals scopes hk
    have hopen : Visits schema scopes ([] :: scopes) [t] _ :=
      .expression hk ht.2 (by simp [visitToken, ht.1])
    exact hopen.append (ihbody hk.openBlock)
  | @elsifTag branches ts body us e t _ ht _ ihbranches ihbody =>
    intro locals scopes hk
    have htag : Visits schema ([] :: scopes) ([] :: scopes) [t] _ :=
      .expression hk.openBlock ht.2 (by simp [visitToken, ht.1])
    have hlast := (ihbranches hk).append (htag.append (ihbody hk.openBlock))
    have hadd := funext (Template.addBranches_append locals branches [(e, body)])
    show Visits schema scopes ([] :: scopes) _ (Template.addBranches locals _)
    rw [hadd]
    exact hlast
  | noElse => exact fun _ => .nil schema _
  | @elseTag _ _ t ht _ ihbody =>
    intro locals scopes hk
    have helse : Visits schema scopes scopes [t] id := .silent (by simp [visitToken, ht])
    exact helse.append (ihbody hk)

/-- No other finding is told in these words. -/
theorem Validation.Finding.message_eq_unknownField {f : Finding} :
    f.message = s!"Unknown field '{path}'" ↔ ∃ names, f = .unknownField path names := by
  constructor
  · intro h
    have hc := congrArg String.toList h
    simp only [String.toList_append, toString] at hc
    cases f with
    | unknownField p names =>
      unfold Finding.message at hc
      simp only [String.toList_append, toString, List.append_left_inj, List.append_right_inj,
        String.toList_inj] at hc
      exact ⟨names, by rw [hc]⟩
    | malformed fault => cases fault <;> cases hc
    | elsifAfterElse | elsifOutside | elseOutside | endOutside => cases hc
    | unparsable | textAfter | secondElse | missingEnd | unknownFunction | argumentCount
    | argumentKind =>
      unfold Finding.message at hc
      simp only [String.toList_append, toString] at hc
      cases hc
  · rintro ⟨names, rfl⟩
    rfl

/-- The paths that a template lists are those that a schema without fields does not know in the
spans of its text. -/
theorem Template.mem_references_iff_misses {s : String} {t : Template}
    (h : Template.parse s = .ok t)
    (functions : List FunctionDef) (part : String) (ordinal : Nat) (p : Paragraph)
    (hp : p.text = s.toList) :
    path ∈ t.references ↔ Misses
      ((schemaRemarks ⟨[], functions⟩ (Span.ofParagraph part ordinal p)).map Remark.finding)
      path := by
  obtain rfl : String.ofList p.text = s := by rw [hp, String.ofList_toList]
  obtain ⟨_, ts, hts, hbody⟩ := Template.parse_eq_ok.mp h
  obtain ⟨found, hf, hu⟩ := Span.exists_contents part ordinal p hts
  let schema := Schema.index ⟨[], functions⟩
  have hvisit : visitTokens schema [] found = visitTokens schema [] ts := by
    rw [← visitTokens_unplaced, ← hu, visitTokens_unplaced, visitTokens_filter]
  have hknows : Env.KnowsOnly [] ⟨schema, []⟩ :=
    ⟨Schema.resolve?_of_no_fields functions, by simp, rfl⟩
  have hadds := ((Body.ofTokens_eq_ok.mp hbody).visited schema hknows).adds [] path
  rw [schemaRemarks, findings_scopeRemarks _ _ hf, hvisit]
  simpa [Template.references] using hadds

/-- An expression mentions the paths that a template lists for it, in the same order. The paths that
are unknown in the spans of a template, to a schema without fields, are those that the template
lists. -/
theorem Validation.referenced_paths_agree :
    (∀ e found, mentionedPaths (mentions e found) = Template.addExpr [] e (mentionedPaths found)) ∧
    ∀ (s : String) (t : Template) (part : String) (ordinal : Nat) (p : Paragraph),
      Template.parse s = .ok t → p.text = s.toList →
      ∀ (functions : List FunctionDef) (strict : Bool) (path : String),
        (∃ issue ∈ schemaIssues ⟨[], functions⟩ strict (Span.ofParagraph part ordinal p),
          issue.message = s!"Unknown field '{path}'") ↔ path ∈ t.references := by
  refine ⟨mentionedPaths_mentions, ?_⟩
  intro s t part ordinal p h hp functions strict path
  rw [Template.mem_references_iff_misses h functions part ordinal p hp]
  constructor
  · rintro ⟨issue, hi, hm⟩
    obtain ⟨remark, hr, rfl⟩ := List.mem_map.mp hi
    obtain ⟨names, hf⟩ := Finding.message_eq_unknownField.mp hm
    exact ⟨names, List.mem_map.mpr ⟨remark, hr, hf⟩⟩
  · rintro ⟨names, hf⟩
    obtain ⟨remark, hr, hf⟩ := List.mem_map.mp hf
    refine ⟨remark.issue (if strict then .error else .warning), List.mem_map_of_mem hr, ?_⟩
    exact Finding.message_eq_unknownField.mpr ⟨names, hf⟩

/-- An index is read outside the loop that its object is a variable of. -/
theorem Validation.referenced_paths_agree_of_loop :
    let source := "\x7b\x7bfor x in xs\x7d\x7d\x7b\x7bx[y]\x7d\x7d\x7b\x7bend\x7d\x7d"
    let t : Template :=
      ⟨source, [.forBlock ⟨none, "x", .var "xs"⟩ [.value (.index (.var "x") (.var "y"))]]⟩
    Template.parse source = .ok t ∧ t.references = ["xs", "y"] ∧
      ∃ issue ∈ schemaIssues ⟨[], []⟩ true
        (Span.ofParagraph Document.mainPart 0 ⟨0, [⟨0, source.toList⟩]⟩),
        issue.message = "Unknown field 'y'" := by
  intro source t
  have hx : Expr.IsReference "x" :=
    ⟨isName_of_all (show "x".toList = ['x'] from rfl) rfl rfl, rfl⟩
  have hy : Expr.IsReference "y" :=
    ⟨isName_of_all (show "y".toList = ['y'] from rfl) rfl rfl, rfl⟩
  have hxs : Expr.IsReference "xs" :=
    ⟨isName_of_all (show "xs".toList = ['x', 's'] from rfl) rfl rfl, rfl⟩
  have hheader : LoopHeader.parse "x in xs" = .ok ⟨none, "x", .var "xs"⟩ := by
    have hdisplay : LoopHeader.display ⟨none, "x", .var "xs"⟩ = "x in xs" := by decide +kernel
    have hfree : Parser.isReserved "x" = false := rfl
    rw [← hdisplay]
    exact LoopHeader.parse_display_of_written ⟨by simpa [LoopHeader.variableTokens] using hx.1,
      by simpa [LoopHeader.AreVariables, LoopHeader.variableTokens] using hfree, hxs⟩
  have hvalue : Expr.parse "x[y]" = .ok (.index (.var "x") (.var "y")) := by
    have hdisplay : Expr.display (.index (.var "x") (.var "y")) = "x[y]" := by decide +kernel
    rw [← hdisplay]
    exact Expr.parse_display_of_written ⟨hx, hy⟩
  have hts : Markup.tokens source =
      .ok [⟨.forTag, "x in xs", 6⟩, ⟨.value, "x[y]", 17⟩, ⟨.endTag, "", 28⟩] := by decide +kernel
  have hp : Template.parse source = .ok t := by
    refine Template.parse_eq_ok.mpr ⟨rfl, _, hts, ?_⟩
    simp only [Builder.ofTokens_eq_run, Builder.run, Builder.step, Body.loopHeader,
      Body.expression, hheader, hvalue, mapError_ok, ok_bind]
    rfl
  have hr : t.references = ["xs", "y"] := by decide +kernel
  refine ⟨hp, hr, ?_⟩
  have hiff := referenced_paths_agree.2 source t Document.mainPart 0 ⟨0, [⟨0, source.toList⟩]⟩ hp
    (by decide +kernel) [] true "y"
  have hy : "y" ∈ t.references := by rw [hr]; decide
  exact hiff.mpr hy

end FormLetter
