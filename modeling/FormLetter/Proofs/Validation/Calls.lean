import FormLetter.Proofs.Document.Fragments
import FormLetter.Proofs.Expr.Calls
import FormLetter.Proofs.Template.Written
import FormLetter.Validation

namespace FormLetter

open Document (Paragraph)
open Outcome

namespace Schema

theorem functions_addFields (fields : List FieldDef) (index : Index) :
    (fields.foldl Index.addField index).functions = index.functions := by
  induction fields generalizing index with
  | nil => rfl
  | cons f fields ih => exact ih (index.addField f)

theorem exists_of_addFunctions {functions : List FunctionDef} {index : Index}
    (h : ((functions.foldl Index.addFunction index).functions.get? name).isSome) :
    (∃ f ∈ functions, f.name = name) ∨ (index.functions.get? name).isSome := by
  induction functions generalizing index with
  | nil => exact .inr h
  | cons f functions ih =>
    rcases ih h with ⟨g, hg, hname⟩ | h
    · exact .inl ⟨g, List.mem_cons_of_mem f hg, hname⟩
    · by_cases hf : f.name = name
      · exact .inl ⟨f, List.mem_cons_self, hf⟩
      · rw [Index.addFunction, Dict.get?_insert, if_neg (Ne.symm hf)] at h
        exact .inr h

/-- The functions that are found in a schema are those that it lists. -/
theorem exists_function {schema : Schema} (h : (schema.index.functions.get? name).isSome) :
    ∃ f ∈ schema.functions, f.name = name := by
  rcases exists_of_addFunctions h with hf | hf
  · exact hf
  · rw [functions_addFields] at hf
    cases hf

end Schema

namespace Validation

/-- A function is in a schema or is found not to be. -/
def Settles (schema : Schema.Index) (found : List Finding) (name : String) : Prop :=
  (schema.functions.get? name).isSome ∨ ∃ f ∈ found, f.code = .unknownFunction

theorem Settles.mono (h : Settles schema found name) (hf : found ⊆ more) :
    Settles schema more name := by
  rcases h with h | ⟨f, hm, hc⟩
  · exact .inl h
  · exact .inr ⟨f, hf hm, hc⟩

theorem Settles.append_left (h : Settles schema found name) (more : List Finding) :
    Settles schema (found ++ more) name :=
  h.mono (List.subset_append_left found more)

theorem Settles.append_right (h : Settles schema more name) (found : List Finding) :
    Settles schema (found ++ more) name :=
  h.mono (List.subset_append_right found more)

namespace Env

theorem settles_call (env : Env) (name : String) (types : List TypeInfo) :
    Settles env.schema (env.call name types).2 name := by
  cases hf : env.schema.functions.get? name with
  | some f => exact .inl (by rw [hf]; rfl)
  | none =>
    refine .inr ⟨.unknownFunction name (suggestions name env.schema.functions.names), ?_, rfl⟩
    simp [call, hf]

mutual
/-- Every call in an expression is settled, also those in the indexes of a path. -/
theorem settles_infer (env : Env) : (e : Expr) → name ∈ e.calls →
    Settles env.schema (env.infer e).2 name
  | .literal _, h | .var _, h => nomatch h
  | .field object field, h => by
    rw [infer]
    split
    · rename_i path hp
      obtain ⟨inner, hi, _⟩ := Option.map_eq_some_iff.mp hp
      exact (settles_keyFindings env object hi h).append_left _
    · exact settles_infer env object h
  | .index object key, h => by
    rw [infer]
    split
    · rename_i path hp
      obtain ⟨inner, hi, _⟩ := Option.map_eq_some_iff.mp hp
      rcases List.mem_append.mp h with h | h
      · exact ((settles_keyFindings env object hi h).append_left _).append_left _
      · exact ((settles_infer env key h).append_right _).append_left _
    · rcases List.mem_append.mp h with h | h
      · exact (settles_infer env object h).append_left _
      · exact (settles_infer env key h).append_right _
  | .unary _ operand, h => settles_infer env operand h
  | .binary _ left right, h => by
    rw [infer]
    rcases List.mem_append.mp h with h | h
    · exact (settles_infer env left h).append_left _
    · exact (settles_infer env right h).append_right _
  | .call function args, h => by
    rw [infer]
    rcases List.mem_cons.mp h with rfl | h
    · exact (settles_call env name _).append_right _
    · exact (settles_inferAll env args h).append_left _
termination_by structural e => e

/-- Along a path calls stand in the indexes only. -/
theorem settles_keyFindings (env : Env) : (e : Expr) → e.path? = some path → name ∈ e.calls →
    Settles env.schema (env.keyFindings e) name
  | .var _, _, h => nomatch h
  | .field object _, hp, h => by
    obtain ⟨inner, hi, _⟩ := Option.map_eq_some_iff.mp hp
    exact settles_keyFindings env object hi h
  | .index object key, hp, h => by
    obtain ⟨inner, hi, _⟩ := Option.map_eq_some_iff.mp hp
    rcases List.mem_append.mp h with h | h
    · exact (settles_keyFindings env object hi h).append_left _
    · exact (settles_infer env key h).append_right _
  | .literal _, hp, _ | .unary _ _, hp, _ | .binary _ _ _, hp, _ | .call _ _, hp, _ => nomatch hp
termination_by structural e => e

theorem settles_inferAll (env : Env) : (es : List Expr) → name ∈ Expr.argCalls es →
    Settles env.schema (env.inferAll es).2 name
  | [], h => nomatch h
  | e :: es, h => by
    rw [inferAll]
    rcases List.mem_append.mp h with h | h
    · exact (settles_infer env e h).append_left _
    · exact (settles_inferAll env es h).append_right _
termination_by structural es => es
end

end Env

end Validation

/-- The functions that a piece of a template calls. -/
def Piece.calls (p : Piece) : List String :=
  match p.reading with
  | .expression e => e.calls
  | .header h => h.collection.calls
  | .nothing | .content _ => []

namespace Validation

/-- A visit settles the calls of a tag, whatever the scopes. -/
theorem settles_visitToken (h : MarkupToken.read t = .ok p) (hn : name ∈ p.calls)
    (schema : Schema.Index) (scopes : List Scope) :
    Settles schema (visitToken schema scopes t).1 name := by
  cases hk : t.kind with
  | text | elseTag | endTag | pageBreak =>
    simp only [MarkupToken.read, hk] at h
    cases h
    cases hn
  | value | includeTag | elsifTag | ifTag | unlessTag =>
    simp only [MarkupToken.read, hk] at h
    obtain ⟨e, he, rfl⟩ := map_eq_ok.mp h
    simp only [visitToken, hk, expressionFindings, Body.expression_eq_ok.mp he]
    exact Env.settles_infer ⟨schema, scopes⟩ e hn
  | forTag =>
    simp only [MarkupToken.read, hk] at h
    obtain ⟨header, hh, rfl⟩ := map_eq_ok.mp h
    simp only [visitToken, hk, Body.loopHeader_eq_ok.mp hh]
    exact Env.settles_infer ⟨schema, scopes⟩ header.collection hn

/-- Every span is visited, with the scopes that the spans before it have left. -/
theorem exists_visit (schema : Schema.Index) (scopes : List Scope) (h : span ∈ spans) :
    ∃ within,
      ∀ f ∈ (visitSpan schema within span).1, ⟨span, f⟩ ∈ scopeRemarks schema scopes spans := by
  induction spans generalizing scopes with
  | nil => cases h
  | cons first spans ih =>
    rcases List.mem_cons.mp h with rfl | h
    · exact ⟨scopes, fun f hf => List.mem_append_left _ (List.mem_map_of_mem hf)⟩
    · obtain ⟨within, hw⟩ := ih (visitSpan schema scopes first).2 h
      exact ⟨within, fun f hf => List.mem_append_right _ (hw f hf)⟩

end Validation

theorem MarkupToken.isTag_of_calls (h : read t = .ok p) (hn : name ∈ p.calls) : t.isTag = true := by
  cases hk : t.kind with
  | text =>
    simp only [read, hk] at h
    cases h
    cases hn
  | _ =>
    rw [isTag, hk]
    rfl

/-- Every piece of a template with calls in it is read from a span of its source. -/
theorem Template.exists_span_of_piece (part : String) (ordinal : Nat) (p : Paragraph)
    (h : Template.parse (String.ofList p.text) = .ok t) (hq : q ∈ bodyPieces t.body)
    (hn : name ∈ q.calls) : ∃ span ∈ Span.ofParagraph part ordinal p, ∃ token,
      span.content = .ok token ∧ token.read = .ok q := by
  obtain ⟨_, ts, hts, _⟩ := Template.parse_eq_ok.mp h
  obtain ⟨found, hf, hu⟩ := Span.exists_contents part ordinal p hts
  obtain ⟨source, hsource, hr⟩ := exists_token_read h hts hq
  -- The tokens of a text and of its spans differ in where they say that they stand.
  have hplace : source.unplaced ∈ found.map MarkupToken.unplaced := by
    rw [← hu]
    exact List.mem_map_of_mem (List.mem_filter.mpr ⟨hsource, MarkupToken.isTag_of_calls hr hn⟩)
  obtain ⟨token, htoken, heq⟩ := List.mem_map.mp hplace
  have hread : token.read = .ok q := by
    rw [← MarkupToken.read_unplaced, heq, MarkupToken.read_unplaced]
    exact hr
  have hcontent : .ok token ∈ (Span.ofParagraph part ordinal p).map Span.content := by
    rw [hf]
    exact List.mem_map_of_mem htoken
  obtain ⟨span, hspan, hc⟩ := List.mem_map.mp hcontent
  exact ⟨span, hspan, token, hc, hread⟩

/-- The functions that a template calls are in the schema if there is no issue of an unknown one. -/
theorem Template.exists_function_of_call (part : String) (ordinal : Nat) (p : Paragraph)
    (h : Template.parse (String.ofList p.text) = .ok t) (schema : Schema) (strict : Bool)
    (hv : ∀ issue ∈ Validation.schemaIssues schema strict (Span.ofParagraph part ordinal p),
      issue.code ≠ .unknownFunction)
    (hq : q ∈ bodyPieces t.body) (hn : name ∈ q.calls) : ∃ f ∈ schema.functions, f.name = name := by
  obtain ⟨span, hspan, token, hc, hr⟩ := exists_span_of_piece part ordinal p h hq hn
  obtain ⟨within, hw⟩ := Validation.exists_visit schema.index [] hspan
  rcases Validation.settles_visitToken hr hn schema.index within with hs | ⟨f, hf, hcode⟩
  · exact Schema.exists_function hs
  · have hremark : ⟨span, f⟩ ∈ Validation.schemaRemarks schema (Span.ofParagraph part ordinal p) :=
      hw f (by simpa only [Validation.visitSpan, hc] using hf)
    exact absurd hcode (hv _ (List.mem_map_of_mem hremark))

end FormLetter
