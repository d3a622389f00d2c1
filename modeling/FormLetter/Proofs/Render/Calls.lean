import FormLetter.Functions
import FormLetter.Proofs.Render.Completion
import FormLetter.Proofs.Validation.Calls

namespace FormLetter

open Document (Paragraph)
open Outcome

/-- What the steps of pieces can do: they miss a function only if a piece calls it, and include a
fragment only if a piece is an include tag. -/
def Step.Within (functions : Functions) (ps : List Piece) : Step → Prop
  | .fail (.unknownFunction name) => functions name = none ∧ ∃ p ∈ ps, name ∈ p.calls
  | .fragment .. => ∃ p ∈ ps, p.kind = .includeTag
  | _ => True

variable {functions : Functions} {ps : List Piece}

theorem within_valueSteps {p : Piece} {steps : Value → List Step} (hp : p ∈ ps)
    (he : e.calls ⊆ p.calls) (hs : ∀ v, ∀ step ∈ steps v, step.Within functions ps) :
    ∀ step ∈ valueSteps functions data e steps, step.Within functions ps := by
  intro step hm
  unfold valueSteps at hm
  split at hm
  · exact hs _ step hm
  · rename_i error hv
    obtain rfl := List.mem_singleton.mp hm
    cases error with
    | unknownFunction name =>
      obtain ⟨hn, hf⟩ := Expr.mem_calls_of_eval e hv
      exact ⟨hf, p, hp, he hn⟩
    | _ => trivial

theorem within_fragmentSteps {p : Piece} (hp : p ∈ ps) (hk : p.kind = .includeTag)
    (data : Context) (v : Value) :
    ∀ step ∈ fragmentSteps data v, step.Within functions ps := by
  intro step hm
  cases v with
  | string name =>
    obtain rfl := List.mem_singleton.mp hm
    exact ⟨p, hp, hk⟩
  | _ =>
    obtain rfl := List.mem_singleton.mp hm
    trivial

theorem exists_round {round : Nat → Value → List Step} (h : step ∈ roundSteps round n items) :
    ∃ m item, step ∈ round m item := by
  induction items generalizing n with
  | nil => cases h
  | cons item items ih =>
    rcases List.mem_append.mp h with h | h
    · exact ⟨n, item, h⟩
    · exact ih h

mutual
theorem within_node (data : Context) : (node : Node) → node.pieces ⊆ ps →
    ∀ step ∈ node.steps functions data, step.Within functions ps
  | .text _, _ | .pageBreak, _ => by
    intro step hm
    obtain rfl := List.mem_singleton.mp hm
    trivial
  | .value e, hp => by
    refine within_valueSteps (p := ⟨.value, .expression e⟩) (hp (by simp [Node.pieces]))
      (List.Subset.refl _) fun v step hm => ?_
    obtain rfl := List.mem_singleton.mp hm
    trivial
  | .ifBlock branches otherwise, hp =>
    within_branches data branches .ifTag (fun p hm => hp (by simp [Node.pieces, hm]))
      (within_otherwise data otherwise fun p hm => hp (by simp [Node.pieces, hm]))
  | .unlessBlock condition body otherwise, hp => by
    have hb := within_body data body fun p hm => hp (by simp [Node.pieces, hm])
    have ho := within_otherwise data otherwise fun p hm => hp (by simp [Node.pieces, hm])
    refine within_valueSteps (p := ⟨.unlessTag, .expression condition⟩)
      (hp (by simp [Node.pieces])) (List.Subset.refl _) fun v => ?_
    split
    · exact ho
    · exact hb
  | .forBlock header body, hp => by
    have hb (data : Context) := within_body data body fun p hm => hp (by simp [Node.pieces, hm])
    refine within_valueSteps (p := ⟨.forTag, .header header⟩) (hp (by simp [Node.pieces]))
      (List.Subset.refl _) fun v step hm => ?_
    split at hm
    · obtain ⟨n, item, hm⟩ := exists_round hm
      exact hb _ step hm
    · obtain rfl := List.mem_singleton.mp hm
      trivial
  | .includeTag name, hp => by
    have hmem : ⟨.includeTag, .expression name⟩ ∈ ps := hp (by simp [Node.pieces])
    exact within_valueSteps hmem (List.Subset.refl _) (within_fragmentSteps hmem rfl data)
termination_by structural node => node

theorem within_body (data : Context) : (body : List Node) → bodyPieces body ⊆ ps →
    ∀ step ∈ bodySteps functions data body, step.Within functions ps
  | [], _ => by simp [bodySteps]
  | node :: nodes, hp => by
    intro step hm
    rcases List.mem_append.mp hm with hm | hm
    · exact within_node data node (fun p hm => hp (by simp [bodyPieces, hm])) step hm
    · exact within_body data nodes (fun p hm => hp (by simp [bodyPieces, hm])) step hm
termination_by structural body => body

theorem within_branches (data : Context) {otherwise : List Step} :
    (branches : List (Expr × List Node)) → (kind : MarkupKind) →
    branchPieces kind branches ⊆ ps → (∀ step ∈ otherwise, step.Within functions ps) →
    ∀ step ∈ branchSteps functions data otherwise branches, step.Within functions ps
  | [], _, _, ho => ho
  | (condition, body) :: branches, kind, hp, ho => by
    have hb := within_body data body fun p hm => hp (by simp [branchPieces, hm])
    have hr := within_branches data branches .elsifTag
      (fun p hm => hp (by simp [branchPieces, hm])) ho
    refine within_valueSteps (p := ⟨kind, .expression condition⟩) (hp (by simp [branchPieces]))
      (List.Subset.refl _) fun v => ?_
    split
    · exact hb
    · exact hr
termination_by structural branches => branches

theorem within_otherwise (data : Context) : (otherwise : Option (List Node)) →
    otherwisePieces otherwise ⊆ ps →
    ∀ step ∈ otherwiseSteps functions data otherwise, step.Within functions ps
  | none, _ => by simp [otherwiseSteps]
  | some body, hp => within_body data body fun p hm => hp (by simp [otherwisePieces, hm])
termination_by structural otherwise => otherwise
end

namespace Engine

/-- Where nothing is included, an evaluation error is that of a step. -/
theorem mem_of_performAll_error {includes : String → Context → Render Output}
    (hi : ∀ name data, .fragment name data ∉ steps)
    (h : ((performAll includes steps).run s).1 = .error (.evaluation error)) :
    .fail error ∈ steps := by
  induction steps generalizing s with
  | nil => cases h
  | cons step steps ih =>
    have hrest : ∀ name data, .fragment name data ∉ steps :=
      fun name data hm => hi name data (List.mem_cons_of_mem step hm)
    have hlater {output : Output} {after : RenderState}
        (h : ((performAll includes steps).run after).1.map (output ++ ·) =
          .error (.evaluation error)) : .fail error ∈ step :: steps :=
      List.mem_cons_of_mem step (ih hrest (map_eq_error.mp h))
    rw [run_cons] at h
    cases step with
    | text | pageBreak => exact hlater h
    | fragment name data => exact absurd List.mem_cons_self (hi name data)
    | fail found =>
      cases h
      exact List.mem_cons_self

end Engine

namespace Template

/-- A template without include tags does not fail for a missing function, whatever the data, if its
validation raises no issue of an unknown one and the functions of the schema are there. -/
theorem renderIn_ne_unknownFunction {source : String} (hp : Template.parse source = .ok t)
    (hts : Markup.tokens source = .ok ts) (hi : ∀ token ∈ ts, token.kind ≠ .includeTag)
    (part : String) (ordinal : Nat) (p : Paragraph) (htext : p.text = source.toList)
    (schema : Schema) (strict : Bool)
    (hv : ∀ issue ∈ Validation.schemaIssues schema strict (Span.ofParagraph part ordinal p),
      issue.code ≠ .unknownFunction)
    (engine : Engine) (hf : ∀ f ∈ schema.functions, (engine.functions f.name).isSome)
    (state : RenderState) (data : Context) (name : String) :
    (engine.renderIn state data t).1 ≠ .error (.evaluation (.unknownFunction name)) := by
  intro h
  have hwithin : ∀ step ∈ bodySteps engine.functions data t.body,
      step.Within engine.functions (bodyPieces t.body) :=
    within_body data t.body (List.Subset.refl _)
  have hinclude : ∀ included inside,
      .fragment included inside ∉ bodySteps engine.functions data t.body := by
    intro included inside hm
    obtain ⟨q, hq, hk⟩ := hwithin _ hm
    obtain ⟨_, token, htoken, hkind⟩ := exists_token_of_piece hp hts hq
    exact hi token htoken (hkind.symm.trans hk)
  have hfail : .fail (.unknownFunction name) ∈ bodySteps engine.functions data t.body := by
    have herror : ((engine.renderBody data t.body).run state).1 =
        .error (.evaluation (.unknownFunction name)) := map_eq_error.mp h
    rw [Engine.renderBody_run] at herror
    exact Engine.mem_of_performAll_error hinclude herror
  obtain ⟨hmissing, q, hq, hn⟩ := hwithin _ hfail
  obtain rfl : String.ofList p.text = source := by rw [htext, String.ofList_toList]
  obtain ⟨f, hmem, rfl⟩ := exists_function_of_call part ordinal p hp schema strict hv hq hn
  have hknown := hf f hmem
  rw [hmissing] at hknown
  cases hknown

/-- A call in the index of a path. -/
theorem renderIn_ne_unknownFunction_index :
    let source := "\x7b\x7bxs[first(0)]\x7d\x7d"
    let p : Paragraph := ⟨0, [⟨0, source.toList⟩]⟩
    let schema : Schema := ⟨[⟨"xs", .array, false, none⟩], [⟨"first", 1, -1, [], .any⟩]⟩
    let engine : Engine := ⟨Fragments.none, Functions.basic, defaultMaxDepth⟩
    let t : Template := ⟨source, [.value (.index (.var "xs") (.call "first" [.literal (.int 0)]))]⟩
    Template.parse source = .ok t ∧
      (∀ issue ∈ Validation.schemaIssues schema true (Span.ofParagraph Document.mainPart 0 p),
        issue.code ≠ .unknownFunction) ∧
      (∀ f ∈ schema.functions, (engine.functions f.name).isSome) ∧
      (engine.renderIn .fresh [("xs", .array [.int 7])] t).1 ≠
        .error (.evaluation (.unknownFunction "first")) := by
  intro source p schema engine t
  let e : Expr := .index (.var "xs") (.call "first" [.literal (.int 0)])
  have hxs : Expr.IsReference "xs" :=
    ⟨isName_of_all (show "xs".toList = ['x', 's'] from rfl) rfl rfl, rfl⟩
  have hfirst : Expr.IsReference "first" :=
    ⟨isName_of_all (show "first".toList = ['f', 'i', 'r', 's', 't'] from rfl) rfl rfl, rfl⟩
  have hzero : Expr.IsLiteral (.int 0) := show 0 ≤ (0 : Int64).toInt by decide
  have hwritten : e.Written := ⟨hxs, hfirst, hzero, trivial⟩
  have hdisplay : e.display = "xs[first(0)]" := by decide +kernel
  have hexpr : Expr.parse "xs[first(0)]" = .ok e := by
    rw [← hdisplay]
    exact Expr.parse_display_of_written hwritten
  have hts : Markup.tokens source = .ok [⟨.value, "xs[first(0)]", 2⟩] := by decide +kernel
  have hp : Template.parse source = .ok t := by
    refine parse_eq_ok.mpr ⟨rfl, _, hts, ?_⟩
    simp only [Builder.ofTokens_eq_run, Builder.run, Builder.step, Body.expression, hexpr,
      mapError_ok, ok_bind]
    rfl
  have hcontents : (Span.ofParagraph Document.mainPart 0 p).map Span.content =
      [.ok ⟨.value, "xs[first(0)]", 0⟩] := by decide +kernel
  obtain ⟨span, _, hspans, hc, hnil⟩ := List.map_eq_cons_iff.mp hcontents
  obtain rfl := List.map_eq_nil_iff.mp hnil
  have hfindings : ((Validation.Env.infer ⟨schema.index, []⟩ e).2) = [] := by decide +kernel
  have hv : ∀ issue ∈ Validation.schemaIssues schema true (Span.ofParagraph Document.mainPart 0 p),
      issue.code ≠ .unknownFunction := by
    simp [Validation.schemaIssues, Validation.schemaRemarks, hspans, Validation.scopeRemarks,
      Validation.visitSpan, hc, Validation.visitToken, Validation.expressionFindings, hexpr,
      hfindings]
  have hf : ∀ f ∈ schema.functions, (engine.functions f.name).isSome := by
    simp [schema, engine, Functions.basic]
  have htext : p.text = source.toList := by decide +kernel
  exact ⟨hp, hv, hf, renderIn_ne_unknownFunction hp hts (by decide) Document.mainPart 0 p htext
    schema true hv engine hf .fresh _ _⟩

end Template

end FormLetter
