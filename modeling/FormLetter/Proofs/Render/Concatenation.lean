import FormLetter.Proofs.Render.Completion
import FormLetter.Proofs.Render.Rounds
import FormLetter.Proofs.Template.Concatenation

namespace FormLetter

open Outcome

theorem Output.toString_append (first rest : Output) :
    Output.toString (first ++ rest) = first.toString ++ rest.toString := by
  rw [toString, List.flatMap_append, String.ofList_append]
  rfl

namespace Engine

/-- A rendering, and another one in the state that it leaves. Their output is put together. -/
def andThen (first : Except RenderError String × RenderState)
    (second : RenderState → Except RenderError String × RenderState) :
    Except RenderError String × RenderState :=
  match first with
  | (.ok output, s) => ((second s).1.map (output ++ ·), (second s).2)
  | (.error error, s) => (.error error, s)

theorem andThen_congr {first : Except RenderError String × RenderState}
    {second second' : RenderState → Except RenderError String × RenderState}
    (h : second first.2 = second' first.2) : andThen first second = andThen first second' := by
  obtain ⟨_ | _, _⟩ := first
  · rfl
  · rw [andThen, andThen, h]

section

variable (includes : String → Context → Render Output)

/-- The text that steps put out. -/
def printed (steps : List Step) (s : RenderState) : Except RenderError String × RenderState :=
  let r := (performAll includes steps).run s
  (r.1.map Output.toString, r.2)

theorem printed_append (first rest : List Step) (s : RenderState) :
    printed includes (first ++ rest) s =
      andThen (printed includes first s) (printed includes rest) := by
  unfold printed
  rw [run_append]
  obtain ⟨result, after⟩ := (performAll includes first).run s
  cases result with
  | error error => rfl
  | ok output =>
    dsimp only [Except.map, andThen]
    cases ((performAll includes rest).run after).1 with
    | error error => rfl
    | ok more =>
      dsimp only
      rw [Output.toString_append]

/-- Steps that put out the same text can stand for each other. -/
theorem printed_replace (h : printed includes steps = printed includes steps')
    (before after : List Step) :
    printed includes (before ++ steps ++ after) = printed includes (before ++ steps' ++ after) := by
  funext s
  rw [printed_append, printed_append, printed_append, printed_append, h]

/-- Text that is put out in two pieces is the text of both. -/
theorem printed_text (a b : String) :
    printed includes [.text (a ++ b)] = printed includes [.text a, .text b] := by
  funext s
  have htext : Output.toString [.text (a ++ b)] = Output.toString [.text a, .text b] := by
    simp [Output.toString, OutputPiece.chars]
  exact congrArg (fun text => (Except.ok text, s)) htext

/-- Bodies in a row put out the text of the one and then that of the other. -/
theorem printed_join (functions : Functions) (data : Context) (body rest : Body)
    (s : RenderState) :
    printed includes (bodySteps functions data (body.join rest)) s =
      andThen (printed includes (bodySteps functions data body) s)
        (printed includes (bodySteps functions data rest)) := by
  rw [← printed_append, ← bodySteps_append]
  rcases List.eq_nil_or_concat body with rfl | ⟨nodes, m, rfl⟩
  · rfl
  rw [List.concat_eq_append]
  cases rest with
  | nil => simp [Body.join]
  | cons n rest =>
    cases hmerge : m.merge? n with
    | none => rw [Body.join, joinWith_concat_of_none hmerge]
    | some both =>
      obtain ⟨a, b, rfl, rfl, rfl⟩ := Node.merge?_eq_some hmerge
      have htext := printed_replace includes (printed_text includes a b)
        (bodySteps functions data nodes) (bodySteps functions data rest)
      rw [Body.join, joinWith_concat hmerge]
      simpa [bodySteps_append, bodySteps, Node.steps] using congrFun htext s

end

theorem renderIn_eq_printed (engine : Engine) (s : RenderState) (data : Context)
    (template : Template) :
    engine.renderIn s data template =
      printed (engine.enter (engine.maxDepth - s.depth))
        (bodySteps engine.functions data template.body) s := by
  rw [printed, ← renderBody_run]
  rfl

/-- As many fragments may be open in the second rendering as in the first. -/
theorem renderIn_join (engine : Engine) (s : RenderState) (data : Context)
    (first second both : Template) (h : both.body = first.body.join second.body) :
    engine.renderIn s data both =
      andThen (engine.renderIn s data first) fun s => engine.renderIn s data second := by
  rw [renderIn_eq_printed, h, printed_join, ← renderIn_eq_printed]
  apply andThen_congr
  have hdepth : (engine.renderIn s data first).2.depth = s.depth :=
    congrArg List.length (engine.renderIn_stack s data first)
  rw [renderIn_eq_printed _ _ _ second, hdepth]

end Engine

/-- Two sources that can be read can be read together, as the two bodies in a row, unless an opening
delimiter arises between them. To render both together is to render the one and then, in the state
that it leaves, the other: the output is put together, and the first error is the error of both. -/
theorem Template.parse_and_renderIn_append {first second : Template}
    (hfirst : parse s = .ok first) (hsecond : parse s' = .ok second) (hseam : ¬Splits s s') :
    ∃ both, parse (s ++ s') = .ok both ∧ both.body = first.body.join second.body ∧
      ∀ (engine : Engine) (state : RenderState) (data : Context),
        engine.renderIn state data both =
          Engine.andThen (engine.renderIn state data first) fun state =>
            engine.renderIn state data second := by
  refine ⟨_, parse_append hfirst hsecond hseam, rfl, ?_⟩
  intro engine state data
  exact engine.renderIn_join state data first second _ rfl

/-- The text on both sides of the seam is one node. -/
theorem Template.parse_and_renderIn_append_text :
    let s := "\x7b\x7bvalue\x7d\x7da\x7b"
    let s' := "b\x7b\x7bpageBreak\x7d\x7d"
    ∃ first second both, parse s = .ok first ∧ parse s' = .ok second ∧
      parse (s ++ s') = .ok both ∧ both.body = [.value (.var "value"), .text "a\x7bb", .pageBreak] ∧
      ∀ (engine : Engine) (state : RenderState) (data : Context),
        engine.renderIn state data both =
          Engine.andThen (engine.renderIn state data first) fun state =>
            engine.renderIn state data second := by
  intro s s'
  have hvalue : Expr.IsReference "value" :=
    ⟨isName_of_all (show "value".toList = ['v', 'a', 'l', 'u', 'e'] from rfl) rfl rfl, rfl⟩
  have hts : Markup.tokens s = .ok [⟨.value, "value", 2⟩, ⟨.text, "a\x7b", 9⟩] := by
    decide +kernel
  have hus : Markup.tokens s' = .ok [⟨.text, "b", 0⟩, ⟨.pageBreak, "", 12⟩] := by decide +kernel
  have hfirst : parse s = .ok ⟨s, [.value (.var "value"), .text "a\x7b"]⟩ := by
    refine parse_eq_ok.mpr ⟨rfl, _, hts, ?_⟩
    simp only [Builder.ofTokens_eq_run, Builder.run, Builder.step, Body.expression,
      Expr.parse_of_isReference hvalue, mapError_ok, ok_bind]
    rfl
  have hsecond : parse s' = .ok ⟨s', [.text "b", .pageBreak]⟩ := by
    refine parse_eq_ok.mpr ⟨rfl, _, hus, ?_⟩
    simp only [Builder.ofTokens_eq_run, Builder.run, Builder.step]
    rfl
  have hseam : ¬Splits s s' := by
    intro hsplits
    exact absurd hsplits.2 (by decide)
  obtain ⟨both, hboth, hbody, hrender⟩ := parse_and_renderIn_append hfirst hsecond hseam
  exact ⟨_, _, both, hfirst, hsecond, hboth, hbody, hrender⟩

end FormLetter
