import FormLetter.Proofs.Render.Moments

namespace FormLetter

namespace Engine

section

variable (includes : String → Context → Render Output)

theorem run_bind (x : Render α) (f : α → Render β) (s : RenderState) :
    (x >>= f).run s =
      match x.run s with
      | (.ok a, after) => (f a).run after
      | (.error error, after) => (.error error, after) := by
  have h : (x >>= f).run s = ExceptT.bindCont f (x.run s).1 (x.run s).2 := rfl
  rw [h]
  obtain ⟨result, after⟩ := x.run s
  cases result <;> rfl

theorem run_append (first rest : List Step) (s : RenderState) :
    (performAll includes (first ++ rest)).run s =
      match (performAll includes first).run s with
      | (.ok output, after) =>
        (((performAll includes rest).run after).1.map (output ++ ·),
          ((performAll includes rest).run after).2)
      | (.error error, after) => (.error error, after) := by
  rw [performAll_append, run_bind]
  obtain ⟨result, after⟩ := (performAll includes first).run s
  cases result with
  | error error => rfl
  | ok output =>
    dsimp only
    rw [run_bind]
    obtain ⟨result, last⟩ := (performAll includes rest).run after
    cases result <;> rfl

theorem run_cons (step : Step) (steps : List Step) (s : RenderState) :
    (performAll includes (step :: steps)).run s =
      match (perform includes step).run s with
      | (.ok output, after) =>
        (((performAll includes steps).run after).1.map (output ++ ·),
          ((performAll includes steps).run after).2)
      | (.error error, after) => (.error error, after) := by
  rw [← performAll_singleton, ← run_append, List.singleton_append]

end

variable (engine : Engine) (left : Nat)

theorem template_run (name : String) (s : RenderState) :
    (engine.template name).run s = (engine.fragments.template name, s) := by
  unfold template Fragments.template
  cases engine.fragments name with
  | none => rfl
  | some fragment => cases h : fragment.template <;> simp only [h] <;> rfl

variable {s : RenderState}

theorem enter_circular (h : s.stack.contains name = true) (data : Context) :
    (engine.enter left name data).run s = (.error (.circular name s.stack), s) := by
  change (if s.stack.contains name then _ else _) = _
  rw [if_pos h]

theorem enter_tooDeep (h : s.stack.contains name = false) (data : Context) :
    (engine.enter 0 name data).run s = (.error (.tooDeep s.depth engine.maxDepth), s) := by
  change (if s.stack.contains name then _ else _) = _
  rw [h]
  rfl

theorem enter_run (h : s.stack.contains name = false) (data : Context) :
    (engine.enter (left + 1) name data).run s =
      let inner := (engine.template name >>= fun t =>
        engine.body (engine.included left) data t.body).run (s.opened name)
      (inner.1, inner.2.closed) := by
  change (if s.stack.contains name then _ else _) = _
  rw [h]
  rfl

theorem enter_missing (h : s.stack.contains name = false) (data : Context)
    (hf : engine.fragments.template name = .error error) :
    (engine.enter (left + 1) name data).run s = (.error error, s) := by
  rw [enter_run engine left h, run_bind, template_run, hf]
  exact congrArg _ (RenderState.closed_opened s name)

theorem enter_found (h : s.stack.contains name = false) (data : Context)
    (hf : engine.fragments.template name = .ok t) :
    (engine.enter (left + 1) name data).run s =
      let inner := (performAll (engine.enter left) (bodySteps engine.functions data t.body)).run
        (s.opened name)
      (inner.1, inner.2.closed) := by
  rw [enter_run engine left h, run_bind, template_run, hf, ← body_eq_performAll]

theorem renderBody_run (data : Context) (body : Body) (s : RenderState) :
    (engine.renderBody data body).run s =
      (performAll (engine.enter (engine.maxDepth - s.depth))
        (bodySteps engine.functions data body)).run s := by
  rw [← body_eq_performAll]
  rfl

end Engine

/-- The output that a body has added, or what has failed in it. -/
def Moment.Ends (m : Moment) (output : Output) : Except RenderError Output → Prop
  | .ok more => m.failure = none ∧ m.steps = [] ∧ m.output = output ++ more
  | .error error => m.failure = some error

/-- Wherever steps are taken, a run leads to their result. The fragments that they open are closed
by then. -/
def Completes (engine : Engine) (steps : List Step) (s : RenderState)
    (r : Except RenderError Output × RenderState) : Prop :=
  r.2.stack = s.stack ∧ ∀ outer output, ∃ past m,
    Run engine engine.refusal ⟨steps, outer, s, output, none⟩ past m ∧
      m.outer = outer ∧ m.state = r.2 ∧ m.Ends output r.1

namespace Completes

variable {engine : Engine} {s : RenderState}

theorem nil : Completes engine [] s (.ok [], s) :=
  ⟨rfl, fun _ _ => ⟨[], _, .start, rfl, rfl, rfl, rfl, (List.append_nil _).symm⟩⟩

/-- Goes on after a step that adds some output. -/
theorem cons (hstack : s'.stack = s.stack)
    (hrun : ∀ outer output, ∃ past,
      Run engine engine.refusal ⟨step :: steps, outer, s, output, none⟩
      past ⟨steps, outer, s', output ++ added, none⟩)
    (h : Completes engine steps s' r) :
    Completes engine (step :: steps) s (r.1.map (added ++ ·), r.2) := by
  refine ⟨h.1.trans hstack, fun outer output => ?_⟩
  obtain ⟨past, hpast⟩ := hrun outer output
  obtain ⟨later, m, hlater, houter, hstate, hends⟩ := h.2 outer (output ++ added)
  refine ⟨past ++ later, m, hpast.trans hlater, houter, hstate, ?_⟩
  obtain ⟨result, after⟩ := r
  cases result with
  | error error => exact hends
  | ok more =>
    obtain ⟨hfailure, hsteps, houtput⟩ := hends
    exact ⟨hfailure, hsteps, by rw [houtput, List.append_assoc]⟩

/-- Ends with a step that fails where it is taken. -/
theorem failed (h : ∀ outer output, Moves engine engine.refusal
      ⟨step :: steps, outer, s, output, none⟩ ⟨steps, outer, s, output, some error⟩) :
    Completes engine (step :: steps) s (.error error, s) :=
  ⟨rfl, fun outer output => ⟨_, _, .single (h outer output), rfl, rfl, rfl⟩⟩

variable (hrefusal : engine.refusal name s = none)

include hrefusal

theorem missing (ht : engine.fragments.template name = .error error) :
    Completes engine (.fragment name data :: steps) s (.error error, s) := by
  refine ⟨rfl, fun outer output => ?_⟩
  have hmiss := Run.single (.miss hrefusal ht : Moves engine engine.refusal
    ⟨.fragment name data :: steps, outer, s, output, none⟩ _)
  exact ⟨_, _, hmiss.step (.leave fun _ => rfl), rfl, RenderState.closed_opened .., rfl⟩

variable (ht : engine.fragments.template name = .ok t) {inner : RenderState}

include ht

theorem broken
    (h : Completes engine (bodySteps engine.functions data t.body) (s.opened name)
      (.error error, inner)) :
    Completes engine (.fragment name data :: steps) s (.error error, inner.closed) := by
  obtain ⟨hstack, hinner⟩ := h
  refine ⟨RenderState.stack_closed hstack, fun outer output => ?_⟩
  obtain ⟨past, ⟨_, _, _, _, _⟩, hpast, rfl, rfl, rfl⟩ := hinner (steps :: outer) output
  exact ⟨_, _, ((Run.single (.enter hrefusal ht)).trans hpast).step (.leave nofun), rfl, rfl, rfl⟩

theorem fragment
    (h : Completes engine (bodySteps engine.functions data t.body) (s.opened name)
      (.ok added, inner))
    (hsteps : Completes engine steps inner.closed r) :
    Completes engine (.fragment name data :: steps) s (r.1.map (added ++ ·), r.2) := by
  obtain ⟨hstack, hinner⟩ := h
  refine cons (RenderState.stack_closed hstack) (fun outer output => ?_) hsteps
  obtain ⟨past, ⟨_, _, _, _, _⟩, hpast, rfl, rfl, rfl, rfl, rfl⟩ := hinner (steps :: outer) output
  exact ⟨_, ((Run.single (.enter hrefusal ht)).trans hpast).step (.leave fun _ => rfl)⟩

end Completes

namespace Engine

/-- Inside of a fragment fewer of them may still be opened, and after it fewer steps are left. -/
theorem completes (engine : Engine) (left : Nat) (steps : List Step) (s : RenderState)
    (hleft : engine.maxDepth - s.depth = left) :
    Completes engine steps s ((performAll (engine.enter left) steps).run s) := by
  match steps with
  | [] => exact .nil
  | .text t :: steps =>
    rw [run_cons]
    exact .cons rfl (fun _ _ => ⟨_, .single .text⟩) (completes engine left steps s hleft)
  | .pageBreak :: steps =>
    rw [run_cons]
    have hstack : (s.setMarker .pageBreak).stack = s.stack := rfl
    exact .cons hstack (fun _ _ => ⟨_, .single .pageBreak⟩)
      (completes engine left steps (s.setMarker .pageBreak) hleft)
  | .fail error :: steps => exact .failed fun _ _ => .fail
  | .fragment name data :: steps =>
    rw [run_cons, perform]
    cases h : s.stack.contains name with
    | true =>
      have hopen : name ∈ s.stack := List.contains_iff_mem.mp h
      rw [enter_circular engine left h]
      exact .failed fun _ _ => .refuse (refusal_eq_some.mpr (.inl ⟨rfl, hopen⟩))
    | false =>
      have hopen : name ∉ s.stack := by simpa using h
      match left with
      | 0 =>
        have hdepth := Nat.le_of_sub_eq_zero hleft
        rw [enter_tooDeep engine h]
        exact .failed fun _ _ => .refuse (refusal_eq_some.mpr (.inr ⟨rfl, hopen, hdepth⟩))
      | left + 1 =>
        have hrefusal : engine.refusal name s = none := refusal_eq_none.mpr ⟨hopen, by omega⟩
        cases ht : engine.fragments.template name with
        | error error =>
          rw [enter_missing engine left h data ht]
          exact .missing hrefusal ht
        | ok t =>
          have hinner := completes engine left (bodySteps engine.functions data t.body)
            (s.opened name) (by rw [RenderState.depth_opened]; omega)
          rw [enter_found engine left h data ht]
          dsimp only
          -- From here on only what is known of the inner run counts, not how it came about.
          generalize (performAll (engine.enter left) _).run (s.opened name) = r at hinner ⊢
          obtain ⟨result, inner⟩ := r
          cases result with
          | error error => exact .broken hrefusal ht hinner
          | ok output =>
            have hstack := RenderState.stack_closed hinner.1
            exact .fragment hrefusal ht hinner (completes engine (left + 1) steps inner.closed
              (by simpa only [RenderState.depth, hstack] using hleft))
termination_by (left, steps.length)

theorem completes_renderBody (engine : Engine) (s : RenderState) (data : Context) (body : Body) :
    Completes engine (bodySteps engine.functions data body) s
      ((engine.renderBody data body).run s) := by
  rw [renderBody_run]
  exact engine.completes _ _ s rfl

/-- A rendering is a finite run from its first moment to a moment with its result. -/
theorem exists_run (engine : Engine) (s : RenderState) (data : Context) (template : Template) :
    ∃ past last, Run engine engine.refusal (.start engine s data template) past last ∧
      last.Finished ∧ last.result = engine.renderIn s data template := by
  obtain ⟨past, ⟨_, _, _, output, _⟩, hrun, rfl, rfl, hends⟩ :=
    (engine.completes_renderBody s data template.body).2 [] []
  refine ⟨past, _, hrun, ?_⟩
  unfold renderIn
  generalize (engine.renderBody data template.body).run s = r at hends ⊢
  obtain ⟨result, after⟩ := r
  cases result with
  | error error =>
    cases hends
    exact ⟨⟨rfl, nofun⟩, rfl⟩
  | ok more =>
    obtain ⟨rfl, rfl, houtput⟩ := hends
    cases (houtput : output = more)
    exact ⟨⟨rfl, fun _ => rfl⟩, rfl⟩

theorem result_of_run {template : Template}
    (h : Run engine engine.refusal (.start engine s data template) past last)
    (hend : last.Finished) : last.result = engine.renderIn s data template := by
  obtain ⟨_, _, hrun, hend', hresult⟩ := engine.exists_run s data template
  rw [← hresult, h.unique hend hrun hend']

/-- Every fragment that is opened is closed again, also where rendering fails. -/
theorem renderIn_stack (engine : Engine) (s : RenderState) (data : Context) (template : Template) :
    (engine.renderIn s data template).2.stack = s.stack :=
  (engine.completes_renderBody s data template.body).1

end Engine

end FormLetter
