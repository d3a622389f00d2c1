import FormLetter.Proofs.Render.OpenFragments

namespace FormLetter

section

variable {engine : Engine} {refusal refusal' : Refusal} {m m' first last : Moment}

/-- What is refused may depend on the limit. It must be the same where it has been refused. -/
theorem Moves.of_refusal (h : Moves engine refusal m m') (d : Nat)
    (hnone : ∀ name s, refusal name s = none → refusal' name s = none)
    (hsome : ∀ name s error, refusal name s = some error → m'.failure = some error →
      refusal' name s = some error) :
    Moves { engine with maxDepth := d } refusal' m m' := by
  cases h with
  | text => exact .text
  | pageBreak => exact .pageBreak
  | fail => exact .fail
  | refuse hr => exact .refuse (hsome _ _ _ hr rfl)
  | miss hr ht => exact .miss (hnone _ _ hr) ht
  | enter hr ht => exact .enter (hnone _ _ hr) ht
  | leave hsteps => exact .leave hsteps

theorem Run.of_refusal (h : Run engine refusal first past last) (d : Nat)
    (hnone : ∀ name s, refusal name s = none → refusal' name s = none)
    (hsome : ∀ name s error, refusal name s = some error → last.failure = some error →
      refusal' name s = some error) :
    Run { engine with maxDepth := d } refusal' first past last := by
  induction h with
  | start => exact .start
  | step _ hm ih =>
    refine .step (ih fun name s error hr hf => ?_) (hm.of_refusal d hnone hsome)
    exact hsome name s error hr (hm.failure_eq hf)

/-- A fragment that does not exist fails at once, so that it is not open when another one is
included. -/
theorem Run.isSome_of_open (h : Run engine refusal first past last)
    (hfirst : first.state.stack = []) (hlast : last.failure = none) :
    ∀ name ∈ last.state.stack, (engine.fragments name).isSome := by
  refine h.invariant (P := fun m => m.failure = none →
    ∀ name ∈ m.state.stack, (engine.fragments name).isSome) (fun hm hP => ?_) ?_ hlast
  · cases hm with
    | text | pageBreak => exact hP
    | fail | refuse | miss => exact nofun
    | leave => exact fun hf name hname => hP hf name (List.mem_of_mem_dropLast hname)
    | @enter new _ _ _ _ _ _ _ ht =>
      intro _ name hname
      obtain hname | hname := List.mem_append.mp hname
      · exact hP rfl name hname
      · cases List.mem_singleton.mp hname
        cases hf : engine.fragments new with
        | some => rfl
        | none =>
          rw [Fragments.template, hf] at ht
          cases ht
  · simp [hfirst]

/-- Every moment of a run that is finished comes before its last one or is it. -/
theorem Run.of_finished (h : Run engine refusal first past last) (hend : last.Finished)
    (h' : Run engine refusal first before m) : m ∈ past ∨ m = last := by
  obtain ⟨later, rfl, hlater⟩ := h.exists_rest hend h'
  obtain ⟨-, rfl⟩ | ⟨_, rest, rfl, -, -⟩ := hlater.cases_head
  · exact .inr rfl
  · exact .inl (by simp)

end

namespace Engine

variable {engine : Engine} {s : RenderState} {data : Context} {template : Template}

/-- What is not refused for its depth is refused or not alike under a higher limit. -/
theorem refusal_of_le (engine : Engine) (hle : d ≤ d') :
    (∀ name s, { engine with maxDepth := d }.refusal name s = none →
      { engine with maxDepth := d' }.refusal name s = none) ∧
    ∀ name s error, { engine with maxDepth := d }.refusal name s = some error →
      (∀ depth limit, error ≠ .tooDeep depth limit) →
      { engine with maxDepth := d' }.refusal name s = some error := by
  constructor
  · intro name s h
    obtain ⟨hopen, hdepth⟩ := refusal_eq_none.mp h
    exact refusal_eq_none.mpr ⟨hopen, Nat.lt_of_lt_of_le hdepth hle⟩
  · intro name s error h hdeep
    rcases refusal_eq_some.mp h with hcircular | ⟨rfl, -⟩
    · exact refusal_eq_some.mpr (.inl hcircular)
    · exact absurd rfl (hdeep _ _)

theorem renderIn_eq_of_le (hle : d ≤ d')
    (h : ∀ depth limit,
      ({ engine with maxDepth := d }.renderIn s data template).1 ≠ .error (.tooDeep depth limit)) :
    { engine with maxDepth := d' }.renderIn s data template =
      { engine with maxDepth := d }.renderIn s data template := by
  obtain ⟨past, last, hrun, hend, hresult⟩ :=
    { engine with maxDepth := d }.exists_run s data template
  obtain ⟨hnone, hsome⟩ := refusal_of_le engine hle
  have hrun' : Run { engine with maxDepth := d' } { engine with maxDepth := d' }.refusal
      (.start { engine with maxDepth := d' } s data template) past last := by
    refine hrun.of_refusal d' hnone fun name s error hr hf => hsome name s error hr ?_
    rintro depth limit rfl
    refine h depth limit ?_
    rw [← hresult]
    exact Moment.result_eq_error.mpr hf
  rw [← result_of_run hrun' hend, hresult]

/-- Open fragments differ and exist, so that there are not more of them than fragments. -/
theorem renderIn_ne_tooDeep {names : List String}
    (hnames : ∀ name, (engine.fragments name).isSome → name ∈ names)
    (hmax : names.length < engine.maxDepth) (hs : s.stack = []) (depth limit : Nat) :
    (engine.renderIn s data template).1 ≠ .error (.tooDeep depth limit) := by
  intro h
  obtain ⟨past, m, hrun, hraises⟩ := exists_raises h
  obtain ⟨name, -, -, rfl, rfl, hdepth⟩ := hraises.tooDeep
  have hunique := (hrun.bounded hs).1
  have hexist : m.state.stack ⊆ names := fun name hname =>
    hnames name (hrun.isSome_of_open hs hraises.1 name hname)
  have hcount : m.state.depth ≤ names.length :=
    hunique.length_le_of_subset hexist
  omega

/-- Nothing but a refusal ends a recursion that would open more and more fragments. -/
theorem exists_isRefusal (hs : s.stack = [])
    (h : ∀ n, ∃ past m, Run engine (fun _ _ => none) (.start engine s data template) past m ∧
      n ≤ m.state.depth) :
    ∃ error, (engine.renderIn s data template).1 = .error error ∧ error.IsRefusal := by
  obtain ⟨past, last, hrun, hend, hresult⟩ := engine.exists_run s data template
  by_contra hnot
  -- A run without a refusal is one that would also be there if nothing were refused.
  have hfree : Run engine (fun _ _ => none) (.start engine s data template) past last := by
    refine hrun.of_refusal engine.maxDepth (fun _ _ _ => rfl) fun name s error hr hf => ?_
    refine absurd ⟨error, ?_, isRefusal_of_refusal hr⟩ hnot
    rw [← hresult]
    exact Moment.result_eq_error.mpr hf
  obtain ⟨past', m, hm, hdepth⟩ := h (engine.maxDepth + 1)
  have hbound : m.state.depth ≤ engine.maxDepth := by
    obtain hmem | rfl := hfree.of_finished hend hm
    · obtain ⟨_, hbefore⟩ := hrun.exists_before hmem
      exact (hbefore.bounded hs).2
    · exact (hrun.bounded hs).2
  omega

/-- A limit that is not what a rendering fails for can be raised without changing the result. With
a limit above the number of fragments that exist, it is never what a rendering fails for, and a
recursion without end is refused as circular. -/
theorem renderIn_maxDepth (engine : Engine) (s : RenderState) (data : Context)
    (template : Template) :
    (∀ d d', d ≤ d' →
      (∀ depth limit,
        ({ engine with maxDepth := d }.renderIn s data template).1 ≠
          .error (.tooDeep depth limit)) →
      { engine with maxDepth := d' }.renderIn s data template =
        { engine with maxDepth := d }.renderIn s data template) ∧
    ∀ names : List String, (∀ name, (engine.fragments name).isSome → name ∈ names) →
      names.length < engine.maxDepth → s.stack = [] →
      (∀ depth limit, (engine.renderIn s data template).1 ≠ .error (.tooDeep depth limit)) ∧
      ((∀ n, ∃ past m, Run engine (fun _ _ => none) (.start engine s data template) past m ∧
          n ≤ m.state.depth) →
        ∃ name stack, (engine.renderIn s data template).1 = .error (.circular name stack)) := by
  constructor
  · intro d d' hle h
    exact renderIn_eq_of_le hle h
  · intro names hnames hmax hs
    have hdeep : ∀ depth limit,
        (engine.renderIn s data template).1 ≠ .error (.tooDeep depth limit) :=
      renderIn_ne_tooDeep hnames hmax hs
    refine ⟨hdeep, ?_⟩
    intro hfree
    obtain ⟨error, herror, hrefusal⟩ := exists_isRefusal hs hfree
    cases error with
    | circular name stack => exact ⟨name, stack, herror⟩
    | tooDeep depth limit => exact absurd herror (hdeep depth limit)
    | _ => exact hrefusal.elim

/-- If nothing is refused, a fragment that includes itself is opened over and over. -/
theorem exists_run_selfInclusion (d n : Nat) :
    let engine : Engine := ⟨.selfInclusion, .none, d⟩
    ∃ past m, Run engine (fun _ _ => none) (.start engine .fresh [] .selfInclusion) past m ∧
      m.state.depth = n ∧ m.failure = none ∧ m.steps = [.fragment "a" []] := by
  intro engine
  induction n with
  | zero => exact ⟨[], _, .start, rfl, rfl, rfl⟩
  | succ n ih =>
    obtain ⟨past, ⟨_, _, _, _, _⟩, hrun, rfl, rfl, rfl⟩ := ih
    refine ⟨_, _, hrun.step (.enter rfl Fragments.template_selfInclusion), ?_, rfl, rfl⟩
    exact RenderState.depth_opened ..

theorem renderIn_maxDepth_of_selfInclusion :
    let engine : Engine := ⟨.selfInclusion, .none, 2⟩
    (∀ depth limit,
      ({ engine with maxDepth := 1 }.renderIn .fresh [] .selfInclusion).1 ≠
        .error (.tooDeep depth limit)) ∧
    { engine with maxDepth := 2 }.renderIn .fresh [] .selfInclusion =
      { engine with maxDepth := 1 }.renderIn .fresh [] .selfInclusion ∧
    (∀ name, (engine.fragments name).isSome → name ∈ ["a"]) ∧
    (∀ n, ∃ past m, Run engine (fun _ _ => none) (.start engine .fresh [] .selfInclusion) past m ∧
      n ≤ m.state.depth) ∧
    ∃ name stack,
      (engine.renderIn .fresh [] .selfInclusion).1 = .error (.circular name stack) := by
  intro engine
  have hdeep : ∀ depth limit,
      ({ engine with maxDepth := 1 }.renderIn .fresh [] .selfInclusion).1 ≠
        .error (.tooDeep depth limit) := by
    intro depth limit h
    cases (renderIn_selfInclusion 0).symm.trans h
  have hnames : ∀ name, (engine.fragments name).isSome → name ∈ ["a"] := by
    intro name h
    by_cases hname : name = "a"
    · exact List.mem_singleton.mpr hname
    · simp [engine, Fragments.selfInclusion, hname] at h
  have hfree : ∀ n, ∃ past m,
      Run engine (fun _ _ => none) (.start engine .fresh [] .selfInclusion) past m ∧
        n ≤ m.state.depth := by
    intro n
    obtain ⟨past, m, hrun, hdepth, -⟩ := exists_run_selfInclusion 2 n
    exact ⟨past, m, hrun, hdepth.ge⟩
  obtain ⟨hle, hlimit⟩ := renderIn_maxDepth engine .fresh [] .selfInclusion
  exact ⟨hdeep, hle 1 2 (by decide) hdeep, hnames, hfree,
    (hlimit ["a"] hnames (by decide) rfl).2 hfree⟩

end Engine

end FormLetter
