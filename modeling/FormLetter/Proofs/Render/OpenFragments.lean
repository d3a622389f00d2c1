import FormLetter.Proofs.Expr.RoundTrip
import FormLetter.Proofs.Outcome
import FormLetter.Proofs.Render.Completion
import FormLetter.Proofs.Validation.Acceptance

namespace FormLetter

open Outcome

/-- Says that a fragment must not be opened. -/
def RenderError.IsRefusal : RenderError → Prop
  | .circular _ _ | .tooDeep _ _ => True
  | _ => False

theorem Fragments.not_isRefusal {fragments : Fragments}
    (h : fragments.template name = .error error) : ¬ error.IsRefusal := by
  unfold Fragments.template at h
  cases hf : fragments name with
  | none =>
    rw [hf] at h
    cases h
    exact id
  | some fragment =>
    rw [hf] at h
    cases fragment with
    | text source =>
      obtain ⟨_, -, rfl⟩ := mapError_eq_error.mp h
      exact id
    | document archive =>
      obtain h | ⟨_, -, h⟩ := bind_eq_error.mp h
      all_goals
        obtain ⟨_, -, rfl⟩ := mapError_eq_error.mp h
        exact id

namespace Engine

variable {engine : Engine} {s : RenderState}

theorem isRefusal_of_refusal (h : engine.refusal name s = some error) : error.IsRefusal := by
  obtain ⟨rfl, -⟩ | ⟨rfl, -⟩ := refusal_eq_some.mp h <;> trivial

end Engine

/-- Over some moments, a fragment was included where some others were open, and has been open with
them since. -/
def OpenedIn (past : List Moment) (outer : List String) (name : String) : Prop :=
  ∃ before m after, past = before ++ m :: after ∧ m.Includes name ∧ m.state.stack = outer ∧
    ∀ later ∈ after, outer ++ [name] <+: later.state.stack

theorem OpenedIn.append (h : OpenedIn past outer name)
    (hm : outer ++ [name] <+: m.state.stack) : OpenedIn (past ++ [m]) outer name := by
  obtain ⟨before, opening, after, rfl, hincludes, hstack, hafter⟩ := h
  refine ⟨before, opening, after ++ [m], by simp, hincludes, hstack, fun later hlater => ?_⟩
  obtain hlater | hlater := List.mem_append.mp hlater
  · exact hafter later hlater
  · cases List.mem_singleton.mp hlater
    exact hm

namespace Moment

/-- Something fails at this moment. -/
def Raises (engine : Engine) (m : Moment) (error : RenderError) : Prop :=
  m.failure = none ∧ ∃ m', Moves engine engine.refusal m m' ∧ m'.failure = some error

/-- Only a fragment that is included can be refused. -/
theorem Raises.exists_refusal (h : Raises engine m error) (herror : error.IsRefusal) :
    ∃ name, m.Includes name ∧ engine.refusal name m.state = some error := by
  obtain ⟨hfailure, m', hm, hfailure'⟩ := h
  cases hm with
  | text | pageBreak | enter => cases hfailure'
  | leave =>
    cases hfailure
    cases hfailure'
  | fail =>
    cases hfailure'
    exact herror.elim
  | refuse hrefusal =>
    cases hfailure'
    exact ⟨_, ⟨rfl, _, _, rfl⟩, hrefusal⟩
  | miss _ ht =>
    cases hfailure'
    exact absurd herror (Fragments.not_isRefusal ht)

theorem Raises.circular (h : Raises engine m (.circular name stack)) :
    m.Includes name ∧ m.state.stack = stack ∧ name ∈ stack := by
  obtain ⟨_, hincludes, hrefusal⟩ := h.exists_refusal trivial
  obtain ⟨heq, hmem⟩ | ⟨heq, -⟩ := Engine.refusal_eq_some.mp hrefusal
  · cases heq
    exact ⟨hincludes, rfl, hmem⟩
  · cases heq

theorem Raises.tooDeep (h : Raises engine m (.tooDeep depth limit)) :
    ∃ name, m.Includes name ∧ name ∉ m.state.stack ∧ depth = m.state.depth ∧
      limit = engine.maxDepth ∧ limit ≤ depth := by
  obtain ⟨name, hincludes, hrefusal⟩ := h.exists_refusal trivial
  obtain ⟨heq, -⟩ | ⟨heq, hopen, hdepth⟩ := Engine.refusal_eq_some.mp hrefusal
  · cases heq
  · cases heq
    exact ⟨name, hincludes, hopen, rfl, rfl, hdepth⟩

end Moment

section

variable {engine : Engine} {refusal : Refusal} {m m' first last : Moment}

/-- What becomes of the open fragments from one moment to the next. -/
theorem Moves.stack_cases (h : Moves engine refusal m m') :
    m'.state.stack = m.state.stack ∨
      (∃ name, m.Includes name ∧ refusal name m.state = none ∧
        m'.state.stack = m.state.stack ++ [name]) ∨
      m'.state.stack = m.state.stack.dropLast := by
  cases h with
  | text | pageBreak | fail | refuse => exact .inl rfl
  | miss hrefusal | enter hrefusal => exact .inr (.inl ⟨_, ⟨rfl, _, _, rfl⟩, hrefusal, rfl⟩)
  | leave => exact .inr (.inr rfl)

theorem Moves.bounded (h : Moves engine engine.refusal m m')
    (hm : m.state.stack.Nodup ∧ m.state.depth ≤ engine.maxDepth) :
    m'.state.stack.Nodup ∧ m'.state.depth ≤ engine.maxDepth := by
  unfold RenderState.depth
  obtain heq | ⟨name, -, hrefusal, heq⟩ | heq := h.stack_cases
  · rw [heq]
    exact hm
  · obtain ⟨hopen, hdepth⟩ := Engine.refusal_eq_none.mp hrefusal
    have hnew : ∀ entry ∈ m.state.stack, ∀ new ∈ [name], entry ≠ new := by
      intro entry hentry new hnew heq
      cases List.mem_singleton.mp hnew
      exact hopen (heq ▸ hentry)
    rw [heq, List.length_append]
    exact ⟨List.nodup_append.mpr ⟨hm.1, by simp, hnew⟩, hdepth⟩
  · have hsub := m.state.stack.dropLast_sublist
    rw [heq]
    exact ⟨hm.1.sublist hsub, Nat.le_trans hsub.length_le hm.2⟩

theorem Run.bounded (h : Run engine engine.refusal first past last)
    (hfirst : first.state.stack = []) :
    last.state.stack.Nodup ∧ last.state.depth ≤ engine.maxDepth := by
  refine h.invariant (P := fun m => m.state.stack.Nodup ∧ m.state.depth ≤ engine.maxDepth)
    (fun hm => hm.bounded) ?_
  simp [RenderState.depth, hfirst]

/-- Every fragment that is open was included in the one before it, which has been open since. -/
theorem Run.openedIn {inner : List String} (h : Run engine refusal first past last)
    (hfirst : first.state.stack = []) (hlast : last.state.stack = outer ++ name :: inner) :
    OpenedIn past outer name := by
  have hprefix {inner : List String} : outer ++ [name] <+: outer ++ name :: inner :=
    ⟨inner, by simp⟩
  induction h generalizing inner with
  | start => simp [hfirst] at hlast
  | @step past m m' _ hm ih =>
    obtain heq | ⟨entry, hincludes, -, heq⟩ | heq := hm.stack_cases
    · rw [heq] at hlast
      exact (ih hlast).append (hlast ▸ hprefix)
    · rw [heq] at hlast
      -- The fragment is the one that has just been opened, or it is open around that one.
      obtain rfl | ⟨inner, _, rfl⟩ := inner.eq_nil_or_concat
      · obtain ⟨hstack, rfl⟩ : m.state.stack = outer ∧ entry = name := by simpa using hlast
        exact ⟨past, m, [], rfl, hincludes, hstack, nofun⟩
      · have hstack : m.state.stack = outer ++ name :: inner := by
          rw [List.concat_eq_append, ← List.cons_append, ← List.append_assoc] at hlast
          exact (List.append_inj' hlast rfl).1
        exact (ih hstack).append (hstack ▸ hprefix)
    · rw [heq] at hlast
      have hne : m.state.stack ≠ [] := by
        intro hnil
        simp [hnil] at hlast
      have hstack := List.dropLast_concat_getLast hne
      rw [hlast, List.append_assoc, List.cons_append] at hstack
      exact (ih hstack.symm).append (hstack ▸ hprefix)

theorem Run.exists_raises (h : Run engine engine.refusal first past last)
    (hfirst : first.failure = none) (hlast : last.failure = some error) :
    ∃ before m, Run engine engine.refusal first before m ∧ m.Raises engine error := by
  induction h with
  | start => cases hfirst.symm.trans hlast
  | @step past m m' hrun hm ih =>
    cases hf : m.failure with
    | none => exact ⟨past, m, hrun, hf, m', hm, hlast⟩
    | some e =>
      cases (hm.failure_eq hf).symm.trans hlast
      exact ih hf

end

theorem Moment.result_eq_error {m : Moment} :
    m.result.1 = .error error ↔ m.failure = some error := by
  obtain ⟨_, _, _, _, failure⟩ := m
  cases failure <;> simp [result]

namespace Engine

variable {engine : Engine} {s : RenderState} {data : Context} {template : Template}

/-- What a rendering fails with is raised at a moment of it. -/
theorem exists_raises (h : (engine.renderIn s data template).1 = .error error) :
    ∃ past m, Run engine engine.refusal (.start engine s data template) past m ∧
      m.Raises engine error := by
  obtain ⟨past, last, hrun, -, hresult⟩ := engine.exists_run s data template
  rw [← hresult] at h
  exact hrun.exists_raises rfl (Moment.result_eq_error.mp h)

/-- A rendering ends, whatever its fragments include. While it goes on, no fragment is open twice
and no more of them are open than may be. One that is refused as circular is open, and each open
fragment was included in the one before it. One that is refused for its depth is not open. -/
theorem renderIn_terminates (engine : Engine) (h : s.stack = []) (data : Context)
    (template : Template) :
    (∃ past last, Run engine engine.refusal (.start engine s data template) past last ∧
      last.Finished ∧ last.result = engine.renderIn s data template ∧
      ∀ past' m, Run engine engine.refusal (.start engine s data template) past' m →
        past' <+: past) ∧
    (∀ past m, Run engine engine.refusal (.start engine s data template) past m →
      m.state.stack.Nodup ∧ m.state.depth ≤ engine.maxDepth) ∧
    (∀ name stack, (engine.renderIn s data template).1 = .error (.circular name stack) →
      name ∈ stack ∧ ∃ past m,
        Run engine engine.refusal (.start engine s data template) past m ∧
          m.Raises engine (.circular name stack) ∧ m.Includes name ∧ m.state.stack = stack ∧
          ∀ outer entry inner, stack = outer ++ entry :: inner → OpenedIn past outer entry) ∧
    (∀ depth limit, (engine.renderIn s data template).1 = .error (.tooDeep depth limit) →
      depth = engine.maxDepth ∧ limit = engine.maxDepth ∧ ∃ past m name,
        Run engine engine.refusal (.start engine s data template) past m ∧
          m.Raises engine (.tooDeep depth limit) ∧ m.Includes name ∧ name ∉ m.state.stack) := by
  refine ⟨?_, ?_, ?_, ?_⟩
  · obtain ⟨past, last, hrun, hend, hresult⟩ := engine.exists_run s data template
    refine ⟨past, last, hrun, hend, hresult, fun past' m hm => ?_⟩
    obtain ⟨later, rfl, -⟩ := hrun.exists_rest hend hm
    exact List.prefix_append past' later
  · intro past m hrun
    exact hrun.bounded h
  · intro name stack hresult
    obtain ⟨past, m, hrun, hraises⟩ := exists_raises hresult
    obtain ⟨hincludes, hstack, hmem⟩ := hraises.circular
    refine ⟨hmem, past, m, hrun, hraises, hincludes, hstack, fun outer entry inner heq => ?_⟩
    exact hrun.openedIn h (hstack.trans heq)
  · intro depth limit hresult
    obtain ⟨past, m, hrun, hraises⟩ := exists_raises hresult
    obtain ⟨name, hincludes, hopen, hdepth, hlimit, hle⟩ := hraises.tooDeep
    have hbound := (hrun.bounded h).2
    exact ⟨by omega, hlimit, past, m, name, hrun, hraises, hincludes, hopen⟩

end Engine

def Template.selfInclusion : Template :=
  ⟨"\x7b\x7binclude \"a\"\x7d\x7d", [.includeTag (.literal (.string "a"))]⟩

def Fragments.selfInclusion : Fragments := fun name =>
  if name = "a" then some (.text Template.selfInclusion.source) else Option.none

theorem Template.parse_selfInclusion :
    Template.parse selfInclusion.source = .ok selfInclusion := by
  have hdisplay : Expr.display (.literal (.string "a")) = "\"a\"" := by decide +kernel
  have he : Expr.parse "\"a\"" = .ok (.literal (.string "a")) := by
    rw [← hdisplay]
    exact Expr.parse_display_of_written (e := .literal (.string "a")) trivial
  have hts : Markup.tokens selfInclusion.source = .ok [⟨.includeTag, "\"a\"", 10⟩] := by
    decide +kernel
  refine parse_eq_ok.mpr ⟨rfl, _, hts, ?_⟩
  simp only [Builder.ofTokens_eq_run, Builder.run, Builder.step, Body.expression, he,
    mapError_ok, ok_bind]
  rfl

theorem Fragments.template_selfInclusion :
    selfInclusion.template "a" = .ok Template.selfInclusion := by
  change (Template.parse Template.selfInclusion.source).mapError _ = _
  rw [Template.parse_selfInclusion]
  rfl

namespace Engine

theorem renderIn_selfInclusion (d : Nat) :
    let engine : Engine := ⟨.selfInclusion, .none, d + 1⟩
    (engine.renderIn .fresh [] .selfInclusion).1 = .error (.circular "a" ["a"]) := by
  intro engine
  have hrun : Run engine engine.refusal (.start engine .fresh [] .selfInclusion) _ _ :=
    ((Run.single (.enter rfl Fragments.template_selfInclusion)).step (.refuse rfl)).step
      (.leave nofun)
  exact congrArg Prod.fst (engine.result_of_run hrun ⟨rfl, nofun⟩).symm

theorem renderIn_terminates_of_selfInclusion :
    let engine : Engine := ⟨.selfInclusion, .none, 2⟩
    (engine.renderIn .fresh [] .selfInclusion).1 = .error (.circular "a" ["a"]) ∧
      ∃ past m, Run engine engine.refusal (.start engine .fresh [] .selfInclusion) past m ∧
        m.Includes "a" ∧ m.state.stack = ["a"] ∧ OpenedIn past [] "a" := by
  intro engine
  have hresult := renderIn_selfInclusion 1
  obtain ⟨-, -, hcircular, -⟩ := engine.renderIn_terminates (s := .fresh) rfl [] .selfInclusion
  obtain ⟨-, past, m, hrun, -, hincludes, hstack, hopened⟩ := hcircular _ _ hresult
  exact ⟨hresult, past, m, hrun, hincludes, hstack, hopened [] "a" [] rfl⟩

end Engine

end FormLetter
