import FormLetter.Proofs.Render.Steps

namespace FormLetter

namespace RenderState

/-- Opens a fragment. -/
def opened (s : RenderState) (name : String) : RenderState :=
  { s with stack := s.stack ++ [name] }

/-- Closes the innermost open fragment. -/
def closed (s : RenderState) : RenderState :=
  { s with stack := s.stack.dropLast }

@[simp]
theorem closed_opened (s : RenderState) (name : String) : (s.opened name).closed = s := by
  simp [opened, closed]

theorem stack_closed {inner s : RenderState} (h : inner.stack = (s.opened name).stack) :
    inner.closed.stack = s.stack := by
  simp [closed, h, opened]

theorem depth_opened (s : RenderState) (name : String) : (s.opened name).depth = s.depth + 1 := by
  simp [opened, depth]

end RenderState

/-- The template that a fragment holds. -/
def Fragments.template (fragments : Fragments) (name : String) : Except RenderError Template :=
  match fragments name with
  | Option.none => .error (.missingFragment name)
  | some fragment => fragment.template

/-- What is said against opening a fragment. -/
abbrev Refusal := String → RenderState → Option RenderError

/-- A fragment cannot be opened while it is open, or while too many are. -/
def Engine.refusal (engine : Engine) : Refusal := fun name s =>
  if s.stack.contains name then some (.circular name s.stack)
  else if engine.maxDepth ≤ s.depth then some (.tooDeep s.depth engine.maxDepth)
  else none

theorem Engine.refusal_eq_none {engine : Engine} {s : RenderState} :
    engine.refusal name s = none ↔ name ∉ s.stack ∧ s.depth < engine.maxDepth := by
  unfold refusal
  by_cases hopen : name ∈ s.stack <;> simp [hopen]

theorem Engine.refusal_eq_some {engine : Engine} {s : RenderState} :
    engine.refusal name s = some error ↔
      (error = .circular name s.stack ∧ name ∈ s.stack) ∨
        (error = .tooDeep s.depth engine.maxDepth ∧ name ∉ s.stack ∧
          engine.maxDepth ≤ s.depth) := by
  unfold refusal
  by_cases hopen : name ∈ s.stack
  · simp [hopen, eq_comm]
  · by_cases hdepth : engine.maxDepth ≤ s.depth <;> simp [hopen, hdepth, eq_comm]

/-- A moment of a rendering. Where rendering fails its output is lost, but its moments show what it
has done till then. -/
structure Moment where
  /-- What is still to be done in the innermost open fragment, or in the template. -/
  steps : List Step
  /-- What is still to be done around it, the innermost first. -/
  outer : List (List Step)
  state : RenderState
  output : Output
  /-- Once something has failed, fragments are closed and no more steps are taken. -/
  failure : Option RenderError

namespace Moment

def start (engine : Engine) (s : RenderState) (data : Context) (template : Template) : Moment :=
  ⟨bodySteps engine.functions data template.body, [], s, [], none⟩

def Finished (m : Moment) : Prop :=
  m.outer = [] ∧ (m.failure = none → m.steps = [])

def result (m : Moment) : Except RenderError String × RenderState :=
  (match m.failure with
    | none => .ok m.output.toString
    | some error => .error error,
  m.state)

/-- A fragment of this name is included next. -/
def Includes (m : Moment) (name : String) : Prop :=
  m.failure = none ∧ ∃ data rest, m.steps = .fragment name data :: rest

end Moment

variable (engine : Engine) (refusal : Refusal)

/-- One moment comes right after another. -/
inductive Moves : Moment → Moment → Prop where
  | text : Moves ⟨.text t :: steps, outer, s, output, none⟩
      ⟨steps, outer, s, output ++ [.text t], none⟩
  | pageBreak : Moves ⟨.pageBreak :: steps, outer, s, output, none⟩
      ⟨steps, outer, s.setMarker .pageBreak, output ++ [.pageBreak s.next], none⟩
  | fail : Moves ⟨.fail error :: steps, outer, s, output, none⟩
      ⟨steps, outer, s, output, some (.evaluation error)⟩
  | refuse : refusal name s = some error →
      Moves ⟨.fragment name data :: steps, outer, s, output, none⟩
        ⟨steps, outer, s, output, some error⟩
  /-- A fragment is open before it is known that there is none. -/
  | miss : refusal name s = none → engine.fragments.template name = .error error →
      Moves ⟨.fragment name data :: steps, outer, s, output, none⟩
        ⟨[], steps :: outer, s.opened name, output, some error⟩
  | enter : refusal name s = none → engine.fragments.template name = .ok t →
      Moves ⟨.fragment name data :: steps, outer, s, output, none⟩
        ⟨bodySteps engine.functions data t.body, steps :: outer, s.opened name, output, none⟩
  /-- Nothing is left to do in the innermost fragment, or something has failed in it. -/
  | leave {failure : Option RenderError} : (failure = none → steps = []) →
      Moves ⟨steps, rest :: outer, s, output, failure⟩ ⟨rest, outer, s.closed, output, failure⟩

/-- Moments that follow one another, up to a last one. -/
inductive Run (first : Moment) : List Moment → Moment → Prop where
  | start : Run first [] first
  | step : Run first past m → Moves engine refusal m m' → Run first (past ++ [m]) m'

variable {engine : Engine} {refusal : Refusal} {m m' first last : Moment}

namespace Moves

theorem determ (h : Moves engine refusal m a) (h' : Moves engine refusal m b) : a = b := by
  cases h with
  | text | pageBreak | fail =>
    cases h' with
    | leave he => cases he rfl
    | _ => rfl
  | refuse hr =>
    cases h' with
    | refuse hr' =>
      rw [hr] at hr'
      cases hr'
      rfl
    | miss hr' | enter hr' => cases hr.symm.trans hr'
    | leave he => cases he rfl
  | miss hr ht =>
    cases h' with
    | refuse hr' => cases hr.symm.trans hr'
    | miss _ ht' =>
      cases ht.symm.trans ht'
      rfl
    | enter _ ht' => cases ht.symm.trans ht'
    | leave he => cases he rfl
  | enter hr ht =>
    cases h' with
    | refuse hr' => cases hr.symm.trans hr'
    | miss _ ht' => cases ht.symm.trans ht'
    | enter _ ht' =>
      cases ht.symm.trans ht'
      rfl
    | leave he => cases he rfl
  | leave he =>
    cases h' with
    | leave => rfl
    | _ => cases he rfl

theorem not_finished (h : Moves engine refusal m m') : ¬ m.Finished := by
  rintro ⟨houter, hsteps⟩
  cases h with
  | leave => cases houter
  | _ => cases hsteps rfl

/-- What has failed once has failed for good. -/
theorem failure_eq (h : Moves engine refusal m m') (hf : m.failure = some error) :
    m'.failure = some error := by
  cases h with
  | leave => exact hf
  | _ => cases hf

end Moves

namespace Run

theorem single (h : Moves engine refusal m m') : Run engine refusal m [m] m' :=
  .step .start h

theorem trans (h : Run engine refusal first past m) (h' : Run engine refusal m later last) :
    Run engine refusal first (past ++ later) last := by
  induction h' with
  | start => simpa using h
  | step _ hm ih =>
    rw [← List.append_assoc]
    exact ih.step hm

/-- What the first moment has and every step keeps, the last moment has. -/
theorem invariant {P : Moment → Prop} (hP : ∀ {m m'}, Moves engine refusal m m' → P m → P m')
    (h : Run engine refusal first past last) (hfirst : P first) : P last := by
  induction h with
  | start => exact hfirst
  | step _ hm ih => exact hP hm ih

theorem exists_before (h : Run engine refusal first past last) (hm : m ∈ past) :
    ∃ before, Run engine refusal first before m := by
  induction h with
  | start => cases hm
  | @step past last _ hrun _ ih =>
    obtain hm | hm := List.mem_append.mp hm
    · exact ih hm
    · cases List.mem_singleton.mp hm
      exact ⟨past, hrun⟩

/-- The first of the moves of a run. -/
theorem cases_head (h : Run engine refusal first past last) :
    (past = [] ∧ first = last) ∨
      ∃ m later, past = first :: later ∧ Moves engine refusal first m ∧
        Run engine refusal m later last := by
  induction h with
  | start => exact .inl ⟨rfl, rfl⟩
  | @step past m m' _ hm ih =>
    obtain ⟨rfl, rfl⟩ | ⟨second, later, rfl, hsecond, hlater⟩ := ih
    · exact .inr ⟨m', [], rfl, hm, .start⟩
    · exact .inr ⟨second, later ++ [m], rfl, hsecond, hlater.step hm⟩

/-- A run that is finished goes on from every moment that a run comes to. -/
theorem exists_rest (h : Run engine refusal first past last) (hend : last.Finished)
    (h' : Run engine refusal first before m) :
    ∃ later, past = before ++ later ∧ Run engine refusal m later last := by
  induction h' with
  | start => exact ⟨past, rfl, h⟩
  | step _ hm ih =>
    obtain ⟨later, rfl, hlater⟩ := ih
    obtain ⟨-, rfl⟩ | ⟨second, rest, rfl, hsecond, hrest⟩ := hlater.cases_head
    · exact absurd hend hm.not_finished
    · -- Both runs go on from here, and so they go on alike.
      cases hm.determ hsecond
      exact ⟨rest, by simp, hrest⟩

/-- There is one way on from a moment, so that a run that is finished is the only one. -/
theorem unique (h : Run engine refusal first past last) (hend : last.Finished)
    (h' : Run engine refusal first past' last') (hend' : last'.Finished) : last = last' := by
  obtain ⟨later, -, hlater⟩ := h.exists_rest hend h'
  obtain ⟨-, heq⟩ | ⟨_, _, _, hm, _⟩ := hlater.cases_head
  · exact heq.symm
  · exact absurd hend' hm.not_finished

end Run

end FormLetter
