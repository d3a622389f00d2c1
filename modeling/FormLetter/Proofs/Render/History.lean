import FormLetter.Proofs.Render.Markers
import Mathlib.Data.List.Forall2

namespace FormLetter

/-- The piece where so many page breaks have been numbered before. -/
def OutputPiece.shift (n : Nat) : OutputPiece → OutputPiece
  | text s => text s
  | pageBreak k => pageBreak (n + k)

def OutputPiece.number? : OutputPiece → Option Nat
  | text _ => none
  | pageBreak k => some k

namespace Output

def shift (n : Nat) (output : Output) : Output :=
  output.map (·.shift n)

/-- The numbers of the page breaks, in order. -/
def numbers (output : Output) : List Nat :=
  output.filterMap OutputPiece.number?

@[simp]
theorem shift_append (n : Nat) (output more : Output) :
    shift n (output ++ more) = shift n output ++ shift n more :=
  List.map_append

@[simp]
theorem shift_text (n : Nat) (t : String) : shift n [.text t] = [.text t] := rfl

@[simp]
theorem shift_pageBreak (n k : Nat) : shift n [.pageBreak k] = [.pageBreak (n + k)] := rfl

@[simp]
theorem numbers_append (output more : Output) :
    numbers (output ++ more) = numbers output ++ numbers more :=
  List.filterMap_append

@[simp]
theorem numbers_text (t : String) : numbers [.text t] = [] := rfl

@[simp]
theorem numbers_pageBreak (k : Nat) : numbers [.pageBreak k] = [k] := rfl

end Output

/-- The same moment in a rendering that comes after others, which have set so many markers. Only
the numbers of markers differ. -/
structure Moment.Later (n : Nat) (m later : Moment) : Prop where
  steps : later.steps = m.steps
  outer : later.outer = m.outer
  stack : later.state.stack = m.state.stack
  next : later.state.next = n + m.state.next
  output : later.output = m.output.shift n
  failure : later.failure = m.failure

/-- What is refused depends on the open fragments alone. -/
theorem Engine.refusal_congr {engine : Engine} {s s' : RenderState} (h : s'.stack = s.stack)
    (name : String) : engine.refusal name s' = engine.refusal name s := by
  obtain ⟨stack, markers, next⟩ := s
  obtain ⟨stack', markers', next'⟩ := s'
  cases h
  rfl

section

variable {engine : Engine} {m m' first first' last : Moment}

/-- What can be done at a moment can be done at the same moment of a later rendering. -/
theorem Moves.later (h : Moves engine engine.refusal m after) (hm : m.Later n m') :
    ∃ after', Moves engine engine.refusal m' after' ∧ after.Later n after' := by
  obtain ⟨steps, outer, s', output, failure⟩ := m'
  obtain ⟨hsteps, houter, hstack, hnext, houtput, hfailure⟩ := hm
  dsimp only at hsteps houter hstack hnext houtput hfailure
  subst hsteps houter houtput hfailure
  cases h with
  | text =>
    refine ⟨_, .text, rfl, rfl, hstack, hnext, ?_, rfl⟩
    simp
  | pageBreak =>
    refine ⟨_, .pageBreak, rfl, rfl, hstack, ?_, ?_, rfl⟩
    · change s'.next + 1 = n + (_ + 1)
      rw [hnext, Nat.add_assoc]
    · simp [hnext]
  | fail => exact ⟨_, .fail, rfl, rfl, hstack, hnext, rfl, rfl⟩
  | refuse hrefusal =>
    rw [← Engine.refusal_congr hstack] at hrefusal
    exact ⟨_, .refuse hrefusal, rfl, rfl, hstack, hnext, rfl, rfl⟩
  | @miss name _ _ _ _ _ _ hrefusal ht =>
    rw [← Engine.refusal_congr hstack] at hrefusal
    exact ⟨_, .miss hrefusal ht, rfl, rfl, congrArg (· ++ [name]) hstack, hnext, rfl, rfl⟩
  | @enter name _ _ _ _ _ _ hrefusal ht =>
    rw [← Engine.refusal_congr hstack] at hrefusal
    exact ⟨_, .enter hrefusal ht, rfl, rfl, congrArg (· ++ [name]) hstack, hnext, rfl, rfl⟩
  | leave hsteps =>
    exact ⟨_, .leave hsteps, rfl, rfl, congrArg List.dropLast hstack, hnext, rfl, rfl⟩

/-- A later rendering goes through the same moments. -/
theorem Run.later (h : Run engine engine.refusal first past last) (hfirst : first.Later n first') :
    ∃ past' last', Run engine engine.refusal first' past' last' ∧
      List.Forall₂ (Moment.Later n) past past' ∧ last.Later n last' := by
  induction h with
  | start => exact ⟨[], first', .start, .nil, hfirst⟩
  | step _ hm ih =>
    obtain ⟨past', m', hrun, hpast, hlater⟩ := ih
    obtain ⟨last', hm', hlast⟩ := hm.later hlater
    refine ⟨past' ++ [m'], last', hrun.step hm', ?_, hlast⟩
    exact List.rel_append hpast (.cons hlater .nil)

/-- Where no marker has been set before, page breaks are numbered from zero on. -/
theorem Moves.numbers (h : Moves engine engine.refusal m m')
    (hm : m.output.numbers = List.range m.state.next) :
    m'.output.numbers = List.range m'.state.next := by
  cases h with
  | text =>
    dsimp only at hm ⊢
    simpa using hm
  | pageBreak =>
    dsimp only at hm ⊢
    rw [Output.numbers_append, hm, Output.numbers_pageBreak]
    exact List.range_succ.symm
  | fail | refuse | miss | enter | leave => exact hm

end

namespace Moment

variable {m later : Moment}

theorem Ends.finished (h : m.Ends [] r) (houter : m.outer = []) : m.Finished := by
  refine ⟨houter, ?_⟩
  intro hfailure
  cases r with
  | error error => cases hfailure.symm.trans h
  | ok output => exact h.2.1

/-- The last moment of a rendering has one result. -/
theorem Ends.unique (h : m.Ends [] r) (h' : m.Ends [] r') : r = r' := by
  cases r with
  | error error =>
    have hfailure : m.failure = some error := h
    cases r' with
    | error error' =>
      cases hfailure.symm.trans h'
      rfl
    | ok output => cases hfailure.symm.trans h'.1
  | ok output =>
    obtain ⟨hfailure, -, houtput⟩ := h
    cases r' with
    | error error => cases hfailure.symm.trans h'
    | ok output' =>
      have heq : output = output' := houtput.symm.trans h'.2.2
      rw [heq]

theorem Later.ends (hm : m.Later n later) (h : m.Ends [] r) :
    later.Ends [] (r.map (Output.shift n)) := by
  cases r with
  | error error => exact hm.failure.trans h
  | ok output =>
    obtain ⟨hfailure, hsteps, houtput⟩ := h
    refine ⟨hm.failure.trans hfailure, hm.steps.trans hsteps, ?_⟩
    rw [hm.output, houtput]
    rfl

end Moment

namespace Engine

/-- The run of a rendering, with the output that its last moment has. -/
theorem exists_run_body (engine : Engine) (s : RenderState) (data : Context)
    (template : Template) :
    let r := (engine.renderBody data template.body).run s
    ∃ past last, Run engine engine.refusal (.start engine s data template) past last ∧
      last.Finished ∧ last.state = r.2 ∧ last.Ends [] r.1 := by
  obtain ⟨past, last, hrun, houter, hstate, hends⟩ :=
    (engine.completes_renderBody s data template.body).2 [] []
  exact ⟨past, last, hrun, hends.finished houter, hstate, hends⟩

theorem renderIn_eq_map (engine : Engine) (s : RenderState) (data : Context)
    (template : Template) :
    (engine.renderIn s data template).1 =
      ((engine.renderBody data template.body).run s).1.map Output.toString := rfl

end Engine

namespace Session

theorem stack_eq_nil (h : Session names s) : s.stack = [] := by
  induction h with
  | fresh => rfl
  | marker _ _ ih => exact ih
  | rendering _ _ _ ih => rw [Engine.renderIn_stack, ih]

theorem next_eq_length (h : Session names s) : s.next = names.length := by
  rw [h.issued.numbered, List.length_map, List.length_range]

/-- A rendering fails after others with the error with which it would fail from a fresh state, or
has the same output but for the numbers of its page breaks. These count from zero in a fresh state,
and here from the number of markers that have been set. Nor do its moments show anything else of
what came before. -/
theorem renderIn_shifted (h : Session names s) (engine : Engine) (data : Context)
    (template : Template) :
    let fresh := (engine.renderBody data template.body).run .fresh
    let after := (engine.renderBody data template.body).run s
    (engine.renderIn .fresh data template).1 = fresh.1.map Output.toString ∧
    (engine.renderIn s data template).1 =
      fresh.1.map (fun output => (output.shift names.length).toString) ∧
    (∀ output, fresh.1 = .ok output → output.numbers = List.range fresh.2.next) ∧
    after.2.stack = fresh.2.stack ∧ after.2.next = names.length + fresh.2.next ∧
    ∃ past last past' last',
      Run engine engine.refusal (.start engine .fresh data template) past last ∧ last.Finished ∧
      Run engine engine.refusal (.start engine s data template) past' last' ∧ last'.Finished ∧
      List.Forall₂ (Moment.Later names.length) past past' ∧ last.Later names.length last' := by
  intro fresh after
  obtain ⟨past, last, hrun, hend, hstate, hends⟩ := engine.exists_run_body .fresh data template
  obtain ⟨_, final, hrun', hend', hstate', hends'⟩ := engine.exists_run_body s data template
  have hstart : (Moment.start engine .fresh data template).Later names.length
      (.start engine s data template) :=
    ⟨rfl, rfl, h.stack_eq_nil, h.next_eq_length, rfl, rfl⟩
  obtain ⟨past', last', hlater, hpast, hlast⟩ := hrun.later hstart
  have hfinished : last'.Finished :=
    (hlast.ends hends).finished (hlast.outer.trans hend.1)
  -- There is one way on from every moment, so that both runs of the later rendering end alike.
  obtain rfl : last' = final := hlater.unique hfinished hrun' hend'
  have hresult : after.1 = fresh.1.map (Output.shift names.length) :=
    hends'.unique (hlast.ends hends)
  have hnumbers : last.output.numbers = List.range last.state.next :=
    hrun.invariant (P := fun m => m.output.numbers = List.range m.state.next)
      (fun hm => hm.numbers) rfl
  refine ⟨engine.renderIn_eq_map .fresh data template, ?_, ?_, ?_, ?_, ?_⟩
  · calc (engine.renderIn s data template).1
        = after.1.map Output.toString := engine.renderIn_eq_map s data template
      _ = (fresh.1.map (Output.shift names.length)).map Output.toString := by rw [hresult]
      _ = fresh.1.map (fun output => (output.shift names.length).toString) := by
        cases fresh.1 <;> rfl
  · intro output houtput
    have hfresh : last.Ends [] (.ok output) := houtput ▸ hends
    have hlastOutput : last.output = output := hfresh.2.2
    rw [← hlastOutput, hnumbers, hstate]
  · rw [← hstate, ← hstate']
    exact hlast.stack
  · rw [← hstate, ← hstate']
    exact hlast.next
  · exact ⟨past, last, past', last', hrun, hend, hlater, hfinished, hpast, hlast⟩

/-- The page break of a rendering that has failed is not seen, but its number has been given. -/
theorem renderIn_shifted_of_failed :
    let broken : Template :=
      ⟨"\x7b\x7bpageBreak\x7d\x7d\x7b\x7binclude 1\x7d\x7d",
        [.pageBreak, .includeTag (.literal (.int 1))]⟩
    let template : Template := ⟨"a\x7b\x7bpageBreak\x7d\x7d", [.text "a", .pageBreak]⟩
    let s := (Engine.plain.renderIn .fresh [] broken).2
    Session [RenderState.markerName 0] s ∧
      (Engine.plain.renderIn .fresh [] template).1 = .ok "a⟦docxlate:pagebreak:0⟧" ∧
      (Engine.plain.renderIn s [] template).1 = .ok "a⟦docxlate:pagebreak:1⟧" := by
  intro broken template s
  have hrun : Run Engine.plain Engine.plain.refusal (.start .plain .fresh [] broken) _ _ :=
    (Run.single .pageBreak).step .fail
  have h : Session [RenderState.markerName 0] s :=
    .rendering .fresh hrun ⟨rfl, nofun⟩
  obtain ⟨hfresh, hlater, -⟩ := h.renderIn_shifted .plain [] template
  have hfirst : Output.toString [.text "a", .pageBreak 0] = "a⟦docxlate:pagebreak:0⟧" := by
    decide +kernel
  have hsecond : Output.toString [.text "a", .pageBreak 1] = "a⟦docxlate:pagebreak:1⟧" := by
    decide +kernel
  refine ⟨h, ?_, ?_⟩
  · rw [hfresh, ← hfirst]
    rfl
  · rw [hlater, ← hsecond]
    rfl

end Session

end FormLetter
