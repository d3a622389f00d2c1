import FormLetter.Document.Paragraph
import Mathlib.Data.List.Basic

namespace FormLetter.Document

/-- The runs have their places for numbers. -/
def RunsNumbered (runs : List Run) : Prop :=
  runs.map Run.index = List.range runs.length

namespace OpenParagraph

variable {p : OpenParagraph}

theorem runsNumbered (h : RunsNumbered p.earlier) : RunsNumbered p.runs := by
  unfold runs
  cases p.last with
  | none => exact h
  | some text =>
    unfold RunsNumbered at h ⊢
    simp [h, List.range_succ]

/-- A change of an open paragraph that leaves the numbers of its runs in order. -/
def Keeps (f : OpenParagraph → OpenParagraph) : Prop :=
  ∀ p, (f p).index = p.index ∧ (RunsNumbered p.earlier → RunsNumbered (f p).earlier)

theorem keeps_openRun : Keeps openRun :=
  fun _ => ⟨rfl, runsNumbered⟩

theorem keeps_closeRun : Keeps closeRun :=
  fun _ => ⟨rfl, id⟩

theorem keeps_pushText (text : List Char) : Keeps (pushText text) := by
  intro p
  unfold pushText
  split
  · exact ⟨rfl, id⟩
  · exact ⟨rfl, id⟩

end OpenParagraph

namespace Collector

/-- Other empty elements are as those that end at once. -/
theorem emptyElement_eq (c : Collector) (h : element ≠ .text) :
    c.emptyElement element = (c.openElement element).closeElement element := by
  cases element with
  | text => exact absurd rfl h
  | paragraph | run | tab | lineBreak | other => rfl

/-- The paragraphs so far are numbered by their opening tags, and their runs by their order. -/
structure Numbered (c : Collector) : Prop where
  paragraphs : (c.opened.map OpenParagraph.index ++ c.closed.map Paragraph.index).Perm
    (List.range c.count)
  opened : ∀ p ∈ c.opened, RunsNumbered p.earlier
  closed : ∀ p ∈ c.closed, RunsNumbered p.runs

namespace Numbered

variable {c : Collector}

theorem start : Collector.start.Numbered :=
  ⟨.refl _, by simp [Collector.start], by simp [Collector.start]⟩

theorem inner (h : c.Numbered) (hf : OpenParagraph.Keeps f) : (c.inner f).Numbered := by
  obtain ⟨opened, closed, count, inText⟩ := c
  cases opened with
  | nil => exact h
  | cons p opened =>
    obtain ⟨hparagraphs, hopened, hclosed⟩ := h
    rw [List.forall_mem_cons] at hopened
    refine ⟨?_, List.forall_mem_cons.mpr ⟨(hf p).2 hopened.1, hopened.2⟩, hclosed⟩
    simpa [Collector.inner, (hf p).1] using hparagraphs

theorem openParagraph (h : c.Numbered) : c.openParagraph.Numbered := by
  refine ⟨?_, List.forall_mem_cons.mpr ⟨rfl, h.opened⟩, h.closed⟩
  have := (h.paragraphs.cons c.count).trans (List.perm_append_singleton _ _).symm
  simpa [Collector.openParagraph, List.range_succ] using this

theorem closeParagraph (h : c.Numbered) : c.closeParagraph.Numbered := by
  obtain ⟨opened, closed, count, inText⟩ := c
  cases opened with
  | nil => exact h
  | cons p opened =>
    obtain ⟨hparagraphs, hopened, hclosed⟩ := h
    rw [List.forall_mem_cons] at hopened
    refine ⟨List.perm_middle.trans hparagraphs, hopened.2, ?_⟩
    exact List.forall_mem_cons.mpr ⟨OpenParagraph.runsNumbered hopened.1, hclosed⟩

theorem openElement (h : c.Numbered) (element : Element) : (c.openElement element).Numbered := by
  cases element with
  | paragraph => exact h.openParagraph
  | run => exact h.inner OpenParagraph.keeps_openRun
  | text => exact ⟨h.paragraphs, h.opened, h.closed⟩
  | tab => exact h.inner (OpenParagraph.keeps_pushText _)
  | lineBreak => exact h.inner (OpenParagraph.keeps_pushText _)
  | other => exact h

theorem closeElement (h : c.Numbered) (element : Element) : (c.closeElement element).Numbered := by
  cases element with
  | paragraph => exact h.closeParagraph
  | run => exact h.inner OpenParagraph.keeps_closeRun
  | text => exact ⟨h.paragraphs, h.opened, h.closed⟩
  | tab | lineBreak | other => exact h

theorem emptyElement (h : c.Numbered) (element : Element) : (c.emptyElement element).Numbered := by
  by_cases ht : element = .text
  · rw [ht]
    exact h
  · rw [c.emptyElement_eq ht]
    exact (h.openElement element).closeElement element

theorem step (h : c.Numbered) (hs : c.step? event = some c') : c'.Numbered := by
  cases event with
  | start element =>
    cases hs
    exact h.openElement element
  | empty element =>
    cases hs
    exact h.emptyElement element
  | stop element =>
    cases hs
    exact h.closeElement element
  | text raw =>
    simp only [Collector.step?] at hs
    split at hs
    · obtain ⟨text, -, rfl⟩ := Option.map_eq_some_iff.mp hs
      exact h.inner (OpenParagraph.keeps_pushText text)
    · cases hs
      exact h
  | characters raw =>
    cases hs
    split
    · exact h.inner (OpenParagraph.keeps_pushText raw)
    · exact h

theorem run {events : List Event} (h : c.Numbered)
    (hr : events.foldlM Collector.step? c = some c') : c'.Numbered := by
  induction events generalizing c with
  | nil =>
    cases hr
    exact h
  | cons event events ih =>
    obtain ⟨next, hs, hr⟩ := Option.bind_eq_some_iff.mp hr
    exact ih (h.step hs) hr

end Numbered

theorem pairwise_finish (c : Collector) : c.finish.Pairwise fun a b => a.index ≤ b.index := by
  have h : c.finish.Pairwise fun a b => decide (a.index ≤ b.index) = true :=
    List.pairwise_mergeSort (fun a b d => by simpa using Nat.le_trans)
      (fun a b => by simpa using Nat.le_total _ _) _
  exact h.imp of_decide_eq_true

theorem finish_perm (c : Collector) :
    c.finish.Perm (c.opened.map OpenParagraph.paragraph ++ c.closed) :=
  List.mergeSort_perm _ _

theorem Numbered.finish {c : Collector} (h : c.Numbered) :
    c.finish.map Paragraph.index = List.range c.finish.length ∧
      ∀ p ∈ c.finish, RunsNumbered p.runs := by
  have hindexes : (c.opened.map OpenParagraph.paragraph ++ c.closed).map Paragraph.index =
      c.opened.map OpenParagraph.index ++ c.closed.map Paragraph.index := by
    simp [OpenParagraph.paragraph, Function.comp_def]
  have hperm : (c.finish.map Paragraph.index).Perm (List.range c.count) := by
    refine (c.finish_perm.map _).trans ?_
    rw [hindexes]
    exact h.paragraphs
  have hlength : c.finish.length = c.count := by simpa using hperm.length_eq
  refine ⟨?_, ?_⟩
  · rw [hlength]
    refine hperm.eq_of_pairwise (fun a b _ _ => Nat.le_antisymm) ?_ ?_
    · exact List.pairwise_map.mpr c.pairwise_finish
    · exact List.pairwise_lt_range.imp Nat.le_of_lt
  · intro p hp
    rcases List.mem_append.mp (c.finish_perm.mem_iff.mp hp) with hp | hp
    · obtain ⟨open', hm, rfl⟩ := List.mem_map.mp hp
      exact OpenParagraph.runsNumbered (h.opened open' hm)
    · exact h.closed p hp

end Collector

/-- Whatever the events, the paragraphs are numbered in their order, and so are the runs of each. -/
theorem numbered_of_paragraphs? (h : paragraphs? events = some ps) :
    ps.map Paragraph.index = List.range ps.length ∧ ∀ p ∈ ps, RunsNumbered p.runs := by
  obtain ⟨c, hc, rfl⟩ := Option.map_eq_some_iff.mp h
  exact (Collector.Numbered.start.run hc).finish

end FormLetter.Document
