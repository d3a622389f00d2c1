import FormLetter.Proofs.Document.Collecting

namespace FormLetter.Document

mutual
/-- There is a text element in it, whatever it holds. One without content does not count. -/
def Content.holdsText : Content → Bool
  | .element .text _ => true
  | .element .paragraph inner | .element .run inner | .element .tab inner
  | .element .lineBreak inner | .element .other inner => holdsTextIn inner
  | .empty _ | .text _ | .characters _ => false
termination_by structural content => content

def holdsTextIn : List Content → Bool
  | [] => false
  | content :: rest => content.holdsText || holdsTextIn rest
termination_by structural contents => contents
end

namespace Collector

variable {c c' d : Collector}

theorem opened_inner (f : OpenParagraph → OpenParagraph) (c : Collector) :
    (c.inner f).opened = c.opened.modifyHead f := by
  obtain ⟨opened, closed, count, inText⟩ := c
  cases opened <;> rfl

/-- A change of the innermost paragraph by some content: one with runs closes the run that is open,
and one without them leaves the text to come to that run. -/
structure Spares (runs : Bool) (f : OpenParagraph → OpenParagraph) : Prop where
  index : ∀ p, (f p).index = p.index
  runOpen : ∀ p, (f p).runOpen = (p.runOpen && !runs)
  earlier : runs = false → ∀ p, (f p).earlier = p.earlier ∧ (f p).last.isSome = p.last.isSome

/-- The collector after some content, with runs for the innermost paragraph and text elements or
without them. -/
structure Leaves (runs text : Bool) (c c' : Collector) : Prop where
  opened : ∃ f, Spares runs f ∧ c'.opened = c.opened.modifyHead f
  inText : c'.inText = (c.inText && !text)

theorem spares_id : Spares false id :=
  ⟨fun _ => rfl, fun _ => (Bool.and_true _).symm, fun _ _ => ⟨rfl, rfl⟩⟩

theorem spares_pushText (text : List Char) : Spares false (OpenParagraph.pushText text) := by
  refine ⟨fun p => (OpenParagraph.keeps_pushText text p).1, fun p => by simp, fun _ p => ?_⟩
  unfold OpenParagraph.pushText
  split <;> simp

theorem Spares.comp (h : Spares runs f) (h' : Spares more g) : Spares (runs || more) (g ∘ f) where
  index p := (h'.index (f p)).trans (h.index p)
  runOpen p := by
    rw [Function.comp_apply, h'.runOpen, h.runOpen, Bool.not_or, Bool.and_assoc]
  earlier hnone p := by
    obtain ⟨hf, hg⟩ := Bool.or_eq_false_iff.mp hnone
    obtain ⟨hearlier, hlast⟩ := h.earlier hf p
    obtain ⟨hearlier', hlast'⟩ := h'.earlier hg (f p)
    exact ⟨hearlier'.trans hearlier, hlast'.trans hlast⟩

/-- The run is closed at its end, whatever state its content leaves it in. -/
theorem Spares.run (h : Spares runs f) :
    Spares true (OpenParagraph.closeRun ∘ f ∘ OpenParagraph.openRun) where
  index p := h.index p.openRun
  runOpen _ := (Bool.and_false _).symm
  earlier := nofun

namespace Leaves

theorem refl (c : Collector) : Leaves false false c c :=
  ⟨⟨id, spares_id, by simp⟩, (Bool.and_true _).symm⟩

theorem trans (h : Leaves runs text c d) (h' : Leaves more moreText d c') :
    Leaves (runs || more) (text || moreText) c c' := by
  obtain ⟨⟨f, hf, hopened⟩, hinText⟩ := h
  obtain ⟨⟨g, hg, hopened'⟩, hinText'⟩ := h'
  refine ⟨⟨g ∘ f, hf.comp hg, ?_⟩, ?_⟩
  · rw [hopened', hopened, List.modifyHead_modifyHead]
  · rw [hinText', hinText, Bool.not_or, Bool.and_assoc]

theorem changed (h : Spares runs f) (c : Collector) : Leaves runs false c (c.inner f) :=
  ⟨⟨f, h, opened_inner f c⟩, by rw [inText_inner, Bool.not_false, Bool.and_true]⟩

/-- A paragraph is closed at its end, and all that was read in it with it. -/
theorem paragraph (h : Leaves runs text c.openParagraph d) :
    Leaves false text c d.closeParagraph := by
  obtain ⟨⟨f, -, hopened⟩, hinText⟩ := h
  obtain ⟨opened, closed, count, inText⟩ := d
  cases hopened
  exact ⟨⟨id, spares_id, by simp [closeParagraph]⟩, hinText⟩

theorem run (h : Leaves runs text (c.inner .openRun) d) :
    Leaves true text c (d.inner .closeRun) := by
  obtain ⟨⟨f, hf, hopened⟩, hinText⟩ := h
  refine ⟨⟨_, hf.run, ?_⟩, ?_⟩
  · rw [opened_inner, hopened, opened_inner]
    simp
  · rw [inText_inner, hinText, inText_inner]

theorem element {inner : List Content}
    (h : Leaves (!(runsIn inner).isEmpty) (holdsTextIn inner) (c.openElement e) d) :
    Leaves (!(Content.element e inner).runs.isEmpty) (Content.element e inner).holdsText c
      (d.closeElement e) := by
  cases e with
  | paragraph => exact h.paragraph
  | run => exact h.run
  | text => exact ⟨h.opened, (Bool.and_false _).symm⟩
  | tab | lineBreak => exact (Leaves.changed (spares_pushText _) c).trans h
  | other => exact h

end Leaves

theorem foldlM_element_eq_some {inner : List Content} :
    (Content.element e inner).events.foldlM step? c = some c' ↔
      ∃ d, (eventsOf inner).foldlM step? (c.openElement e) = some d ∧ d.closeElement e = c' := by
  change (eventsOf inner ++ [Event.stop e]).foldlM step? (c.openElement e) = some c' ↔ _
  rw [List.foldlM_append, Option.bind_eq_bind, Option.bind_eq_some_iff]
  simp [step?]

/-- An empty element leaves the state as one that has no content. -/
theorem leaves_empty (e : Element) (c : Collector) :
    Leaves (!(Content.empty e).runs.isEmpty) (Content.empty e).holdsText c (c.emptyElement e) := by
  have hnone : Leaves (!(runsIn []).isEmpty) (holdsTextIn []) (c.openElement e) (c.openElement e) :=
    .refl (c.openElement e)
  have h := hnone.element
  cases e with
  | text => exact .refl c
  | paragraph | run | tab | lineBreak | other => exact h

-- By the element: what is in it is read in the state that its start tag leaves.
mutual
theorem leaves_events : (content : Content) → ∀ {c c'},
    content.events.foldlM step? c = some c' →
    Leaves (!content.runs.isEmpty) content.holdsText c c'
  | .element e inner, _, _, h => by
    obtain ⟨d, hd, rfl⟩ := foldlM_element_eq_some.mp h
    exact (leaves_eventsOf inner hd).element
  | .empty e, c, _, h => by
    cases h
    exact leaves_empty e c
  | .text raw, c, c', h => by
    have hstep : c.step? (.text raw) = some c' := by simpa [Content.events] using h
    rw [step?] at hstep
    split at hstep
    · obtain ⟨text, -, rfl⟩ := Option.map_eq_some_iff.mp hstep
      exact .changed (spares_pushText text) c
    · cases hstep
      exact .refl c
  | .characters raw, c, _, h => by
    cases h
    split
    · exact .changed (spares_pushText raw) c
    · exact .refl c
termination_by structural content => content

theorem leaves_eventsOf : (contents : List Content) → ∀ {c c'},
    (eventsOf contents).foldlM step? c = some c' →
    Leaves (!(runsIn contents).isEmpty) (holdsTextIn contents) c c'
  | [], c, _, h => by
    cases h
    exact .refl c
  | content :: rest, _, _, h => by
    rw [eventsOf, List.foldlM_append] at h
    obtain ⟨d, hcontent, hrest⟩ := Option.bind_eq_some_iff.mp h
    have hruns : (!(runsIn (content :: rest)).isEmpty) =
        (!content.runs.isEmpty || !(runsIn rest).isEmpty) := by
      rw [runsIn]
      cases content.runs <;> rfl
    rw [hruns]
    exact (leaves_events content hcontent).trans (leaves_eventsOf rest hrest)
termination_by structural contents => contents
end

/-- A run that is open is there to take text. -/
def RunsHeld (c : Collector) : Prop :=
  ∀ p ∈ c.opened, p.runOpen = true → p.last.isSome = true

namespace RunsHeld

theorem inner (h : c.RunsHeld)
    (hf : ∀ p, (p.runOpen = true → p.last.isSome = true) →
      (f p).runOpen = true → (f p).last.isSome = true) : (c.inner f).RunsHeld := by
  intro p hp
  rw [opened_inner] at hp
  cases hc : c.opened with
  | nil => simp [hc] at hp
  | cons q opened =>
    rw [hc, List.modifyHead_cons] at hp
    rcases List.mem_cons.mp hp with rfl | hp
    · exact hf q (h q (by simp [hc]))
    · exact h p (by simp [hc, hp])

theorem pushText (h : c.RunsHeld) (text : List Char) : (c.inner (.pushText text)).RunsHeld := by
  refine h.inner fun p hp hopen => ?_
  rw [OpenParagraph.runOpen_pushText] at hopen
  simp [OpenParagraph.pushText, hopen, hp hopen]

theorem openElement (h : c.RunsHeld) (e : Element) : (c.openElement e).RunsHeld := by
  cases e with
  | paragraph => exact List.forall_mem_cons.mpr ⟨nofun, h⟩
  | run => exact h.inner fun _ _ _ => rfl
  | text => exact h
  | tab | lineBreak => exact h.pushText _
  | other => exact h

theorem closeElement (h : c.RunsHeld) (e : Element) : (c.closeElement e).RunsHeld := by
  cases e with
  | paragraph =>
    obtain ⟨opened, closed, count, inText⟩ := c
    cases opened with
    | nil => exact h
    | cons p opened => exact (List.forall_mem_cons.mp h).2
  | run => exact h.inner fun _ _ hopen => nomatch hopen
  | text => exact h
  | tab | lineBreak | other => exact h

theorem step (h : c.RunsHeld) (hs : c.step? event = some c') : c'.RunsHeld := by
  cases event with
  | start e =>
    cases hs
    exact h.openElement e
  | empty e =>
    cases hs
    by_cases ht : e = .text
    · rw [ht]
      exact h
    · rw [c.emptyElement_eq ht]
      exact (h.openElement e).closeElement e
  | stop e =>
    cases hs
    exact h.closeElement e
  | text raw =>
    rw [step?] at hs
    split at hs
    · obtain ⟨text, -, rfl⟩ := Option.map_eq_some_iff.mp hs
      exact h.pushText text
    · cases hs
      exact h
  | characters raw =>
    cases hs
    split
    · exact h.pushText raw
    · exact h

theorem run {events : List Event} (h : c.RunsHeld) (hr : events.foldlM step? c = some c') :
    c'.RunsHeld := by
  induction events generalizing c with
  | nil =>
    cases hr
    exact h
  | cons event events ih =>
    obtain ⟨next, hs, hr⟩ := Option.bind_eq_some_iff.mp hr
    exact ih (h.step hs) hr

end RunsHeld

/-- Whether a run of the innermost paragraph is open, if there is a paragraph. -/
def runOpen? (c : Collector) : Option Bool :=
  c.opened.head?.map OpenParagraph.runOpen

/-- The open paragraphs are as they were before, and so is whether a run is open in the innermost
and whether text is read. -/
structure Restored (c c' : Collector) : Prop where
  paragraphs : c'.opened.map OpenParagraph.index = c.opened.map OpenParagraph.index
  runOpen : c'.runOpen? = c.runOpen?
  inText : c'.inText = c.inText

namespace Leaves

theorem indexes (h : Leaves runs text c c') :
    c'.opened.map OpenParagraph.index = c.opened.map OpenParagraph.index := by
  obtain ⟨⟨f, hf, hopened⟩, -⟩ := h
  rw [hopened]
  cases c.opened with
  | nil => rfl
  | cons p opened => simp [hf.index]

theorem outer (h : Leaves runs text c c') : c'.opened.tail = c.opened.tail := by
  obtain ⟨⟨f, -, hopened⟩, -⟩ := h
  rw [hopened]
  cases c.opened <;> rfl

theorem runOpen (h : Leaves runs text c c') : c'.runOpen? = c.runOpen?.map (· && !runs) := by
  obtain ⟨⟨f, hf, hopened⟩, -⟩ := h
  rw [runOpen?, runOpen?, hopened]
  cases c.opened with
  | nil => rfl
  | cons p opened => simp [hf.runOpen]

theorem restored_iff (h : Leaves runs text c c') :
    c.Restored c' ↔ (c.runOpen? = some true → runs = false) ∧ (c.inText = true → text = false) := by
  have hrun : c'.runOpen? = c.runOpen? ↔ (c.runOpen? = some true → runs = false) := by
    rw [h.runOpen]
    rcases c.runOpen? with _ | _ | _ <;> simp
  have htext : c'.inText = c.inText ↔ (c.inText = true → text = false) := by
    rw [h.inText]
    cases c.inText <;> simp
  rw [← hrun, ← htext]
  constructor
  · intro hrestored
    exact ⟨hrestored.runOpen, hrestored.inText⟩
  · rintro ⟨hrunOpen, hinText⟩
    exact ⟨h.indexes, hrunOpen, hinText⟩

end Leaves

end Collector

open Collector

/-- Elements are closed in the order in which they were opened, so that the paragraphs that were
open are open again after an element. A run that was open is open again just if the element holds no
run but those of paragraphs in it. Then text to come goes to that run, and else it is dropped. -/
theorem restored_iff_of_element {before : List Event} {content : Content}
    (hc : before.foldlM step? start = some c) (h : content.events.foldlM step? c = some c') :
    c'.opened.map OpenParagraph.index = c.opened.map OpenParagraph.index ∧
    c'.opened.tail = c.opened.tail ∧
    (c.Restored c' ↔ (c.runOpen? = some true → content.runs = []) ∧
      (c.inText = true → content.holdsText = false)) ∧
    ∀ p outer, c.opened = p :: outer → p.runOpen = true → ∃ p', c'.opened = p' :: outer ∧
      (content.runs = [] → ∃ read, ∀ text,
        (p'.pushText text).runs = p.earlier ++ [⟨p.earlier.length, read ++ text⟩]) ∧
      (content.runs ≠ [] → ∀ text, p'.pushText text = p') := by
  have hleaves : Leaves (!content.runs.isEmpty) content.holdsText c c' := leaves_events content h
  have hheld : c.RunsHeld := RunsHeld.run (by simp [RunsHeld, start]) hc
  refine ⟨hleaves.indexes, hleaves.outer, ?_, ?_⟩
  · rw [hleaves.restored_iff, Bool.not_eq_false', List.isEmpty_iff]
  · intro p outer hopened hopen
    obtain ⟨⟨f, hf, hopened'⟩, -⟩ := hleaves
    rw [hopened, List.modifyHead_cons] at hopened'
    refine ⟨f p, hopened', ?_, ?_⟩
    · intro hruns
      obtain ⟨hearlier, hlast⟩ := hf.earlier (by simp [hruns]) p
      rw [hheld p (by simp [hopened]) hopen, Option.isSome_iff_exists] at hlast
      obtain ⟨read, hread⟩ := hlast
      refine ⟨read, fun text => ?_⟩
      have hstill : (f p).runOpen = true := by simp [hf.runOpen, hopen, hruns]
      simp [OpenParagraph.pushText, OpenParagraph.runs, hstill, hread, hearlier]
    · intro hruns text
      have hshut : (f p).runOpen = false := by simp [hf.runOpen, hruns]
      simp [OpenParagraph.pushText, hshut]

/-- A text box in a run. -/
def boxInRun : Content :=
  .element .other [.element .paragraph [.element .run [.element .text [.text "box".toList]]]]

/-- The run around a text box takes the text after it. -/
theorem restored_iff_of_element_textBox :
    let before := [.start .paragraph, .start .run, .start .text, .characters ['a'], .stop .text]
    let p := ⟨0, [], some ['a'], true⟩
    let c := ⟨[p], [], 1, false⟩
    let c' := ⟨[p], [⟨1, [⟨0, "box".toList⟩]⟩], 2, false⟩
    (before.foldlM step? start = some c ∧ boxInRun.events.foldlM step? c = some c' ∧
      boxInRun.runs = [] ∧ boxInRun.holdsText = true) ∧
    c.Restored c' ∧ ∃ read, ∀ text, (p.pushText text).runs = [⟨0, read ++ text⟩] := by
  intro before p c c'
  have hc : before.foldlM step? start = some c := rfl
  have h : boxInRun.events.foldlM step? c = some c' := by decide +kernel
  obtain ⟨-, -, hrestored, hnext⟩ := restored_iff_of_element hc h
  refine ⟨⟨hc, h, rfl, rfl⟩, hrestored.mpr ⟨fun _ => rfl, nofun⟩, ?_⟩
  obtain ⟨p', hp', htaken, -⟩ := hnext p [] rfl rfl
  cases hp'
  exact htaken rfl

/-- Ruby text, with a run for the characters that it stands over. -/
def rubyText : Content :=
  .element .other [.element .other [.element .run [.element .text [.text ['b']]]]]

/-- Text after the ruby text in a run is dropped: the run of the ruby text closes it, though it goes
on. -/
theorem not_restored_after_rubyText :
    (¬∀ (before : List Event) (content : Content) (c c' : Collector),
      before.foldlM step? start = some c → content.events.foldlM step? c = some c' →
      c.Restored c') ∧
    paragraphs? (eventsOf [.element .paragraph [.element .run
      [.element .text [.text ['a']], rubyText, .element .text [.text ['c']]]]]) =
        some [⟨0, [⟨0, ['a']⟩, ⟨1, ['b']⟩]⟩] := by
  constructor
  · intro h
    have hrestored := h [.start .paragraph, .start .run] rubyText
      ⟨[⟨0, [], some [], true⟩], [], 1, false⟩ ⟨[⟨0, [⟨0, []⟩], some ['b'], false⟩], [], 1, false⟩
      rfl (by decide +kernel)
    cases hrestored.runOpen
  · decide +kernel

end FormLetter.Document
