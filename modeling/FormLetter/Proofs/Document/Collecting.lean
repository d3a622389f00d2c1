import FormLetter.Proofs.Document.Forest
import Mathlib.Data.List.Nodup

namespace FormLetter.Document

namespace OpenParagraph

variable {p : OpenParagraph}

/-- The paragraph after a run with a given content. -/
def addRun (p : OpenParagraph) (run : List Content) : OpenParagraph :=
  ⟨p.index, p.runs, some (readTextIn run), false⟩

/-- The paragraph after content with given text and runs. Text counts only in a run. -/
def take (text : List Char) (runs : List (List Content)) (p : OpenParagraph) : OpenParagraph :=
  if p.runOpen then p.pushText text else runs.foldl addRun p

@[simp] theorem pushText_nil : pushText [] p = p := by
  obtain ⟨index, earlier, last, runOpen⟩ := p
  cases last <;> simp [pushText]

@[simp] theorem runOpen_pushText (text : List Char) : (pushText text p).runOpen = p.runOpen := by
  unfold pushText
  split <;> rfl

theorem pushText_append (text more : List Char) :
    pushText (text ++ more) p = pushText more (pushText text p) := by
  obtain ⟨index, earlier, last, runOpen⟩ := p
  cases runOpen with
  | false => rfl
  | true => cases last <;> simp [pushText]

theorem runOpen_foldl_addRun (h : p.runOpen = false) (runs : List (List Content)) :
    (runs.foldl addRun p).runOpen = false := by
  induction runs generalizing p with
  | nil => exact h
  | cons run runs ih => exact ih rfl

@[simp] theorem runOpen_take (text : List Char) (runs : List (List Content)) :
    (p.take text runs).runOpen = p.runOpen := by
  unfold take
  split
  · exact runOpen_pushText text
  · next h => rw [runOpen_foldl_addRun (by simpa using h), Bool.eq_false_iff.mpr h]

theorem take_noRuns (text : List Char) : take text [] = pushText text := by
  funext p
  unfold take pushText
  split <;> simp_all

theorem take_append (text more : List Char) (earlier rest : List (List Content)) :
    p.take (text ++ more) (earlier ++ rest) = (p.take text earlier).take more rest := by
  cases hr : p.runOpen with
  | true => simp [take, hr, pushText_append]
  | false => simp [take, hr, runOpen_foldl_addRun hr]

theorem paragraph_foldl_addRun (runs : List (List Content)) :
    (runs.foldl addRun p).paragraph =
      ⟨p.index, p.runs ++ runs.mapIdx fun m run => ⟨p.runs.length + m, readTextIn run⟩⟩ := by
  induction runs generalizing p with
  | nil => simp [paragraph]
  | cons run runs ih =>
    have h : (p.addRun run).runs = p.runs ++ [⟨p.runs.length, readTextIn run⟩] := rfl
    rw [List.foldl_cons, ih, h]
    simp [addRun, List.mapIdx_cons, Nat.add_assoc, Nat.add_comm 1]

/-- A paragraph that is closed after its content. -/
theorem paragraph_take (n : Nat) (inner : List Content) :
    (take (readTextIn inner) (runsIn inner) ⟨n, [], none, false⟩).paragraph =
      paragraphOf n inner := by
  have hnew : take (readTextIn inner) (runsIn inner) ⟨n, [], none, false⟩ =
      (runsIn inner).foldl addRun ⟨n, [], none, false⟩ := rfl
  rw [hnew, paragraph_foldl_addRun]
  simp [runs, paragraphOf]

end OpenParagraph

namespace Collector

variable {c : Collector}

/-- No text element is open, and a run of the innermost paragraph is or is not. -/
def Ready (inRun : Bool) (c : Collector) : Prop :=
  c.inText = false ∧ ∀ p ∈ c.opened.head?, p.runOpen = inRun

/-- The collector after events that change its innermost paragraph, and open some and close them. -/
def collected (c : Collector) (f : OpenParagraph → OpenParagraph) (closed : List Paragraph)
    (added : Nat) : Collector :=
  ⟨(c.inner f).opened, closed, c.count + added, c.inText⟩

/-- With sound references, the events change the innermost paragraph, and open and close paragraphs
with given contents. The order of those closed is not that of their opening tags, as a paragraph is
closed after those in it. -/
def Collects (c : Collector) (events : List Event) (sound : Bool)
    (f : OpenParagraph → OpenParagraph) (contents : List (List Content)) : Prop :=
  ∃ closed, closed.Perm (numberedFrom c.count contents ++ c.closed) ∧
    events.foldlM step? c = if sound then some (c.collected f closed contents.length) else none

theorem inner_congr (h : ∀ p ∈ c.opened.head?, f p = g p) : c.inner f = c.inner g := by
  obtain ⟨opened, closed, count, inText⟩ := c
  cases opened with
  | nil => rfl
  | cons p opened => simp [inner, h p rfl]

theorem inner_eq_self (h : ∀ p, f p = p) : c.inner f = c := by
  obtain ⟨opened, closed, count, inText⟩ := c
  cases opened <;> simp [inner, h]

theorem inner_inner (f g : OpenParagraph → OpenParagraph) (c : Collector) :
    (c.inner f).inner g = c.inner (g ∘ f) := by
  obtain ⟨opened, closed, count, inText⟩ := c
  cases opened <;> rfl

theorem inText_inner (f : OpenParagraph → OpenParagraph) (c : Collector) :
    (c.inner f).inText = c.inText := by
  obtain ⟨opened, closed, count, inText⟩ := c
  cases opened <;> rfl

theorem inner_eq_collected (f : OpenParagraph → OpenParagraph) (c : Collector) :
    c.inner f = c.collected f c.closed 0 := by
  obtain ⟨opened, closed, count, inText⟩ := c
  cases opened <;> rfl

theorem collected_collected (f g : OpenParagraph → OpenParagraph) (closed closed' : List Paragraph)
    (n m : Nat) :
    (c.collected f closed n).collected g closed' m = c.collected (g ∘ f) closed' (n + m) := by
  obtain ⟨opened, closed, count, inText⟩ := c
  cases opened <;> simp [collected, inner, Nat.add_assoc]

theorem Ready.collected (h : c.Ready inRun) (hf : ∀ p, (f p).runOpen = p.runOpen)
    (closed : List Paragraph) (n : Nat) : (c.collected f closed n).Ready inRun := by
  obtain ⟨opened, closed, count, inText⟩ := c
  cases opened with
  | nil => exact h
  | cons p opened => exact ⟨h.1, by simpa [Collector.collected, inner, hf] using h.2⟩

namespace Collects

theorem congr (h : c.Collects events sound f contents) (hfg : ∀ p ∈ c.opened.head?, f p = g p) :
    c.Collects events sound g contents := by
  simp only [Collects, collected, ← inner_congr hfg]
  exact h

theorem single (h : c.step? event = some (c.inner f)) : c.Collects [event] true f [] := by
  refine ⟨c.closed, .refl _, ?_⟩
  rw [List.foldlM_cons, h, inner_eq_collected]
  rfl

theorem append (h : c.Collects events sound f contents)
    (hmore : ∀ closed, (c.collected f closed contents.length).Collects more soundMore g rest) :
    c.Collects (events ++ more) (sound && soundMore) (g ∘ f) (contents ++ rest) := by
  obtain ⟨closed, hperm, hrun⟩ := h
  obtain ⟨closed', hperm', hrun'⟩ := hmore closed
  refine ⟨closed', ?_, ?_⟩
  · rw [numberedFrom_append, List.append_assoc]
    exact hperm'.trans ((hperm.append_left _).trans (List.perm_append_comm_assoc _ _ _))
  · rw [List.foldlM_append, hrun]
    cases sound with
    | false => rfl
    | true =>
      rw [collected_collected, ← List.length_append] at hrun'
      exact hrun'

/-- An element whose tags change the innermost paragraph only. -/
theorem between (hstart : c.step? (.start e) = some (c.inner f))
    (hinner : ∀ closed, (c.collected f closed 0).Collects events sound g contents)
    (hstop : ∀ d : Collector, d.step? (.stop e) = some (d.inner k)) :
    c.Collects (.start e :: (events ++ [.stop e])) sound (fun p => k (g (f p))) contents := by
  have h := (single hstart).append fun closed => (hinner closed).append fun _ => single (hstop _)
  simpa [Function.comp_def] using h

end Collects

/-- What is in a text element is read as its text, or refused. -/
theorem foldlM_text (h : contents.all Content.isText = true) (hc : c.inText = true) :
    (eventsOf contents).foldlM step? c =
      (characterData? contents).map fun text => c.inner (.pushText text) := by
  induction contents generalizing c with
  | nil => exact congrArg some (inner_eq_self fun _ => OpenParagraph.pushText_nil).symm
  | cons content rest ih =>
    rw [List.all_cons, Bool.and_eq_true] at h
    have hrest (text : List Char) : (eventsOf rest).foldlM step? (c.inner (.pushText text)) =
        (characterData? rest).map fun more => c.inner (.pushText (text ++ more)) := by
      rw [ih h.2 ((inText_inner _ c).trans hc)]
      congr 1
      funext more
      rw [inner_inner]
      exact inner_congr fun p _ => (OpenParagraph.pushText_append text more).symm
    cases content with
    | element => cases h.1
    | empty e =>
      cases e with
      | other => exact ih h.2 hc
      | paragraph | run | text | tab | lineBreak => cases h.1
    | text raw =>
      cases hraw : Xml.unescape? raw with
      | none => simp [eventsOf, Content.events, characterData?, step?, hc, hraw]
      | some text =>
        simp [eventsOf, Content.events, characterData?, step?, hc, hraw, hrest, Function.comp_def]
    | characters raw =>
      simp [eventsOf, Content.events, characterData?, step?, hc, hrest, Function.comp_def]

/-- The collector reads what a content holds. -/
def Reads (c : Collector) (content : Content) : Prop :=
  c.Collects content.events content.sound (.take content.readText content.runs) content.paragraphs

def ReadsIn (c : Collector) (contents : List Content) : Prop :=
  c.Collects (eventsOf contents) (soundIn contents) (.take (readTextIn contents) (runsIn contents))
    (paragraphsIn contents)

variable {inner : List Content}

theorem inner_take_nil (c : Collector) : c.inner (.take [] []) = c :=
  inner_eq_self fun _ => by rw [OpenParagraph.take_noRuns, OpenParagraph.pushText_nil]

theorem reads_textElement (hc : c.inText = false) (h : inner.all Content.isText = true) :
    c.Reads (.element .text inner) := by
  obtain ⟨hparagraphs, hruns⟩ := only_text h
  have hrun : (Content.element .text inner).events.foldlM step? c =
      (characterData? inner).map fun text => c.collected (.pushText text) c.closed 0 := by
    change (eventsOf inner ++ [Event.stop .text]).foldlM step? { c with inText := true } = _
    rw [List.foldlM_append, foldlM_text h rfl]
    cases characterData? inner with
    | none => rfl
    | some text =>
      obtain ⟨opened, closed, count, inText⟩ := c
      cases hc
      cases opened <;> rfl
  refine ⟨c.closed, ?_, ?_⟩
  · rw [Content.paragraphs, hparagraphs]
    exact .refl _
  · rw [hrun, Content.sound, Content.readText, Content.runs, Content.paragraphs, hruns, hparagraphs,
      OpenParagraph.take_noRuns]
    cases characterData? inner <;> rfl

theorem reads_paragraph (hinner : c.openParagraph.ReadsIn inner) :
    c.Reads (.element .paragraph inner) := by
  obtain ⟨closed, hperm, hrun⟩ := hinner
  refine ⟨paragraphOf c.count inner :: closed, ?_, ?_⟩
  · rw [Content.paragraphs, numberedFrom_cons]
    exact hperm.cons _
  · change (eventsOf inner ++ [Event.stop .paragraph]).foldlM step? c.openParagraph = _
    rw [List.foldlM_append, hrun, Content.sound, Content.readText, Content.runs, Content.paragraphs,
      List.length_cons, ← OpenParagraph.paragraph_take]
    cases soundIn inner with
    | false => rfl
    | true =>
      have hcount : c.count + ((paragraphsIn inner).length + 1) =
          c.openParagraph.count + (paragraphsIn inner).length := by
        simp only [openParagraph]
        omega
      have hafter (done : List Paragraph) :
          c.collected (.take [] []) done ((paragraphsIn inner).length + 1) =
            ⟨c.opened, done, c.openParagraph.count + (paragraphsIn inner).length, c.inText⟩ := by
        rw [collected, inner_take_nil, hcount]
      exact congrArg some (hafter _).symm

theorem reads_run (hc : c.Ready false) (h : PlainIn true inner)
    (hinner : ∀ {c : Collector}, c.Ready true → c.ReadsIn inner) :
    c.Reads (.element .run inner) := by
  have hstart (closed : List Paragraph) : (c.collected .openRun closed 0).Ready true := by
    obtain ⟨opened, closed, count, inText⟩ := c
    cases opened with
    | nil => exact ⟨hc.1, nofun⟩
    | cons p opened => exact ⟨hc.1, by rintro _ ⟨⟩; rfl⟩
  have hreads :=
    Collects.between (e := .run) rfl (fun closed => hinner (hstart closed)) fun _ => rfl
  refine hreads.congr fun p hp => ?_
  have hclosed : p.runOpen = false := hc.2 p hp
  rw [Content.readText, Content.runs, runsIn_of_plain inner h]
  simp [OpenParagraph.take, OpenParagraph.openRun, OpenParagraph.closeRun, OpenParagraph.pushText,
    OpenParagraph.addRun, hclosed]

/-- An element whose opening tag stands for text. -/
theorem collects_through (hstart : c.step? (.start e) = some (c.inner (.pushText text)))
    (hinner : ∀ closed, (c.collected (.pushText text) closed 0).ReadsIn inner)
    (hstop : ∀ d : Collector, d.step? (.stop e) = some d) :
    c.Collects (.start e :: (eventsOf inner ++ [.stop e])) (soundIn inner)
      (.take (text ++ readTextIn inner) (runsIn inner)) (paragraphsIn inner) := by
  have hstop' (d : Collector) : d.step? (.stop e) = some (d.inner id) :=
    (hstop d).trans (congrArg some (inner_eq_self fun _ => rfl).symm)
  refine (Collects.between hstart hinner hstop').congr fun p _ => ?_
  have h := OpenParagraph.take_append (p := p) text (readTextIn inner) [] (runsIn inner)
  rw [OpenParagraph.take_noRuns] at h
  exact h.symm

theorem reads_element (hc : c.Ready inRun) (h : (Content.element e inner).Plain inRun)
    (ih : ∀ {inRun : Bool} {c : Collector}, c.Ready inRun → PlainIn inRun inner → c.ReadsIn inner) :
    c.Reads (.element e inner) := by
  have hinner (text : List Char) (h : PlainIn inRun inner) (closed : List Paragraph) :
      (c.collected (.pushText text) closed 0).ReadsIn inner :=
    ih (hc.collected (fun _ => OpenParagraph.runOpen_pushText text) closed 0) h
  cases e with
  | paragraph => exact reads_paragraph (ih ⟨hc.1, by rintro _ ⟨⟩; rfl⟩ h)
  | run =>
    obtain ⟨rfl, h⟩ := h
    exact reads_run hc h fun hc => ih hc h
  | text => exact reads_textElement hc.1 h
  | tab => exact collects_through (e := .tab) rfl (hinner _ h) fun _ => rfl
  | lineBreak => exact collects_through (e := .lineBreak) rfl (hinner _ h) fun _ => rfl
  | other =>
    have hstart : c.step? (.start .other) = some (c.inner (.pushText [])) :=
      congrArg some (inner_eq_self fun _ => OpenParagraph.pushText_nil).symm
    exact collects_through hstart (hinner _ h) fun _ => rfl

theorem readsIn_nil (c : Collector) : c.ReadsIn [] := by
  refine ⟨c.closed, .refl _, ?_⟩
  change some c = some (c.collected (.take [] []) c.closed 0)
  rw [← inner_eq_collected, inner_take_nil]

/-- An empty element is read as one that has no content. -/
theorem reads_empty (hc : c.Ready inRun) (h : (Content.empty e).Plain inRun) :
    c.Reads (.empty e) := by
  have hread {e : Element} (h : (Content.element e []).Plain inRun) : c.Reads (.element e []) :=
    reads_element hc h fun _ _ => readsIn_nil _
  cases e with
  | text => exact Collects.single (congrArg some c.inner_take_nil.symm)
  | run => exact hread (e := .run) ⟨h, trivial⟩
  | paragraph => exact hread (e := .paragraph) h
  | tab => exact hread (e := .tab) h
  | lineBreak => exact hread (e := .lineBreak) h
  | other => exact hread (e := .other) h

theorem reads_text (hc : c.inText = false) (raw : List Char) :
    c.Reads (.text raw) ∧ c.Reads (.characters raw) := by
  have hkeep : some c = some (c.inner (.take [] [])) := congrArg some (inner_take_nil c).symm
  refine ⟨.single (.trans ?_ hkeep), .single (.trans ?_ hkeep)⟩
  · simp [step?, hc]
  · simp [step?, hc]

-- In any collector that is ready: a paragraph in a run is read by one in which no run is open.
mutual
theorem reads : (content : Content) → ∀ {inRun c}, Ready inRun c → content.Plain inRun →
    c.Reads content
  | .element _ inner, _, _, hc, h => reads_element hc h fun hc h => readsIn inner hc h
  | .empty _, _, _, hc, h => reads_empty hc h
  | .text raw, _, _, hc, _ => (reads_text hc.1 raw).1
  | .characters raw, _, _, hc, _ => (reads_text hc.1 raw).2
termination_by structural content => content

/-- The collector reads what a forest holds. -/
theorem readsIn : (contents : List Content) → ∀ {inRun c}, Ready inRun c →
    PlainIn inRun contents → c.ReadsIn contents
  | [], _, c, _, _ => readsIn_nil c
  | content :: rest, _, c, hc, h => by
    have hcontent : c.Reads content := reads content hc h.1
    have hrest (closed : List Paragraph) := readsIn rest
      (hc.collected (fun _ => OpenParagraph.runOpen_take content.readText content.runs) closed
        content.paragraphs.length) h.2
    refine (hcontent.append hrest).congr fun p _ => ?_
    exact (OpenParagraph.take_append _ _ _ _).symm
termination_by structural contents => contents
end

theorem finish_of_perm (h : c.opened = []) (hperm : c.closed.Perm (numberedFrom n contents)) :
    c.finish = numberedFrom n contents := by
  have hall : c.finish.Perm (numberedFrom n contents) := by
    have hfinish := c.finish_perm
    rw [h] at hfinish
    exact hfinish.trans hperm
  have hindexes := index_numberedFrom n contents
  have hnodup : ((numberedFrom n contents).map Paragraph.index).Nodup := by
    rw [hindexes]
    exact List.nodup_range'
  refine hall.eq_of_pairwise (fun a b ha hb hab hba => ?_) c.pairwise_finish ?_
  · exact List.inj_on_of_nodup_map hnodup (hall.mem_iff.mp ha) hb (Nat.le_antisymm hab hba)
  · rw [← List.pairwise_map, hindexes]
    exact List.pairwise_le_range' _

end Collector

/-- The collector reads the paragraphs of a forest from its events, and refuses it just if a
reference in a text element is not sound. -/
theorem paragraphs?_eventsOf (h : PlainIn false forest) :
    paragraphs? (eventsOf forest) =
      if soundIn forest then some (paragraphsOf forest) else none := by
  obtain ⟨closed, hperm, hrun⟩ := Collector.readsIn forest (c := .start) ⟨rfl, nofun⟩ h
  rw [paragraphs?, hrun]
  cases soundIn forest with
  | false => rfl
  | true =>
    refine congrArg some (Collector.finish_of_perm rfl ?_)
    exact hperm.trans (.of_eq (List.append_nil _))

end FormLetter.Document
