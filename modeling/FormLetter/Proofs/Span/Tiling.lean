import FormLetter.Proofs.Markup.Agreement

namespace FormLetter

open Document (Paragraph)

/-- The run that holds the character after the front of a paragraph. -/
def Document.Paragraph.HoldsAfter (p : Paragraph) (front : List Char) (r : Document.Run) : Prop :=
  ∃ earlier later before rest, p.runs = earlier ++ r :: later ∧ r.text = before ++ rest ∧
    rest ≠ [] ∧ front = earlier.flatMap Document.Run.text ++ before

namespace Placed

theorem run_of_mem_ofText {n offset : Nat} {cs : List Char} (h : a ∈ ofText n offset cs) :
    a.run = n := by
  induction cs generalizing offset with
  | nil => cases h
  | cons c cs ih =>
    rcases List.mem_cons.mp h with rfl | h
    · rfl
    · exact ih h

/-- A character among runs belongs to the one that holds it. -/
theorem exists_run_of_ofRuns {start : Nat} {runs : List Document.Run} {before : List Placed}
    (h : ofRuns start runs = before ++ a :: rest) :
    ∃ earlier r later front back, runs = earlier ++ r :: later ∧ r.text = front ++ back ∧
      back ≠ [] ∧ before.map char = earlier.flatMap Document.Run.text ++ front ∧
      a.run = r.index := by
  induction runs generalizing start before with
  | nil => cases before <;> cases h
  | cons r runs ih =>
    have hlater (skipped : List Placed) (hb : before = ofText r.index start r.text ++ skipped)
        (hr : ofRuns (start + Text.size16 r.text) runs = skipped ++ a :: rest) :
        ∃ earlier r' later front back, r :: runs = earlier ++ r' :: later ∧
          r'.text = front ++ back ∧ back ≠ [] ∧
          before.map char = earlier.flatMap Document.Run.text ++ front ∧ a.run = r'.index := by
      obtain ⟨earlier, r', later, front, back, rfl, ht, hn, hf, hi⟩ := ih hr
      refine ⟨r :: earlier, r', later, front, back, rfl, ht, hn, ?_, hi⟩
      rw [hb, List.map_append, map_char_ofText, hf, List.flatMap_cons, List.append_assoc]
    rcases List.append_eq_append_iff.mp h with ⟨skipped, hb, hr⟩ | ⟨inside, hb, hr⟩
    · exact hlater skipped hb hr
    · cases inside with
      | nil => exact hlater [] (by simpa using hb.symm) (by simpa using hr.symm)
      | cons c inside =>
        obtain ⟨rfl, _⟩ := List.cons.inj hr
        have ht := congrArg (List.map char) hb
        rw [map_char_ofText, List.map_append, List.map_cons] at ht
        have hm : a ∈ ofText r.index start r.text := by simp [hb]
        exact ⟨[], r, runs, before.map char, a.char :: inside.map char, rfl, ht, by simp, rfl,
          run_of_mem_ofText hm⟩

theorem not_infix_cons {d : Char} {a b : Placed} (h : ¬arePair d a b = true) {cs rest : List Char}
    (hcs : cs <+: b.char :: rest) (hn : ¬[d, d] <:+: cs) : ¬[d, d] <:+: a.char :: cs :=
  Markup.not_infix_cons (mt arePair_iff.mpr h) hcs hn

theorem inner_prefix (cs : List Placed) : (stretch cs).inner.map char <+: cs.map char := by
  obtain ⟨closing, hs, _⟩ := stretch_append cs
  refine ⟨(closing ++ (stretch cs).rest).map char, ?_⟩
  rw [← List.map_append, ← List.append_assoc, ← hs]

/-- No delimiter of either kind stands in the inner text of a tag. -/
theorem not_infix_inner (cs : List Placed) :
    ¬['{', '{'] <:+: (stretch cs).inner.map char ∧
      ¬['}', '}'] <:+: (stretch cs).inner.map char := by
  fun_induction stretch cs with
  | case1 a b rest h => simp
  | case2 a b rest _ h => simp
  | case3 a b rest hc ho s ih =>
    have hprefix := inner_prefix (b :: rest)
    exact ⟨not_infix_cons ho hprefix ih.1, not_infix_cons hc hprefix ih.2⟩
  | case4 cs h =>
    rcases cs with _ | ⟨a, _ | ⟨b, rest⟩⟩
    · simp
    · simp [List.infix_cons_iff]
    · exact absurd rfl (h a b rest)

/-- A tag that is not closed ends where the next one opens, or where the text does. -/
theorem rest_of_fault (cs : List Placed) (h : (stretch cs).fault ≠ none) :
    (stretch cs).rest = [] ∨
      ∃ a b after, (stretch cs).rest = a :: b :: after ∧ arePair '{' a b = true := by
  fun_induction stretch cs with
  | case1 a b rest _ => exact absurd rfl h
  | case2 a b rest _ ho => exact .inr ⟨a, b, rest, rfl, ho⟩
  | case3 a b rest _ _ s ih => exact ih h
  | case4 cs => exact .inl rfl

end Placed

/-- What ends before some characters of a paragraph ends at the first of them, or with the text. -/
theorem Document.Paragraph.offset_after {p : Paragraph} (h : p.placed = before ++ rest) :
    (rest.head?.map Placed.offset).getD (Text.size16 p.text) =
      Text.size16 (before.map Placed.char) := by
  cases rest with
  | nil =>
    rw [List.append_nil] at h
    rw [← p.map_char_placed, h]
    rfl
  | cons a rest =>
    have hadjoin := p.adjoin_placed
    rw [h, Placed.adjoin_append, Nat.zero_add] at hadjoin
    exact hadjoin.2.1

/-- A character of a paragraph knows its run and the size of what stands before it. -/
theorem Document.Paragraph.placed_at {p : Paragraph} (h : p.placed = before ++ a :: rest) :
    a.offset = Text.size16 (before.map Placed.char) ∧
      ∃ r, p.HoldsAfter (before.map Placed.char) r ∧ a.run = r.index := by
  obtain ⟨earlier, r, later, front, back, hr, ht, hn, hf, hi⟩ := Placed.exists_run_of_ofRuns h
  exact ⟨Document.Paragraph.offset_after h, r, ⟨earlier, later, front, back, hr, ht, hn, hf⟩, hi⟩

namespace Span

/-- The shape of the text of a tag: closed, with the inner text that it is classified by, or not
closed. -/
def IsShaped (s : Span) : Prop :=
  match s.content with
  | .ok token => ∃ inner, s.raw.toList = '{' :: '{' :: inner ++ ['}', '}'] ∧
      ¬['{', '{'] <:+: inner ∧ ¬['}', '}'] <:+: inner ∧ token = Markup.classify inner
  | .error _ => ∃ inner, s.raw.toList = '{' :: '{' :: inner ∧ ¬['}', '}'] <:+: inner

theorem IsShaped.size16_raw_pos {s : Span} (h : s.IsShaped) : 0 < Text.size16 s.raw.toList := by
  unfold IsShaped at h
  split at h
  · obtain ⟨inner, hr, _⟩ := h
    have := Text.units16_pos '{'
    rw [hr, List.cons_append, Text.size16]
    omega
  · obtain ⟨inner, hr, _⟩ := h
    have := Text.units16_pos '{'
    rw [hr, Text.size16]
    omega

/-- The spans lie one after the other in the text that is left of a paragraph after its front. -/
inductive Tiles (p : Paragraph) : List Char → List Span → List Char → Prop where
  | last (front : List Char) {rest : List Char} (gap : ¬['{', '{'] <:+: rest) :
      Tiles p front [] rest
  | tag {front gap after : List Char} {s : Span} {spans : List Span} {r : Document.Run}
      (noOpening : ¬['{', '{'] <:+: gap)
      (start : s.start = Text.size16 (front ++ gap))
      (stop : s.stop = s.start + Text.size16 s.raw.toList)
      (held : p.HoldsAfter (front ++ gap) r) (run : s.run = r.index) (shaped : s.IsShaped)
      /- A tag that is not closed ends with the paragraph or where the next tag starts. -/
      (ends : s.IsClosed ∨ after = [] ∨ ∃ next later, spans = next :: later ∧ next.start = s.stop)
      (tail : Tiles p (front ++ gap ++ s.raw.toList) spans after) :
      Tiles p front (s :: spans) (gap ++ s.raw.toList ++ after)

namespace Tiles

variable {p : Paragraph}

/-- A character that starts no opening delimiter belongs to a gap. -/
theorem skip {a b : Placed} {cs : List Placed} (h : ¬Placed.arePair '{' a b = true)
    (ht : Tiles p (front ++ [a.char]) spans ((b :: cs).map Placed.char)) :
    Tiles p front spans ((a :: b :: cs).map Placed.char) := by
  rw [List.map_cons]
  generalize hw : (b :: cs).map Placed.char = rest at ht
  cases ht with
  | last _ gap => exact .last _ (Placed.not_infix_cons h (by rw [← hw]; exact List.prefix_rfl) gap)
  | tag noOpening start stop held run shaped ends tail =>
    rename_i gap after s spans r
    have hgap : front ++ [a.char] ++ gap = front ++ a.char :: gap := by simp
    rw [hgap] at start held tail
    have hprefix : gap <+: b.char :: cs.map Placed.char := by
      rw [← List.map_cons, hw, List.append_assoc]
      exact List.prefix_append gap _
    exact .tag (Placed.not_infix_cons h hprefix noOpening) start stop held run shaped ends tail

/-- Every span takes up room, in the text that is left. -/
theorem bounds (h : Tiles p front spans rest) : ∀ s ∈ spans, Text.size16 front ≤ s.start ∧
    s.start < s.stop ∧ s.stop ≤ Text.size16 (front ++ rest) := by
  induction h with
  | last => simp
  | tag noOpening start stop held run shaped ends tail ih =>
    have hpos := shaped.size16_raw_pos
    simp only [Text.size16_append] at ih start ⊢
    intro s hs
    rcases List.mem_cons.mp hs with rfl | hs
    · omega
    · have := ih s hs
      omega

/-- No two spans overlap. -/
theorem disjoint (h : Tiles p front spans rest) :
    spans.Pairwise fun s t => s.stop ≤ t.start := by
  induction h with
  | last => exact .nil
  | tag noOpening start stop held run shaped ends tail ih =>
    refine .cons (fun t ht => ?_) ih
    obtain ⟨hfront, _⟩ := tail.bounds t ht
    simp only [Text.size16_append] at hfront start
    omega

end Tiles

/-- The text of a tag that an opening delimiter starts, with what follows it. -/
theorem raw_ofStretch (part : String) (p : Paragraph) (n : Nat) {a b : Placed}
    (rest : List Placed) (h : Placed.arePair '{' a b = true) :
    (a :: b :: rest).map Placed.char =
      (ofStretch part p n a (Placed.stretch rest)).raw.toList ++
        (Placed.stretch rest).rest.map Placed.char := by
  obtain ⟨ha, hb⟩ := Placed.arePair_iff.mp h
  obtain ⟨closing, hs, hc⟩ := Placed.stretch_append rest
  have hraw : (ofStretch part p n a (Placed.stretch rest)).raw.toList =
      '{' :: '{' :: (Placed.stretch rest).inner.map Placed.char ++ closing.map Placed.char := by
    rw [hc, ofStretch, String.toList_ofList]
  conv_lhs => rw [hs]
  simp [hraw, ha, hb]

theorem isShaped_ofStretch (part : String) (p : Paragraph) (n : Nat) (a : Placed)
    (cs : List Placed) : (ofStretch part p n a (Placed.stretch cs)).IsShaped := by
  obtain ⟨hopen, hclose⟩ := Placed.not_infix_inner cs
  cases hf : (Placed.stretch cs).fault with
  | none =>
    simp only [IsShaped, ofStretch, hf]
    exact ⟨_, String.toList_ofList .., hopen, hclose, rfl⟩
  | some fault =>
    simp only [IsShaped, ofStretch, hf]
    refine ⟨_, ?_, hclose⟩
    simp

/-- The characters of a paragraph up to the end of a tag are those before it and those of its
text. -/
theorem exists_walked (part : String) (n : Nat) {p : Paragraph} {walked rest : List Placed}
    {a b : Placed} (h : p.placed = walked ++ a :: b :: rest)
    (hab : Placed.arePair '{' a b = true) :
    ∃ later, p.placed = later ++ (Placed.stretch rest).rest ∧
      later.map Placed.char = walked.map Placed.char ++
        (ofStretch part p n a (Placed.stretch rest)).raw.toList := by
  obtain ⟨closing, hs, _⟩ := Placed.stretch_append rest
  have hw : p.placed = (walked ++ a :: b :: ((Placed.stretch rest).inner ++ closing)) ++
      (Placed.stretch rest).rest := by
    rw [h, List.append_assoc, List.cons_append, List.cons_append, ← hs]
  refine ⟨_, hw, ?_⟩
  have htext := congrArg (List.map Placed.char) (h.symm.trans hw)
  rw [List.map_append, raw_ofStretch part p n rest hab, List.map_append, ← List.append_assoc]
    at htext
  exact (List.append_cancel_right htext).symm

/-- The tags among the characters that are left of a paragraph lie in their text as spans do,
whatever their ordinals are. The induction is on the characters that are left; `walked` are those
before them. -/
theorem tiles_tags (part : String) {p : Paragraph} (number : Nat → Nat) {walked cs : List Placed}
    (h : p.placed = walked ++ cs) :
    Tiles p (walked.map Placed.char)
      ((Placed.tags cs).mapIdx fun n tag => ofStretch part p (number n) tag.1 tag.2)
      (cs.map Placed.char) := by
  fun_induction Placed.tags cs generalizing walked number with
  | case1 a b rest hab ih =>
    obtain ⟨hoffset, r, hheld, hrun⟩ := Document.Paragraph.placed_at h
    obtain ⟨later, hw, hchars⟩ := exists_walked part (number 0) h hab
    have hstop := Document.Paragraph.offset_after hw
    have htail := ih (fun n => number (n + 1)) hw
    rw [hchars] at hstop htail
    rw [List.mapIdx_cons, raw_ofStretch part p (number 0) rest hab]
    refine @Tiles.tag p _ [] _ _ _ r (by simp) ?_ ?_ (by simpa using hheld) hrun
      (isShaped_ofStretch part p (number 0) a rest) ?_ (by simpa using htail)
    · rw [List.append_nil]
      exact hoffset
    · rw [Text.size16_append, ← hoffset] at hstop
      exact hstop
    · cases hf : (Placed.stretch rest).fault with
      | none =>
        exact .inl ⟨Markup.classify ((Placed.stretch rest).inner.map Placed.char),
          by simp [ofStretch, hf]⟩
      | some fault =>
        refine .inr ?_
        rcases Placed.rest_of_fault rest (by simp [hf]) with hr | ⟨c, d, after, hr, hcd⟩
        · exact .inl (by rw [hr]; rfl)
        · refine .inr ⟨_, _, by rw [hr, Placed.tags, if_pos hcd, List.mapIdx_cons], ?_⟩
          simp [ofStretch, hr]
  | case2 a b rest hab ih =>
    have hw : p.placed = (walked ++ [a]) ++ b :: rest := by rw [h]; simp
    have ht := ih number hw
    rw [List.map_append] at ht
    exact Tiles.skip hab ht
  | case3 cs hcs =>
    rcases cs with _ | ⟨a, _ | ⟨b, rest⟩⟩
    · exact .last _ (by simp)
    · exact .last _ (by simp [List.infix_cons_iff])
    · exact absurd rfl (hcs a b rest)

/-- The spans that a paragraph adds to those found before make up its text, with gaps between them
in which no tag opens. They take up room, inside the paragraph, and none overlaps another. -/
theorem scan_tiles (found : List Span) (part : String) (p : Paragraph) :
    ∃ added, scan found [(part, p)] = found ++ added ∧ Tiles p [] added p.text ∧
      added.Pairwise (fun s t => s.stop ≤ t.start) ∧
      ∀ s ∈ added, s.start < s.stop ∧ s.stop ≤ Text.size16 p.text := by
  have htiles := tiles_tags part (p := p) (fun n => found.length + n) (List.nil_append _).symm
  rw [p.map_char_placed] at htiles
  exact ⟨ofParagraph part found.length p, rfl, htiles, htiles.disjoint,
    fun s hs => (htiles.bounds s hs).2⟩

end Span

end FormLetter
