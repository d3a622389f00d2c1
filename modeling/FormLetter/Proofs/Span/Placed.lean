import FormLetter.Span

namespace FormLetter

namespace Placed

theorem map_char_ofText (run offset : Nat) (cs : List Char) :
    (ofText run offset cs).map char = cs := by
  induction cs generalizing offset with
  | nil => rfl
  | cons c cs ih => rw [ofText, List.map_cons, ih]

theorem map_char_ofRuns (offset : Nat) (runs : List Document.Run) :
    (ofRuns offset runs).map char = runs.flatMap Document.Run.text := by
  induction runs generalizing offset with
  | nil => rfl
  | cons r runs ih => rw [ofRuns, List.map_append, map_char_ofText, ih, List.flatMap_cons]

/-- Each character starts where the one before it ends. -/
def Adjoin (start : Nat) : List Placed → Prop
  | [] => True
  | a :: cs => a.offset = start ∧ Adjoin (start + Text.units16 a.char) cs

theorem adjoin_append {as bs : List Placed} :
    Adjoin start (as ++ bs) ↔
      Adjoin start as ∧ Adjoin (start + Text.size16 (as.map char)) bs := by
  induction as generalizing start with
  | nil => simp [Adjoin, Text.size16]
  | cons a as ih => simp [Adjoin, Text.size16, ih, and_assoc, Nat.add_assoc]

theorem adjoin_ofText (run offset : Nat) (cs : List Char) :
    Adjoin offset (ofText run offset cs) := by
  induction cs generalizing offset with
  | nil => trivial
  | cons c cs ih => exact ⟨rfl, ih _⟩

theorem adjoin_ofRuns (offset : Nat) (runs : List Document.Run) :
    Adjoin offset (ofRuns offset runs) := by
  induction runs generalizing offset with
  | nil => trivial
  | cons r runs ih =>
    rw [ofRuns, adjoin_append, map_char_ofText]
    exact ⟨adjoin_ofText _ _ _, ih _⟩

/-- The text of a tag and what follows it make up the text after its opening delimiter. -/
theorem stretch_append (cs : List Placed) :
    ∃ closing, cs = (stretch cs).inner ++ closing ++ (stretch cs).rest ∧
      closing.map char = if (stretch cs).fault.isNone then ['}', '}'] else [] := by
  fun_induction stretch cs with
  | case1 a b rest h => exact ⟨[a, b], rfl, by simpa [arePair] using h⟩
  | case2 a b rest _ h => exact ⟨[], rfl, rfl⟩
  | case3 a b rest _ _ s ih =>
    obtain ⟨closing, hs, hc⟩ := ih
    exact ⟨closing, congrArg (a :: ·) hs, hc⟩
  | case4 cs => exact ⟨[], by simp, rfl⟩

/-- Forgets the run that a character comes from. -/
def erase (a : Placed) : Placed :=
  { a with run := 0 }

def Stretch.erase (s : Stretch) : Stretch :=
  { s with inner := s.inner.map Placed.erase, rest := s.rest.map Placed.erase }

theorem arePair_erase (d : Char) (a b : Placed) : arePair d a.erase b.erase = arePair d a b := rfl

theorem stretch_erase (cs : List Placed) : stretch (cs.map erase) = (stretch cs).erase := by
  fun_induction stretch cs with
  | case1 a b rest h => simp [stretch, arePair_erase, h, Stretch.erase]
  | case2 a b rest hc ho => simp [stretch, arePair_erase, hc, ho, Stretch.erase]
  | case3 a b rest hc ho s ih =>
    simp only [List.map_cons] at ih ⊢
    simp [stretch, arePair_erase, hc, ho, ih, Stretch.erase, s]
  | case4 cs h =>
    match cs with
    | [] => rfl
    | [a] => rfl
    | a :: b :: rest => exact absurd rfl (h a b rest)

/-- Which tags there are does not hang on the runs. -/
theorem tags_erase (cs : List Placed) :
    tags (cs.map erase) = (tags cs).map fun tag => (tag.1.erase, tag.2.erase) := by
  fun_induction tags cs with
  | case1 a b rest h ih =>
    simp only [List.map_cons]
    rw [tags, arePair_erase, if_pos h, stretch_erase]
    exact congrArg _ ih
  | case2 a b rest h ih =>
    simp only [List.map_cons] at ih ⊢
    rw [tags, arePair_erase, if_neg h, ih]
  | case3 cs h =>
    match cs with
    | [] => simp [tags]
    | [a] => simp [tags]
    | a :: b :: rest => exact absurd rfl (h a b rest)

theorem map_erase_ofText (run offset : Nat) (cs : List Char) :
    (ofText run offset cs).map erase = ofText 0 offset cs := by
  induction cs generalizing offset with
  | nil => rfl
  | cons c cs ih => rw [ofText, List.map_cons, ih]; rfl

theorem ofText_append (run offset : Nat) (as bs : List Char) :
    ofText run offset (as ++ bs) =
      ofText run offset as ++ ofText run (offset + Text.size16 as) bs := by
  induction as generalizing offset with
  | nil => rfl
  | cons a as ih => simp [ofText, ih, Text.size16, Nat.add_assoc]

theorem map_erase_ofRuns (offset : Nat) (runs : List Document.Run) :
    (ofRuns offset runs).map erase = ofText 0 offset (runs.flatMap Document.Run.text) := by
  induction runs generalizing offset with
  | nil => rfl
  | cons r runs ih =>
    rw [ofRuns, List.map_append, map_erase_ofText, ih, List.flatMap_cons, ofText_append]

end Placed

open Document (Paragraph)

theorem Document.Paragraph.map_char_placed (p : Paragraph) : p.placed.map Placed.char = p.text :=
  Placed.map_char_ofRuns 0 p.runs

theorem Document.Paragraph.adjoin_placed (p : Paragraph) : Placed.Adjoin 0 p.placed :=
  Placed.adjoin_ofRuns 0 p.runs

namespace Span

/-- What is read off the spans of a paragraph without their ordinals is read off its tags. -/
theorem map_ofParagraph {part : String} {p : Paragraph} {f : Span → α}
    {g : Placed × Placed.Stretch → α} (h : ∀ n tag, f (ofStretch part p n tag.1 tag.2) = g tag)
    (ordinal : Nat) : (ofParagraph part ordinal p).map f = (Placed.tags p.placed).map g := by
  apply List.ext_getElem?
  intro n
  simp only [ofParagraph, List.getElem?_map, List.getElem?_mapIdx, Option.map_map]
  congr 1
  funext tag
  exact h _ tag

/-- Forgets the run that a tag starts in. -/
def eraseRun (s : Span) : Span :=
  { s with run := 0 }

theorem eraseRun_ofStretch (part : String) (p : Paragraph) (n : Nat) (a : Placed)
    (s : Placed.Stretch) :
    (ofStretch part p n a s).eraseRun = ofStretch part p n a.erase s.erase := by
  simp [eraseRun, ofStretch, Placed.Stretch.erase, Placed.erase, Function.comp_def]

/-- But for their runs, the spans of a paragraph are those of its text. -/
theorem map_eraseRun_ofParagraph (part : String) (ordinal : Nat) (p : Paragraph) :
    (ofParagraph part ordinal p).map eraseRun =
      (Placed.tags (Placed.ofText 0 0 p.text)).mapIdx fun n tag =>
        ofStretch part p (ordinal + n) tag.1 tag.2 := by
  have he := Placed.tags_erase p.placed
  rw [Document.Paragraph.placed, Placed.map_erase_ofRuns] at he
  apply List.ext_getElem?
  intro n
  rw [Paragraph.text, he]
  simp [ofParagraph, Document.Paragraph.placed, eraseRun_ofStretch, Function.comp_def]

end Span

end FormLetter
