import FormLetter.Markup.Lexer
import FormLetter.Span.Placed

namespace FormLetter

namespace Markup

/-- A search passes over a character that does not begin a delimiter. -/
theorem findPair_cons (h : ¬(a = c ∧ b = c)) :
    findPair c (a :: b :: rest) =
      (findPair c (b :: rest)).map fun found => (a :: found.1, found.2) := by
  rw [findPair, if_neg h]

theorem findPair_pair (c : Char) (rest : List Char) :
    findPair c (c :: c :: rest) = some ([], rest) := by
  simp [findPair]

/-- Two characters that make up no delimiter do not start one. -/
theorem not_infix_cons (h : ¬(a = c ∧ b = c)) {cs rest : List Char} (hcs : cs <+: b :: rest)
    (hn : ¬[c, c] <:+: cs) : ¬[c, c] <:+: a :: cs := by
  rw [List.infix_cons_iff]
  rintro (hp | hi)
  · obtain ⟨ha, hc⟩ := List.cons_prefix_cons.mp hp
    obtain ⟨hb, _⟩ := List.cons_prefix_cons.mp (hc.trans hcs)
    exact h ⟨ha.symm, hb.symm⟩
  · exact hn hi

/-- A character that begins no delimiter belongs to the inner text. -/
theorem closeTag?_cons (ho : ¬(a = '{' ∧ b = '{')) (hc : ¬(a = '}' ∧ b = '}')) :
    closeTag? (a :: b :: rest) =
      (closeTag? (b :: rest)).map fun found => (a :: found.1, found.2) := by
  simp only [closeTag?, findPair_cons ho, findPair_cons hc]
  cases findPair '}' (b :: rest) with
  | none => simp
  | some close =>
    cases findPair '{' (b :: rest) with
    | none => simp
    | some reopened =>
      simp only [Option.map_some, List.length_cons, Nat.add_lt_add_iff_right]
      split <;> simp

theorem closeTag?_close (rest : List Char) : closeTag? ('}' :: '}' :: rest) = some ([], rest) := by
  simp only [closeTag?, findPair_pair]
  split
  · rename_i h _
    cases h
    simp
  · rfl

theorem closeTag?_open (rest : List Char) : closeTag? ('{' :: '{' :: rest) = none := by
  simp only [closeTag?, findPair_pair]
  rw [findPair_cons (by decide)]
  cases findPair '}' ('{' :: rest) <;> simp

end Markup

namespace Placed

open Markup (findPair closeTag?)

theorem arePair_iff {a b : Placed} : arePair d a b = true ↔ a.char = d ∧ b.char = d := by
  simp [arePair]

/-- The walk finds the end of a tag where the search does. -/
theorem closeTag?_map_char (cs : List Placed) :
    closeTag? (cs.map char) =
      if (stretch cs).fault = none then
        some ((stretch cs).inner.map char, (stretch cs).rest.map char)
      else none := by
  fun_induction stretch cs with
  | case1 a b rest h =>
    obtain ⟨ha, hb⟩ := arePair_iff.mp h
    simp only [List.map_cons, ha, hb]
    exact Markup.closeTag?_close _
  | case2 a b rest _ h =>
    obtain ⟨ha, hb⟩ := arePair_iff.mp h
    simp only [List.map_cons, ha, hb]
    exact Markup.closeTag?_open _
  | case3 a b rest hc ho s ih =>
    rw [arePair_iff] at hc ho
    simp only [List.map_cons] at ih ⊢
    rw [Markup.closeTag?_cons ho hc, ih]
    split <;> rfl
  | case4 cs h =>
    rcases cs with _ | ⟨a, _ | ⟨b, rest⟩⟩
    · rfl
    · rfl
    · exact absurd rfl (h a b rest)

end Placed

end FormLetter
