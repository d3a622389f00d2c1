import FormLetter.Document
import FormLetter.Proofs.Markup.Seams

namespace FormLetter

open Outcome

namespace Markup

theorem tagsFrom_cons_of_ne (h : a ≠ '{') (position : Nat) (cs : List Char) :
    tagsFrom position (a :: cs) = tagsFrom (position + a.utf8Size) cs := by
  cases cs with
  | nil => rw [tagsFrom_singleton, tagsFrom_nil]
  | cons b cs => exact tagsFrom_cons fun hp => h hp.1

/-- The tags of two texts are those of both together, unless an opening delimiter arises between
them. -/
theorem tagsFrom_append {as bs : List Char} (hseam : ¬Splits as bs)
    (h : tagsFrom position as = .ok ts) :
    tagsFrom position (as ++ bs) =
      (tagsFrom (position + Text.size8 as) bs).map (ts ++ ·) := by
  obtain ⟨us, hus, rfl⟩ := map_eq_ok.mp h
  unfold tagsFrom
  rw [tokensFrom_append hseam hus]
  cases tokensFrom (position + Text.size8 as) bs with
  | error e => rfl
  | ok vs => exact congrArg Except.ok (filter_join us vs)

/-- The tags of a text that is moved are moved with it. -/
theorem tagsFrom_moved (distance : Nat) (h : tagsFrom position cs = .ok ts) :
    tagsFrom (distance + position) cs = .ok (ts.map (moved distance)) := by
  obtain ⟨us, hus, rfl⟩ := map_eq_ok.mp h
  rw [tagsFrom, tokensFrom_moved distance hus]
  exact congrArg Except.ok List.filter_map

/-- The tags of lines, each moved to where its line starts if they are joined. -/
def lineTags (start : Nat) : List (List Char) → Except ParseError (List MarkupToken)
  | [] => .ok []
  | line :: lines => do
    let ts ← tagsFrom 0 line
    return ts.map (moved start) ++ (← lineTags (start + Text.size8 line + 1) lines)

/-- Joining lines makes no tag and moves each with its line. -/
theorem tagsFrom_joinLines (h : lineTags start lines = .ok ts) :
    tagsFrom start (Document.joinLines lines) = .ok ts := by
  induction lines generalizing start ts with
  | nil =>
    cases h
    exact tagsFrom_nil start
  | cons line lines ih =>
    obtain ⟨first, hl, h⟩ := bind_eq_ok.mp h
    obtain ⟨others, hr, h⟩ := bind_eq_ok.mp h
    cases h
    have hm := tagsFrom_moved start hl
    rw [Nat.add_zero] at hm
    cases lines with
    | nil =>
      cases hr
      simpa [Document.joinLines] using hm
    | cons next lines =>
      have hbreak : '
'.utf8Size = 1 := rfl
      have hseam : ¬Splits line ('
' :: Document.joinLines (next :: lines)) := by
        intro hx
        obtain ⟨_, hb⟩ := hx
        cases hb
      rw [Document.joinLines, tagsFrom_append hseam hm, tagsFrom_cons_of_ne (by decide), hbreak,
        ih hr]
      · rfl
      · simp

end Markup

end FormLetter
