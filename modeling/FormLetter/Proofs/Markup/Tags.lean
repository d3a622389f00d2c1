import FormLetter.Proofs.Markup.Delimiters
import FormLetter.Proofs.Outcome

namespace FormLetter

open Outcome

def MarkupToken.isTag (t : MarkupToken) : Bool :=
  t.kind != .text

namespace Markup

variable {inner : List Char}

theorem tokensFrom_none (h : findPair '{' cs = none) :
    tokensFrom position cs = .ok (textToken cs position) := by
  rw [tokensFrom]
  split
  · rfl
  · rename_i h'
    rw [h] at h'
    cases h'

theorem tokensFrom_unclosed (h : findPair '{' cs = some (before, after))
    (hc : closeTag? after = none) :
    tokensFrom position cs = .error ⟨position + Text.size8 before, .unclosedTag⟩ := by
  rw [tokensFrom]
  split
  · rename_i h'
    rw [h] at h'
    cases h'
  · rename_i h'
    rw [h] at h'
    cases h'
    dsimp only
    split
    · rfl
    · rename_i hc'
      rw [hc] at hc'
      cases hc'

theorem tokensFrom_tag (h : findPair '{' cs = some (before, after))
    (hc : closeTag? after = some (inner, rest)) :
    tokensFrom position cs =
      (tokensFrom (position + Text.size8 before + 2 + Text.size8 inner + 2) rest).map fun tokens =>
        textToken before position ++
          { classify inner with
            offset := position + Text.size8 before + 2 + (classify inner).offset } :: tokens := by
  rw [tokensFrom]
  split
  · rename_i h'
    rw [h] at h'
    cases h'
  · rename_i h'
    rw [h] at h'
    cases h'
    dsimp only
    split
    · rename_i hc'
      rw [hc] at hc'
      cases hc'
    · rename_i hc'
      rw [hc] at hc'
      cases hc'
      cases tokensFrom (position + Text.size8 before + 2 + Text.size8 inner + 2) rest <;> rfl

/-- The tags of a text that starts at a byte offset. -/
def tagsFrom (position : Nat) (cs : List Char) : Except ParseError (List MarkupToken) :=
  (tokensFrom position cs).map (List.filter MarkupToken.isTag)

theorem kindAndValue_ne_text (cs : List Char) : (kindAndValue cs).1 ≠ .text := by
  unfold kindAndValue
  split
  · simp
  · split
    · split <;> simp
    · split
      · rename_i found h
        obtain ⟨k, hk, h⟩ := List.exists_of_findSome?_eq_some h
        obtain ⟨rest, _, rfl⟩ := Option.map_eq_some_iff.mp h
        simp only [keywords, List.mem_cons, List.not_mem_nil, or_false] at hk
        rintro rfl
        simp at hk
      · simp

theorem isTag_classify (inner : List Char) : (classify inner).isTag = true := by
  simpa [MarkupToken.isTag, classify] using kindAndValue_ne_text (Text.trim inner)

theorem filter_textToken (cs : List Char) (position : Nat) :
    (textToken cs position).filter MarkupToken.isTag = [] := by
  unfold textToken
  split <;> rfl

/-- The tag that an opening delimiter at a byte offset starts, with the tags after it. -/
theorem tagsFrom_open (position : Nat) (after : List Char) :
    tagsFrom position ('{' :: '{' :: after) =
      match closeTag? after with
      | none => .error ⟨position, .unclosedTag⟩
      | some (inner, rest) =>
        (tagsFrom (position + 2 + Text.size8 inner + 2) rest).map
          ({ classify inner with offset := position + 2 + (classify inner).offset } :: ·) := by
  have ho := findPair_pair '{' after
  cases hc : closeTag? after with
  | none => simp [tagsFrom, tokensFrom_unclosed ho hc, Text.size8, Except.map]
  | some found =>
    obtain ⟨inner, rest⟩ := found
    rw [tagsFrom, tokensFrom_tag ho hc]
    simp only [Text.size8, Nat.add_zero, tagsFrom]
    cases tokensFrom (position + 2 + Text.size8 inner + 2) rest with
    | error e => rfl
    | ok tokens =>
      have hk : MarkupToken.isTag
          { classify inner with offset := position + 2 + (classify inner).offset } = true :=
        isTag_classify inner
      simp [Except.map, filter_textToken, List.filter_append, hk]

/-- A character that begins no opening delimiter is passed over. -/
theorem tagsFrom_cons (h : ¬(a = '{' ∧ b = '{')) :
    tagsFrom position (a :: b :: rest) = tagsFrom (position + a.utf8Size) (b :: rest) := by
  have hp : findPair '{' (a :: b :: rest) =
      (findPair '{' (b :: rest)).map fun found => (a :: found.1, found.2) := findPair_cons h
  cases ho : findPair '{' (b :: rest) with
  | none =>
    rw [ho] at hp
    simp [tagsFrom, tokensFrom_none hp, tokensFrom_none ho, Except.map, filter_textToken]
  | some found =>
    obtain ⟨before, after⟩ := found
    rw [ho] at hp
    simp only [Option.map_some] at hp
    cases hc : closeTag? after with
    | none =>
      simp [tagsFrom, tokensFrom_unclosed hp hc, tokensFrom_unclosed ho hc, Except.map, Text.size8,
        Nat.add_assoc]
    | some found =>
      obtain ⟨inner, rest'⟩ := found
      simp only [tagsFrom, tokensFrom_tag hp hc, tokensFrom_tag ho hc, Text.size8,
        ← Nat.add_assoc]
      cases tokensFrom (position + a.utf8Size + Text.size8 before + 2 + Text.size8 inner + 2) rest'
      · rfl
      · simp [Except.map, filter_textToken, List.filter_append]

theorem tagsFrom_nil (position : Nat) : tagsFrom position [] = .ok [] := by
  have h : findPair '{' [] = none := rfl
  simp [tagsFrom, tokensFrom_none h, Except.map, textToken]

theorem tagsFrom_singleton (position : Nat) (a : Char) : tagsFrom position [a] = .ok [] := by
  have h : findPair '{' [a] = none := rfl
  simp [tagsFrom, tokensFrom_none h, Except.map, filter_textToken]

end Markup

end FormLetter
