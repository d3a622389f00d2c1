import FormLetter.Proofs.Markup.Tags

namespace FormLetter

open Outcome

/-- Two lists, one after the other. The last of the one and the first of the other are merged, if
they can be. -/
def joinWith (merge : α → α → Option α) (xs ys : List α) : List α :=
  match xs.getLast?, ys with
  | some x, y :: rest =>
    match merge x y with
    | some both => xs.dropLast ++ both :: rest
    | none => xs ++ ys
  | _, _ => xs ++ ys

section

variable {merge : α → α → Option α}

@[simp] theorem joinWith_nil_left (ys : List α) : joinWith merge [] ys = ys := rfl

@[simp] theorem joinWith_nil_right (xs : List α) : joinWith merge xs [] = xs := by
  cases h : xs.getLast? <;> simp [joinWith, h]

theorem joinWith_concat (h : merge x y = some both) (xs ys : List α) :
    joinWith merge (xs ++ [x]) (y :: ys) = xs ++ both :: ys := by
  simp [joinWith, h]

theorem joinWith_concat_of_none (h : merge x y = none) (xs ys : List α) :
    joinWith merge (xs ++ [x]) (y :: ys) = xs ++ [x] ++ y :: ys := by
  simp [joinWith, h]

theorem joinWith_append {xs : List α} (h : xs ≠ []) (front ys : List α) :
    joinWith merge (front ++ xs) ys = front ++ joinWith merge xs ys := by
  have hlast : (front ++ xs).getLast? = xs.getLast? := by
    rw [List.getLast?_append, List.getLast?_eq_some_getLast h]
    rfl
  unfold joinWith
  rw [hlast, List.dropLast_append_of_ne_nil h]
  split
  · split <;> simp
  · simp

end

/-- Literal text on both sides of a seam is one piece. -/
def MarkupToken.merge? (t u : MarkupToken) : Option MarkupToken :=
  if t.kind = .text ∧ u.kind = .text then some { t with value := t.value ++ u.value } else none

theorem MarkupToken.merge?_of_text {t u : MarkupToken} (ht : t.kind = .text)
    (hu : u.kind = .text) : t.merge? u = some { t with value := t.value ++ u.value } :=
  if_pos ⟨ht, hu⟩

theorem MarkupToken.merge?_of_tag_left {t : MarkupToken} (ht : t.kind ≠ .text) (u : MarkupToken) :
    t.merge? u = none :=
  if_neg fun h => ht h.1

theorem MarkupToken.merge?_of_tag_right {u : MarkupToken} (hu : u.kind ≠ .text) (t : MarkupToken) :
    t.merge? u = none :=
  if_neg fun h => hu h.2

namespace Markup

theorem size8_tag (inner rest : List Char) :
    Text.size8 ('{' :: '{' :: (inner ++ '}' :: '}' :: rest)) =
      2 + Text.size8 inner + 2 + Text.size8 rest := by
  have ho : '{'.utf8Size = 1 := rfl
  have hc : '}'.utf8Size = 1 := rfl
  simp only [Text.size8, Text.size8_append, ho, hc]
  omega

/-- Whether one text ends and the next begins in the middle of an opening delimiter. -/
def Splits (as bs : List Char) : Prop :=
  as.getLast? = some '{' ∧ bs.head? = some '{'

theorem Splits.of_suffix {as bs : List Char} (h : Splits as bs) (front : List Char) :
    Splits (front ++ as) bs :=
  ⟨by rw [List.getLast?_append, h.1]; rfl, h.2⟩

/-- Moves a token. -/
def moved (distance : Nat) (t : MarkupToken) : MarkupToken :=
  { t with offset := distance + t.offset }

/-- The tokens of two texts, one after the other. -/
def join : List MarkupToken → List MarkupToken → List MarkupToken :=
  joinWith MarkupToken.merge?

variable {as bs : List Char} {ts us : List MarkupToken}

/-- What stands before a tag does not matter at the seam. -/
theorem join_append_tag (ht : t.kind ≠ .text) (front ts us : List MarkupToken) :
    join (front ++ t :: ts) us = front ++ t :: join ts us := by
  by_cases hts : ts = []
  · subst hts
    cases us with
    | nil => simp [join]
    | cons u us =>
      have hseam := joinWith_concat_of_none (MarkupToken.merge?_of_tag_left ht u) front us
      simpa [join] using hseam
  · rw [List.append_cons, join, joinWith_append hts, ← List.append_cons]

/-- The tags of both sides stay as they are. -/
theorem filter_join (ts us : List MarkupToken) :
    (join ts us).filter MarkupToken.isTag =
      ts.filter MarkupToken.isTag ++ us.filter MarkupToken.isTag := by
  rcases List.eq_nil_or_concat ts with rfl | ⟨ts, t, rfl⟩
  · rfl
  rw [List.concat_eq_append]
  cases us with
  | nil => simp [join]
  | cons u us =>
    by_cases htext : t.kind = .text ∧ u.kind = .text
    · rw [join, joinWith_concat (if_pos htext)]
      simp [MarkupToken.isTag, htext]
    · rw [join, joinWith_concat_of_none (if_neg htext), List.filter_append]

theorem textToken_cons (c : Char) (cs : List Char) (position : Nat) :
    textToken (c :: cs) position = [⟨.text, String.ofList (c :: cs), position⟩] := rfl

/-- Literal text on both sides of the seam is one piece, also where one side has none. -/
theorem join_textToken (hus : ∀ u ∈ us.head?, u.kind ≠ .text) (position : Nat)
    (as bs : List Char) :
    join (textToken as position) (textToken bs (position + Text.size8 as) ++ us) =
      textToken (as ++ bs) position ++ us := by
  match as, bs with
  | [], bs => rfl
  | a :: as, [] =>
    cases us with
    | nil => simp [join, textToken]
    | cons u us =>
      rw [List.append_nil]
      exact joinWith_concat_of_none (MarkupToken.merge?_of_tag_right (hus u rfl) _) [] us
  | a :: as, b :: bs =>
    rw [List.cons_append, textToken_cons, textToken_cons, textToken_cons, ← List.cons_append,
      String.ofList_append]
    exact joinWith_concat (MarkupToken.merge?_of_text rfl rfl) [] us

/-- The search goes on where a text does. -/
theorem findPair_append (h : findPair c as = some (before, after)) (bs : List Char) :
    findPair c (as ++ bs) = some (before, after ++ bs) := by
  fun_induction findPair c as generalizing before with
  | case1 a b rest hab =>
    cases h
    obtain ⟨rfl, rfl⟩ := hab
    exact findPair_pair b _
  | case2 a b rest hab ih =>
    obtain ⟨⟨before', after'⟩, hr, he⟩ := Option.map_eq_some_iff.mp h
    cases he
    rw [List.cons_append, List.cons_append, findPair_cons hab, ← List.cons_append, ih hr]
    rfl
  | case3 => cases h

theorem findPair_append_of_none (h : findPair c as = none)
    (hseam : ¬(as.getLast? = some c ∧ bs.head? = some c)) :
    findPair c (as ++ bs) = (findPair c bs).map fun found => (as ++ found.1, found.2) := by
  fun_induction findPair c as with
  | case1 => cases h
  | case2 a b rest hab ih =>
    rw [Option.map_eq_none_iff] at h
    rw [List.getLast?_cons_cons] at hseam
    rw [List.cons_append, List.cons_append, findPair_cons hab, ← List.cons_append, ih h hseam]
    cases findPair c bs <;> rfl
  | case3 as has =>
    rcases as with _ | ⟨a, _ | ⟨b, rest⟩⟩
    · cases hb : findPair c bs <;> simp [hb]
    · cases bs with
      | nil => rfl
      | cons b bs =>
        have hab : ¬(a = c ∧ b = c) := by simpa using hseam
        exact findPair_cons hab
    · exact absurd rfl (has a b rest)

/-- What ends a tag does not hang on what comes later. -/
theorem closeTag?_append {cs inner rest : List Char} (bs : List Char)
    (h : closeTag? cs = some (inner, rest)) :
    closeTag? (cs ++ bs) = some (inner, rest ++ bs) := by
  match cs with
  | [] => cases h
  | [a] => cases h
  | a :: b :: cs =>
    simp only [List.cons_append]
    by_cases hc : a = '}' ∧ b = '}'
    · obtain ⟨rfl, rfl⟩ := hc
      rw [closeTag?_close] at h ⊢
      cases h
      rfl
    · by_cases ho : a = '{' ∧ b = '{'
      · obtain ⟨rfl, rfl⟩ := ho
        rw [closeTag?_open] at h
        cases h
      · rw [closeTag?_cons ho hc] at h ⊢
        obtain ⟨⟨inner', rest'⟩, hr, he⟩ := Option.map_eq_some_iff.mp h
        cases he
        have hr := closeTag?_append bs hr
        rw [List.cons_append] at hr
        rw [hr]
        rfl

/-- The tokens of a text that is moved are moved with it. -/
theorem tokensFrom_moved (distance : Nat) (h : tokensFrom position cs = .ok ts) :
    tokensFrom (distance + position) cs = .ok (ts.map (moved distance)) := by
  have htext (front : List Char) (p : Nat) :
      (textToken front p).map (moved distance) = textToken front (distance + p) := by
    unfold textToken
    split <;> rfl
  fun_induction tokensFrom position cs generalizing ts with
  | case1 position cs ho =>
    cases h
    rw [tokensFrom_none ho, htext]
  | case2 => cases h
  | case3 => cases h
  | case4 position cs front after ho opening inner rest hc tag tokens hr =>
    rename_i ih
    cases h
    have hrest := ih hr
    simp only [opening, ← Nat.add_assoc] at hrest
    rw [tokensFrom_tag ho hc, hrest, List.map_append, htext]
    simp [Except.map, moved, tag, opening, Nat.add_assoc]

/-- Of two texts whose seam makes no opening delimiter, the tokens are those of the first and then
those of the second. The induction is on the tags of the first. -/
theorem tokensFrom_append (hseam : ¬Splits as bs) (h : tokensFrom position as = .ok ts) :
    tokensFrom position (as ++ bs) =
      (tokensFrom (position + Text.size8 as) bs).map (join ts) := by
  fun_induction tokensFrom position as generalizing ts with
  | case1 position as ho =>
    cases h
    have happend := findPair_append_of_none ho hseam
    cases hb : findPair '{' bs with
    | none =>
      rw [hb] at happend
      rw [tokensFrom_none happend, tokensFrom_none hb]
      have hus (u) (hu : u ∈ ([] : List MarkupToken).head?) : u.kind ≠ .text := nomatch hu
      simpa [Except.map] using (join_textToken hus position as bs).symm
    | some found =>
      obtain ⟨before, after⟩ := found
      rw [hb] at happend
      cases hc : closeTag? after with
      | none =>
        rw [tokensFrom_unclosed happend hc, tokensFrom_unclosed hb hc, Text.size8_append,
          Nat.add_assoc]
        rfl
      | some found =>
        obtain ⟨inner, rest⟩ := found
        rw [tokensFrom_tag happend hc, tokensFrom_tag hb hc, Text.size8_append, ← Nat.add_assoc]
        cases tokensFrom _ rest with
        | error e => rfl
        | ok tokens =>
          refine congrArg Except.ok (join_textToken (fun u hu => ?_) position as before).symm
          cases hu
          exact kindAndValue_ne_text (Text.trim inner)
  | case2 => cases h
  | case3 => cases h
  | case4 position as before after ho opening inner rest hc tag tokens hr =>
    rename_i ih
    cases h
    have has : as = before ++ '{' :: '{' :: (inner ++ '}' :: '}' :: rest) := by
      rw [eq_of_findPair ho, eq_of_closeTag? hc]
    have hseam' : ¬Splits rest bs := fun hs => hseam <| by
      have := hs.of_suffix (before ++ '{' :: '{' :: (inner ++ ['}', '}']))
      simpa [has] using this
    have htag : MarkupToken.kind { tag with offset := opening + 2 + tag.offset } ≠ .text :=
      kindAndValue_ne_text (Text.trim inner)
    have hsize : position + Text.size8 as =
        opening + 2 + Text.size8 inner + 2 + Text.size8 rest := by
      rw [has, Text.size8_append, size8_tag]
      omega
    rw [tokensFrom_tag (findPair_append ho bs) (closeTag?_append bs hc), ih hseam' hr, hsize]
    cases tokensFrom (opening + 2 + Text.size8 inner + 2 + Text.size8 rest) bs with
    | error e => rfl
    | ok us => exact congrArg Except.ok (join_append_tag htag _ tokens us).symm

end Markup

end FormLetter
