import Mathlib.Data.List.Chain
import FormLetter.Proofs.Markup.Seams
import FormLetter.Proofs.Markup.Places
import FormLetter.Proofs.Span.Tiling

namespace FormLetter

namespace Text

theorem utf8ByteSize_ofList (cs : List Char) : (String.ofList cs).utf8ByteSize = size8 cs := by
  induction cs with
  | nil => rfl
  | cons c cs ih =>
    rw [← List.singleton_append, String.ofList_append, String.utf8ByteSize_append, ih,
      ← String.singleton_eq_ofList, String.utf8ByteSize_singleton]
    rfl

theorem size8_toList (s : String) : size8 s.toList = s.utf8ByteSize := by
  rw [← utf8ByteSize_ofList, String.ofList_toList]

end Text

/-- The bytes at the place of a token are those of its value. -/
theorem MarkupToken.StandsIn.extract_eq {t : MarkupToken} {s : String} (h : t.StandsIn s.toList) :
    s.toUTF8.extract t.offset (t.offset + t.value.utf8ByteSize) = t.value.toUTF8 := by
  obtain ⟨before, after, hs, hoffset⟩ := h
  have hs : s = String.ofList before ++ t.value ++ String.ofList after := by
    rw [← String.ofList_toList (s := s), hs, String.ofList_append, String.ofList_append,
      String.ofList_toList]
  have hfront : t.offset = (String.ofList before).toByteArray.size := by
    rw [hoffset, String.size_toByteArray, Text.utf8ByteSize_ofList]
  have hstop : t.offset + t.value.utf8ByteSize =
      (String.ofList before ++ t.value).toByteArray.size := by
    rw [hfront, String.size_toByteArray, String.size_toByteArray, String.utf8ByteSize_append]
  have hbefore : t.offset - (String.ofList before ++ t.value).toByteArray.size = 0 := by omega
  change s.toByteArray.extract _ _ = t.value.toByteArray
  rw [hs, String.toByteArray_append, ByteArray.extract_append, hbefore, hstop, Nat.sub_self,
    ← hstop, String.toByteArray_append,
    ByteArray.extract_append_eq_right hfront (by rw [hfront]; simp)]
  simp

namespace Markup

/-- How a token that starts at a byte offset is written: literal text as it is, and a tag with an
inner text that it is the classification of. -/
inductive Written (position : Nat) : MarkupToken → List Char → Prop where
  | text {cs : List Char} : cs ≠ [] → ¬['{', '{'] <:+: cs →
      Written position ⟨.text, String.ofList cs, position⟩ cs
  | tag {inner : List Char} : ¬['{', '{'] <:+: inner → ¬['}', '}'] <:+: inner →
      Written position { classify inner with offset := position + 2 + (classify inner).offset }
        ('{' :: '{' :: inner ++ ['}', '}'])

/-- The tokens of a text that starts at a byte offset, one after the other. -/
inductive Tiles : Nat → List MarkupToken → List Char → Prop where
  | nil (position : Nat) : Tiles position [] []
  | cons : Written position t raw → Tiles (position + Text.size8 raw) ts rest →
      Tiles position (t :: ts) (raw ++ rest)

/-- Two tokens are not both literal text. -/
def Apart (t u : MarkupToken) : Prop :=
  t.kind = .text → u.kind ≠ .text

/-- The value of a token ends before that of another starts. -/
def Precedes (t u : MarkupToken) : Prop :=
  t.offset < u.offset ∧ t.offset + t.value.utf8ByteSize ≤ u.offset

variable {position : Nat} {cs : List Char} {t : MarkupToken} {ts : List MarkupToken}

/-- Where the search for a delimiter finds none there is none. -/
theorem not_infix_of_findPair_none (h : findPair c cs = none) : ¬[c, c] <:+: cs := by
  fun_induction findPair c cs with
  | case1 => cases h
  | case2 a b rest hab ih =>
    rw [Option.map_eq_none_iff] at h
    exact not_infix_cons hab List.prefix_rfl (ih h)
  | case3 cs hcs =>
    rcases cs with _ | ⟨a, _ | ⟨b, rest⟩⟩
    · simp
    · simp [List.infix_cons_iff]
    · exact absurd rfl (hcs a b rest)

/-- The search finds the first delimiter. -/
theorem not_infix_of_findPair (h : findPair c cs = some (before, after)) :
    ¬[c, c] <:+: before := by
  fun_induction findPair c cs generalizing before with
  | case1 a b rest hab =>
    cases h
    simp
  | case2 a b rest hab ih =>
    obtain ⟨⟨before', after'⟩, hr, he⟩ := Option.map_eq_some_iff.mp h
    cases he
    have hbefore : before' <+: b :: rest := eq_of_findPair hr ▸ List.prefix_append _ _
    exact not_infix_cons hab hbefore (ih hr)
  | case3 => cases h

/-- No delimiter of either kind stands in the inner text of a tag. -/
theorem not_infix_of_closeTag? {inner : List Char} (h : closeTag? cs = some (inner, rest)) :
    ¬['{', '{'] <:+: inner ∧ ¬['}', '}'] <:+: inner := by
  have hplaced := Placed.closeTag?_map_char (Placed.ofText 0 0 cs)
  rw [Placed.map_char_ofText, h] at hplaced
  split at hplaced
  · cases hplaced
    exact Placed.not_infix_inner _
  · cases hplaced

theorem Tiles.textToken (h : Tiles (position + Text.size8 cs) ts rest)
    (hcs : ¬['{', '{'] <:+: cs) : Tiles position (textToken cs position ++ ts) (cs ++ rest) := by
  cases cs with
  | nil => simpa [Markup.textToken, Text.size8] using h
  | cons c cs => exact .cons (.text (List.cons_ne_nil c cs) hcs) h

/-- Nothing is lost of a text that is cut at its tags. -/
theorem tiles_of_tokensFrom (h : tokensFrom position cs = .ok ts) : Tiles position ts cs := by
  fun_induction tokensFrom position cs generalizing ts with
  | case1 position cs ho =>
    cases h
    simpa using (Tiles.nil (position + Text.size8 cs)).textToken (not_infix_of_findPair_none ho)
  | case2 => cases h
  | case3 => cases h
  | case4 position cs before after ho opening inner rest hc tag tokens hr =>
    rename_i ih
    cases h
    obtain ⟨hopen, hclose⟩ := not_infix_of_closeTag? hc
    have hsize : Text.size8 ('{' :: '{' :: inner ++ ['}', '}']) = 2 + Text.size8 inner + 2 :=
      size8_tag inner []
    have hrest : Tiles opening ({ tag with offset := opening + 2 + tag.offset } :: tokens)
        ('{' :: '{' :: inner ++ ['}', '}'] ++ rest) := by
      refine .cons (.tag hopen hclose) ?_
      rw [hsize, ← Nat.add_assoc, ← Nat.add_assoc]
      exact ih hr
    have hcs : cs = before ++ ('{' :: '{' :: inner ++ ['}', '}'] ++ rest) := by
      rw [eq_of_findPair ho, eq_of_closeTag? hc]
      simp
    rw [hcs]
    exact hrest.textToken (not_infix_of_findPair ho)

theorem Written.text_of_kind (h : Written position t raw) (hk : t.kind = .text) :
    t.value.toList = raw ∧ raw ≠ [] ∧ ¬['{', '{'] <:+: raw := by
  cases h with
  | text hne hopen => exact ⟨String.toList_ofList, hne, hopen⟩
  | @tag inner => exact absurd hk (kindAndValue_ne_text (Text.trim inner))

/-- The value of a token lies in the stretch that the token is written as. -/
theorem Written.bounds (h : Written position t raw) :
    position ≤ t.offset ∧ t.offset < position + Text.size8 raw ∧
      t.offset + t.value.utf8ByteSize ≤ position + Text.size8 raw := by
  cases h with
  | text hne _ =>
    have hpos : 0 < Text.size8 raw := by
      obtain ⟨c, rest, rfl⟩ := List.exists_cons_of_ne_nil hne
      exact Nat.lt_of_lt_of_le c.utf8Size_pos (Nat.le_add_right _ _)
    simp only [Text.utf8ByteSize_ofList]
    omega
  | @tag inner =>
    obtain ⟨before, after, hinner, hoffset⟩ := standsIn_classify inner
    have hsize : Text.size8 ('{' :: '{' :: inner ++ ['}', '}']) = 2 + Text.size8 inner + 2 :=
      size8_tag inner []
    have hle := congrArg Text.size8 hinner
    rw [Text.size8_append, Text.size8_append, ← hoffset, Text.size8_toList] at hle
    dsimp only
    omega

/-- A token starts no earlier than the stretch that it lies in. -/
theorem Tiles.le_offset (h : Tiles position ts cs) (ht : t ∈ ts) : position ≤ t.offset := by
  induction h with
  | nil => cases ht
  | cons hwritten _ ih =>
    rcases List.mem_cons.mp ht with rfl | ht
    · exact hwritten.bounds.1
    · exact Nat.le_trans (Nat.le_add_right _ _) (ih ht)

theorem Tiles.pairwise (h : Tiles position ts cs) : ts.Pairwise Precedes := by
  induction h with
  | nil => exact .nil
  | cons hwritten hrest ih =>
    refine .cons (fun u hu => ?_) ih
    obtain ⟨-, hstart, hstop⟩ := hwritten.bounds
    have hnext := hrest.le_offset hu
    exact ⟨Nat.lt_of_lt_of_le hstart hnext, Nat.le_trans hstop hnext⟩

/-- Literal text is never empty, and no tag opens in it. -/
theorem Tiles.text (h : Tiles position ts cs) (ht : t ∈ ts) (hk : t.kind = .text) :
    t.value ≠ "" ∧ ¬['{', '{'] <:+: t.value.toList := by
  induction h with
  | nil => cases ht
  | cons hwritten _ ih =>
    rcases List.mem_cons.mp ht with rfl | ht
    · obtain ⟨hvalue, hne, hopen⟩ := hwritten.text_of_kind hk
      refine ⟨fun he => hne ?_, hvalue ▸ hopen⟩
      rw [← hvalue, he]
      rfl
    · exact ih ht

theorem isChain_textToken (h : ts.IsChain Apart)
    (hts : ∀ t ∈ ts.head?, t.kind ≠ .text) (cs : List Char) :
    (textToken cs position ++ ts).IsChain Apart := by
  cases cs with
  | nil => exact h
  | cons c cs => exact List.isChain_cons.mpr ⟨fun u hu _ => hts u hu, h⟩

/-- A tag follows each literal text, or nothing does. -/
theorem isChain_of_tokensFrom (h : tokensFrom position cs = .ok ts) :
    ts.IsChain Apart := by
  fun_induction tokensFrom position cs generalizing ts with
  | case1 position cs ho =>
    cases h
    simpa using isChain_textToken List.isChain_nil (by simp) cs
  | case2 => cases h
  | case3 => cases h
  | case4 position cs before after ho opening inner rest hc tag tokens hr =>
    rename_i ih
    cases h
    have htag : tag.kind ≠ .text := kindAndValue_ne_text (Text.trim inner)
    refine isChain_textToken (List.isChain_cons.mpr ⟨?_, ih hr⟩) ?_ before
    · intro u _ hk
      exact absurd hk htag
    · intro t ht
      cases ht
      exact htag

/-- Nothing of a text is lost that can be cut at its tags: its tokens are written one after the
other, each value stands where its token says, and literal text between tags is one piece. -/
theorem tokens_tile (h : tokens s = .ok ts) :
    Tiles 0 ts s.toList ∧
    (∀ t ∈ ts, t.StandsIn s.toList ∧
      s.toUTF8.extract t.offset (t.offset + t.value.utf8ByteSize) = t.value.toUTF8) ∧
    ts.Pairwise Precedes ∧
    (∀ t ∈ ts, t.kind = .text → t.value ≠ "" ∧ ¬['{', '{'] <:+: t.value.toList) ∧
    ts.IsChain Apart := by
  have htiles := tiles_of_tokensFrom h
  refine ⟨htiles, fun t ht => ?_, htiles.pairwise, fun t ht => htiles.text ht,
    isChain_of_tokensFrom h⟩
  have hstands := (standsIn_of_tokens h ht).1
  exact ⟨hstands, hstands.extract_eq⟩

/-- Letters of several bytes, blanks of several bytes at both ends of a tag, an `elsif` in two
words, and braces that are no delimiters. -/
theorem tokens_tile_of_braces :
    let s :=
      "é\x7d\x7d\x7bx\x7b\x7b\u00a0else  if \x7bö\x7d\u3000\x7d\x7d\x7b\x7bpageBreak\x7d\x7d\x7d"
    let ts : List MarkupToken := [⟨.text, "é\x7d\x7d\x7bx", 0⟩, ⟨.elsifTag, "\x7bö\x7d", 19⟩,
      ⟨.pageBreak, "", 39⟩, ⟨.text, "\x7d", 41⟩]
    tokens s = .ok ts ∧ Tiles 0 ts s.toList := by
  intro s ts
  have h : tokens s = .ok ts := by decide +kernel
  exact ⟨h, (tokens_tile h).1⟩

end Markup

end FormLetter
