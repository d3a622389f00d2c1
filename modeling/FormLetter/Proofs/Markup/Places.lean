import FormLetter.Proofs.Markup.Tags

namespace FormLetter

/-- The value of a token stands in a text where the token says that it does. -/
def MarkupToken.StandsIn (t : MarkupToken) (cs : List Char) : Prop :=
  ∃ before after, cs = before ++ t.value.toList ++ after ∧ t.offset = Text.size8 before

namespace Text

/-- A text with the blanks at its start, the rest of it, and the blanks at its end. -/
theorem trim_parts (cs : List Char) :
    ∃ back, cs = cs.takeWhile isBlank ++ trim cs ++ back := by
  have hend (ds : List Char) : ∃ back, ds = trimEnd ds ++ back := by
    refine ⟨(ds.reverse.takeWhile isBlank).reverse, ?_⟩
    rw [trimEnd, trimStart, ← List.reverse_append, List.takeWhile_append_dropWhile,
      List.reverse_reverse]
  obtain ⟨back, hback⟩ := hend (trimStart cs)
  refine ⟨back, ?_⟩
  rw [List.append_assoc, trim, ← hback, trimStart, List.takeWhile_append_dropWhile]

theorem trimStart_suffix (cs : List Char) : trimStart cs <:+ cs :=
  List.dropWhile_suffix isBlank

end Text

namespace Markup

theorem dropKeyword_suffix {keyword : List Char} (h : dropKeyword keyword cs = some rest) :
    rest <:+ cs := by
  induction keyword generalizing cs with
  | nil =>
    cases cs with
    | nil => simp_all [dropKeyword]
    | cons c cs =>
      rw [dropKeyword] at h
      split at h
      · cases h
      · cases h
        exact List.suffix_refl _
  | cons k keyword ih =>
    cases cs with
    | nil => cases h
    | cons c cs =>
      rw [dropKeyword] at h
      split at h
      · exact (ih h).trans (List.suffix_cons c cs)
      · cases h

/-- The value of a tag is what its trimmed text ends in. -/
theorem kindAndValue_suffix (cs : List Char) : (kindAndValue cs).2 <:+ cs := by
  unfold kindAndValue
  split
  · exact List.nil_suffix
  · split
    · rename_i rest hrest
      have helse := (Text.trimStart_suffix rest).trans (dropKeyword_suffix hrest)
      split
      · rename_i condition hcondition
        exact (Text.trimStart_suffix condition).trans ((dropKeyword_suffix hcondition).trans helse)
      · exact helse
    · split
      · rename_i found hfound
        obtain ⟨k, _, hk⟩ := List.exists_of_findSome?_eq_some hfound
        obtain ⟨rest, hrest, rfl⟩ := Option.map_eq_some_iff.mp hk
        exact (Text.trimStart_suffix rest).trans (dropKeyword_suffix hrest)
      · exact List.suffix_refl cs

theorem standsIn_classify (inner : List Char) : (classify inner).StandsIn inner := by
  obtain ⟨back, hback⟩ := Text.trim_parts inner
  obtain ⟨front, hfront⟩ := kindAndValue_suffix (Text.trim inner)
  refine ⟨inner.takeWhile Text.isBlank ++ front, back, ?_, ?_⟩
  · change inner = _ ++ (String.ofList (kindAndValue (Text.trim inner)).2).toList ++ back
    rw [String.toList_ofList, List.append_assoc, List.append_assoc, ← List.append_assoc front,
      hfront, ← List.append_assoc]
    exact hback
  · change Text.size8 (inner.takeWhile Text.isBlank) + Text.size8 (Text.trim inner) -
      Text.size8 (kindAndValue (Text.trim inner)).2 = _
    rw [← hfront, Text.size8_append, Text.size8_append, hfront]
    omega

/-- The tokens of a text that starts at a byte offset. -/
theorem standsIn_of_tokensFrom (h : tokensFrom position cs = .ok ts) (ht : t ∈ ts) :
    ∃ before after, cs = before ++ t.value.toList ++ after ∧
      t.offset = position + Text.size8 before ∧ (t.isTag = true → 2 ≤ Text.size8 before) := by
  have htext {front : List Char} {p : Nat} (hm : t ∈ textToken front p) :
      t.value.toList = front ∧ t.offset = p ∧ t.isTag = false := by
    unfold textToken at hm
    split at hm
    · cases hm
    · obtain rfl := List.mem_singleton.mp hm
      exact ⟨String.toList_ofList, rfl, rfl⟩
  fun_induction tokensFrom position cs generalizing ts with
  | case1 position cs ho =>
    cases h
    obtain ⟨hv, hp, hk⟩ := htext ht
    exact ⟨[], [], by simp [hv], by simp [hp, Text.size8], by simp [hk]⟩
  | case2 => cases h
  | case3 => cases h
  | case4 position cs front after ho opening inner rest hc tag tokens hr =>
    rename_i ih
    cases h
    have hcs : cs = front ++ '{' :: '{' :: (inner ++ '}' :: '}' :: rest) := by
      rw [eq_of_findPair ho, eq_of_closeTag? hc]
    have hsize : ∀ c : Char, c = '{' ∨ c = '}' → c.utf8Size = 1 := by
      rintro c (rfl | rfl) <;> rfl
    rcases List.mem_append.mp ht with hm | hm
    · obtain ⟨hv, hp, hk⟩ := htext hm
      exact ⟨[], _, by rw [hcs, hv]; rfl, by simp [hp, Text.size8], by simp [hk]⟩
    · rcases List.mem_cons.mp hm with rfl | hm
      · obtain ⟨before, back, hinner, hoffset⟩ := standsIn_classify inner
        refine ⟨front ++ '{' :: '{' :: before, back ++ '}' :: '}' :: rest, ?_, ?_, ?_⟩
        · rw [hcs]
          conv => lhs; rw [hinner]
          simp [tag]
        · simp only [tag, hoffset, opening, Text.size8_append, Text.size8, hsize _ (.inl rfl)]
          omega
        · simp only [Text.size8_append, Text.size8, hsize _ (.inl rfl)]
          omega
      · obtain ⟨before, back, hrest, hoffset, htag⟩ := ih hr hm
        refine ⟨front ++ '{' :: '{' :: (inner ++ '}' :: '}' :: before), back, ?_, ?_, ?_⟩
        · rw [hcs, hrest]
          simp
        · simp only [hoffset, opening, Text.size8_append, Text.size8, hsize _ (.inl rfl),
            hsize _ (.inr rfl)]
          omega
        · simp only [Text.size8_append, Text.size8, hsize _ (.inl rfl)]
          omega

/-- Each token of a text has its value where it says, and a tag after an opening delimiter. -/
theorem standsIn_of_tokens (h : tokens s = .ok ts) (ht : t ∈ ts) :
    t.StandsIn s.toList ∧ (t.isTag = true → 2 ≤ t.offset) := by
  obtain ⟨before, after, hs, hoffset, htag⟩ := standsIn_of_tokensFrom h ht
  rw [Nat.zero_add] at hoffset
  exact ⟨⟨before, after, hs, hoffset⟩, fun hk => hoffset ▸ htag hk⟩

end Markup

end FormLetter
