import FormLetter.Proofs.Expr.Numbers

namespace FormLetter.Lexer

/-- The characters of a token, with those that follow. -/
inductive Lexes (touching : Bool) : TokenKind → List Char → List Char → Prop where
  | whole {digits : List Char} : Decimal.AreDigits digits → EndsDigits rest →
      (∀ us, rest = '.' :: us → EndsDigits us) → numberKind? digits = some k →
      Lexes touching k digits rest
  | fraction : (∀ d ∈ whole, Decimal.isDigit d = true) → Decimal.AreDigits fraction →
      EndsDigits rest → (whole = [] → touching = false) →
      numberKind? (whole ++ '.' :: fraction) = some k →
      Lexes touching k (whole ++ '.' :: fraction) rest
  | name {name : String} : IsName name → EndsName rest →
      Lexes touching (.name name) name.toList rest
  | string : closingQuote? quote = some close → splitString close text = some (content, text, []) →
      Lexes touching (.string (String.ofList content)) (quote :: text) rest
  | symbol : symbol? c rest.head? = some (s, false) →
      (c = '.' → touching = false → EndsDigits rest) → Lexes touching (.symbol s) [c] rest
  | doubled : symbol? c (some d) = some (s, true) → Lexes touching (.symbol s) [c, d] rest

theorem EndsDigits.of_append (h : EndsDigits (cs ++ rest)) : EndsDigits cs := by
  rintro c us rfl
  exact h c (us ++ rest) rfl

theorem EndsName.of_append (h : EndsName (cs ++ rest)) : EndsName cs := by
  rintro c us rfl
  exact h c (us ++ rest) rfl

/-- A quote begins nothing but a string. -/
theorem of_closingQuote? (h : closingQuote? c = some close) :
    Text.isBlank c = false ∧ Decimal.isDigit c = false ∧ c ≠ '.' ∧ Text.startsName c = false := by
  unfold closingQuote? at h
  split at h
  case h_7 => cases h
  all_goals decide +kernel

/-- A character that a symbol starts with begins nothing else, a dot apart. -/
theorem of_symbol? (h : symbol? c next = some found) :
    Text.isBlank c = false ∧ Decimal.isDigit c = false ∧ Text.startsName c = false ∧
      closingQuote? c = none := by
  unfold symbol? at h
  split at h
  case h_18 => cases h
  all_goals decide +kernel

/-- A symbol that does not take the next character does not hang on it. -/
theorem symbol?_alone (h : symbol? c next = some (s, false)) :
    symbol? c none = some (s, false) := by
  unfold symbol? at h ⊢
  split at h
  case h_1 | h_2 | h_3 | h_4 =>
    split at h
    · cases h
    · exact h
  all_goals simp_all

theorem eq_dot_of_symbol? (h : symbol? c next = some (.dot, takes)) : c = '.' := by
  unfold symbol? at h
  split at h
  case h_17 => rfl
  case h_1 | h_2 | h_3 | h_4 => split at h <;> cases h
  all_goals cases h

/-- Digits with what may follow them, or digits around a point. -/
theorem splitNumber_cases (h : splitNumber cs = (text, rest)) :
    EndsDigits rest ∧
      (((∀ d ∈ text, Decimal.isDigit d = true) ∧ ∀ us, rest = '.' :: us → EndsDigits us) ∨
        ∃ whole fraction, text = whole ++ '.' :: fraction ∧
          (∀ d ∈ whole, Decimal.isDigit d = true) ∧ Decimal.AreDigits fraction) := by
  have hends (cs : List Char) : EndsDigits (cs.dropWhile Decimal.isDigit) :=
    fun c us hcs => of_dropWhile hcs
  have hdigits (cs : List Char) : ∀ d ∈ cs.takeWhile Decimal.isDigit, Decimal.isDigit d = true :=
    List.all_eq_true.mp List.all_takeWhile
  unfold splitNumber at h
  dsimp only at h
  split at h
  · rename_i d us heq
    split at h
    · rename_i hd
      cases h
      refine ⟨hends _, .inr ⟨_, _, rfl, hdigits cs, ?_, hdigits _⟩⟩
      simp [hd]
    · rename_i hd
      cases h
      refine ⟨heq ▸ hends cs, .inl ⟨hdigits cs, ?_⟩⟩
      intro us hus
      cases hus
      intro c vs hvs
      cases hvs
      simpa using hd
  · rename_i hpoint
    cases h
    refine ⟨hends cs, .inl ⟨hdigits cs, ?_⟩⟩
    rintro us hus c vs rfl
    exact absurd hus (hpoint c vs)

theorem startsNumber_of_symbol? (h : symbol? c next = some found) (touching : Bool)
    (rest : List Char) :
    startsNumber touching c rest = true ↔ c = '.' ∧ touching = false ∧ ¬EndsDigits rest := by
  have hd := (of_symbol? h).2.1
  have hrest : rest.head?.any Decimal.isDigit = true ↔ ¬EndsDigits rest := by
    cases rest <;> simp [EndsDigits]
  simp [startsNumber, hd, hrest, and_assoc]

/-- A string is what it is whatever follows it. -/
theorem splitString_replace (h : splitString close cs = some (content, text, rest))
    (more : List Char) : splitString close (text ++ more) = some (content, text, more) := by
  fun_induction splitString close cs generalizing content text with
  | case1 | case2 => cases h
  | case3 escaped cs ih =>
    obtain ⟨⟨content', text', rest'⟩, hr, he⟩ := Option.map_eq_some_iff.mp h
    cases he
    rw [List.cons_append, List.cons_append, splitString_escape, ih hr]
    rfl
  | case4 cs hc =>
    cases h
    rw [List.singleton_append, splitString.eq_def]
    simp [hc]
  | case5 c cs hc hclose ih =>
    obtain ⟨⟨content', text', rest'⟩, hr, he⟩ := Option.map_eq_some_iff.mp h
    cases he
    rw [List.cons_append, splitString_cons hc hclose, ih hr]
    rfl

theorem lexes_number (hn : startsNumber touching c rest = true)
    (hs : splitNumber (c :: rest) = (text, after)) (hk : numberKind? text = some k) :
    Lexes touching k text after := by
  have hne := splitNumber_ne_nil hn
  have happend := splitNumber_append (c :: rest)
  rw [hs] at hne happend
  obtain ⟨hends, ⟨hd, hp⟩ | ⟨whole, fraction, rfl, hw, hf⟩⟩ := splitNumber_cases hs
  · exact .whole ⟨hne, hd⟩ hends hp hk
  · refine .fraction hw hf hends ?_ hk
    rintro rfl
    cases happend
    have hdot : Decimal.isDigit '.' = false := rfl
    simp only [startsNumber, hdot, Bool.false_or, Bool.and_eq_true] at hn
    simpa using hn.1.2

theorem lexes_name (hc : Text.startsName c = true) (rest : List Char) :
    let text := c :: rest.takeWhile Text.continuesName
    Lexes touching (.name (String.ofList text)) text (rest.dropWhile Text.continuesName) := by
  intro text
  have hname : IsName (String.ofList text) :=
    ⟨c, _, String.toList_ofList, hc, List.all_eq_true.mp List.all_takeWhile⟩
  have hends : EndsName (rest.dropWhile Text.continuesName) := fun d us hd => of_dropWhile hd
  simpa [text] using Lexes.name hname hends

theorem lexes_symbol (hn : ¬startsNumber touching c rest = true)
    (hs : symbol? c rest.head? = some (s, false)) : Lexes touching (.symbol s) [c] rest := by
  refine .symbol hs fun hc ht => ?_
  by_contra hends
  exact hn ((startsNumber_of_symbol? hs touching rest).mpr ⟨hc, ht, hends⟩)

theorem lexes_doubled {rest : List Char} (hs : symbol? c rest.head? = some (s, true)) :
    Lexes touching (.symbol s) (c :: rest.take 1) (rest.drop 1) := by
  cases rest with
  | nil =>
    unfold symbol? at hs
    split at hs <;> cases hs
  | cons d rest => exact .doubled hs

/-- Every token that is read is made up so. -/
theorem lexes_of_lexeme (h : lexeme touching c rest = .ok l) :
    Lexes touching l.kind l.text l.rest := by
  unfold lexeme at h
  split at h
  · rename_i hn
    dsimp only at h
    split at h
    · rename_i hk
      cases h
      exact lexes_number hn rfl hk
    · cases h
  rename_i hn
  split at h
  · rename_i hname
    cases h
    exact lexes_name hname rest
  split at h
  · rename_i hclose
    split at h
    · rename_i hs
      cases h
      have htext := splitString_replace hs []
      rw [List.append_nil] at htext
      exact .string hclose htext
    · cases h
  · split at h
    · rename_i hs
      cases h
      exact lexes_doubled hs
    · rename_i hs
      cases h
      exact lexes_symbol hn hs
    · cases h

theorem lexeme_quote (h : closingQuote? c = some close)
    (hs : splitString close rest = some (content, text, after)) (touching : Bool) :
    lexeme touching c rest = .ok ⟨.string (String.ofList content), c :: text, after⟩ := by
  obtain ⟨-, hd, hp, hn⟩ := of_closingQuote? h
  rw [lexeme, if_neg (by simp [startsNumber, hd, hp]), if_neg (by simp [hn])]
  simp only [h, hs]

theorem lexeme_symbol (hn : startsNumber touching c rest = false)
    (hs : symbol? c rest.head? = some (s, takes)) : lexeme touching c rest =
      if takes then .ok ⟨.symbol s, c :: rest.take 1, rest.drop 1⟩
      else .ok ⟨.symbol s, [c], rest⟩ := by
  obtain ⟨-, -, hname, hq⟩ := of_symbol? hs
  rw [lexeme, if_neg (by simp [hn]), if_neg (by simp [hname])]
  cases takes <;> simp only [hq, hs] <;> rfl

namespace Lexes

theorem lexeme_eq (h : Lexes touching k text rest) : ∃ c more, text = c :: more ∧
    Text.isBlank c = false ∧ lexeme touching c (more ++ rest) = .ok ⟨k, text, rest⟩ := by
  have hnumber {c more} (hn : startsNumber touching c (more ++ rest) = true)
      (hs : splitNumber (c :: more ++ rest) = (c :: more, rest))
      (hk : numberKind? (c :: more) = some k) :
      lexeme touching c (more ++ rest) = .ok ⟨k, c :: more, rest⟩ := by
    rw [lexeme_of_startsNumber hn hs, hk]
  cases h with
  | whole hd he hp hk =>
    have hs := splitNumber_whole hd he hp
    obtain ⟨c, more, rfl⟩ := List.exists_cons_of_ne_nil hd.1
    have hc := hd.2 c List.mem_cons_self
    have hn : startsNumber touching c (more ++ rest) = true := by simp [startsNumber, hc]
    exact ⟨c, more, rfl, Text.isBlank_of_isDigit hc, hnumber hn hs hk⟩
  | @fraction whole fraction _ _ hw hf he ht hk =>
    have hs := splitNumber_fraction hw hf he
    cases whole with
    | nil =>
      obtain ⟨d, ds, rfl⟩ := List.exists_cons_of_ne_nil hf.1
      obtain rfl := ht rfl
      have hn : startsNumber false '.' (d :: ds ++ rest) = true := by
        simp [startsNumber, hf.2 d List.mem_cons_self]
      exact ⟨'.', d :: ds, rfl, by decide, hnumber hn hs hk⟩
    | cons c whole =>
      have hc := hw c List.mem_cons_self
      have hn : startsNumber touching c (whole ++ '.' :: fraction ++ rest) = true := by
        simp [startsNumber, hc]
      exact ⟨c, _, rfl, Text.isBlank_of_isDigit hc, hnumber hn hs hk⟩
  | name hname he =>
    obtain ⟨c, more, hcs, hc, hmore⟩ := hname
    refine ⟨c, more, hcs, Text.isBlank_of_startsName hc, ?_⟩
    rw [hcs]
    exact lexeme_name hcs hc hmore he touching
  | @string quote close text content _ hclose hs =>
    have hsplit := splitString_replace hs rest
    exact ⟨quote, text, rfl, (of_closingQuote? hclose).1, lexeme_quote hclose hsplit touching⟩
  | @symbol c _ s hs hdot =>
    have hn : startsNumber touching c rest = false := by
      rw [← Bool.not_eq_true, startsNumber_of_symbol? hs]
      rintro ⟨hc, ht, hends⟩
      exact hends (hdot hc ht)
    exact ⟨c, [], rfl, (of_symbol? hs).1, lexeme_symbol hn hs⟩
  | @doubled c d s _ hs =>
    have hn : startsNumber touching c (d :: rest) = false := by
      rw [← Bool.not_eq_true, startsNumber_of_symbol? hs]
      rintro ⟨rfl, -⟩
      cases hs
    exact ⟨c, [d], rfl, (of_symbol? hs).1, lexeme_symbol hn hs⟩

/-- Whatever is made up so is read. -/
theorem lexFrom_eq (h : Lexes touching k text rest) (position : Nat) :
    lexFrom position touching (text ++ rest) =
      (lexFrom (position + Text.size8 text) k.endsOperand rest).map (⟨k, position⟩ :: ·) := by
  obtain ⟨c, more, rfl, hb, hl⟩ := h.lexeme_eq
  exact lexFrom_lexeme hb hl position

/-- A token is not changed where what follows it is cut off. -/
theorem cut (h : Lexes touching k text (rest ++ more)) : Lexes touching k text rest := by
  generalize hcs : rest ++ more = cs at h
  cases h with
  | whole hd he hp hk =>
    subst hcs
    refine .whole hd he.of_append ?_ hk
    rintro us rfl
    exact (hp (us ++ more) rfl).of_append
  | fraction hw hf he ht hk => exact .fraction hw hf (hcs ▸ he).of_append ht hk
  | name hname he => exact .name hname (hcs ▸ he).of_append
  | string hclose hs => exact .string hclose hs
  | symbol hs hdot =>
    subst hcs
    refine .symbol ?_ fun hc ht => (hdot hc ht).of_append
    cases rest with
    | nil => exact symbol?_alone hs
    | cons d rest => exact hs
  | doubled hs => exact .doubled hs

/-- A dot that touches nothing is not followed by a digit. -/
theorem dot (h : Lexes touching (.symbol .dot) text rest) :
    text = ['.'] ∧ (touching = false → EndsDigits rest) := by
  have hnumber {cs} (hk : numberKind? cs = some (.symbol .dot)) : False := by
    unfold numberKind? at hk
    dsimp only at hk
    split at hk
    · cases hk
    · split at hk <;> cases hk
  cases h with
  | whole _ _ _ hk => exact (hnumber hk).elim
  | fraction _ _ _ _ hk => exact (hnumber hk).elim
  | symbol hs hdot =>
    obtain rfl := eq_dot_of_symbol? hs
    exact ⟨rfl, hdot rfl⟩
  | doubled hs =>
    obtain rfl := eq_dot_of_symbol? hs
    cases hs

/-- What stands before a token does not matter to it, unless it is a dot with a digit after it. -/
theorem untouched (h : Lexes touching k text rest) (hdot : k = .symbol .dot → EndsDigits rest) :
    Lexes false k text rest := by
  cases h with
  | whole hd he hp hk => exact .whole hd he hp hk
  | fraction hw hf he ht hk => exact .fraction hw hf he (fun _ => rfl) hk
  | name hname he => exact .name hname he
  | string hclose hs => exact .string hclose hs
  | symbol hs _ =>
    refine .symbol hs fun hc _ => hdot ?_
    subst hc
    cases hs
    rfl
  | doubled hs => exact .doubled hs

end Lexes

/-- Each token is read of what is left of the text when it comes to its turn. -/
theorem lexFrom_at_token (h : lexFrom position touching cs = .ok (before ++ t :: after)) :
    ∃ front c rest near, cs = front ++ c :: rest ∧ t.position = position + Text.size8 front ∧
      Text.isBlank c = false ∧ lexFrom t.position near (c :: rest) = .ok (t :: after) := by
  fun_induction lexFrom position touching cs generalizing before with
  | case1 => simp at h
  | case2 position touching c rest hb ih =>
    obtain ⟨front, d, back, near, rfl, hp, hd, ht⟩ := ih h
    refine ⟨c :: front, d, back, near, rfl, ?_, hd, ht⟩
    rw [hp, Nat.add_assoc]
    rfl
  | case3 => cases h
  | case4 => cases h
  | case5 position touching c rest hb l hl this tokens hr ih =>
    have hb : Text.isBlank c = false := by simpa using hb
    cases before with
    | nil =>
      cases h
      refine ⟨[], c, rest, touching, rfl, rfl, hb, ?_⟩
      rw [lexFrom_lexeme hb hl, hr]
      rfl
    | cons _ before =>
      obtain ⟨rfl, rfl⟩ := List.cons.inj (Except.ok.inj h)
      obtain ⟨front, d, back, near, hrest, hp, hd, ht⟩ := ih hr
      refine ⟨l.text ++ front, d, back, near, ?_, ?_, hd, ht⟩
      · rw [← lexeme_append hl, hrest, List.append_assoc]
      · rw [hp, Text.size8_append, Nat.add_assoc]

/-- Whatever stands before an error is read without it. -/
theorem lexFrom_at_error (h : lexFrom position touching cs = .error e) :
    ∃ front c rest near, cs = front ++ c :: rest ∧ e.position = position + Text.size8 front ∧
      Text.isBlank c = false ∧ lexeme near c rest = .error e.fault ∧
      ∃ ts, lexFrom position touching front = .ok ts := by
  fun_induction lexFrom position touching cs with
  | case1 => cases h
  | case2 position touching c rest hb ih =>
    obtain ⟨front, d, back, near, rfl, hp, hd, he, ts, hts⟩ := ih h
    refine ⟨c :: front, d, back, near, rfl, ?_, hd, he, ts, ?_⟩
    · rw [hp, Nat.add_assoc]
      rfl
    · rw [lexFrom_blank hb, hts]
  | case3 position touching c rest hb fault hl =>
    cases h
    refine ⟨[], c, rest, touching, rfl, rfl, by simpa using hb, hl, [], ?_⟩
    rw [lexFrom]
  | case4 position touching c rest hb l hl this e hr ih =>
    cases h
    obtain ⟨front, d, back, near, hrest, hp, hd, he, ts, hts⟩ := ih hr
    have hlexes := lexes_of_lexeme hl
    rw [hrest] at hlexes
    refine ⟨l.text ++ front, d, back, near, ?_, ?_, hd, he, ⟨l.kind, position⟩ :: ts, ?_⟩
    · rw [← lexeme_append hl, hrest, List.append_assoc]
    · rw [hp, Text.size8_append, Nat.add_assoc]
    · rw [hlexes.cut.lexFrom_eq, hts]
      rfl
  | case5 => cases h

end FormLetter.Lexer
