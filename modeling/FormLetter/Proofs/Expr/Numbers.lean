import FormLetter.Proofs.Decimal.Digits
import FormLetter.Proofs.Decimal.Patterns
import FormLetter.Proofs.Decimal.Shortest
import FormLetter.Proofs.Expr.Spelling

namespace FormLetter

namespace Decimal

theorem decimalBits_le (digits : ℕ) (scale : ℤ) : decimalBits digits scale ≤ infinityBits := by
  unfold decimalBits quotientBits
  split
  · exact Nat.zero_le _
  split
  · exact Nat.le_refl _
  split
  · exact Nat.zero_le _
  split
  · exact Nat.zero_le _
  · exact Nat.min_le_left _ _

theorem toBits_nearest (digits : ℕ) (scale : ℤ) :
    (nearest false digits scale).toBits.toNat = decimalBits digits scale := by
  have hle := decimalBits_le digits scale
  have hlt : infinityBits < 2 ^ 64 := by decide
  have hnat : (UInt64.ofNat (decimalBits digits scale)).toNat = decimalBits digits scale :=
    UInt64.toNat_ofNat_of_lt' (hle.trans_lt hlt)
  have hbits : (Float.ofBits (UInt64.ofNat (decimalBits digits scale))).toBits =
      UInt64.ofNat (decimalBits digits scale) :=
    toBits_ofBits (by rwa [hnat])
  exact (congrArg UInt64.toNat hbits).trans hnat

theorem isMagnitude_nearest {digits : ℕ} {scale : ℤ}
    (h : (nearest false digits scale).isFinite = true) :
    IsMagnitude (nearest false digits scale) := by
  have hle : (nearest false digits scale).toBits.toNat ≤ infinityBits := by
    rw [toBits_nearest]
    exact decimalBits_le digits scale
  rw [isFinite_eq hle, decide_eq_true_eq] at h
  exact lt_of_le_of_ne hle h

namespace IsMagnitude

variable {x : Float}

theorem isFinite (h : IsMagnitude x) : x.isFinite = true := by
  rw [isFinite_eq (le_of_lt h), decide_eq_true_eq]
  exact ne_of_lt h

/-- The text of a double stands for a number, and that number is read as the double however it is
written. -/
theorem ofFloat_writes (h : IsMagnitude x) :
    ∃ q, Writes (ofFloat x) q ∧
      ∀ (digits : ℕ) (scale : ℤ), digits * 10 ^ scale = q → nearest false digits scale = x := by
  obtain ⟨hnan, hinf⟩ := not_isNaN_of_isFinite h.isFinite
  have hsign : x.toBits.toNat < signBit := lt_trans h (by decide)
  unfold ofFloat
  dsimp only
  rw [hnan, hinf, if_pos hsign, if_neg Bool.false_ne_true, if_neg Bool.false_ne_true]
  rcases Nat.eq_zero_or_pos x.toBits.toNat with hz | hpos
  · have hm : (Binary.ofBits x.toBits).mantissa = 0 := by
      unfold Binary.ofBits
      rw [hz]
      rfl
    rw [if_pos hm]
    refine ⟨_, .whole (areDigits_ofNat 0),
      fun digits scale hq => eq_of_toBits (UInt64.toNat.inj ?_)⟩
    have hzero : toNat ([] ++ ['0']) = 0 := rfl
    rw [hzero, Nat.cast_zero, mul_eq_zero_iff_right (by positivity), Nat.cast_eq_zero] at hq
    rw [toBits_nearest, hq, hz]
    rfl
  · obtain ⟨hc, hbits⟩ := Binary.canonical_ofBits hpos h
    rw [if_neg (Nat.pos_iff_ne_zero.mp hc.pos)]
    refine ⟨_, positional_writes _ _, fun digits scale hq => eq_of_toBits (UInt64.toNat.inj ?_)⟩
    rw [toBits_nearest, Binary.decimalBits_of_covers hc (hq ▸ hc.covers_shortest), hbits]

/-- The literal of a double has a point with digits on either side, and is read as the double. -/
theorem floatLiteral_eq (h : IsMagnitude x) :
    ∃ whole fraction, AreDigits whole ∧ AreDigits fraction ∧
      Expr.floatLiteral x = whole ++ '.' :: fraction ∧
      nearest false (toNat (whole ++ fraction)) (-(fraction.length : ℤ)) = x := by
  obtain ⟨q, hq, hx⟩ := h.ofFloat_writes
  have hfinite : ¬ (!x.isFinite) = true := by simp [h.isFinite]
  unfold Expr.floatLiteral
  dsimp only
  rw [if_neg hfinite]
  generalize ofFloat x = cs at hq
  cases hq with
  | whole hw =>
    have hpoint : ¬ cs.contains '.' = true := by
      rw [List.contains_iff_mem]
      intro hmem
      cases hw.2 '.' hmem
    rw [if_neg hpoint]
    refine ⟨cs, ['0'], hw, ⟨by simp, by simp [isDigit]⟩, rfl, hx _ _ ?_⟩
    have hzero : toNat ['0'] = 0 := rfl
    rw [toNat_append, hzero]
    push_cast
    norm_num
    ring
  | @point whole fraction hw hf =>
    rw [if_pos (by simp)]
    exact ⟨whole, fraction, hw, hf, rfl, hx _ _ rfl⟩

end IsMagnitude

end Decimal

namespace Lexer

/-- Whether a text does not go on with the same run of digits. -/
def EndsDigits (cs : List Char) : Prop :=
  ∀ c rest, cs = c :: rest → Decimal.isDigit c = false

/-- Whether a text goes on with neither a digit nor a point. -/
def EndsNumber (cs : List Char) : Prop :=
  ∀ c rest, cs = c :: rest → Decimal.isDigit c = false ∧ c ≠ '.'

theorem EndsNumber.endsDigits (h : EndsNumber cs) : EndsDigits cs :=
  fun c rest hcs => (h c rest hcs).1

/-- A number has no fraction if no digit follows the point after it. -/
theorem splitNumber_whole (hd : Decimal.AreDigits cs) (he : EndsDigits rest)
    (hp : ∀ us, rest = '.' :: us → EndsDigits us) : splitNumber (cs ++ rest) = (cs, rest) := by
  obtain ⟨htake, hdrop⟩ := takeWhile_append_of_ends hd.2 he
  unfold splitNumber
  rw [htake, hdrop]
  split
  · rw [if_neg (by simp [hp _ rfl _ _ rfl])]
  · rfl

theorem splitNumber_fraction (hw : ∀ d ∈ whole, Decimal.isDigit d = true)
    (hf : Decimal.AreDigits fraction) (he : EndsDigits rest) :
    splitNumber (whole ++ '.' :: fraction ++ rest) = (whole ++ '.' :: fraction, rest) := by
  obtain ⟨d, ds, rfl⟩ := List.exists_cons_of_ne_nil hf.1
  have hpoint (b : Char) (us : List Char) (h : '.' :: d :: ds ++ rest = b :: us) :
      Decimal.isDigit b = false := by
    cases h
    rfl
  obtain ⟨htake, hdrop⟩ := takeWhile_append_of_ends hw hpoint
  obtain ⟨htake', hdrop'⟩ := takeWhile_append_of_ends hf.2 he
  unfold splitNumber
  rw [List.append_assoc, htake, hdrop]
  simp only [List.cons_append] at htake' hdrop' ⊢
  rw [if_pos (hf.2 d (by simp)), htake', hdrop']

theorem lexeme_of_startsNumber (hn : startsNumber touching c cs = true)
    (hs : splitNumber (c :: cs) = (text, rest)) : lexeme touching c cs =
      match numberKind? text with
      | some kind => .ok ⟨kind, text, rest⟩
      | none => .error (.numberOutOfRange (String.ofList text)) := by
  rw [lexeme, if_pos hn]
  cases hkind : numberKind? text with
  | none => simp only [hs, hkind]
  | some kind => simp only [hs, hkind]

theorem lexeme_number (hd : Decimal.isDigit c = true) (hs : splitNumber (c :: cs) = (text, rest))
    (touching : Bool) : lexeme touching c cs =
      match numberKind? text with
      | some kind => .ok ⟨kind, text, rest⟩
      | none => .error (.numberOutOfRange (String.ofList text)) :=
  lexeme_of_startsNumber (by simp [startsNumber, hd]) hs

namespace Spells

theorem number (hd : Decimal.isDigit c = true) (hs : splitNumber (c :: cs) = (text, rest))
    (hk : numberKind? text = some k) (h : Spells rest ks) : Spells (c :: cs) (k :: ks) :=
  h.lexeme text (Text.isBlank_of_isDigit hd) fun touching => by rw [lexeme_number hd hs, hk]

end Spells

theorem numberKind?_point (hw : Decimal.AreDigits whole) :
    numberKind? (whole ++ '.' :: fraction) =
      let x := Decimal.nearest false (Decimal.toNat (whole ++ fraction)) (-fraction.length)
      if x.isFinite then some (.float x) else none := by
  have hends (b : Char) (us : List Char) (h : '.' :: fraction = b :: us) :
      Decimal.isDigit b = false := by
    cases h
    rfl
  obtain ⟨htake, hdrop⟩ := takeWhile_append_of_ends hw.2 hends
  have hpoint : (whole ++ '.' :: fraction).contains '.' = true := by simp
  unfold numberKind?
  rw [htake, hdrop, hpoint]
  rfl

theorem numberKind?_floatLiteral (h : Decimal.IsMagnitude x) :
    numberKind? (Expr.floatLiteral x) = some (.float x) := by
  obtain ⟨whole, fraction, hw, hf, hliteral, hx⟩ := h.floatLiteral_eq
  rw [hliteral, numberKind?_point hw, hx]
  exact if_pos h.isFinite

theorem numberKind?_digits (hd : Decimal.AreDigits cs)
    (hn : Decimal.int64? (Decimal.toNat cs) = some n) : numberKind? cs = some (.int n) := by
  have hpoint : cs.contains '.' = false := by
    rw [Bool.eq_false_iff, ne_eq, List.contains_iff_mem]
    intro hmem
    cases hd.2 '.' hmem
  unfold numberKind?
  rw [hpoint, hn]

/-- Numbers in source text have no sign. -/
theorem written_of_numberKind? (h : numberKind? text = some k) : k.Written := by
  unfold numberKind? at h
  dsimp only at h
  split at h
  · rename_i n _ hn
    cases h
    rw [TokenKind.Written, Decimal.int64?_eq_some.mp hn]
    exact Int.natCast_nonneg _
  · split at h
    · rename_i hfinite
      cases h
      exact Decimal.isMagnitude_nearest hfinite
    · cases h

namespace Spells

theorem digits (hd : Decimal.AreDigits cs) (hn : Decimal.int64? (Decimal.toNat cs) = some n)
    (he : EndsNumber rest) (h : Spells rest ks) : Spells (cs ++ rest) (.int n :: ks) := by
  have hs := splitNumber_whole hd he.endsDigits (by rintro us rfl; exact absurd rfl (he _ _ rfl).2)
  have hk := numberKind?_digits hd hn
  obtain ⟨c, cs, rfl⟩ := List.exists_cons_of_ne_nil hd.1
  exact h.number (hd.2 c (by simp)) hs hk

theorem int {n : Int64} (hn : 0 ≤ n.toInt) (he : EndsNumber rest) (h : Spells rest ks) :
    Spells (Decimal.ofInt n.toInt ++ rest) (.int n :: ks) := by
  have hint : Decimal.int64? n.toInt.natAbs = some n :=
    Decimal.int64?_eq_some.mpr (Int.natAbs_of_nonneg hn).symm
  unfold Decimal.ofInt
  rw [if_neg (not_lt.mpr hn)]
  exact h.digits (Decimal.areDigits_ofNat _) (by rwa [Decimal.toNat_ofNat]) he

theorem float (hx : Decimal.IsMagnitude x) (he : EndsNumber rest) (h : Spells rest ks) :
    Spells (Expr.floatLiteral x ++ rest) (.float x :: ks) := by
  have hk := numberKind?_floatLiteral hx
  obtain ⟨whole, fraction, hw, hf, hliteral, -⟩ := hx.floatLiteral_eq
  obtain ⟨c, cs, rfl⟩ := List.exists_cons_of_ne_nil hw.1
  rw [hliteral] at hk ⊢
  exact h.number (hw.2 c (by simp)) (splitNumber_fraction hw.2 hf he.endsDigits) hk

end Spells

end Lexer

end FormLetter
