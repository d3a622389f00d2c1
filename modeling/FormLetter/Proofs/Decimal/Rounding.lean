import FormLetter.Proofs.Decimal.Scaled

namespace FormLetter.Decimal

namespace Binary

def value (x : Binary) : ℚ :=
  x.mantissa * 2 ^ x.exponent

/-- The halfway point below a double, in quarters of its last place. -/
def lowQuarters (x : Binary) : ℕ :=
  4 * x.mantissa - if x.narrow then 1 else 2

def low (x : Binary) : ℚ :=
  x.lowQuarters * 2 ^ (x.exponent - 2)

def high (x : Binary) : ℚ :=
  (4 * x.mantissa + 2 : ℕ) * 2 ^ (x.exponent - 2)

/-- The numbers that round to a double. -/
def Covers (x : Binary) (q : ℚ) : Prop :=
  (x.low < q ∨ x.mantissa % 2 = 0 ∧ x.low ≤ q) ∧ (q < x.high ∨ x.mantissa % 2 = 0 ∧ q ≤ x.high)

theorem readsBack_iff {x : Binary} {digits : ℕ} {scale : ℤ} :
    x.readsBack digits scale = true ↔ x.Covers (digits * 10 ^ scale) := by
  have hl : ((4 * x.mantissa - (if x.narrow then 1 else 2) : ℕ) : ℚ) * 2 ^ (x.exponent - 2) =
      x.low := rfl
  have hh : ((4 * x.mantissa + 2 : ℕ) : ℚ) * 2 ^ (x.exponent - 2) = x.high := rfl
  simp only [readsBack, compareScaled_eq, hl, hh, Bool.and_eq_true, Bool.or_eq_true,
    decide_eq_true_eq, compare_gt_iff_gt, compare_lt_iff_lt, compare_eq_iff_eq]
  rw [Covers, le_iff_lt_or_eq, le_iff_lt_or_eq, eq_comm (b := x.low)]
  tauto

/-- Positive doubles as their bits give them: the mantissa is as long as it can be, and the gap
below is halved where the exponent falls. -/
structure Canonical (x : Binary) : Prop where
  pos : 0 < x.mantissa
  short : x.mantissa < 2 ^ 53
  min : -1074 ≤ x.exponent
  max : x.exponent ≤ 971
  normal : -1074 < x.exponent → 2 ^ 52 ≤ x.mantissa
  narrow_iff : x.narrow = true ↔ x.mantissa = 2 ^ 52 ∧ -1074 < x.exponent

/-- The bit pattern of a double. -/
def bits (x : Binary) : ℕ :=
  (x.exponent + 1074).toNat * leadingBit + x.mantissa

theorem high_eq (x : Binary) : x.high = (x.mantissa + 1 / 2) * 2 ^ x.exponent := by
  rw [high, zpow_sub₀ (by norm_num)]
  push_cast
  ring

theorem low_eq {x : Binary} (hx : 0 < x.mantissa) :
    x.low = (x.mantissa - if x.narrow then 1 / 4 else 1 / 2) * 2 ^ x.exponent := by
  have hle : (if x.narrow then 1 else 2) ≤ 4 * x.mantissa := by split <;> omega
  rw [low, lowQuarters, zpow_sub₀ (by norm_num), Nat.cast_sub hle]
  split <;> push_cast <;> ring

/-- Every double but infinity has a smaller pattern. -/
theorem Canonical.bits_lt {x : Binary} (hx : x.Canonical) : x.bits < infinityBits := by
  have hexp : (x.exponent + 1074).toNat ≤ 2045 := by
    have := hx.max
    omega
  have hshort := hx.short
  unfold bits leadingBit infinityBits
  omega

end Binary

theorem log2Quotient_eq {num den : ℕ} (hn : 0 < num) (hd : 0 < den)
    (hlow : (2 : ℚ) ^ e ≤ num / den) (hhigh : (num : ℚ) / den < 2 ^ (e + 1)) :
    log2Quotient num den = e := by
  obtain ⟨h1, h2⟩ := log2Quotient_bounds hn hd
  have hlt := (zpow_lt_zpow_iff_right₀ one_lt_two).mp (hlow.trans_lt h2)
  have hgt := (zpow_lt_zpow_iff_right₀ one_lt_two).mp (h1.trans_lt hhigh)
  omega

/-- Rounding goes to the mantissa whose half gaps hold the quotient, at the exponent that the
quotient calls for. -/
theorem quotientBits_eq {num den m : ℕ} (hn : 0 < num) (hd : 0 < den)
    (he : max (log2Quotient num den - 52) (-1074) = e)
    (hlow : ((m : ℚ) - 1 / 2) * 2 ^ e < num / den ∨
      m % 2 = 0 ∧ ((m : ℚ) - 1 / 2) * 2 ^ e ≤ num / den)
    (hhigh : (num : ℚ) / den < (m + 1 / 2) * 2 ^ e ∨
      m % 2 = 0 ∧ (num : ℚ) / den ≤ (m + 1 / 2) * 2 ^ e) :
    quotientBits num den = min infinityBits ((e + 1074).toNat * leadingBit + m) := by
  have hp : (0 : ℚ) < 2 ^ e := by positivity
  have hshift : ((shift num den (-e)).1 : ℚ) / (shift num den (-e)).2 = num / den / 2 ^ e := by
    rw [shift_div num hd, zpow_neg, div_eq_mul_inv _ ((2 : ℚ) ^ e)]
  have hround : roundQuotient (shift num den (-e)).1 (shift num den (-e)).2 = m := by
    apply roundQuotient_eq (shift_pos num hd (-e))
    · rw [hshift, lt_div_iff₀ hp, le_div_iff₀ hp]
      exact hlow
    · rw [hshift, div_lt_iff₀ hp, div_le_iff₀ hp]
      exact hhigh
  rw [quotientBits, if_neg (Nat.pos_iff_ne_zero.mp hn), he]
  dsimp only
  rw [hround]

namespace Binary

variable {x : Binary} {num den : ℕ}

theorem Canonical.low_pos (hx : x.Canonical) : 0 < x.low := by
  have hm : (1 : ℚ) ≤ x.mantissa := by exact_mod_cast hx.pos
  rw [low_eq hx.pos]
  refine mul_pos ?_ (by positivity)
  split <;> linarith

theorem Covers.low_le {q : ℚ} (h : x.Covers q) : x.low ≤ q := by
  rcases h.1 with h | h
  · exact h.le
  · exact h.2

theorem Covers.le_high {q : ℚ} (h : x.Covers q) : q ≤ x.high := by
  rcases h.2 with h | h
  · exact h.le
  · exact h.2

/-- Below the next power of two there is room for every mantissa and half a gap. -/
theorem Canonical.high_lt (hx : x.Canonical) : x.high < 2 ^ (x.exponent + 52 + 1) := by
  have hm : (x.mantissa : ℚ) + 1 ≤ 2 ^ 53 := by exact_mod_cast hx.short
  have hp : (0 : ℚ) < 2 ^ x.exponent := by positivity
  have hpow : (2 : ℚ) ^ (x.exponent + 52 + 1) = 2 ^ 53 * 2 ^ x.exponent := by
    rw [add_assoc, zpow_add₀ (by norm_num), mul_comm]
    norm_num
  rw [high_eq, hpow]
  exact mul_lt_mul_of_pos_right (by linarith) hp

/-- The quotient is in reach of the mantissa at the exponent of the double itself. -/
theorem quotientBits_of_exponent (hx : x.Canonical) (hn : 0 < num) (hd : 0 < den)
    (h : x.Covers (num / den)) (he : max (log2Quotient num den - 52) (-1074) = x.exponent) :
    quotientBits num den = x.bits := by
  have hlow : ((x.mantissa : ℚ) - 1 / 2) * 2 ^ x.exponent ≤ x.low := by
    rw [low_eq hx.pos]
    gcongr
    split <;> norm_num
  rw [quotientBits_eq hn hd he (h.1.imp hlow.trans_lt (And.imp_right hlow.trans))
    (x.high_eq ▸ h.2)]
  exact Nat.min_eq_right hx.bits_lt.le

/-- Just below a power of two the exponent is one less, and rounding carries back into it. -/
theorem quotientBits_of_narrow (hx : x.Canonical) (hn : 0 < num) (hd : 0 < den)
    (hm : x.mantissa = 2 ^ 52) (he : -1074 < x.exponent) (hnarrow : x.narrow = true)
    (hlow : x.low ≤ num / den) (hbelow : (num : ℚ) / den < 2 ^ (x.exponent + 52)) :
    quotientBits num den = x.bits := by
  have hpow : (2 : ℚ) ^ (x.exponent + 52) = 2 ^ 53 * 2 ^ (x.exponent - 1) := by
    rw [show x.exponent + 52 = 53 + (x.exponent - 1) by omega, zpow_add₀ (by norm_num)]
    norm_num
  have hlow' : ((2 : ℚ) ^ 53 - 1 / 2) * 2 ^ (x.exponent - 1) ≤ num / den := by
    refine le_trans (le_of_eq ?_) hlow
    rw [low_eq hx.pos, hm, if_pos hnarrow, zpow_sub_one₀ (by norm_num)]
    push_cast
    ring
  have hp : (0 : ℚ) < 2 ^ (x.exponent - 1) := by positivity
  have hlog : log2Quotient num den = x.exponent + 51 := by
    refine log2Quotient_eq hn hd (le_trans ?_ hlow') ?_
    · rw [show x.exponent + 51 = 52 + (x.exponent - 1) by omega, zpow_add₀ (by norm_num)]
      exact mul_le_mul_of_nonneg_right (by norm_num) hp.le
    · rwa [show x.exponent + 51 + 1 = x.exponent + 52 by omega]
  have hround := quotientBits_eq (m := 2 ^ 53) hn hd (e := x.exponent - 1) (by omega)
    (.inr ⟨by decide, by push_cast; exact hlow'⟩)
    (.inl (hbelow.trans (by
      rw [hpow]
      push_cast
      exact mul_lt_mul_of_pos_right (by norm_num) hp)))
  have hcarry : (x.exponent - 1 + 1074).toNat * leadingBit + 2 ^ 53 = x.bits := by
    rw [bits, hm, show (x.exponent + 1074).toNat = (x.exponent - 1 + 1074).toNat + 1 by omega]
    unfold leadingBit
    omega
  rw [hround, hcarry]
  exact Nat.min_eq_right hx.bits_lt.le

/-- A quotient among the numbers that round to a double rounds to it. -/
theorem quotientBits_of_covers (hx : x.Canonical) (hd : 0 < den) (h : x.Covers (num / den)) :
    quotientBits num den = x.bits := by
  have hd' : (0 : ℚ) < den := by exact_mod_cast hd
  have hn : 0 < num := by
    have hpos := hx.low_pos.trans_le h.low_le
    rw [lt_div_iff₀ hd', zero_mul] at hpos
    exact_mod_cast hpos
  have hhigh := h.le_high.trans_lt hx.high_lt
  by_cases hmin : x.exponent = -1074
  · have hlog := (zpow_lt_zpow_iff_right₀ one_lt_two).mp
      ((log2Quotient_bounds hn hd).1.trans_lt hhigh)
    exact quotientBits_of_exponent hx hn hd h (by omega)
  have hexp : -1074 < x.exponent := lt_of_le_of_ne hx.min (Ne.symm hmin)
  by_cases hpow : (2 : ℚ) ^ (x.exponent + 52) ≤ num / den
  · have hlog := log2Quotient_eq hn hd hpow hhigh
    exact quotientBits_of_exponent hx hn hd h (by omega)
  · rw [not_le] at hpow
    -- A mantissa beyond the least one keeps the quotient above the power of two.
    have hm : x.mantissa = 2 ^ 52 := by
      refine le_antisymm (not_lt.mp fun hlt => hpow.not_ge (le_trans ?_ h.low_le)) (hx.normal hexp)
      have hlt' : (2 : ℚ) ^ 52 + 1 ≤ x.mantissa := by exact_mod_cast hlt
      rw [low_eq hx.pos, add_comm, zpow_add₀ (by norm_num)]
      refine mul_le_mul_of_nonneg_right (le_trans ?_ (sub_le_sub_right hlt' _)) (by positivity)
      split <;> norm_num
    exact quotientBits_of_narrow hx hn hd hm hexp (hx.narrow_iff.mpr ⟨hm, hexp⟩) h.low_le hpow

theorem Canonical.high_lt_top (hx : x.Canonical) : x.high < 2 ^ (1024 : ℤ) := by
  have hmax := hx.max
  exact hx.high_lt.trans_le (zpow_le_zpow_right₀ one_le_two (by omega))

theorem Canonical.le_low (hx : x.Canonical) : (2 : ℚ) ^ (-1075 : ℤ) ≤ x.low := by
  have hm : (1 : ℚ) ≤ x.mantissa := by exact_mod_cast hx.pos
  calc (2 : ℚ) ^ (-1075 : ℤ) = 2 ^ (-1 : ℤ) * 2 ^ (-1074 : ℤ) := by
        rw [← zpow_add₀ (by norm_num)]
        rfl
    _ = 1 / 2 * 2 ^ (-1074 : ℤ) := by rw [zpow_neg_one, one_div]
    _ ≤ 1 / 2 * 2 ^ x.exponent :=
      mul_le_mul_of_nonneg_left (zpow_le_zpow_right₀ one_le_two hx.min) (by norm_num)
    _ ≤ x.low := by
      rw [low_eq hx.pos]
      refine mul_le_mul_of_nonneg_right ?_ (by positivity)
      split <;> linarith

section Written

variable {digits : ℕ} {scale : ℤ}

theorem Covers.digits_pos (hx : x.Canonical) (h : x.Covers (digits * 10 ^ scale)) : 0 < digits := by
  apply Nat.pos_of_ne_zero
  intro hzero
  have hlow := hx.low_pos.trans_le h.low_le
  rw [hzero, Nat.cast_zero, zero_mul] at hlow
  exact lt_irrefl 0 hlow

/-- The exponents that are taken for infinity leave no number that rounds to a double. -/
theorem Covers.scale_le (hx : x.Canonical) (h : x.Covers (digits * 10 ^ scale)) : scale ≤ 400 := by
  by_contra hs
  have hone : (1 : ℚ) ≤ digits := by exact_mod_cast h.digits_pos hx
  have h10 : (10 : ℚ) ^ (401 : ℤ) ≤ 10 ^ scale := zpow_le_zpow_right₀ (by norm_num) (by omega)
  have h2 : (2 : ℚ) ^ (1024 : ℤ) ≤ 10 ^ (401 : ℤ) :=
    calc (2 : ℚ) ^ (1024 : ℤ) ≤ 2 ^ (3 * 401 : ℤ) :=
          zpow_le_zpow_right₀ one_le_two (by norm_num)
      _ = (2 ^ (3 : ℤ)) ^ (401 : ℤ) := zpow_mul _ _ _
      _ ≤ 10 ^ (401 : ℤ) := zpow_le_zpow_left₀ (by norm_num) (by norm_num) (by norm_num)
  have hscale : (10 : ℚ) ^ scale ≤ digits * 10 ^ scale :=
    le_mul_of_one_le_left (by positivity) hone
  exact (h.le_high.trans_lt hx.high_lt_top).not_ge (h2.trans (h10.trans hscale))

/-- So do those that are taken for zero. -/
theorem Covers.le_scale (hx : x.Canonical) (h : x.Covers (digits * 10 ^ scale)) :
    -1100 ≤ scale + (digits.log2 + 1) := by
  by_contra hs
  have hscale : (10 : ℚ) ^ scale ≤ 2 ^ scale := by
    have hneg : (2 : ℚ) ^ (-scale) ≤ 10 ^ (-scale) :=
      zpow_le_zpow_left₀ (by omega) (by norm_num) (by norm_num)
    rw [zpow_neg, zpow_neg] at hneg
    exact (inv_le_inv₀ (by positivity) (by positivity)).mp hneg
  have hlog : (digits : ℚ) ≤ 2 ^ ((digits.log2 : ℤ) + 1) := (log2_bounds (h.digits_pos hx)).2.le
  have hsmall : (digits : ℚ) * 10 ^ scale ≤ 2 ^ (-1101 : ℤ) :=
    calc (digits : ℚ) * 10 ^ scale ≤ 2 ^ ((digits.log2 : ℤ) + 1) * 2 ^ scale := by gcongr
      _ = 2 ^ ((digits.log2 : ℤ) + 1 + scale) := (zpow_add₀ (by norm_num) _ _).symm
      _ ≤ 2 ^ (-1101 : ℤ) := zpow_le_zpow_right₀ one_le_two (by omega)
  have hlt : (2 : ℚ) ^ (-1101 : ℤ) < 2 ^ (-1075 : ℤ) :=
    (zpow_lt_zpow_iff_right₀ one_lt_two).mpr (by norm_num)
  exact (hx.le_low.trans h.low_le).not_gt (hsmall.trans_lt hlt)

/-- A number written in decimal is read as a double if it is among those that round to it. -/
theorem decimalBits_of_covers (hx : x.Canonical) (h : x.Covers (digits * 10 ^ scale)) :
    decimalBits digits scale = x.bits := by
  have hdigits := Nat.pos_iff_ne_zero.mp (h.digits_pos hx)
  have hlarge := h.scale_le hx
  have hsmall := h.le_scale hx
  have h10 := zpow_mul_pow_toNat (b := 10) (by norm_num) scale
  rw [decimalBits, if_neg hdigits, if_neg (by omega), if_neg (by omega)]
  refine quotientBits_of_covers hx (Nat.pow_pos (by decide)) ?_
  rwa [Nat.pow_eq, Nat.pow_eq, Nat.cast_mul, Nat.cast_pow, Nat.cast_pow, Nat.cast_ofNat, ← h10,
    ← mul_assoc, mul_div_cancel_right₀ _ (by positivity)]

end Written

/-- A pattern below that of infinity is the pattern of a double. -/
theorem canonical_ofBits {pattern : UInt64} (hpos : 0 < pattern.toNat)
    (hlt : pattern.toNat < infinityBits) :
    (ofBits pattern).Canonical ∧ (ofBits pattern).bits = pattern.toNat := by
  have hfield : pattern.toNat / leadingBit % 0x800 = pattern.toNat / leadingBit := by
    apply Nat.mod_eq_of_lt
    unfold infinityBits at hlt
    unfold leadingBit
    omega
  unfold infinityBits at hlt
  unfold ofBits
  dsimp only
  rw [hfield]
  split
  · rename_i h
    unfold leadingBit at h ⊢
    have hnarrow : false = true ↔ pattern.toNat % 0x10000000000000 = 2 ^ 52 ∧ (-1074 : ℤ) < -1074 :=
      by simp
    exact ⟨⟨by dsimp only; omega, by dsimp only; omega, by simp, by simp, by simp, hnarrow⟩,
      by dsimp only [bits, leadingBit]; omega⟩
  · rename_i h
    unfold leadingBit at h ⊢
    refine ⟨⟨?_, ?_, ?_, ?_, ?_, ?_⟩, ?_⟩
    case refine_6 =>
      simp only [Bool.and_eq_true, decide_eq_true_eq]
      omega
    all_goals dsimp only [bits, leadingBit]; omega

end Binary

end FormLetter.Decimal
