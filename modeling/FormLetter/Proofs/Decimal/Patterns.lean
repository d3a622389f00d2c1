import FormLetter.Decimal.Nearest

namespace FormLetter.Decimal

open Float.Model (Format)
open Float.Model.UnpackedFloat

section Components

variable {s : Sign} {e : BitVec Format.binary64.exponentBits}
  {m : BitVec Format.binary64.mantissaBitsWithoutImplicit} {b : BitVec Format.binary64.numBits}

theorem toNat_unpackSign (b : BitVec Format.binary64.numBits) :
    (unpackSign b).toNat = b.toNat / signBit % 2 := by
  have h : unpackSign b = (b.extractLsb 63 63).cast rfl := rfl
  simp [h, signBit, Nat.shiftRight_eq_div_pow]
theorem toNat_unpackExponent (b : BitVec Format.binary64.numBits) :
    (unpackExponent b).toNat = b.toNat / leadingBit % 2048 := by
  simp [unpackExponent, leadingBit, Nat.shiftRight_eq_div_pow]
theorem toNat_unpackMantissa (b : BitVec Format.binary64.numBits) :
    (unpackMantissa b).toNat = b.toNat % leadingBit := by
  simp [unpackMantissa, leadingBit]

/-- The parts of a pattern make up the pattern. -/
theorem packComponents_unpack (b : BitVec Format.binary64.numBits) :
    packComponents Format.binary64 (Sign.ofBitVec (unpackSign b)) (unpackExponent b)
      (unpackMantissa b) = b := by
  have hsign (v : BitVec 1) : (Sign.ofBitVec v).toBitVec = v := by
    revert v
    decide
  have hb : b.toNat < 2 ^ 64 := b.isLt
  have hm : (unpackMantissa b).toNat < 2 ^ 52 := (unpackMantissa b).isLt
  have he : (unpackExponent b).toNat < 2 ^ 11 := (unpackExponent b).isLt
  apply BitVec.eq_of_toNat_eq
  rw [packComponents, hsign, BitVec.toNat_append, BitVec.toNat_append,
    ← Nat.shiftLeft_add_eq_or_of_lt hm, ← Nat.shiftLeft_add_eq_or_of_lt he, Nat.shiftLeft_eq,
    Nat.shiftLeft_eq, toNat_unpackSign, toNat_unpackExponent, toNat_unpackMantissa]
  unfold signBit leadingBit
  omega

theorem pack_finite {mantissa : Nat} {exponent : Int} (hm : 0 < mantissa) :
    pack Format.binary64 (.finite s mantissa exponent hm) =
      if 2048 ≤ (exponent + Format.binary64.exponentBias +
          Format.binary64.mantissaBitsWithoutImplicit).toNat + 1 then
        packedInfinity Format.binary64 s
      else if mantissa.log2 + 1 = Format.binary64.mantissaBits then
        packComponents Format.binary64 s (BitVec.ofNat _ (exponent + Format.binary64.exponentBias +
          Format.binary64.mantissaBitsWithoutImplicit).toNat) (BitVec.ofNat _ mantissa)
      else packComponents Format.binary64 s 0#_ (BitVec.ofNat _ mantissa) :=
  rfl

/-- Numbers below the normal range have the exponent of the least normal number. -/
theorem pack_subnormal (hm : 0 < m.toNat) :
    pack Format.binary64 (.finite s m.toNat (-1074) hm) =
      packComponents Format.binary64 s 0#_ m := by
  have hlog : m.toNat.log2 < 52 := (Nat.log2_lt (Nat.pos_iff_ne_zero.mp hm)).mpr m.isLt
  have hshort : ¬ m.toNat.log2 + 1 = Format.binary64.mantissaBits := fun h => by
    have : m.toNat.log2 + 1 = 53 := h
    omega
  rw [pack_finite, if_neg (by decide), if_neg hshort, BitVec.ofNat_toNat, BitVec.setWidth_eq]

/-- Normal numbers have their leading bit in the mantissa, which packing clears. -/
theorem pack_normal (he : e.toNat ≠ 2047) (hm : 0 < (1#1 ++ m).toNat) :
    pack Format.binary64 (.finite s (1#1 ++ m).toNat ((e.toNat : Int) - 1075) hm) =
      packComponents Format.binary64 s e m := by
  have hsum : (1#1 ++ m).toNat = 2 ^ 52 + m.toNat := by
    rw [BitVec.toNat_append, ← Nat.shiftLeft_add_eq_or_of_lt m.isLt]
    rfl
  have hlt : m.toNat < 2 ^ 52 := m.isLt
  have hlog : (1#1 ++ m).toNat.log2 = 52 := by
    rw [Nat.log2_eq_iff (by omega), hsum]
    omega
  have hexp : ((e.toNat : Int) - 1075 + Format.binary64.exponentBias +
      Format.binary64.mantissaBitsWithoutImplicit).toNat = e.toNat := by
    have hbias : (Format.binary64.exponentBias : Int) = 1023 := rfl
    have hbits : (Format.binary64.mantissaBitsWithoutImplicit : Int) = 52 := rfl
    rw [hbias, hbits]
    omega
  have hfits : ¬ 2048 ≤ e.toNat + 1 := by
    have : e.toNat < 2 ^ 11 := e.isLt
    omega
  have hclear : BitVec.ofNat 52 (1#1 ++ m).toNat = m := by
    apply BitVec.eq_of_toNat_eq
    rw [BitVec.toNat_ofNat, hsum]
    omega
  rw [pack_finite, hexp, if_neg hfits, hlog, if_pos (by decide), BitVec.ofNat_toNat,
    BitVec.setWidth_eq]
  exact congrArg _ hclear

/-- Packing undoes unpacking, except for patterns of numbers that are none: only one of them is in
use. -/
theorem pack_unpack (h : Format.binary64.Valid b) :
    pack Format.binary64 (unpack Format.binary64 b) = b := by
  have hb := packComponents_unpack b
  unfold unpack
  dsimp only
  by_cases hinf : unpackExponent b = -1#_
  · rw [if_pos hinf]
    by_cases hmant : unpackMantissa b = 0#_
    · rw [hinf, hmant] at hb
      rw [if_pos hmant]
      exact hb
    · rw [if_neg hmant]
      exact (h.eq_packedNaN hinf hmant).symm
  rw [if_neg hinf]
  by_cases hexp : unpackExponent b = 0#_
  · rw [hexp] at hb
    rw [if_pos hexp]
    by_cases hmant : unpackMantissa b = 0#_
    · rw [hmant] at hb
      rw [dif_pos hmant]
      exact hb
    · rw [dif_neg hmant, hexp]
      exact (pack_subnormal _).trans hb
  · have he : (unpackExponent b).toNat ≠ 2047 := fun h => hinf (BitVec.eq_of_toNat_eq h)
    rw [if_neg hexp]
    exact (pack_normal he _).trans hb

theorem unpackExponent_eq_iff (h : b.toNat ≤ infinityBits) :
    unpackExponent b = -1#_ ↔ b.toNat = infinityBits := by
  have hexp := toNat_unpackExponent b
  rw [← BitVec.toNat_inj, hexp, show (-1#11).toNat = 2047 from rfl]
  unfold infinityBits at h ⊢
  unfold leadingBit
  omega

theorem valid_of_le (h : b.toNat ≤ infinityBits) : Format.binary64.Valid b := by
  refine ⟨fun hexp hmant => absurd (BitVec.eq_of_toNat_eq ?_) hmant⟩
  rw [toNat_unpackMantissa, (unpackExponent_eq_iff h).mp hexp]
  rfl

theorem isFinite_unpack (b : BitVec Format.binary64.numBits) :
    (unpack Format.binary64 b).isFinite = decide (unpackExponent b ≠ -1#_) := by
  unfold unpack
  dsimp only
  by_cases hinf : unpackExponent b = -1#_
  · rw [if_pos hinf, hinf]
    by_cases hmant : unpackMantissa b = 0#_
    · rw [if_pos hmant]
      rfl
    · rw [if_neg hmant]
      rfl
  rw [if_neg hinf, decide_eq_true hinf]
  by_cases hexp : unpackExponent b = 0#_
  · rw [if_pos hexp]
    by_cases hmant : unpackMantissa b = 0#_
    · rw [dif_pos hmant]
      rfl
    · rw [dif_neg hmant]
      rfl
  · rw [if_neg hexp]
    rfl

end Components

theorem toBits_ofBits {pattern : UInt64} (h : pattern.toNat ≤ infinityBits) :
    (Float.ofBits pattern).toBits = pattern :=
  congrArg UInt64.ofBitVec (pack_unpack (valid_of_le h))

theorem eq_of_toBits {x y : Float} (h : x.toBits = y.toBits) : x = y := by
  obtain ⟨⟨pattern, hvalid⟩⟩ := x
  obtain ⟨⟨pattern', hvalid'⟩⟩ := y
  cases h
  rfl

/-- Among the patterns without a sign only infinity has no finite double. -/
theorem isFinite_eq {x : Float} (h : x.toBits.toNat ≤ infinityBits) :
    x.isFinite = decide (x.toBits.toNat ≠ infinityBits) := by
  refine (isFinite_unpack x.toBits.toBitVec).trans (decide_eq_decide.mpr ?_)
  exact not_congr (unpackExponent_eq_iff h)

theorem not_isNaN_of_isFinite {x : Float} (h : x.isFinite = true) :
    x.isNaN = false ∧ x.isInf = false := by
  unfold Float.isFinite Float.Model.isFinite at h
  unfold Float.isNaN Float.isInf Float.Model.isNaN Float.Model.isInf
  cases hx : x.toModel.unpack with
  | infinity | notANumber =>
    rw [hx] at h
    cases h
  | zero | finite => exact ⟨rfl, rfl⟩

end FormLetter.Decimal
