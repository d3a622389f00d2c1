import FormLetter.Decimal.Shortest
import Mathlib.Algebra.Order.Field.Power
import Mathlib.Algebra.Order.Field.Rat
import Mathlib.Order.Compare
import Mathlib.Tactic.FieldSimp
import Mathlib.Tactic.Linarith
import Mathlib.Tactic.NormNum
import Mathlib.Tactic.Positivity
import Mathlib.Tactic.Ring

namespace FormLetter.Decimal

/-- A power with a whole exponent is split into a numerator and a denominator. -/
theorem zpow_mul_pow_toNat {b : ℚ} (hb : b ≠ 0) (i : ℤ) :
    b ^ i * b ^ (-i).toNat = b ^ i.toNat := by
  rw [← zpow_natCast, ← zpow_natCast, ← zpow_add₀ hb]
  congr 1
  omega

theorem compareScaled_eq (a b : ℕ) (i j : ℤ) :
    compareScaled a i b j = compare ((a : ℚ) * 10 ^ i) (b * 2 ^ j) := by
  have h10 := zpow_mul_pow_toNat (b := 10) (by norm_num) i
  have h2 := zpow_mul_pow_toNat (b := 2) (by norm_num) j
  have hc : (0 : ℚ) < 10 ^ (-i).toNat * 2 ^ (-j).toNat := by positivity
  have hl : ((a * Nat.pow 10 i.toNat * Nat.pow 2 (-j).toNat : ℕ) : ℚ) =
      a * 10 ^ i * (10 ^ (-i).toNat * 2 ^ (-j).toNat) := by
    push_cast [Nat.pow_eq, ← h10]
    ring
  have hr : ((b * Nat.pow 2 j.toNat * Nat.pow 10 (-i).toNat : ℕ) : ℚ) =
      b * 2 ^ j * (10 ^ (-i).toNat * 2 ^ (-j).toNat) := by
    push_cast [Nat.pow_eq, ← h2]
    ring
  rw [compareScaled]
  rcases lt_trichotomy ((a : ℚ) * 10 ^ i) (b * 2 ^ j) with h | h | h
  · rw [compare_lt_iff_lt.mpr h, compare_lt_iff_lt, ← Nat.cast_lt (α := ℚ), hl, hr]
    exact mul_lt_mul_of_pos_right h hc
  · rw [compare_eq_iff_eq.mpr h, compare_eq_iff_eq, ← Nat.cast_inj (R := ℚ), hl, hr, h]
  · rw [compare_gt_iff_gt.mpr h, compare_gt_iff_gt, ← Nat.cast_lt (α := ℚ), hl, hr]
    exact mul_lt_mul_of_pos_right h hc

theorem shift_pos (num : ℕ) (hd : 0 < den) (e : ℤ) : 0 < (shift num den e).2 := by
  have : 0 < Nat.pow 2 (-e).toNat := Nat.pow_pos (by decide)
  exact Nat.mul_pos hd this

theorem shift_div (num : ℕ) (hd : 0 < den) (e : ℤ) :
    ((shift num den e).1 : ℚ) / (shift num den e).2 = num / den * 2 ^ e := by
  have h2 := zpow_mul_pow_toNat (b := 2) (by norm_num) e
  have hd' : (den : ℚ) ≠ 0 := by positivity
  simp only [shift, Nat.pow_eq]
  push_cast
  rw [← h2]
  field_simp

theorem roundQuotient_eq_of_mul {n d m : ℕ} (hd : 0 < d)
    (hlow : 2 * (m * d) < 2 * n + d ∨ m % 2 = 0 ∧ 2 * (m * d) ≤ 2 * n + d)
    (hhigh : 2 * n < 2 * (m * d) + d ∨ m % 2 = 0 ∧ 2 * n ≤ 2 * (m * d) + d) :
    roundQuotient n d = m := by
  have hdiv := Nat.div_add_mod n d
  have hr := Nat.mod_lt n hd
  unfold roundQuotient
  dsimp only
  generalize n / d = q at hdiv ⊢
  generalize n % d = r at hdiv hr ⊢
  have hge : q ≤ m := by
    by_contra h
    have := Nat.mul_le_mul_right d (show m + 1 ≤ q by omega)
    rw [Nat.add_mul, Nat.mul_comm q d] at this
    omega
  have hle : m ≤ q + 1 := by
    by_contra h
    have := Nat.mul_le_mul_right d (show q + 2 ≤ m by omega)
    rw [Nat.add_mul, Nat.mul_comm q d] at this
    omega
  obtain rfl | rfl : m = q ∨ m = q + 1 := by omega
  · rw [Nat.mul_comm m d] at hlow hhigh
    split <;> omega
  · rw [Nat.add_mul, Nat.mul_comm q d] at hlow hhigh
    split <;> omega

/-- The whole number within half of a quotient is the nearest one; halfway it has to be even. -/
theorem roundQuotient_eq {n d m : ℕ} (hd : 0 < d)
    (hlow : (m : ℚ) - 1 / 2 < n / d ∨ m % 2 = 0 ∧ (m : ℚ) - 1 / 2 ≤ n / d)
    (hhigh : (n : ℚ) / d < m + 1 / 2 ∨ m % 2 = 0 ∧ (n : ℚ) / d ≤ m + 1 / 2) :
    roundQuotient n d = m := by
  have hd' : (0 : ℚ) < d := by exact_mod_cast hd
  rw [lt_div_iff₀ hd', le_div_iff₀ hd'] at hlow
  rw [div_lt_iff₀ hd', div_le_iff₀ hd'] at hhigh
  refine roundQuotient_eq_of_mul hd (hlow.imp ?_ (And.imp_right ?_))
    (hhigh.imp ?_ (And.imp_right ?_))
  · intro h
    have : 2 * ((m : ℚ) * d) < 2 * n + d := by linarith
    exact_mod_cast this
  · intro h
    have : 2 * ((m : ℚ) * d) ≤ 2 * n + d := by linarith
    exact_mod_cast this
  · intro h
    have : 2 * (n : ℚ) < 2 * (m * d) + d := by linarith
    exact_mod_cast this
  · intro h
    have : 2 * (n : ℚ) ≤ 2 * (m * d) + d := by linarith
    exact_mod_cast this

theorem log2_bounds {n : ℕ} (hn : 0 < n) :
    (2 : ℚ) ^ (n.log2 : ℤ) ≤ n ∧ (n : ℚ) < 2 ^ ((n.log2 : ℤ) + 1) := by
  have hlow := Nat.log2_self_le (Nat.pos_iff_ne_zero.mp hn)
  have hhigh : n < 2 ^ (n.log2 + 1) := Nat.lt_log2_self
  constructor
  · rw [zpow_natCast]
    exact_mod_cast hlow
  · rw [← Nat.cast_succ, zpow_natCast]
    exact_mod_cast hhigh

/-- The logarithm of a quotient, rounded down. -/
theorem log2Quotient_bounds {num den : ℕ} (hn : 0 < num) (hd : 0 < den) :
    (2 : ℚ) ^ log2Quotient num den ≤ num / den ∧
      (num : ℚ) / den < 2 ^ (log2Quotient num den + 1) := by
  obtain ⟨hn1, hn2⟩ := log2_bounds hn
  obtain ⟨hd1, hd2⟩ := log2_bounds hd
  have hd' : (0 : ℚ) < den := by exact_mod_cast hd
  unfold log2Quotient
  dsimp only
  generalize he : (num.log2 : ℤ) - den.log2 = e
  have hhigh : (num : ℚ) / den < 2 ^ (e + 1) := by
    rw [div_lt_iff₀ hd']
    calc (num : ℚ) < 2 ^ ((num.log2 : ℤ) + 1) := hn2
      _ = 2 ^ (e + 1) * 2 ^ (den.log2 : ℤ) := by
        rw [← zpow_add₀ (by norm_num)]
        congr 1
        omega
      _ ≤ 2 ^ (e + 1) * den := by gcongr
  have hlow : (2 : ℚ) ^ (e - 1) ≤ num / den := by
    rw [le_div_iff₀ hd']
    calc (2 : ℚ) ^ (e - 1) * den ≤ 2 ^ (e - 1) * 2 ^ ((den.log2 : ℤ) + 1) := by gcongr
      _ = 2 ^ (num.log2 : ℤ) := by
        rw [← zpow_add₀ (by norm_num)]
        congr 1
        omega
      _ ≤ num := hn1
  have hshift := shift_div num hd (-e)
  have hpos := shift_pos num hd (-e)
  have hpos' : (0 : ℚ) < (shift num den (-e)).2 := by exact_mod_cast hpos
  have hp : (0 : ℚ) < 2 ^ e := by positivity
  have hiff : (shift num den (-e)).2 ≤ (shift num den (-e)).1 ↔ (2 : ℚ) ^ e ≤ num / den := by
    rw [← Nat.cast_le (α := ℚ), ← one_le_div hpos', hshift, zpow_neg, ← div_eq_mul_inv,
      one_le_div hp]
  split
  · rename_i h
    exact ⟨hiff.mp h, hhigh⟩
  · rename_i h
    refine ⟨hlow, ?_⟩
    rw [hiff, not_le] at h
    rwa [sub_add_cancel]

end FormLetter.Decimal
