import FormLetter.Proofs.Decimal.Digits
import FormLetter.Proofs.Expr.Calls
import Mathlib.Algebra.Order.Ring.Abs

namespace FormLetter

namespace Value

/-- A number that is whole and in the range of 64 bits. -/
def Fits (q : ℚ) : Prop :=
  ∃ i : ℤ, (i : ℚ) = q ∧ -2 ^ 63 ≤ i ∧ i < 2 ^ 63

theorem fits_iff : Fits q ↔ ∃ n : Int64, (n.toInt : ℚ) = q := by
  constructor
  · rintro ⟨i, rfl, hle, hlt⟩
    exact ⟨Int64.ofInt i, by rw [Int64.toInt_ofInt_of_le hle hlt]⟩
  · rintro ⟨n, hn⟩
    exact ⟨n.toInt, hn, n.le_toInt, n.toInt_lt⟩

/-- The outcome is a whole number where the exact result fits, and then that result; elsewhere it is
a double. -/
structure IsExactOr (outcome : Except EvalError Value) (exact : ℚ) (inexact : Float) : Prop where
  whole_iff : (∃ n, outcome = .ok (.int n)) ↔ Fits exact
  whole_eq : ∀ n, outcome = .ok (.int n) → (n.toInt : ℚ) = exact
  double : ¬Fits exact → outcome = .ok (.float inexact)

theorem isExactOr_exactOr {exact : Option Int64} {q : ℚ}
    (h : ∀ n, exact = some n ↔ (n.toInt : ℚ) = q) (inexact : Float) :
    IsExactOr (.ok (exactOr exact inexact)) q inexact := by
  have hint (n : Int64) : (Except.ok (exactOr exact inexact) : Except EvalError Value) =
      .ok (.int n) ↔ (n.toInt : ℚ) = q := by
    rw [← h n]
    cases exact <;> simp [exactOr]
  refine ⟨?_, fun n hn => (hint n).mp hn, fun hfits => ?_⟩
  · rw [fits_iff]
    exact exists_congr hint
  · cases exact with
    | none => rfl
    | some n => exact absurd (fits_iff.mpr ⟨n, (h n).mp rfl⟩) hfits

theorem isExactOr_int64? (i : ℤ) (inexact : Float) :
    IsExactOr (.ok (exactOr (Decimal.int64? i) inexact)) i inexact :=
  isExactOr_exactOr (fun n => by rw [Decimal.int64?_eq_some, Int.cast_inj]) inexact

/-- A quotient is whole where no remainder is left. -/
theorem tdiv_eq_iff {a b i : ℤ} (hb : b ≠ 0) :
    (a.tmod b = 0 ∧ a.tdiv b = i) ↔ (i : ℚ) = a / b := by
  have hb' : (b : ℚ) ≠ 0 := Int.cast_ne_zero.mpr hb
  rw [eq_div_iff hb']
  constructor
  · rintro ⟨hmod, rfl⟩
    have hdvd : b ∣ a := Int.dvd_of_tmod_eq_zero hmod
    exact_mod_cast Int.tdiv_mul_cancel hdvd
  · intro h
    have ha : i * b = a := by exact_mod_cast h
    rw [← ha]
    exact ⟨Int.mul_tmod_left i b, Int.mul_tdiv_cancel i hb⟩

theorem toInt_ne_zero {b : Int64} (h : b ≠ 0) : b.toInt ≠ 0 := by
  intro hb
  exact h (Int64.toInt_inj.mp hb)

theorem isExactOr_div {b : Int64} (a : Int64) (hb : b ≠ 0) :
    IsExactOr (intArithmetic .div a b) (a.toInt / b.toInt) (a.toFloat / b.toFloat) := by
  simp only [intArithmetic, if_neg hb]
  refine isExactOr_exactOr (fun n => ?_) _
  rw [← tdiv_eq_iff (toInt_ne_zero hb)]
  split
  · rename_i hmod
    rw [Decimal.int64?_eq_some, eq_comm, and_iff_right hmod]
  · rename_i hmod
    simp [hmod]

/-- What is left by a division that rounds toward zero. -/
structure IsRemainder (a b r : ℤ) : Prop where
  eq : a = b * a.tdiv b + r
  small : |r| < |b|
  sign : r = 0 ∨ r.sign = a.sign

theorem isRemainder_tmod {b : ℤ} (a : ℤ) (hb : b ≠ 0) : IsRemainder a b (a.tmod b) where
  eq := (Int.mul_tdiv_add_tmod a b).symm
  small := by
    rw [Int.abs_eq_natAbs, Int.abs_eq_natAbs, Int.natAbs_tmod]
    exact_mod_cast Nat.mod_lt _ (Int.natAbs_pos.mpr hb)
  sign := by
    by_cases hdvd : b ∣ a
    · exact .inl (Int.tmod_eq_zero_of_dvd hdvd)
    · exact .inr (by rw [Int.sign_tmod, if_neg hdvd])

/-- A remainder never leaves the range: it is smaller than the divisor. -/
theorem isRemainder_mod {b : Int64} (a : Int64) (hb : b ≠ 0) : ∃ r : Int64,
    intArithmetic .mod a b = .ok (.int r) ∧ IsRemainder a.toInt b.toInt r.toInt := by
  have hrem := isRemainder_tmod a.toInt (toInt_ne_zero hb)
  have hsmall := abs_lt.mp hrem.small
  have hle := b.le_toInt
  have hlt := b.toInt_lt
  have habs : |b.toInt| ≤ 2 ^ 63 := abs_le.mpr ⟨hle, hlt.le⟩
  refine ⟨Int64.ofInt (a.toInt.tmod b.toInt), by simp [intArithmetic, hb], ?_⟩
  rw [Int64.toInt_ofInt_of_le (by omega) (by omega)]
  exact hrem

end Value

namespace Expr

open Value

variable {functions : Functions} {data : Context} {left right : Expr} {a b : Int64}

theorem eval_binary_int (hop : op.isArithmetic) (hl : left.eval functions data = .ok (.int a))
    (hr : right.eval functions data = .ok (.int b)) :
    (binary op left right).eval functions data = intArithmetic op a b := by
  have hlogical : op.isLogical = false := by
    cases op with
    | or | and => cases hop
    | _ => rfl
  rw [eval_binary hlogical hl hr]
  cases op with
  | add | sub | mul | div | mod => rfl
  | _ => cases hop

/-- Sums, differences, products, quotients and negatives of whole numbers are whole exactly where
the exact result is a whole number of 64 bits, and then they are that result. A division fails
exactly if it is by zero, and so does a remainder, which else is whole. -/
theorem eval_arithmetic (hl : left.eval functions data = .ok (.int a))
    (hr : right.eval functions data = .ok (.int b)) :
    let outcome (op : BinaryOp) := (binary op left right).eval functions data
    IsExactOr (outcome .add) (a.toInt + b.toInt) (a.toFloat + b.toFloat) ∧
    IsExactOr (outcome .sub) (a.toInt - b.toInt) (a.toFloat - b.toFloat) ∧
    IsExactOr (outcome .mul) (a.toInt * b.toInt) (a.toFloat * b.toFloat) ∧
    (outcome .div = .error .divisionByZero ↔ b = 0) ∧
    (b ≠ 0 → IsExactOr (outcome .div) (a.toInt / b.toInt) (a.toFloat / b.toFloat)) ∧
    (outcome .mod = .error .moduloByZero ↔ b = 0) ∧
    (b ≠ 0 → ∃ r : Int64, outcome .mod = .ok (.int r) ∧ IsRemainder a.toInt b.toInt r.toInt) ∧
    IsExactOr ((unary .neg left).eval functions data) (-a.toInt) (-a.toFloat) := by
  intro outcome
  have houtcome (op : BinaryOp) (hop : op.isArithmetic) : outcome op = intArithmetic op a b :=
    eval_binary_int hop hl hr
  have hneg : (unary .neg left).eval functions data =
      .ok (exactOr (Decimal.int64? (-a.toInt)) (-a.toFloat)) := by
    rw [eval, hl]
    rfl
  rw [houtcome .add rfl, houtcome .sub rfl, houtcome .mul rfl, houtcome .div rfl,
    houtcome .mod rfl, hneg]
  refine ⟨?_, ?_, ?_, ?_, isExactOr_div a, ?_, isRemainder_mod a, ?_⟩
  · exact_mod_cast isExactOr_int64? (a.toInt + b.toInt) _
  · exact_mod_cast isExactOr_int64? (a.toInt - b.toInt) _
  · exact_mod_cast isExactOr_int64? (a.toInt * b.toInt) _
  · by_cases hb : b = 0 <;> simp [intArithmetic, hb]
  · by_cases hb : b = 0 <;> simp [intArithmetic, hb]
  · exact_mod_cast isExactOr_int64? (-a.toInt) _

/-- The least whole number and minus one: the quotient and the negative do not fit, and nothing is
left. -/
theorem eval_arithmetic_of_minValue :
    let least := literal (.int Int64.minValue)
    let minusOne := literal (.int (-1))
    let outcome (op : BinaryOp) := (binary op least minusOne).eval .none []
    (least.eval .none [] = .ok (.int Int64.minValue) ∧ minusOne.eval .none [] = .ok (.int (-1)) ∧
      (-1 : Int64) ≠ 0) ∧
    outcome .div = .ok (.float (Int64.minValue.toFloat / (-1 : Int64).toFloat)) ∧
    outcome .mod = .ok (.int 0) ∧
    (unary .neg least).eval .none [] = .ok (.float (-Int64.minValue.toFloat)) := by
  intro least minusOne outcome
  have hne : (-1 : Int64) ≠ 0 := by decide
  have hmin : Int64.minValue.toInt = -2 ^ 63 := by decide
  have hminus : (-1 : Int64).toInt = -1 := by decide
  have hfits : ¬Fits (2 ^ 63) := by
    rintro ⟨i, hi, _, hlt⟩
    have : i = 2 ^ 63 := by exact_mod_cast hi
    omega
  have hl : least.eval .none [] = .ok (.int Int64.minValue) := rfl
  have hr : minusOne.eval .none [] = .ok (.int (-1)) := rfl
  obtain ⟨-, -, -, -, hdiv, -, hmod, hneg⟩ := eval_arithmetic hl hr
  refine ⟨⟨hl, hr, hne⟩, (hdiv hne).double ?_, ?_, hneg.double ?_⟩
  · rw [hmin, hminus]
    norm_num
    exact hfits
  · obtain ⟨r, hr, hrem⟩ := hmod hne
    change outcome .mod = _ at hr
    have hsmall := abs_lt.mp hrem.small
    rw [hminus] at hsmall
    have hzero : r = 0 := Int64.toInt_inj.mp (by simp at hsmall ⊢; omega)
    rw [hr, hzero]
  · rw [hmin]
    norm_num
    exact hfits

end Expr

end FormLetter
