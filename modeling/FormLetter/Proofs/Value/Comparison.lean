import FormLetter.Proofs.Expr.Calls
import Mathlib.Data.String.Basic

namespace FormLetter

namespace Value

section

open Float.Model

theorem compare_sign_swap (s t : UnpackedFloat.Sign) : compare t s = (compare s t).swap := by
  cases s <;> cases t <;> rfl

/-- Doubles are compared by their signs, then by exponent and mantissa, and what is no number with
none. -/
theorem compare_unpacked_swap (a b : UnpackedFloat) :
    b.compare a = (a.compare b).map Ordering.swap := by
  cases a with
  | notANumber => cases b <;> rfl
  | infinity s =>
    cases b with
    | infinity t => exact congrArg some (compare_sign_swap s t)
    | notANumber => rfl
    | zero | finite => cases s <;> rfl
  | zero s =>
    cases b with
    | notANumber | zero => rfl
    | infinity t | finite t => cases t <;> rfl
  | finite s m e =>
    cases b with
    | notANumber => rfl
    | zero => cases s <;> rfl
    | infinity t => cases t <;> rfl
    | finite t n f =>
      have hswap : (compare f e).then (compare n m) = ((compare e f).then (compare m n)).swap := by
        rw [Ordering.swap_then, Int.compare_swap, Nat.compare_swap]
      cases s with
      | negative =>
        cases t with
        | negative => exact congrArg (some ∘ Ordering.swap) hswap
        | positive => rfl
      | positive =>
        cases t with
        | negative => rfl
        | positive => exact congrArg some hswap

end

theorem float_lt_iff {a b : Float} :
    a < b ↔ a.toModel.unpack.compare b.toModel.unpack = some .lt := by
  change decide ((_ == some Ordering.lt) = true) = true ↔ _
  rw [decide_eq_true_eq]
  exact beq_iff_eq

theorem float_beq_iff {a b : Float} :
    (a == b) = true ↔ a.toModel.unpack.compare b.toModel.unpack = some .eq := by
  change (_ == some Ordering.eq) = true ↔ _
  exact beq_iff_eq

theorem compareFloats_eq (a b : Float) :
    compareFloats a b = a.toModel.unpack.compare b.toModel.unpack := by
  have hgt : b < a ↔ a.toModel.unpack.compare b.toModel.unpack = some .gt := by
    rw [float_lt_iff, compare_unpacked_swap]
    cases a.toModel.unpack.compare b.toModel.unpack with
    | none => simp
    | some o => cases o <;> simp
  unfold compareFloats
  simp only [float_lt_iff, float_beq_iff, hgt]
  cases a.toModel.unpack.compare b.toModel.unpack with
  | none => rfl
  | some o => cases o <;> rfl

theorem compareFloats_swap (a b : Float) :
    compareFloats b a = (compareFloats a b).map Ordering.swap := by
  rw [compareFloats_eq, compareFloats_eq]
  exact compare_unpacked_swap _ _

theorem float_beq_eq (a b : Float) : (a == b) = (compareFloats a b == some .eq) := by
  rw [Bool.eq_iff_iff, float_beq_iff, compareFloats_eq, beq_iff_eq]

theorem float_beq_comm (a b : Float) : (a == b) = (b == a) := by
  rw [float_beq_eq, float_beq_eq, compareFloats_swap]
  cases compareFloats b a with
  | none => rfl
  | some o => cases o <;> rfl

/-- How two values are compared: as whole numbers, as texts, as doubles where numbers are not both
whole, and else by what they hold, without an order. -/
inductive ComparedAs (left right : Value) : Prop where
  | wholes (hl : left = int a) (hr : right = int b)
  | texts (hl : left = string s) (hr : right = string t)
  | doubles (x y : Float)
    (horder : left.order? right = compareFloats x y ∧ right.order? left = compareFloats y x)
    (hequal : left.equal right = (x == y) ∧ right.equal left = (y == x))
  | contents (horder : left.order? right = none ∧ right.order? left = none)
    (hequal : left.equal right = left.same right ∧ right.equal left = right.same left)

theorem comparedAs (left right : Value) : ComparedAs left right := by
  cases left with
  | int a =>
    cases right with
    | int b => exact .wholes rfl rfl
    | float y => exact .doubles a.toFloat y ⟨rfl, rfl⟩ ⟨rfl, rfl⟩
    | _ => exact .contents ⟨rfl, rfl⟩ ⟨rfl, rfl⟩
  | float x =>
    cases right with
    | int b => exact .doubles x b.toFloat ⟨rfl, rfl⟩ ⟨rfl, rfl⟩
    | float y => exact .doubles x y ⟨rfl, rfl⟩ ⟨rfl, rfl⟩
    | _ => exact .contents ⟨rfl, rfl⟩ ⟨rfl, rfl⟩
  | string s =>
    cases right with
    | string t => exact .texts rfl rfl
    | _ => exact .contents ⟨rfl, rfl⟩ ⟨rfl, rfl⟩
  | _ => cases right <;> exact .contents ⟨rfl, rfl⟩ ⟨rfl, rfl⟩

/-- Values are ordered alike whichever comes first. -/
theorem order?_swap (left right : Value) :
    right.order? left = (left.order? right).map Ordering.swap := by
  cases comparedAs left right with
  | wholes hl hr | texts hl hr =>
    rw [hl, hr]
    exact congrArg some Std.OrientedCmp.eq_swap
  | doubles x y horder hequal =>
    rw [horder.1, horder.2]
    exact compareFloats_swap x y
  | contents horder hequal =>
    rw [horder.1, horder.2]
    rfl

/-- Values that are ordered are equal exactly if neither is less. -/
theorem equal_of_order? {left right : Value} (h : left.order? right = some o) :
    left.equal right = (o == .eq) := by
  rw [Bool.eq_iff_iff, beq_iff_eq]
  cases comparedAs left right with
  | wholes hl hr =>
    subst hl hr
    cases h
    exact beq_iff_eq.trans Std.LawfulEqCmp.compare_eq_iff_eq.symm
  | texts hl hr =>
    subst hl hr
    cases h
    exact beq_iff_eq.trans Std.LawfulEqCmp.compare_eq_iff_eq.symm
  | doubles x y horder hequal =>
    rw [hequal.1, float_beq_eq, ← horder.1, h]
    simp
  | contents horder hequal =>
    rw [horder.1] at h
    cases h

mutual
theorem same_comm : (a b : Value) → a.same b = b.same a
  | null, b => by cases b <;> rfl
  | bool a, b => by cases b <;> simp [same, Bool.beq_comm]
  | int a, b => by cases b <;> simp [same, Bool.beq_comm]
  | float a, b => by cases b <;> simp [same, float_beq_comm]
  | string a, b => by cases b <;> simp [same, Bool.beq_comm]
  | array as, b => by
    cases b with
    | array bs => simp only [same, sameItems_comm as bs]
    | _ => rfl
  | object as, b => by
    cases b with
    | object bs => simp only [same, sameMembers_comm as bs]
    | _ => rfl
termination_by structural a => a

theorem sameItems_comm : (as bs : List Value) → sameItems as bs = sameItems bs as
  | [], bs => by cases bs <;> rfl
  | a :: as, bs => by
    cases bs with
    | nil => rfl
    | cons b bs => simp only [sameItems, same_comm a b, sameItems_comm as bs]
termination_by structural as => as

theorem sameMembers_comm :
    (as bs : List (String × Value)) → sameMembers as bs = sameMembers bs as
  | [], bs => by cases bs <;> rfl
  | (k, a) :: as, bs => by
    cases bs with
    | nil => rfl
    | cons entry bs =>
      simp only [sameMembers, same_comm a entry.2, sameMembers_comm as bs,
        Bool.beq_comm (a := k)]
termination_by structural as => as
end

theorem equal_comm (left right : Value) : left.equal right = right.equal left := by
  cases comparedAs left right with
  | wholes hl hr | texts hl hr =>
    rw [hl, hr]
    exact Bool.beq_comm
  | doubles x y horder hequal =>
    rw [hequal.1, hequal.2]
    exact float_beq_comm x y
  | contents horder hequal =>
    rw [hequal.1, hequal.2]
    exact same_comm left right

/-- What comparisons of two values say where these are ordered: one of less, equal and greater
holds, and what else is asked follows from these. -/
structure Ordered (outcome : BinaryOp → Except EvalError Value) (less alike greater : Bool) :
    Prop where
  one : [less, alike, greater].count true = 1
  lt : outcome .lt = .ok (.bool less)
  eq : outcome .eq = .ok (.bool alike)
  gt : outcome .gt = .ok (.bool greater)
  le : outcome .le = .ok (.bool (less || alike))
  ge : outcome .ge = .ok (.bool (greater || alike))

theorem Ordered.congr (h : Ordered outcome less alike greater)
    (ho : ∀ op : BinaryOp, op.isLogical = false → other op = outcome op) :
    Ordered other less alike greater where
  one := h.one
  lt := (ho .lt rfl).trans h.lt
  eq := (ho .eq rfl).trans h.eq
  gt := (ho .gt rfl).trans h.gt
  le := (ho .le rfl).trans h.le
  ge := (ho .ge rfl).trans h.ge

theorem ordered_of_order? {left right : Value} (h : left.order? right = some o) :
    Ordered (fun op => binary op left right) (o == .lt) (o == .eq) (o == .gt) where
  one := by cases o <;> rfl
  lt := by
    simp only [binary, ordering, h]
    cases o <;> rfl
  eq := by rw [binary, equal_of_order? h]
  gt := by
    simp only [binary, ordering, h]
    cases o <;> rfl
  le := by
    simp only [binary, ordering, h]
    cases o <;> rfl
  ge := by
    simp only [binary, ordering, h]
    cases o <;> rfl

/-- The operators that ask for an order. -/
def orderings : List BinaryOp :=
  [.lt, .le, .gt, .ge]

theorem binary_of_order?_none {left right : Value} (h : left.order? right = none)
    (hop : op ∈ orderings) : binary op left right =
      .error (.invalidComparison op.symbol left.typeName right.typeName) := by
  simp only [orderings, List.mem_cons, List.not_mem_nil, or_false] at hop
  rcases hop with rfl | rfl | rfl | rfl <;> simp only [binary, ordering, h]

theorem isLogical_of_mem_orderings (h : op ∈ orderings) : op.isLogical = false := by
  simp only [orderings, List.mem_cons, List.not_mem_nil, or_false] at h
  rcases h with rfl | rfl | rfl | rfl <;> rfl

end Value

namespace Expr

open Value

variable {functions : Functions} {data : Context} {left right : Expr} {l r : Value}

/-- Any two values are ordered, and then exactly one of less, equal and greater holds and the other
orderings follow from it, or all four orderings fail; either way round. Equality is symmetric, and
inequality its contrary, whatever the values. -/
theorem eval_comparisons (hl : left.eval functions data = .ok l)
    (hr : right.eval functions data = .ok r) :
    let outcome (op : BinaryOp) := (binary op left right).eval functions data
    let turned (op : BinaryOp) := (binary op right left).eval functions data
    ((∃ less alike greater,
        Ordered outcome less alike greater ∧ Ordered turned greater alike less) ∨
      ∀ op ∈ orderings,
        outcome op = .error (.invalidComparison op.symbol l.typeName r.typeName) ∧
        turned op = .error (.invalidComparison op.symbol r.typeName l.typeName)) ∧
    ∃ alike, outcome .eq = .ok (.bool alike) ∧ turned .eq = .ok (.bool alike) ∧
      outcome .ne = .ok (.bool !alike) ∧ turned .ne = .ok (.bool !alike) := by
  intro outcome turned
  have houtcome (op : BinaryOp) (hop : op.isLogical = false) : outcome op = Value.binary op l r :=
    eval_binary hop hl hr
  have hturned (op : BinaryOp) (hop : op.isLogical = false) : turned op = Value.binary op r l :=
    eval_binary hop hr hl
  refine ⟨?_, l.equal r, houtcome .eq rfl, ?_, houtcome .ne rfl, ?_⟩
  · cases ho : l.order? r with
    | some o =>
      have hback : r.order? l = some o.swap := by rw [order?_swap, ho, Option.map_some]
      refine .inl ⟨o == .lt, o == .eq, o == .gt, (ordered_of_order? ho).congr houtcome, ?_⟩
      have hordered := (ordered_of_order? hback).congr hturned
      cases o <;> exact hordered
    | none =>
      have hback : r.order? l = none := by rw [order?_swap, ho, Option.map_none]
      refine .inr fun op hop => ?_
      have hlogical := isLogical_of_mem_orderings hop
      rw [houtcome op hlogical, hturned op hlogical]
      exact ⟨binary_of_order?_none ho hop, binary_of_order?_none hback hop⟩
  · rw [equal_comm]
    exact hturned .eq rfl
  · rw [equal_comm]
    exact hturned .ne rfl

/-- The two zeros among the doubles are equal, and what is no number is not ordered, not even with
itself. -/
theorem eval_comparisons_of_doubles :
    let zero := literal (.float 0.0)
    let negative := literal (.float (-0.0))
    let notNumber := literal (.float (0.0 / 0.0))
    let outcome (left right : Expr) (op : BinaryOp) := (binary op left right).eval .none []
    (zero.eval .none [] = .ok (.float 0.0) ∧ negative.eval .none [] = .ok (.float (-0.0)) ∧
      notNumber.eval .none [] = .ok (.float (0.0 / 0.0)) ∧ BinaryOp.le ∈ orderings) ∧
    outcome negative zero .le = .ok (.bool true) ∧ outcome zero negative .le = .ok (.bool true) ∧
    outcome notNumber notNumber .le = .error (.invalidComparison "<=" "float" "float") := by
  intro zero negative notNumber outcome
  have hzeros : order? (.float (-0.0)) (.float 0.0) = some .eq := by decide +kernel
  have hnan : order? (.float (0.0 / 0.0)) (.float (0.0 / 0.0)) = none := by decide +kernel
  have hmem : BinaryOp.le ∈ orderings := by decide
  have heq : outcome negative zero .eq = .ok (.bool true) := (ordered_of_order? hzeros).eq
  have hle : outcome notNumber notNumber .le = .error (.invalidComparison "<=" "float" "float") :=
    binary_of_order?_none hnan hmem
  have hzero : zero.eval .none [] = .ok (.float 0.0) := rfl
  have hnegative : negative.eval .none [] = .ok (.float (-0.0)) := rfl
  have hnotNumber : notNumber.eval .none [] = .ok (.float (0.0 / 0.0)) := rfl
  refine ⟨⟨hzero, hnegative, hnotNumber, hmem⟩, ?_⟩
  obtain ⟨⟨less, alike, greater, h, hback⟩ | hfails, -⟩ := eval_comparisons hnegative hzero
  · have halike : alike = true := by
      cases heq.symm.trans h.eq
      rfl
    obtain ⟨⟨_, _, _, hnone, -⟩ | hfails, -⟩ := eval_comparisons hnotNumber hnotNumber
    · cases hle.symm.trans hnone.le
    · exact ⟨h.le.trans (by simp [halike]), hback.le.trans (by simp [halike]), (hfails .le hmem).1⟩
  · have hle : outcome negative zero .le = .ok (.bool true) := (ordered_of_order? hzeros).le
    cases hle.symm.trans (hfails .le hmem).1

end Expr

end FormLetter
