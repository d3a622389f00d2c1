import FormLetter.Proofs.Outcome
import FormLetter.Proofs.Schema.Conformity
import FormLetter.Validation.Inference

namespace FormLetter

namespace Validation.Env

theorem binaryType_add (left right : TypeInfo) : (binaryType .add left right).kind =
    if left.kind = .string ∨ right.kind = .string then .string else .number := by
  simp only [binaryType, BinaryOp.isComparison, BinaryOp.isLogical, Bool.or_self,
    Bool.false_eq_true, if_false, true_and]
  split <;> rfl

theorem binaryType_logical (h : op.isLogical = true) (left right : TypeInfo) :
    binaryType op left right = .ofKind .bool :=
  if_pos (by simp [h])

/-- Only for a sum it matters what is added. -/
theorem binaryType_of_ne_add (h : op ≠ .add) (left right other more : TypeInfo) :
    binaryType op left right = binaryType op other more := by
  simp [binaryType, h]

end Validation.Env

open Validation.Env

namespace Value

theorem kind_eq_string {v : Value} : Kind.ofValue v = .string ↔ ∃ s, v = string s := by
  cases v <;> simp [Kind.ofValue]

theorem kind_exactOr (exact : Option Int64) (x : Float) :
    Kind.ofValue (exactOr exact x) = .number := by
  cases exact <;> rfl

theorem kind_intArithmetic (h : intArithmetic op a b = .ok w) : Kind.ofValue w = .number := by
  unfold intArithmetic at h
  split at h
  · cases h
    exact kind_exactOr _ _
  · cases h
    exact kind_exactOr _ _
  · cases h
    exact kind_exactOr _ _
  · split at h
    · cases h
    · cases h
      exact kind_exactOr _ _
  · split at h
    · cases h
    · cases h
      rfl

theorem kind_floatArithmetic (h : floatArithmetic op left right a b = .ok w) :
    Kind.ofValue w = .number := by
  unfold floatArithmetic at h
  split at h
  · cases h
    rfl
  · cases h
    rfl
  · cases h
    rfl
  · split at h
    · cases h
    · cases h
      rfl
  · split at h
    · split at h
      · cases h
      · cases h
        rfl
    · cases h

theorem kind_arithmetic (h : arithmetic op left right = .ok w) : Kind.ofValue w = .number := by
  unfold arithmetic at h
  split at h
  · exact kind_intArithmetic h
  · split at h
    · exact kind_floatArithmetic h
    · cases h
    · cases h

theorem kind_ordering (h : ordering op left right test = .ok w) : Kind.ofValue w = .bool := by
  unfold ordering at h
  split at h
  · cases h
    rfl
  · cases h

theorem kind_unary (h : unary op v = .ok w) : Kind.ofValue w = (unaryType op).kind := by
  unfold unary at h
  split at h
  · cases h
    rfl
  · cases h
    exact kind_exactOr _ _
  · cases h
    rfl
  · cases h
    rfl
  · cases h
    rfl
  · cases h

/-- The kind of a result is that which is inferred from the kinds of the operands. -/
theorem kind_binary (h : binary op a b = .ok w) :
    Kind.ofValue w = (binaryType op (.ofKind (.ofValue a)) (.ofKind (.ofValue b))).kind := by
  cases op with
  | eq | ne | and | or =>
    cases h
    rfl
  | lt | le | gt | ge => exact kind_ordering h
  | sub | mul | div | mod => exact kind_arithmetic h
  | add =>
    simp only [binary] at h
    split at h
    · cases h
      rfl
    · cases h
      rw [binaryType_add, if_pos (.inr rfl)]
      rfl
    · rename_i ha hb
      have hnone : ¬(Kind.ofValue a = .string ∨ Kind.ofValue b = .string) := by
        rintro (hs | hs) <;> obtain ⟨s, rfl⟩ := kind_eq_string.mp hs
        · exact ha s rfl
        · exact hb s rfl
      rw [binaryType_add]
      exact (kind_arithmetic h).trans (if_neg hnone).symm

/-- A sum with a text in it is a text, even where the text is null: nothing else can be added to
null. -/
theorem kind_add_string (h : binary .add a b = .ok w)
    (hs : Kind.string.Admits a ∨ Kind.string.Admits b) : Kind.ofValue w = .string := by
  rcases hs with (hk | hk | rfl | hs) | (hk | hk | rfl | hs)
  · cases hk
  · cases hk
  · cases b with
    | string s =>
      cases h
      rfl
    | _ => cases h
  · rw [kind_binary h, binaryType_add]
    exact if_pos (.inl hs)
  · cases hk
  · cases hk
  · cases a with
    | string s =>
      cases h
      rfl
    | _ => cases h
  · rw [kind_binary h, binaryType_add]
    exact if_pos (.inr hs)

end Value

end FormLetter
