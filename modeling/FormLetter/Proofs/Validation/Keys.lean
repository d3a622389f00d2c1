import FormLetter.Proofs.Validation.Order
import FormLetter.Validation.References
import Mathlib.Data.Prod.Lex
import Mathlib.Data.String.Basic

namespace FormLetter.Validation

theorem isLE_compare_iff [LinearOrder α] {a b : α} : (Ord.compare a b).isLE = true ↔ a ≤ b := by
  rw [Ordering.isLE_iff_ne_gt]
  exact compare_le_iff_le

/-- What is sorted by keys comes in the order of the keys. -/
theorem pairwise_mergeSort_of_key [LinearOrder κ] (key : α → κ) {le : α → α → Bool}
    (h : ∀ a b, le a b = true ↔ key a ≤ key b) (as : List α) :
    (as.mergeSort le).Pairwise fun a b => key a ≤ key b := by
  refine (List.pairwise_mergeSort ?_ ?_ as).imp (h _ _).mp
  · intro a b c hab hbc
    exact (h a c).mpr (((h a b).mp hab).trans ((h b c).mp hbc))
  · intro a b
    rw [Bool.or_eq_true, h, h]
    exact le_total _ _

namespace Issue

/-- What issues are ordered by: part, place among the tags, place in the paragraph, code, severity
and message. -/
def key (i : Issue) : String ×ₗ ℕ ×ₗ ℕ ×ₗ String ×ₗ ℕ ×ₗ String :=
  toLex (i.location.part, toLex (i.tag.ordinal, toLex (i.location.start, toLex (i.code.text,
    toLex (i.severity.rank, i.message)))))

theorem compare_eq_key (a b : Issue) : a.compare b = Ord.compare a.key b.key := rfl

theorem isLE_iff_key_le {a b : Issue} : (a.compare b).isLE = true ↔ a.key ≤ b.key := by
  rw [compare_eq_key, isLE_compare_iff]

end Issue

namespace Reference

/-- What references are ordered by: place among the tags, part, place in the paragraph, kind, text
and the text of the tag. -/
def key (r : Reference) : ℕ ×ₗ String ×ₗ ℕ ×ₗ String ×ₗ String ×ₗ String :=
  toLex (r.ordinal, toLex (r.location.part, toLex (r.location.start, toLex (r.kind.name,
    toLex (r.expression, r.raw)))))

theorem compare_eq_key (a b : Reference) : a.compare b = Ord.compare a.key b.key := rfl

theorem isLE_iff_key_le {a b : Reference} : (a.compare b).isLE = true ↔ a.key ≤ b.key := by
  rw [compare_eq_key, isLE_compare_iff]

end Reference

end FormLetter.Validation
