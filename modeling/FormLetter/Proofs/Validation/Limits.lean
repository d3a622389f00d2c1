import FormLetter.Proofs.Validation.Keys
import FormLetter.Proofs.Validation.Modes

namespace FormLetter.Validation

namespace Issue

/-- The same issues, in the order of their keys. Issues with one key stay in the order in which they
were. -/
structure IsSorting (issues sorted : List Issue) : Prop where
  perm : sorted.Perm issues
  ordered : sorted.Pairwise fun a b => a.key ≤ b.key
  stable : ∀ k, sorted.filter (·.key = k) = issues.filter (·.key = k)

theorem sort_perm (issues : List Issue) : (sort issues).Perm issues :=
  List.mergeSort_perm issues _

theorem pairwise_sort (issues : List Issue) : (sort issues).Pairwise fun a b => a.key ≤ b.key :=
  pairwise_mergeSort_of_key key (fun _ _ => isLE_iff_key_le) issues

/-- Issues that are in order already are left alone. -/
theorem sort_eq_self {issues : List Issue} (h : issues.Pairwise fun a b => a.key ≤ b.key) :
    sort issues = issues :=
  List.mergeSort_of_pairwise (h.imp isLE_iff_key_le.mpr)

theorem isSorting_sort (issues : List Issue) : IsSorting issues (sort issues) where
  perm := sort_perm issues
  ordered := pairwise_sort issues
  stable k := by
    rw [filter_sort]
    apply sort_eq_self
    apply List.pairwise_of_forall_mem_list
    intro a ha b hb
    have ha : a.key = k := of_decide_eq_true (List.mem_filter.mp ha).2
    have hb : b.key = k := of_decide_eq_true (List.mem_filter.mp hb).2
    rw [ha, hb]

/-- In whatever order issues are given, their keys come in one order. -/
theorem map_key_sort {issues others : List Issue} (h : issues.Perm others) :
    (sort issues).map key = (sort others).map key := by
  have hperm : ((sort issues).map key).Perm ((sort others).map key) :=
    (((sort_perm issues).trans h).trans (sort_perm others).symm).map key
  refine hperm.eq_of_pairwise (fun a b _ _ => le_antisymm) ?_ ?_
  · exact List.pairwise_map.mpr (pairwise_sort issues)
  · exact List.pairwise_map.mpr (pairwise_sort others)

end Issue

theorem kept_perm {issues others : List Issue} (h : issues.Perm others) (warnings : Bool) :
    (kept warnings issues).Perm (kept warnings others) := by
  cases warnings with
  | true => exact h
  | false => exact h.filter _

/-- An issue is an error or a warning. -/
theorem countP_warning (issues : List Issue) :
    issues.countP (·.severity = .warning) =
      issues.length - issues.countP (·.severity = .error) := by
  have hsplit := List.length_eq_countP_add_countP (fun i : Issue => decide (i.severity = .error))
    (l := issues)
  have hother : issues.countP (fun i => decide (¬decide (i.severity = .error) = true)) =
      issues.countP (·.severity = .warning) := by
    refine List.countP_congr fun i _ => ?_
    cases i.severity <;> simp
  omega

/-- What a limit leaves, if there is one. -/
def upTo (limit : Option Nat) (as : List α) : List α :=
  match limit with
  | some limit => as.take limit
  | none => as

theorem pairwise_upTo {r : α → α → Prop} {as : List α} (h : as.Pairwise r) (limit : Option Nat) :
    (upTo limit as).Pairwise r := by
  cases limit with
  | none => exact h
  | some n => exact h.take

theorem map_upTo (f : α → β) (limit : Option Nat) (as : List α) :
    (upTo limit as).map f = upTo limit (as.map f) := by
  cases limit with
  | none => rfl
  | some n => exact List.map_take

namespace Report

variable (issues : List Issue) (checked : Nat) (metadata : Metadata) (warnings : Bool)
  (limit : Option Nat)

theorem issues_build : (build issues checked metadata warnings limit).issues =
    upTo limit (Issue.sort (kept warnings issues)) := rfl

theorem truncated_build : (build issues checked metadata warnings limit).truncated = true ↔
    ∃ n, limit = some n ∧ n < (kept warnings issues).length := by
  cases limit with
  | none => simp [build]
  | some n => simp [build, Issue.sort]

/-- The verdict hangs neither on the limit nor on the order. -/
theorem valid_build_iff : (build issues checked metadata warnings limit).valid = true ↔
    (∀ i ∈ issues, i.severity ≠ .error) ∧
      (warnings = true → ∀ i ∈ issues, i.severity ≠ .warning) := by
  rw [valid_build, List.isEmpty_iff]
  cases warnings with
  | false =>
    change issues.filter _ = [] ↔ _
    simp [List.filter_eq_nil_iff]
  | true =>
    change issues = [] ↔ _
    constructor
    · rintro rfl
      simp
    · rintro ⟨herrors, hwarnings⟩
      refine List.eq_nil_iff_forall_not_mem.mpr fun i hi => ?_
      cases hs : i.severity with
      | error => exact herrors i hi hs
      | warning => exact hwarnings rfl i hi hs

theorem summary_build : (build issues checked metadata warnings limit).summary =
    ⟨checked, issues.countP (·.severity = .error), issues.countP (·.severity = .warning),
      (upTo limit (kept warnings issues)).length⟩ := by
  rw [countP_warning]
  cases limit with
  | none => simp [build, upTo, Issue.sort]
  | some n => simp [build, upTo, Issue.sort]

end Report

end FormLetter.Validation
