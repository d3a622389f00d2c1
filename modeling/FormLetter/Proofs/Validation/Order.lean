import FormLetter.Validation.Issue
import Mathlib.Logic.Function.Defs

namespace FormLetter.Validation

theorem IssueCode.ofText?_text (c : IssueCode) : ofText? c.text = some c := by
  cases c <;> decide

theorem IssueCode.text_injective : Function.Injective text := by
  intro a b h
  have ha := ofText?_text a
  rw [h, ofText?_text] at ha
  exact (Option.some.inj ha).symm

namespace Issue

instance : Std.TransCmp Issue.compare := by
  have h : Issue.compare =
      compareLex (compareOn (·.location.part)) (compareLex (compareOn (·.tag.ordinal))
        (compareLex (compareOn (·.location.start)) (compareLex (compareOn (·.code.text))
          (compareLex (compareOn (·.severity.rank)) (compareOn (·.message)))))) := rfl
  rw [h]
  infer_instance

theorem isLE_trans (a b c : Issue) (hab : (a.compare b).isLE) (hbc : (b.compare c).isLE) :
    (a.compare c).isLE :=
  Std.TransCmp.isLE_trans hab hbc

theorem isLE_total (a b : Issue) : (a.compare b).isLE || (b.compare a).isLE := by
  have hswap : b.compare a = (a.compare b).swap := Std.OrientedCmp.eq_swap
  rw [hswap]
  cases a.compare b <;> rfl

/-- One more issue is put before the first that does not come before it. -/
theorem sort_cons (a : Issue) (issues : List Issue) :
    ∃ before after, sort (a :: issues) = before ++ a :: after ∧ sort issues = before ++ after ∧
      (∀ b ∈ before, (a.compare b).isLE = false) ∧ ∀ b ∈ after, (a.compare b).isLE = true := by
  obtain ⟨before, after, ha, hs, hb⟩ := List.mergeSort_cons isLE_trans isLE_total a issues
  have hsorted := List.pairwise_mergeSort isLE_trans isLE_total (a :: issues)
  rw [ha] at hsorted
  have hafter := (List.pairwise_append.mp hsorted).2.1
  exact ⟨before, after, ha, hs, fun b hm => by simpa using hb b hm,
    fun b hm => List.rel_of_pairwise_cons hafter hm⟩

/-- A list is cut in one way only into what fails a test and what passes it. -/
theorem append_inj_of_test {before after first rest : List Issue} {p : Issue → Bool}
    (h : before ++ after = first ++ rest) (hb : ∀ x ∈ before, p x = false)
    (ha : ∀ x ∈ after, p x = true) (hf : ∀ x ∈ first, p x = false)
    (hr : ∀ x ∈ rest, p x = true) : before = first ∧ after = rest := by
  have hfails : (before ++ after).filter (!p ·) = (first ++ rest).filter (!p ·) := by rw [h]
  have hpasses : (before ++ after).filter p = (first ++ rest).filter p := by rw [h]
  constructor
  · simpa +contextual [List.filter_append, List.filter_eq_self.mpr, List.filter_eq_nil_iff.mpr,
      hb, ha, hf, hr] using hfails
  · simpa +contextual [List.filter_append, List.filter_eq_self.mpr, List.filter_eq_nil_iff.mpr,
      hb, ha, hf, hr] using hpasses

/-- Choosing some issues before or after sorting gives the same. -/
theorem filter_sort (p : Issue → Bool) (issues : List Issue) :
    (sort issues).filter p = sort (issues.filter p) := by
  induction issues with
  | nil => simp [sort]
  | cons a issues ih =>
    obtain ⟨before, after, ha, hs, hb, hafter⟩ := sort_cons a issues
    rw [hs, List.filter_append] at ih
    cases hp : p a with
    | false =>
      have hn : ¬p a = true := by simp [hp]
      rw [List.filter_cons_of_neg hn, ha, List.filter_append, List.filter_cons_of_neg hn, ih]
    | true =>
      obtain ⟨first, rest, hf, hr, hfirst, hrest⟩ := sort_cons a (issues.filter p)
      -- Both sorted lists are cut where `a` belongs.
      obtain ⟨rfl, rfl⟩ := append_inj_of_test (ih.trans hr)
        (fun x hx => hb x (List.mem_filter.mp hx).1)
        (fun x hx => hafter x (List.mem_filter.mp hx).1) hfirst hrest
      rw [List.filter_cons_of_pos hp, ha, hf, List.filter_append, List.filter_cons_of_pos hp]

/-- An issue apart from how severe it is. -/
def ungraded (i : Issue) : Issue :=
  { i with severity := .error }

/-- Issues that are as severe as their codes make them compare by everything else. -/
theorem compare_ungraded {a b : Issue} (h : a.code = b.code → a.severity = b.severity) :
    a.ungraded.compare b.ungraded = a.compare b := by
  unfold compare ungraded
  cases hc : Ord.compare a.code.text b.code.text with
  | lt | gt => rfl
  | eq =>
    have hcode := IssueCode.text_injective (Std.LawfulEqOrd.eq_of_compare hc)
    simp [h hcode, Std.ReflOrd.compare_self]

/-- Issues are sorted the same way whatever their codes make of them. -/
theorem map_ungraded_sort {issues : List Issue}
    (h : ∀ a ∈ issues, ∀ b ∈ issues, a.code = b.code → a.severity = b.severity) :
    (sort issues).map ungraded = sort (issues.map ungraded) :=
  List.map_mergeSort fun a ha b hb => by rw [compare_ungraded (h a ha b hb)]

end Issue

end FormLetter.Validation
