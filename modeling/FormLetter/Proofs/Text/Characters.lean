import FormLetter.Decimal.Digits
import FormLetter.Text.Blank
import FormLetter.Text.Letter

namespace FormLetter.Text

namespace Ranges

theorem exists_of_has {ranges : Ranges} (h : ranges.has c = true) :
    ∃ r ∈ ranges, r.1 ≤ c.toNat ∧ c.toNat ≤ r.2 := by
  induction ranges with
  | nil => cases h
  | cons r ranges ih =>
    simp only [has, Bool.and_eq_true, Bool.or_eq_true, decide_eq_true_eq] at h
    obtain ⟨hfirst, hlast | hrest⟩ := h
    · exact ⟨r, by simp, hfirst, hlast⟩
    · obtain ⟨r', hr, hc⟩ := ih hrest
      exact ⟨r', by simp [hr], hc⟩

/-- No range of one table meets a range of the other. -/
def apart (as bs : Ranges) : Bool :=
  as.all fun a => bs.all fun b => a.2 < b.1 || b.2 < a.1

theorem has_of_apart (h : apart as bs = true) (ha : as.has c = true) : bs.has c = false := by
  cases hb : bs.has c with
  | false => rfl
  | true =>
    obtain ⟨a, hma, hca⟩ := exists_of_has ha
    obtain ⟨b, hmb, hcb⟩ := exists_of_has hb
    have hab := List.all_eq_true.mp (List.all_eq_true.mp h a hma) b hmb
    simp only [Bool.or_eq_true, decide_eq_true_eq] at hab
    omega

end Ranges

def digits : Ranges := [(0x30, 0x39)]

theorem digits_has (c : Char) : digits.has c = Decimal.isDigit c := by
  simp [digits, Ranges.has, Decimal.isDigit, Char.le_def, UInt32.le_iff_toNat_le]

theorem isBlank_of_isDigit (h : Decimal.isDigit c = true) : isBlank c = false := by
  rw [← digits_has] at h
  exact Ranges.has_of_apart (by decide +kernel) h

theorem isDigit_of_startsName (h : startsName c = true) : Decimal.isDigit c = false := by
  rw [startsName, Bool.or_eq_true, beq_iff_eq] at h
  obtain h | rfl := h
  · rw [← digits_has]
    exact Ranges.has_of_apart (by decide +kernel) h
  · rfl

theorem isBlank_of_startsName (h : startsName c = true) : isBlank c = false := by
  rw [startsName, Bool.or_eq_true, beq_iff_eq] at h
  obtain h | rfl := h
  · exact Ranges.has_of_apart (by decide +kernel) h
  · rfl

theorem ne_dot_of_startsName (h : startsName c = true) : c ≠ '.' := by
  have hdot : startsName '.' = false := rfl
  rintro rfl
  rw [hdot] at h
  cases h

end FormLetter.Text
