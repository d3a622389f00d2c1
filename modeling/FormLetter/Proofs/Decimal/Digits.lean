import FormLetter.Proofs.Decimal.Scaled

namespace FormLetter.Decimal

/-- A run of digits. -/
def AreDigits (cs : List Char) : Prop :=
  cs ≠ [] ∧ ∀ c ∈ cs, isDigit c = true

theorem areDigits_ofNat (n : ℕ) : AreDigits (ofNat n) := by
  refine ⟨Nat.toDigits_ne_nil, fun c hc => ?_⟩
  have := Nat.isDigit_of_mem_toDigits (by decide) (by decide) hc
  simpa [Char.isDigit, isDigit, Char.le_def] using this

theorem toNat_append (as bs : List Char) :
    toNat (as ++ bs) = 10 ^ bs.length * toNat as + toNat bs := by
  unfold toNat
  rw [Nat.ofDigitChars_append, Nat.ofDigitChars_eq_ofDigitChars_zero]

theorem toNat_zeros (n : ℕ) : toNat (List.replicate n '0') = 0 := by
  unfold toNat
  rw [Nat.ofDigitChars_replicate_zero, Nat.mul_zero]

theorem toNat_append_zeros (cs : List Char) (n : ℕ) :
    toNat (cs ++ List.replicate n '0') = 10 ^ n * toNat cs := by
  rw [toNat_append, toNat_zeros, List.length_replicate, Nat.add_zero]

theorem int64?_eq_some {i : ℤ} {n : Int64} : int64? i = some n ↔ n.toInt = i := by
  have hmin : Int64.minValue.toInt = -2 ^ 63 := by decide
  have hmax : Int64.maxValue.toInt = 2 ^ 63 - 1 := by decide
  unfold int64?
  rw [hmin, hmax]
  constructor
  · intro h
    split at h
    · cases h
      exact Int64.toInt_ofInt_of_le (by omega) (by omega)
    · cases h
  · rintro rfl
    have hle := n.le_toInt
    have hlt := n.toInt_lt
    rw [if_pos (by omega), Int64.ofInt_toInt]

/-- Zeros at the end are only so many. -/
theorem exists_zeros (cs : List Char) :
    ∃ n, cs = (cs.reverse.dropWhile (· == '0')).reverse ++ List.replicate n '0' := by
  refine ⟨(cs.reverse.takeWhile (· == '0')).length, ?_⟩
  have hzeros : cs.reverse.takeWhile (· == '0') =
      List.replicate (cs.reverse.takeWhile (· == '0')).length '0' :=
    List.eq_replicate_of_mem fun c hc => by simpa using List.all_eq_true.mp List.all_takeWhile c hc
  calc cs = (cs.reverse.takeWhile (· == '0') ++ cs.reverse.dropWhile (· == '0')).reverse := by
        rw [List.takeWhile_append_dropWhile, List.reverse_reverse]
    _ = _ := by rw [List.reverse_append, hzeros, List.reverse_replicate, List.length_replicate]

/-- A text of digits that stands for a number, if need be with a point. -/
inductive Writes : List Char → ℚ → Prop
  | whole (h : AreDigits cs) : Writes cs (toNat cs)
  | point (hw : AreDigits whole) (hf : AreDigits fraction) :
    Writes (whole ++ '.' :: fraction)
      (toNat (whole ++ fraction) * 10 ^ (-(fraction.length : ℤ)))

/-- The last digits of a run become its fraction, less the zeros at its end. -/
theorem Writes.fraction (cs : List Char) (places : ℕ) (hd : ∀ c ∈ cs, isDigit c = true)
    (hlen : places < cs.length) :
    let whole := cs.take (cs.length - places)
    let fraction := ((cs.drop (cs.length - places)).reverse.dropWhile (· == '0')).reverse
    Writes (if fraction.isEmpty then whole else whole ++ '.' :: fraction)
      (toNat cs * 10 ^ (-(places : ℤ))) := by
  intro whole fraction
  obtain ⟨zeros, hzeros⟩ : ∃ n, cs.drop (cs.length - places) = fraction ++ List.replicate n '0' :=
    exists_zeros _
  have hcs : cs = whole ++ fraction ++ List.replicate zeros '0' := by
    rw [List.append_assoc, ← hzeros, List.take_append_drop]
  have hplaces : places = fraction.length + zeros := by
    have := congrArg List.length hzeros
    rw [List.length_drop, List.length_append, List.length_replicate] at this
    omega
  have hwhole : AreDigits whole := by
    refine ⟨List.ne_nil_of_length_pos ?_, fun c hc => hd c (List.mem_of_mem_take hc)⟩
    rw [List.length_take]
    omega
  have hvalue : (toNat cs : ℚ) * 10 ^ (-(places : ℤ)) =
      toNat (whole ++ fraction) * 10 ^ (-(fraction.length : ℤ)) := by
    have hpow : (10 : ℚ) ^ (-(places : ℤ)) =
        10 ^ (-(fraction.length : ℤ)) * 10 ^ (-(zeros : ℤ)) := by
      rw [← zpow_add₀ (by norm_num), hplaces]
      congr 1
      omega
    rw [hpow, congrArg toNat hcs, toNat_append_zeros, zpow_neg _ (zeros : ℤ), zpow_natCast]
    push_cast
    field_simp
  rw [hvalue]
  split
  · rename_i hempty
    rw [List.isEmpty_iff.mp hempty, List.append_nil, List.length_nil, Nat.cast_zero, neg_zero,
      zpow_zero, mul_one]
    exact .whole hwhole
  · rename_i hne
    have hne : fraction ≠ [] := fun h => hne (List.isEmpty_iff.mpr h)
    exact .point hwhole ⟨hne, fun c hc => hd c (by rw [hcs]; simp [hc])⟩

theorem positional_writes (digits : ℕ) (scale : ℤ) :
    Writes (positional digits scale) (digits * 10 ^ scale) := by
  have hdigits := areDigits_ofNat digits
  have hzero : isDigit '0' = true := rfl
  unfold positional
  dsimp only
  split
  · rename_i hs
    have hvalue : (digits : ℚ) * 10 ^ scale =
        toNat (ofNat digits ++ List.replicate scale.toNat '0') := by
      rw [toNat_append_zeros, toNat_ofNat, ← Int.toNat_of_nonneg hs, zpow_natCast]
      push_cast
      rw [Int.toNat_of_nonneg hs, mul_comm]
    rw [hvalue]
    refine .whole ⟨List.append_ne_nil_of_left_ne_nil hdigits.1 _, fun c hc => ?_⟩
    rcases List.mem_append.mp hc with hc | hc
    · exact hdigits.2 c hc
    · rwa [List.eq_of_mem_replicate hc]
  · rename_i hs
    have hscale : scale = -((-scale).toNat : ℤ) := by omega
    have hpad (n : ℕ) : toNat (List.replicate n '0' ++ ofNat digits) = digits := by
      rw [toNat_append, toNat_zeros, toNat_ofNat, Nat.mul_zero, Nat.zero_add]
    have h := Writes.fraction
      (List.replicate ((-scale).toNat + 1 - (ofNat digits).length) '0' ++ ofNat digits)
      (-scale).toNat (fun c hc => ?_) ?_
    · rwa [hpad, ← hscale] at h
    · rcases List.mem_append.mp hc with hc | hc
      · rwa [List.eq_of_mem_replicate hc]
      · exact hdigits.2 c hc
    · rw [List.length_append, List.length_replicate]
      omega

end FormLetter.Decimal
