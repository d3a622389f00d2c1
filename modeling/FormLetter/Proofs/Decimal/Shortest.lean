import FormLetter.Proofs.Decimal.Rounding

namespace FormLetter.Decimal

theorem pow_length_ofNat_le {n : ℕ} (hn : 0 < n) : 10 ^ ((ofNat n).length - 1) ≤ n := by
  by_contra h
  rw [not_le] at h
  rcases Nat.eq_zero_or_pos ((ofNat n).length - 1) with hz | hpos
  · rw [hz] at h
    omega
  · have := (Nat.length_toDigits_le_iff (by decide) hpos).mpr h
    unfold ofNat at this hpos
    omega

theorem lt_pow_length_ofNat (n : ℕ) : n < 10 ^ (ofNat n).length :=
  (Nat.length_toDigits_le_iff (by decide) Nat.length_toDigits_pos).mp le_rfl

namespace Binary

/-- The integers with which the value of a double is computed. -/
theorem value_eq_div (x : Binary) :
    x.value = (x.mantissa * Nat.pow 2 x.exponent.toNat : ℕ) /
      (Nat.pow 2 (-x.exponent).toNat : ℕ) := by
  have h2 := zpow_mul_pow_toNat (b := 2) (by norm_num) x.exponent
  have hden : ((Nat.pow 2 (-x.exponent).toNat : ℕ) : ℚ) ≠ 0 := by
    rw [Nat.pow_eq]
    positivity
  rw [eq_div_iff hden, value]
  push_cast [Nat.pow_eq, ← h2]
  ring

theorem onGrid_readsBack {x : Binary} (h : x.onGrid scale = some digits) :
    x.readsBack digits scale = true := by
  unfold onGrid at h
  dsimp only at h
  split at h
  · rename_i hbelow habove
    cases h
    split
    · exact hbelow
    · exact habove
  · rename_i hbelow _
    cases h
    exact hbelow
  · rename_i _ habove
    cases h
    exact habove
  · cases h

/-- A double lies between two neighbours on the grid. -/
theorem floorAt_bounds (x : Binary) (scale : ℤ) :
    x.floorAt scale * 10 ^ scale ≤ x.value ∧ x.value < (x.floorAt scale + 1 : ℕ) * 10 ^ scale := by
  have h2 := zpow_mul_pow_toNat (b := 2) (by norm_num) x.exponent
  have h10 := zpow_mul_pow_toNat (b := 10) (by norm_num) scale
  have hden : (0 : ℚ) < (10 ^ scale.toNat * 2 ^ (-x.exponent).toNat : ℕ) := by positivity
  have hnum : ((x.mantissa * 2 ^ x.exponent.toNat * 10 ^ (-scale).toNat : ℕ) : ℚ) * 10 ^ scale =
      x.value * (10 ^ scale.toNat * 2 ^ (-x.exponent).toNat : ℕ) := by
    push_cast [value, ← h2, ← h10]
    ring
  have hp : (0 : ℚ) < 10 ^ scale := by positivity
  unfold floorAt
  simp only [Nat.pow_eq]
  generalize x.mantissa * 2 ^ x.exponent.toNat * 10 ^ (-scale).toNat = num at hnum
  generalize 10 ^ scale.toNat * 2 ^ (-x.exponent).toNat = den at hden hnum
  have hden' : 0 < den := by exact_mod_cast hden
  have hlow : ((num / den : ℕ) : ℚ) * den ≤ num := by exact_mod_cast Nat.div_mul_le_self num den
  have hhigh : (num : ℚ) < (num / den + 1 : ℕ) * den := by
    exact_mod_cast (Nat.div_lt_iff_lt_mul hden').mp (Nat.lt_succ_self _)
  constructor
  · refine le_of_mul_le_mul_right ?_ hden
    calc _ = ((num / den : ℕ) : ℚ) * den * 10 ^ scale := by ring
      _ ≤ num * 10 ^ scale := by gcongr
      _ = x.value * den := hnum
  · refine lt_of_mul_lt_mul_right ?_ hden.le
    calc x.value * den = num * 10 ^ scale := hnum.symm
      _ < (num / den + 1 : ℕ) * den * 10 ^ scale := by gcongr
      _ = _ := by ring

theorem low_lt_value {x : Binary} (hx : 0 < x.mantissa) : x.low < x.value := by
  rw [low_eq hx, value]
  refine mul_lt_mul_of_pos_right ?_ (by positivity)
  split <;> linarith

theorem value_lt_high (x : Binary) : x.value < x.high := by
  rw [high_eq, value]
  exact mul_lt_mul_of_pos_right (by linarith) (by positivity)

/-- A grid that is finer than the gap around a double has a number in it. -/
theorem onGrid_isSome {x : Binary} (hx : 0 < x.mantissa)
    (hgap : (10 : ℚ) ^ scale < x.high - x.low) : (x.onGrid scale).isSome := by
  obtain ⟨hbelow, habove⟩ := x.floorAt_bounds scale
  have hread : x.readsBack (x.floorAt scale) scale = true ∨
      x.readsBack (x.floorAt scale + 1) scale = true := by
    rw [readsBack_iff, readsBack_iff]
    by_cases h : x.low < x.floorAt scale * 10 ^ scale
    · exact .inl ⟨.inl h, .inl (hbelow.trans_lt x.value_lt_high)⟩
    · refine .inr ⟨.inl ((low_lt_value hx).trans habove), .inl ?_⟩
      rw [not_lt] at h
      push_cast
      linarith
  unfold onGrid
  dsimp only
  rcases hread with h | h
  · rw [h]
    cases x.readsBack (x.floorAt scale + 1) scale <;> rfl
  · rw [h]
    cases x.readsBack (x.floorAt scale) scale <;> rfl

theorem pow_places_le_value {x : Binary} (hx : 0 < x.mantissa) :
    (10 : ℚ) ^ (x.places - 1) ≤ x.value := by
  rw [value_eq_div]
  unfold places
  dsimp only
  have hnum : 0 < x.mantissa * Nat.pow 2 x.exponent.toNat :=
    Nat.mul_pos hx (Nat.pow_pos (by decide))
  have hden : 0 < Nat.pow 2 (-x.exponent).toNat := Nat.pow_pos (by decide)
  generalize x.mantissa * Nat.pow 2 x.exponent.toNat = num at hnum
  generalize Nat.pow 2 (-x.exponent).toNat = den at hden
  have hden' : (0 : ℚ) < den := by exact_mod_cast hden
  split
  · rename_i hle
    have hlen : 10 ^ ((ofNat (num / den)).length - 1) ≤ num / den :=
      pow_length_ofNat_le (Nat.div_pos hle hden)
    have hpos : 0 < (ofNat (num / den)).length := Nat.length_toDigits_pos
    rw [le_div_iff₀ hden', ← Int.natCast_pred_of_pos hpos, zpow_natCast]
    calc (10 : ℚ) ^ ((ofNat (num / den)).length - 1) * den ≤ (num / den : ℕ) * den := by
          gcongr
          exact_mod_cast hlen
      _ ≤ num := by exact_mod_cast Nat.div_mul_le_self num den
  · have hlen := lt_pow_length_ofNat ((den - 1) / num)
    rw [Nat.div_lt_iff_lt_mul hnum] at hlen
    rw [le_div_iff₀ hden', sub_sub_cancel_left, zpow_neg, zpow_natCast,
      inv_mul_le_iff₀ (by positivity)]
    have hle : den ≤ 10 ^ (ofNat ((den - 1) / num)).length * num := by omega
    exact_mod_cast hle

/-- The gap around a double is wider than the grid of seventeen digits. -/
theorem Canonical.pow_lt_gap {x : Binary} (hx : x.Canonical) :
    (10 : ℚ) ^ (x.places - 17) < x.high - x.low := by
  have hplaces := pow_places_le_value hx.pos
  have hshort : (x.mantissa : ℚ) + 1 ≤ 2 ^ 53 := by exact_mod_cast hx.short
  have hp : (0 : ℚ) < 2 ^ x.exponent := by positivity
  have hgrid : (10 : ℚ) ^ (x.places - 17) * 10 ^ 16 = 10 ^ (x.places - 1) := by
    rw [← zpow_natCast, ← zpow_add₀ (by norm_num)]
    congr 1
    omega
  rw [value] at hplaces
  refine lt_of_mul_lt_mul_right ?_ (show (0 : ℚ) ≤ 10 ^ 16 by norm_num)
  rw [hgrid, high_eq, low_eq hx.pos, ← sub_mul, mul_right_comm]
  refine hplaces.trans_lt (mul_lt_mul_of_pos_right ?_ hp)
  split
  · rename_i h
    rw [(hx.narrow_iff.mp h).1]
    norm_num
  · linarith

/-- The decimal of a double is among the numbers that round to it. -/
theorem Canonical.covers_shortest {x : Binary} (hx : x.Canonical) :
    x.Covers (x.shortest.1 * 10 ^ x.shortest.2) := by
  have hlast := onGrid_isSome hx.pos hx.pow_lt_gap
  obtain ⟨⟨digits, scale⟩, hfound⟩ : ∃ r, (List.range 17).findSome? (fun (n : ℕ) =>
      (x.onGrid (x.places - (n + 1))).map (·, x.places - (n + 1))) = some r := by
    rw [← Option.isSome_iff_exists, List.findSome?_isSome_iff]
    exact ⟨16, by decide, by rw [Option.isSome_map]; exact hlast⟩
  obtain ⟨n, -, hgrid⟩ := List.exists_of_findSome?_eq_some hfound
  obtain ⟨d, hd, he⟩ := Option.map_eq_some_iff.mp hgrid
  cases he
  have hshortest : x.shortest = (digits, x.places - (n + 1)) := by
    unfold shortest
    dsimp only
    rw [hfound]
    rfl
  rw [hshortest]
  exact readsBack_iff.mp (onGrid_readsBack hd)

end Binary

end FormLetter.Decimal
