import FormLetter.Proofs.Render.Completion

namespace FormLetter

namespace RenderState

theorem markerName_injective : Function.Injective markerName := by
  intro m n h
  have hdigits : Decimal.ofNat m = Decimal.ofNat n :=
    String.ofList_injective ((String.append_right_inj _).mp h)
  calc
    m = Decimal.toNat (Decimal.ofNat m) := (Decimal.toNat_ofNat m).symm
    _ = Decimal.toNat (Decimal.ofNat n) := by rw [hdigits]
    _ = n := Decimal.toNat_ofNat n

theorem nodup_markerNames (n : Nat) : ((List.range n).map markerName).Nodup :=
  List.Pairwise.map markerName (fun _ _ hne heq => hne (markerName_injective heq)) List.nodup_range

/-- The names of the markers that have been set, in the order in which they have been given. -/
structure Issued (names : List String) (s : RenderState) : Prop where
  numbered : names = (List.range s.next).map markerName
  kept : s.markers.names.Perm names

namespace Issued

variable {names : List String} {s : RenderState}

theorem fresh : Issued [] fresh :=
  ⟨rfl, .refl _⟩

/-- The next name has not been given yet. -/
theorem next_not_mem (h : Issued names s) : markerName s.next ∉ s.markers.names := by
  intro hmem
  rw [h.kept.mem_iff, h.numbered] at hmem
  obtain ⟨n, hn, heq⟩ := List.mem_map.mp hmem
  rw [markerName_injective heq, List.mem_range] at hn
  exact Nat.lt_irrefl _ hn

theorem get?_next (h : Issued names s) : s.markers.get? (markerName s.next) = none :=
  Dict.get?_eq_none h.next_not_mem

theorem setMarker (h : Issued names s) (marker : Marker) :
    Issued (names ++ [markerName s.next]) (s.setMarker marker) where
  numbered := by
    change _ = (List.range (s.next + 1)).map markerName
    rw [List.range_succ, List.map_append, ← h.numbered]
    rfl
  kept := by
    have hinsert := Dict.names_insert marker h.next_not_mem
    exact (hinsert.trans (h.kept.cons _)).trans (List.perm_append_singleton _ _).symm

/-- A marker that is there is not overwritten. -/
theorem get?_setMarker (h : Issued names s) (marker : Marker)
    (hget : s.markers.get? name = some held) :
    (s.setMarker marker).markers.get? name = some held := by
  have hne : name ≠ markerName s.next := by
    rintro rfl
    rw [h.get?_next] at hget
    cases hget
  exact (Dict.get?_insert ..).trans ((if_neg hne).trans hget)

end Issued

end RenderState

namespace Moment

/-- The name of the marker that is set next. -/
def issued? (m : Moment) : Option String :=
  match m.failure, m.steps with
  | none, .pageBreak :: _ => some (RenderState.markerName m.state.next)
  | _, _ => none

theorem issued?_eq_some {m : Moment} (h : m.issued? = some name) :
    name = RenderState.markerName m.state.next := by
  unfold issued? at h
  split at h
  · cases h
    rfl
  · cases h

end Moment

/-- A state after renderings and markers that have been set by hand, with the names that have been
given. -/
inductive Session : List String → RenderState → Prop where
  | fresh : Session [] .fresh
  | marker (marker : Marker) : Session names s →
      Session (names ++ [RenderState.markerName s.next]) (s.setMarker marker)
  | rendering : Session names s →
      Run engine engine.refusal (.start engine s data template) past last → last.Finished →
      Session (names ++ past.filterMap Moment.issued?) (engine.renderIn s data template).2

variable {engine : Engine} {refusal : Refusal} {m m' first last : Moment} {s : RenderState}

/-- A name is given where a page break is, and nowhere else. -/
theorem Moves.state_eq_or (h : Moves engine refusal m m') :
    (m.issued? = none ∧ m'.state.markers = m.state.markers ∧ m'.state.next = m.state.next) ∨
      (m.issued? = some (RenderState.markerName m.state.next) ∧
        m'.state = m.state.setMarker .pageBreak) := by
  cases h with
  | pageBreak => exact .inr ⟨rfl, rfl⟩
  | text | fail | refuse | miss | enter => exact .inl ⟨rfl, rfl, rfl⟩
  | @leave steps _ _ _ _ failure hsteps =>
    refine .inl ⟨?_, rfl, rfl⟩
    cases failure with
    | none => rw [hsteps rfl]; rfl
    | some error => rfl

/-- The names that have been given by a moment, and the markers that have been kept till then. -/
theorem Run.issued (h : Run engine refusal first past last) (hfirst : first.state.Issued names) :
    last.state.Issued (names ++ past.filterMap Moment.issued?) ∧
      ∀ name held, first.state.markers.get? name = some held →
        last.state.markers.get? name = some held := by
  induction h with
  | start => exact ⟨by simpa using hfirst, fun _ _ hget => hget⟩
  | @step past m m' _ hm ih =>
    obtain ⟨hissued, hkept⟩ := ih
    rw [List.filterMap_append, ← List.append_assoc]
    obtain ⟨hnone, hmarkers, hnext⟩ | ⟨hsome, hstate⟩ := hm.state_eq_or
    · rw [List.filterMap_cons_none hnone, List.filterMap_nil, List.append_nil]
      refine ⟨⟨?_, ?_⟩, ?_⟩
      · rw [hnext, ← hissued.numbered]
      · rw [hmarkers]
        exact hissued.kept
      · rw [hmarkers]
        exact hkept
    · rw [List.filterMap_cons_some hsome, List.filterMap_nil, hstate]
      exact ⟨hissued.setMarker _,
        fun name held hget => hissued.get?_setMarker _ (hkept name held hget)⟩

theorem Run.get?_of_issued (h : Run engine refusal first past last)
    (hfirst : first.state.Issued names) (hm : m ∈ past) (hname : m.issued? = some name) :
    m.state.markers.get? name = none := by
  obtain ⟨before, hbefore⟩ := h.exists_before hm
  rw [Moment.issued?_eq_some hname]
  exact (hbefore.issued hfirst).1.get?_next

namespace Session

theorem issued (h : Session names s) : s.Issued names := by
  induction h with
  | fresh => exact .fresh
  | marker marker _ ih => exact ih.setMarker marker
  | rendering _ hrun hend ih =>
    rw [← Engine.result_of_run hrun hend]
    exact (hrun.issued ih).1

end Session

end FormLetter
