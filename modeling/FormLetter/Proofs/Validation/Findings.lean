import FormLetter.Validation.Inference

namespace FormLetter.Validation.Env

/-- Each finding about arguments is about one whose kind is known and not allowed. -/
theorem of_mem_argumentFindings {function : FunctionDef} {position : Nat} {types : List TypeInfo}
    (h : x ∈ argumentFindings function position types) :
    ∃ k type allowed, types[k]? = some type ∧ ¬type.permissive ∧ type.kind ∉ allowed ∧
      x = .argumentKind function (position + k) allowed type.kind := by
  induction types generalizing position with
  | nil => cases h
  | cons type types ih =>
    rcases List.mem_append.mp h with h | h
    · split at h
      · cases h
      · rename_i allowed _
        split at h
        · cases h
        · rename_i hk
          simp only [Bool.or_eq_true, List.contains_iff_mem, not_or] at hk
          exact ⟨0, type, allowed, rfl, hk.1.1, hk.2, List.mem_singleton.mp h⟩
    · obtain ⟨k, other, allowed, hother, hp, hk, rfl⟩ := ih h
      exact ⟨k + 1, other, allowed, hother, hp, hk, by rw [Nat.add_assoc, Nat.add_comm 1]⟩

theorem of_mem_call {env : Env} (h : x ∈ (env.call name types).2) :
    (∃ names, x = .unknownFunction name names) ∨
      ∃ f, x = .argumentCount f types.length ∨ x ∈ argumentFindings f 0 types := by
  unfold call at h
  split at h
  · exact .inl ⟨_, List.mem_singleton.mp h⟩
  · rename_i f _
    rcases List.mem_append.mp h with h | h
    · split at h
      · cases h
      · exact .inr ⟨f, .inl (List.mem_singleton.mp h)⟩
    · exact .inr ⟨f, .inr h⟩

end FormLetter.Validation.Env
