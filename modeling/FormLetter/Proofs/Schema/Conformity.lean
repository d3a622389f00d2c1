import FormLetter.Proofs.Expr.Access
import FormLetter.Proofs.Schema.Index

namespace FormLetter

/-- Null fits every kind. -/
def Kind.Admits (kind : Kind) (v : Value) : Prop :=
  kind = .any ∨ kind = .unknown ∨ v = .null ∨ Kind.ofValue v = kind

theorem Kind.admits_of_ofValue (h : Kind.ofValue v = kind) : kind.Admits v :=
  .inr (.inr (.inr h))

theorem Kind.Admits.ofValue {v : Value} (h : kind.Admits v)
    (ha : kind ≠ .any) (hu : kind ≠ .unknown)
    (hv : v ≠ .null) : Kind.ofValue v = kind :=
  ((h.resolve_left ha).resolve_left hu).resolve_left hv

theorem Kind.Admits.ne_string {v : Value} {type : TypeInfo} (h : type.kind.Admits v)
    (hk : ¬type.permissive) (hs : type.kind ≠ .string) : Kind.ofValue v ≠ .string := by
  simp only [TypeInfo.permissive, decide_eq_true_eq, not_or] at hk
  rcases h with h | h | rfl | hv
  · exact absurd h hk.1
  · exact absurd h hk.2
  · simp [Kind.ofValue]
  · rw [hv]
    exact hs

/-- What a field may hold. The items of an array are of their own kind, if one is declared. -/
structure FieldDef.Admits (f : FieldDef) (v : Value) : Prop where
  kind : f.kind.Admits v
  items : ∀ items element, f.kind = .array → v = .array items → f.element = some element →
    ∀ item ∈ items, element.Admits item

theorem FieldDef.Admits.null (f : FieldDef) : f.Admits .null :=
  ⟨.inr (.inr (.inl rfl)), by simp⟩

/-- The items of what a field holds are not of the kind of the field, unless that is an array of
arrays. -/
theorem FieldDef.Admits.of_holds {f : FieldDef} (h : f.Admits u) (hh : u.Holds n v)
    (hn : f.kind = .array → n = 0 ∨ n = 1 ∧ f.element = some .array) : f.kind.Admits v := by
  by_cases h0 : n = 0
  · subst h0
    obtain rfl := hh.eq_of_zero
    exact h.kind
  · obtain ⟨items, rfl⟩ := hh.exists_items h0
    rcases h.kind with hk | hk | hk | hk
    · exact .inl hk
    · exact .inr (.inl hk)
    · cases hk
    · obtain ⟨rfl, he⟩ := (hn hk.symm).resolve_left h0
      have hitem := h.items items .array hk.symm rfl he v hh.mem_of_one
      rwa [← hk]

/-- Whatever the declared paths lead to is what their fields may hold. -/
def Schema.Conforms (schema : Schema) (data : Context) : Prop :=
  ∀ f ∈ schema.fields, ∀ path : ReferencePath, path.Plain → path.display = normalize f.path →
    ∀ v, path.Leads data v → f.Admits v

namespace Schema

/-- A path that is resolved to a field leads to what the field may hold. -/
theorem Conforms.admits {schema : Schema} {path : ReferencePath} (h : schema.Conforms data)
    (hf : schema.index.resolve? path.display = some (.field f)) (hp : path.Plain)
    (hv : path.Leads data v) : f.Admits v := by
  obtain ⟨hm, hn⟩ := exists_field_of_resolve? hf
  exact h f hm path hp hn.symm v hv

/-- A declared path can be read in one way only, so that one reading of each is enough. -/
theorem conforms_of_readings {schema : Schema} (h : ∀ f ∈ schema.fields, ∃ path : ReferencePath,
    path.Plain ∧ path.display = normalize f.path ∧ ∀ v, path.Leads data v → f.Admits v) :
    schema.Conforms data := by
  intro f hf path hp hd v hv
  obtain ⟨reading, hr, hn, hadmits⟩ := h f hf
  obtain rfl := ReferencePath.display_injective hp hr (hd.trans hn.symm)
  exact hadmits v hv

end Schema

end FormLetter
