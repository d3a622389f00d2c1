import FormLetter.Proofs.Schema.Index

namespace FormLetter.Schema

/-- A path starts with another one and a dot. -/
def IsBelow (path base : String) : Prop :=
  base.toList ++ ['.'] <+: path.toList

instance (path base : String) : Decidable (IsBelow path base) :=
  inferInstanceAs (Decidable (base.toList ++ ['.'] <+: path.toList))

theorem mem_ancestors_iff : base ∈ ancestors path ↔ IsBelow path base := by
  rw [mem_ancestors]
  refine exists_congr fun rest => ?_
  rw [List.append_assoc, List.singleton_append, eq_comm]

/-- The first of the fields that are declared under a path. -/
def declared? (schema : Schema) (path : String) : Option FieldDef :=
  schema.fields.find? (normalize ·.path = path)

/-- What a path is by the list of the fields: the first field that is declared under it; or else
what leads to a field; or else what lies below a path whose first field may be anything. -/
def search (schema : Schema) (path : String) : Option Resolution :=
  match schema.declared? path with
  | some f => some (.field f)
  | none =>
    if ∃ f ∈ schema.fields, IsBelow (normalize f.path) path then some .parent
    else if ∃ f ∈ schema.fields, IsBelow path (normalize f.path) ∧
        schema.declared? (normalize f.path) = some f ∧ f.kind = .any then
      some .underAny
    else none

theorem any_ancestors_iff {schema : Schema} :
    ((ancestors path).any fun p => (schema.index.fields.get? p).any (·.kind = .any)) = true ↔
      ∃ f ∈ schema.fields, IsBelow path (normalize f.path) ∧
        schema.declared? (normalize f.path) = some f ∧ f.kind = .any := by
  simp only [List.any_eq_true, Option.any_eq_true, decide_eq_true_eq, mem_ancestors_iff]
  constructor
  · rintro ⟨base, hb, f, hf, hk⟩
    obtain ⟨hm, rfl⟩ := exists_field_of_get? hf
    exact ⟨f, hm, hb, (get?_fields schema _).symm.trans hf, hk⟩
  · rintro ⟨f, _, hb, hf, hk⟩
    exact ⟨normalize f.path, hb, f, (get?_fields schema _).trans hf, hk⟩

/-- The index says of a path what the list of the fields says. -/
theorem resolve?_eq_search (schema : Schema) (path : String) :
    schema.index.resolve? path = schema.search path := by
  have hparent : schema.index.parents.has path = true ↔
      ∃ f ∈ schema.fields, IsBelow (normalize f.path) path := by
    simp only [has_parents, mem_ancestors_iff]
  have hfield : schema.index.fields.get? path = schema.declared? path := get?_fields schema path
  unfold Index.resolve? search
  rw [hfield]
  cases schema.declared? path with
  | some f => rfl
  | none => simp only [hparent, any_ancestors_iff]

/-- A path with markers put in that stand for the items of arrays, and no brackets besides. -/
inductive Marked : List Char → List Char → Prop where
  | nil : Marked [] []
  | char (hc : c ≠ '[') (h : Marked plain marked) : Marked (c :: plain) (c :: marked)
  | brackets (h : Marked plain marked) : Marked plain ('[' :: ']' :: marked)
  | star (h : Marked plain marked) : Marked plain ('[' :: '*' :: ']' :: marked)

/-- What has no brackets in it may stand before any marked path. -/
theorem Marked.append (h : '[' ∉ cs) (hm : Marked plain marked) :
    Marked (cs ++ plain) (cs ++ marked) := by
  induction cs with
  | nil => exact hm
  | cons c cs ih =>
    rw [List.mem_cons, not_or] at h
    exact .char (Ne.symm h.1) (ih h.2)

theorem dropStars_cons (hc : c ≠ '[') (cs : List Char) :
    dropStars (c :: cs) = c :: dropStars cs := by
  rw [dropStars]
  simp [hc]

theorem dropBrackets_cons (hc : c ≠ '[') (cs : List Char) :
    dropBrackets (c :: cs) = c :: dropBrackets cs := by
  rw [dropBrackets]
  simp [hc]

/-- Markers are dropped, and nothing else is. -/
theorem Marked.normalize (h : Marked plain marked) : dropBrackets (dropStars marked) = plain := by
  induction h with
  | nil => rfl
  | char hc h ih => rw [dropStars_cons hc, dropBrackets_cons hc, ih]
  | brackets h ih => exact ih
  | star h ih => exact ih

end FormLetter.Schema
