import FormLetter.Schema.Index

namespace FormLetter.Schema

theorem addFunctions_fields (functions : List FunctionDef) (index : Index) :
    (functions.foldl Index.addFunction index).fields = index.fields := by
  induction functions generalizing index with
  | nil => rfl
  | cons f functions ih => exact ih (index.addFunction f)

theorem addFunctions_parents (functions : List FunctionDef) (index : Index) :
    (functions.foldl Index.addFunction index).parents = index.parents := by
  induction functions generalizing index with
  | nil => rfl
  | cons f functions ih => exact ih (index.addFunction f)

/-- A schema without fields knows no path. -/
theorem resolve?_of_no_fields (functions : List FunctionDef) (path : String) :
    (Schema.index ⟨[], functions⟩).resolve? path = none := by
  have hfields : (Schema.index ⟨[], functions⟩).fields = [] := addFunctions_fields functions .empty
  have hparents : (Schema.index ⟨[], functions⟩).parents = [] :=
    addFunctions_parents functions .empty
  simp [Index.resolve?, hfields, hparents, Dict.get?, Dict.has]

theorem get?_addFields (fields : List FieldDef) (index : Index) (path : String) :
    (fields.foldl Index.addField index).fields.get? path =
      (index.fields.get? path).or (fields.find? (normalize ·.path = path)) := by
  induction fields generalizing index with
  | nil => simp
  | cons f fields ih =>
    rw [List.foldl_cons, ih, List.find?_cons]
    simp only [Index.addField]
    by_cases hp : normalize f.path = path
    · -- The field is put in unless an earlier one has its path.
      subst hp
      cases hf : index.fields.get? (normalize f.path) with
      | some g => simp [Dict.has, hf]
      | none => simp [Dict.has, hf, Dict.get?_insert]
    · simp only [hp, decide_false]
      split
      · rfl
      · rw [Dict.get?_insert, if_neg (Ne.symm hp)]

/-- Of the fields declared under a path the first is found. -/
theorem get?_fields (schema : Schema) (path : String) :
    schema.index.fields.get? path = schema.fields.find? (normalize ·.path = path) := by
  rw [index, addFunctions_fields, get?_addFields]
  rfl

theorem exists_field_of_get? {schema : Schema} (h : schema.index.fields.get? path = some f) :
    f ∈ schema.fields ∧ normalize f.path = path := by
  rw [get?_fields] at h
  exact ⟨List.mem_of_find?_eq_some h, by simpa using List.find?_some h⟩

/-- A path that is resolved to a field is declared, and that field under it. -/
theorem exists_field_of_resolve? {schema : Schema}
    (h : schema.index.resolve? path = some (.field f)) :
    f ∈ schema.fields ∧ normalize f.path = path := by
  apply exists_field_of_get?
  unfold Index.resolve? at h
  split at h
  · cases h
    assumption
  · split at h
    · cases h
    · split at h <;> cases h

theorem mem_frontsFrom {before cs : List Char} :
    front ∈ frontsFrom before cs ↔ ∃ a rest, cs = a ++ '.' :: rest ∧ front = before ++ a := by
  induction cs generalizing before with
  | nil => simp [frontsFrom]
  | cons c cs ih =>
    have hrest : front ∈ frontsFrom (before ++ [c]) cs ↔
        ∃ a rest, c :: cs = c :: a ++ '.' :: rest ∧ front = before ++ c :: a := by
      simp [ih]
    rw [frontsFrom]
    constructor
    · intro h
      split at h
      · rename_i hc
        rcases List.mem_cons.mp h with rfl | h
        · exact ⟨[], cs, by rw [hc]; rfl, (List.append_nil _).symm⟩
        · obtain ⟨a, rest, hcs, hfront⟩ := hrest.mp h
          exact ⟨c :: a, rest, hcs, hfront⟩
      · obtain ⟨a, rest, hcs, hfront⟩ := hrest.mp h
        exact ⟨c :: a, rest, hcs, hfront⟩
    · rintro ⟨a, rest, hcs, hfront⟩
      cases a with
      | nil =>
        obtain ⟨rfl, rfl⟩ := List.cons.inj hcs
        rw [if_pos rfl, hfront, List.append_nil]
        exact List.mem_cons_self
      | cons d a =>
        obtain ⟨rfl, -⟩ := List.cons.inj hcs
        have h := hrest.mpr ⟨a, rest, hcs, hfront⟩
        split
        · exact List.mem_cons_of_mem _ h
        · exact h

/-- The ancestors of a path are what stands before its dots. -/
theorem mem_ancestors : a ∈ ancestors path ↔ ∃ rest, path.toList = a.toList ++ '.' :: rest := by
  unfold ancestors
  rw [List.mem_map]
  constructor
  · rintro ⟨front, hfront, rfl⟩
    obtain ⟨a, rest, hpath, rfl⟩ := mem_frontsFrom.mp hfront
    exact ⟨rest, by rw [hpath, String.toList_ofList]⟩
  · rintro ⟨rest, hpath⟩
    exact ⟨a.toList, mem_frontsFrom.mpr ⟨a.toList, rest, hpath, rfl⟩, String.ofList_toList⟩

theorem has_insertAll {names : List String} {entries : Dict Unit} :
    (names.foldl (fun entries p => entries.insert p ()) entries).has p = true ↔
      p ∈ names ∨ entries.has p = true := by
  induction names generalizing entries with
  | nil => simp
  | cons name names ih =>
    rw [List.foldl_cons, ih, Dict.has, Dict.get?_insert]
    by_cases hp : p = name
    · simp [hp]
    · simp [hp, Dict.has]

theorem has_addFields {fields : List FieldDef} {index : Index} :
    (fields.foldl Index.addField index).parents.has p = true ↔
      (∃ f ∈ fields, p ∈ ancestors (normalize f.path)) ∨ index.parents.has p = true := by
  induction fields generalizing index with
  | nil => simp
  | cons f fields ih =>
    have hadd : (index.addField f).parents.has p = true ↔
        p ∈ ancestors (normalize f.path) ∨ index.parents.has p = true := has_insertAll
    rw [List.foldl_cons, ih, hadd, ← or_assoc, or_comm (a := ∃ g ∈ fields, _)]
    simp

/-- What leads to fields leads to one that is declared. -/
theorem has_parents {schema : Schema} : schema.index.parents.has p = true ↔
    ∃ f ∈ schema.fields, p ∈ ancestors (normalize f.path) := by
  rw [index, addFunctions_parents, has_addFields]
  exact or_iff_left (by simp [Index.empty, Dict.has, Dict.get?])

end FormLetter.Schema
