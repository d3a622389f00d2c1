namespace FormLetter

/-- A finite map from names, as the list of its entries in the order of the names. -/
abbrev Dict (α : Type) := List (String × α)

namespace Dict

/-- Takes the place of an entry of the same name. -/
def insert (name : String) (value : α) : Dict α → Dict α
  | [] => [(name, value)]
  | (other, held) :: rest =>
    if name < other then (name, value) :: (other, held) :: rest
    else if name = other then (name, value) :: rest
    else (other, held) :: insert name value rest

def get? (name : String) : Dict α → Option α
  | [] => none
  | (other, held) :: rest => if name = other then some held else get? name rest

def has (name : String) (entries : Dict α) : Bool :=
  (get? name entries).isSome

def names (entries : Dict α) : List String :=
  entries.map Prod.fst

/-- Of several entries of one name the last one stays. -/
def ofList (entries : List (String × α)) : Dict α :=
  entries.foldl (fun dict entry => insert entry.1 entry.2 dict) []

theorem get?_insert (name other : String) (value : α) (entries : Dict α) :
    get? other (insert name value entries) =
      if other = name then some value else get? other entries := by
  induction entries with
  | nil => simp [insert, get?]
  | cons entry rest ih =>
    obtain ⟨key, held⟩ := entry
    by_cases hlt : name < key
    · simp [insert, hlt, get?]
    · by_cases heq : name = key
      · subst heq
        rw [insert, if_neg hlt, if_pos rfl]
        by_cases ho : other = name <;> simp [get?, ho]
      · by_cases ho : other = key
        · subst ho
          simp [insert, hlt, heq, get?, Ne.symm heq]
        · simp [insert, hlt, heq, get?, ho, ih]

theorem get?_eq_none (h : name ∉ names entries) : get? name entries = none := by
  induction entries with
  | nil => rfl
  | cons entry rest ih =>
    simp only [names, List.map_cons, List.mem_cons, not_or] at h
    rw [get?, if_neg h.1]
    exact ih h.2

theorem names_insert (value : α) (h : name ∉ names entries) :
    (names (insert name value entries)).Perm (name :: names entries) := by
  induction entries with
  | nil => exact .refl _
  | cons entry rest ih =>
    simp only [names, List.map_cons, List.mem_cons, not_or] at h
    rw [insert, if_neg h.1]
    split
    · exact .refl _
    · exact ((ih h.2).cons entry.1).trans (.swap _ _ _)

end Dict

end FormLetter
