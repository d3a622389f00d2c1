import FormLetter.Text.EditDistance
import Mathlib.Order.Bounds.Basic

namespace FormLetter.Text

/-- One character is inserted, deleted or replaced. -/
inductive Edit : List Char → List Char → Prop where
  | insert (before after : List Char) (d : Char) : Edit (before ++ after) (before ++ d :: after)
  | delete (before after : List Char) (c : Char) : Edit (before ++ c :: after) (before ++ after)
  | replace (before after : List Char) (c d : Char) :
    Edit (before ++ c :: after) (before ++ d :: after)

/-- A number of edits, one after the other, make one text of another. -/
inductive Edits : ℕ → List Char → List Char → Prop where
  | none (cs : List Char) : Edits 0 cs cs
  | step (first : Edit cs ds) (rest : Edits n ds es) : Edits (n + 1) cs es

namespace Edit

theorem symm (h : Edit cs ds) : Edit ds cs := by
  cases h with
  | insert before after d => exact .delete before after d
  | delete before after c => exact .insert before after c
  | replace before after c d => exact .replace before after d c

theorem cons (b : Char) (h : Edit cs ds) : Edit (b :: cs) (b :: ds) := by
  cases h with
  | insert before after d => exact .insert (b :: before) after d
  | delete before after c => exact .delete (b :: before) after c
  | replace before after c d => exact .replace (b :: before) after c d

theorem reverse (h : Edit cs ds) : Edit cs.reverse ds.reverse := by
  cases h with
  | insert before after d => simpa using Edit.insert after.reverse before.reverse d
  | delete before after c => simpa using Edit.delete after.reverse before.reverse c
  | replace before after c d => simpa using Edit.replace after.reverse before.reverse c d

end Edit

namespace Edits

theorem single (h : Edit cs ds) : Edits 1 cs ds :=
  .step h (.none ds)

theorem trans (h : Edits m cs ds) (h' : Edits n ds es) : Edits (m + n) cs es := by
  induction h with
  | none =>
    rw [Nat.zero_add]
    exact h'
  | step first rest ih =>
    rw [Nat.succ_add]
    exact .step first (ih h')

theorem symm (h : Edits n cs ds) : Edits n ds cs := by
  induction h with
  | none cs => exact .none cs
  | step first rest ih => exact ih.trans (single first.symm)

theorem cons (b : Char) (h : Edits n cs ds) : Edits n (b :: cs) (b :: ds) := by
  induction h with
  | none cs => exact .none (b :: cs)
  | step first rest ih => exact .step (first.cons b) ih

theorem reverse (h : Edits n cs ds) : Edits n cs.reverse ds.reverse := by
  induction h with
  | none cs => exact .none cs.reverse
  | step first rest ih => exact .step first.reverse ih

theorem reverse_iff : Edits n cs.reverse ds.reverse ↔ Edits n cs ds := by
  constructor
  · intro h
    simpa using h.reverse
  · exact reverse

theorem zero_iff : Edits 0 cs ds ↔ cs = ds := by
  constructor
  · intro h
    cases h
    rfl
  · rintro rfl
    exact .none cs

/-- All characters of a text are inserted. -/
theorem of_nil (ds : List Char) : Edits ds.length [] ds := by
  induction ds with
  | nil => exact .none []
  | cons d ds ih => exact ih.trans (single (.insert [] ds d))

end Edits

/-- Either the first character of one text is deleted, or that of the other inserted, or the one is
kept or replaced by the other. -/
def distance : List Char → List Char → ℕ
  | [], ds => ds.length
  | c :: cs, [] => (c :: cs).length
  | c :: cs, d :: ds =>
    min (min (distance cs (d :: ds) + 1) (distance (c :: cs) ds + 1))
      (distance cs ds + if c = d then 0 else 1)
termination_by cs ds => cs.length + ds.length

theorem distance_nil (cs : List Char) : distance cs [] = cs.length := by
  cases cs <;> simp [distance]

theorem distance_self (cs : List Char) : distance cs cs = 0 := by
  induction cs with
  | nil => simp [distance]
  | cons c cs ih => simp [distance, ih]

/-- As many edits as the distance counts are enough. -/
theorem edits_distance (cs ds : List Char) : Edits (distance cs ds) cs ds := by
  induction cs, ds using distance.induct with
  | case1 ds =>
    rw [distance]
    exact .of_nil ds
  | case2 c cs =>
    rw [distance]
    exact (Edits.of_nil (c :: cs)).symm
  | case3 c cs d ds ihDelete ihInsert ihKeep =>
    have hdelete : Edits (distance cs (d :: ds) + 1) (c :: cs) (d :: ds) :=
      .step (.delete [] cs c) ihDelete
    have hinsert : Edits (distance (c :: cs) ds + 1) (c :: cs) (d :: ds) :=
      ihInsert.trans (.single (.insert [] ds d))
    have hkeep : Edits (distance cs ds + if c = d then 0 else 1) (c :: cs) (d :: ds) := by
      split
      · next h =>
        subst h
        exact ihKeep.cons c
      · exact (ihKeep.cons c).trans (.single (.replace [] ds c d))
    obtain h | h | h : distance (c :: cs) (d :: ds) = distance cs (d :: ds) + 1 ∨
        distance (c :: cs) (d :: ds) = distance (c :: cs) ds + 1 ∨
        distance (c :: cs) (d :: ds) = distance cs ds + if c = d then 0 else 1 := by
      rw [distance]
      omega
    · rw [h]
      exact hdelete
    · rw [h]
      exact hinsert
    · rw [h]
      exact hkeep

theorem distance_cons_le (c : Char) (cs es : List Char) :
    distance (c :: cs) es ≤ distance cs es + 1 := by
  cases es with
  | nil => simp [distance_nil]
  | cons e es =>
    rw [distance]
    omega

theorem distance_le_insert (e : Char) (cs es : List Char) :
    distance cs (e :: es) ≤ distance cs es + 1 := by
  cases cs with
  | nil => simp [distance]
  | cons c cs =>
    rw [distance]
    omega

theorem distance_le_cons (c : Char) (cs es : List Char) :
    distance cs es ≤ distance (c :: cs) es + 1 := by
  induction es with
  | nil =>
    simp only [distance_nil, List.length_cons]
    omega
  | cons e es ih =>
    have hinsert : distance cs (e :: es) ≤ distance cs es + 1 := distance_le_insert e cs es
    rw [distance]
    omega

theorem distance_replace_le (c d : Char) (cs es : List Char) :
    distance (c :: cs) es ≤ distance (d :: cs) es + 1 := by
  induction es with
  | nil => simp [distance_nil]
  | cons e es ih =>
    have hcost : (if c = e then 0 else 1) ≤ (if d = e then 0 else 1) + 1 := by
      split <;> omega
    rw [distance, distance]
    omega

theorem distance_cons_le_of_forall (b : Char) (h : ∀ es, distance cs es ≤ distance ds es + 1)
    (es : List Char) : distance (b :: cs) es ≤ distance (b :: ds) es + 1 := by
  induction es with
  | nil =>
    have hnil := h []
    simp only [distance_nil, List.length_cons] at hnil ⊢
    omega
  | cons e es ih =>
    have hdelete := h (e :: es)
    have hkeep := h es
    rw [distance, distance]
    omega

theorem distance_append_le_of_forall (before : List Char)
    (h : ∀ es, distance cs es ≤ distance ds es + 1) (es : List Char) :
    distance (before ++ cs) es ≤ distance (before ++ ds) es + 1 := by
  induction before generalizing es with
  | nil => exact h es
  | cons b before ih => exact distance_cons_le_of_forall b ih es

theorem Edit.distance_le (h : Edit cs ds) (es : List Char) :
    distance cs es ≤ distance ds es + 1 := by
  cases h with
  | insert before after d => exact distance_append_le_of_forall before (distance_le_cons d after) es
  | delete before after c => exact distance_append_le_of_forall before (distance_cons_le c after) es
  | replace before after c d =>
    exact distance_append_le_of_forall before (distance_replace_le c d after) es

/-- No fewer edits than the distance counts are enough. -/
theorem Edits.distance_le (h : Edits n cs ds) : distance cs ds ≤ n := by
  induction h with
  | none cs => exact Nat.le_of_eq (distance_self cs)
  | step first rest ih => exact (first.distance_le _).trans (Nat.succ_le_succ ih)

/-- The distances to a text with more and more characters of another before it. In a row these are
the distances to all starts of a text, where both texts are read backwards. -/
def distancesFrom (cs ds : List Char) : List Char → List ℕ
  | [] => []
  | e :: es => distance cs (e :: ds) :: distancesFrom cs (e :: ds) es

theorem nextRow_distancesFrom (c : Char) (cs ds es : List Char) :
    nextRow c (distance (c :: cs) ds) (distance cs ds) es (distancesFrom cs ds es) =
      distancesFrom (c :: cs) ds es := by
  induction es generalizing ds with
  | nil => rfl
  | cons e es ih =>
    have hhere : distance (c :: cs) (e :: ds) =
        min (min (distance cs (e :: ds) + 1) (distance (c :: cs) ds + 1))
          (distance cs ds + if c = e then 0 else 1) := by
      rw [distance]
    simp only [distancesFrom, nextRow, ← hhere, ih]

/-- The row for the empty text and that for one more character. -/
theorem distanceRow_distancesFrom (c : Char) (cs ds : List Char) :
    distanceRow ds (distance cs [] :: distancesFrom cs [] ds) c =
      distance (c :: cs) [] :: distancesFrom (c :: cs) [] ds := by
  have hfirst : distance cs [] + 1 = distance (c :: cs) [] := by
    simp only [distance_nil, List.length_cons]
  rw [distanceRow, hfirst, nextRow_distancesFrom]

theorem foldl_distanceRow (cs read ds : List Char) :
    cs.foldl (distanceRow ds) (distance read [] :: distancesFrom read [] ds) =
      distance (cs.reverse ++ read) [] :: distancesFrom (cs.reverse ++ read) [] ds := by
  induction cs generalizing read with
  | nil => rfl
  | cons c cs ih =>
    rw [List.foldl_cons, distanceRow_distancesFrom, ih, List.reverse_cons, List.append_assoc]
    rfl

theorem distancesFrom_nil (ds es : List Char) :
    distancesFrom [] ds es = List.range' (ds.length + 1) es.length := by
  induction es generalizing ds with
  | nil => rfl
  | cons e es ih => simp [distancesFrom, distance, ih, List.range'_succ]

theorem getLast?_distancesFrom (cs ds es : List Char) :
    (distance cs ds :: distancesFrom cs ds es).getLast? =
      some (distance cs (es.reverse ++ ds)) := by
  induction es generalizing ds with
  | nil => rfl
  | cons e es ih => simp [distancesFrom, List.getLast?_cons_cons, ih]

theorem editDistance_eq (cs ds : List Char) :
    editDistance cs ds = distance cs.reverse ds.reverse := by
  have hstart : List.range (ds.length + 1) = distance [] [] :: distancesFrom [] [] ds := by
    rw [distancesFrom_nil, List.range_eq_range', List.range'_succ]
    simp [distance]
  rw [editDistance, hstart, foldl_distanceRow, getLast?_distancesFrom]
  simp

theorem isLeast_editDistance (cs ds : List Char) :
    IsLeast {n | Edits n cs ds} (editDistance cs ds) := by
  rw [editDistance_eq]
  constructor
  · exact Edits.reverse_iff.mp (edits_distance cs.reverse ds.reverse)
  · intro n h
    exact (Edits.reverse_iff.mpr h).distance_le

/-- The distance of two texts is the least number of edits that make one of the other. So it is the
same both ways, is zero for equal texts only, and there is no shorter way over a third text. -/
theorem editDistance_spec :
    (∀ cs ds, IsLeast {n | Edits n cs ds} (editDistance cs ds)) ∧
    (∀ cs ds, editDistance cs ds = editDistance ds cs) ∧
    (∀ cs ds, editDistance cs ds = 0 ↔ cs = ds) ∧
    ∀ cs ds es, editDistance cs es ≤ editDistance cs ds + editDistance ds es := by
  refine ⟨isLeast_editDistance, ?_, ?_, ?_⟩
  · intro cs ds
    have hle (cs ds : List Char) : editDistance cs ds ≤ editDistance ds cs :=
      (isLeast_editDistance cs ds).2 (isLeast_editDistance ds cs).1.symm
    exact Nat.le_antisymm (hle cs ds) (hle ds cs)
  · intro cs ds
    rw [← Edits.zero_iff]
    constructor
    · intro h
      rw [← h]
      exact (isLeast_editDistance cs ds).1
    · intro h
      exact Nat.le_zero.mp ((isLeast_editDistance cs ds).2 h)
  · intro cs ds es
    exact (isLeast_editDistance cs es).2
      ((isLeast_editDistance cs ds).1.trans (isLeast_editDistance ds es).1)

end FormLetter.Text
