import FormLetter.Proofs.Template.References

namespace FormLetter

open Lexer (takeWhile_append_of_ends)
open Template (isAccess)

namespace Decimal

theorem ofInt_injective : Function.Injective ofInt := by
  have hnat {m n : Nat} (h : ofNat m = ofNat n) : m = n := by
    rw [← toNat_ofNat m, h, toNat_ofNat]
  have hsign (n : Nat) (cs : List Char) : '-' :: cs ≠ ofNat n := by
    intro h
    have hm : '-' ∈ ofNat n := by simp [← h]
    cases (areDigits_ofNat n).2 '-' hm
  intro m n h
  unfold ofInt at h
  split at h <;> split at h
  · have := hnat (List.cons.inj h).2
    omega
  · exact absurd h (hsign _ _)
  · exact absurd h.symm (hsign _ _)
  · have := hnat h
    omega

theorem mem_ofInt (h : c ∈ ofInt n) : c = '-' ∨ isDigit c = true := by
  unfold ofInt at h
  split at h
  · exact (List.mem_cons.mp h).imp_right ((areDigits_ofNat _).2 c)
  · exact .inr ((areDigits_ofNat _).2 c h)

theorem ofInt_ne_nil (n : Int) : ofInt n ≠ [] := by
  unfold ofInt
  split
  · simp
  · exact (areDigits_ofNat _).1

end Decimal

/-- A name in which no field or index starts. -/
def IsPlain (name : String) : Prop :=
  ∀ c ∈ name.toList, isAccess c = false

instance (name : String) : Decidable (IsPlain name) :=
  List.decidableBAll (fun c => isAccess c = false) name.toList

namespace PathSegment

def Plain : PathSegment → Prop
  | field name => IsPlain name
  | index _ | dynamic => True

instance : (segment : PathSegment) → Decidable segment.Plain
  | field name => inferInstanceAs (Decidable (IsPlain name))
  | index _ | dynamic => .isTrue trivial

theorem append_inj_of_ends {p : Char → Bool} {as bs cs ds : List Char}
    (ha : ∀ a ∈ as, p a = true) (hb : ∀ b ∈ bs, p b = true)
    (hc : ∀ c rest, cs = c :: rest → p c = false) (hd : ∀ d rest, ds = d :: rest → p d = false)
    (h : as ++ cs = bs ++ ds) : as = bs ∧ cs = ds := by
  obtain ⟨hat, had⟩ := takeWhile_append_of_ends ha hc
  obtain ⟨hbt, hbd⟩ := takeWhile_append_of_ends hb hd
  rw [h] at hat had
  exact ⟨hat.symm.trans hbt, had.symm.trans hbd⟩

theorem head_chars (segments : List PathSegment) (c : Char) (rest : List Char)
    (h : segments.flatMap chars = c :: rest) : isAccess c = true := by
  cases segments with
  | nil => cases h
  | cons segment segments =>
    cases segment <;>
      (simp only [List.flatMap_cons, chars, List.cons_append, List.cons.injEq] at h
       rw [← h.1]
       rfl)

/-- Two names, each with segments after it. -/
theorem name_append_inj (hname : IsPlain name) (hother : IsPlain other)
    (h : name.toList ++ List.flatMap chars segments = other.toList ++ List.flatMap chars others) :
    name = other ∧ segments.flatMap chars = others.flatMap chars := by
  have hp {name : String} (hn : IsPlain name) : ∀ c ∈ name.toList, (!isAccess c) = true :=
    fun c hc => by rw [hn c hc]; rfl
  have hs (segments : List PathSegment) (c : Char) (rest : List Char)
      (hc : segments.flatMap chars = c :: rest) : (!isAccess c) = false := by
    rw [head_chars segments c rest hc]
    rfl
  obtain ⟨hn, hr⟩ := append_inj_of_ends (hp hname) (hp hother) (hs _) (hs _) h
  exact ⟨String.toList_inj.mp hn, hr⟩

/-- Two indexes, each with more after it. An index that is not known is written as none. -/
theorem digits_append_inj {ds es : List Char} (hd : ∀ d ∈ ds, d = '-' ∨ Decimal.isDigit d = true)
    (he : ∀ e ∈ es, e = '-' ∨ Decimal.isDigit e = true)
    (h : ds ++ ']' :: rest = es ++ ']' :: more) :
    ds = es ∧ rest = more := by
  have hp {cs : List Char} (hc : ∀ c ∈ cs, c = '-' ∨ Decimal.isDigit c = true) :
      ∀ c ∈ cs, (c != ']') = true := by
    intro c hm
    rw [bne_iff_ne]
    rintro rfl
    rcases hc _ hm with h | h <;> cases h
  have hs (cs : List Char) : ∀ c rest, ']' :: cs = c :: rest → (c != ']') = false := by
    rintro c rest ⟨⟩
    rfl
  obtain ⟨hdigits, hr⟩ := append_inj_of_ends (hp hd) (hp he) (hs _) (hs _) h
  exact ⟨hdigits, (List.cons.inj hr).2⟩

theorem chars_append_inj {s t : PathSegment} {segments others : List PathSegment} (hs : s.Plain)
    (ht : t.Plain) (h : s.chars ++ segments.flatMap chars = t.chars ++ others.flatMap chars) :
    s = t ∧ segments.flatMap chars = others.flatMap chars := by
  have hn (m : Int64) : ∀ d ∈ Decimal.ofInt m.toInt, d = '-' ∨ Decimal.isDigit d = true :=
    fun d => Decimal.mem_ofInt
  have hnone : ∀ d ∈ ([] : List Char), d = '-' ∨ Decimal.isDigit d = true := by simp
  simp only [chars] at h
  cases s with
  | field name =>
    cases t with
    | field other =>
      obtain ⟨rfl, hr⟩ := name_append_inj hs ht (List.cons.inj h).2
      exact ⟨rfl, hr⟩
    | index n | dynamic => cases (List.cons.inj h).1
  | index n =>
    cases t with
    | field other => cases (List.cons.inj h).1
    | index m =>
      simp only [List.cons_append, List.append_assoc, List.cons.injEq, true_and] at h
      obtain ⟨hdigits, hr⟩ := digits_append_inj (hn n) (hn m) h
      exact ⟨congrArg index (Int64.toInt_inj.mp (Decimal.ofInt_injective hdigits)), hr⟩
    | dynamic =>
      simp only [List.cons_append, List.append_assoc, List.cons.injEq, true_and] at h
      exact absurd (digits_append_inj (hn n) hnone h).1 (Decimal.ofInt_ne_nil _)
  | dynamic =>
    cases t with
    | field other => cases (List.cons.inj h).1
    | index m =>
      simp only [List.cons_append, List.append_assoc, List.cons.injEq, true_and] at h
      exact absurd (digits_append_inj hnone (hn m) h).1.symm (Decimal.ofInt_ne_nil _)
    | dynamic =>
      simp only [List.cons_append, List.cons.injEq, true_and] at h
      exact ⟨rfl, h⟩

theorem flatMap_chars_inj {segments others : List PathSegment} (hs : ∀ s ∈ segments, s.Plain)
    (ho : ∀ s ∈ others, s.Plain) (h : segments.flatMap chars = others.flatMap chars) :
    segments = others := by
  have hne (s : PathSegment) (cs : List Char) : s.chars ++ cs ≠ [] := by
    cases s <;> simp [chars]
  induction segments generalizing others with
  | nil =>
    cases others with
    | nil => rfl
    | cons t others => exact absurd h.symm (hne t _)
  | cons s segments ih =>
    cases others with
    | nil => exact absurd h (hne s _)
    | cons t others =>
      rw [List.forall_mem_cons] at hs ho
      obtain ⟨rfl, hr⟩ := chars_append_inj hs.1 ho.1 h
      rw [ih hs.2 ho.2 hr]

end PathSegment

namespace ReferencePath

/-- All the names along the path are plain. -/
def Plain (path : ReferencePath) : Prop :=
  IsPlain path.root ∧ ∀ s ∈ path.segments, s.Plain

instance (path : ReferencePath) : Decidable path.Plain :=
  inferInstanceAs (Decidable (IsPlain path.root ∧ ∀ s ∈ path.segments, s.Plain))

/-- The text of a path tells which path it is. -/
theorem display_injective {p q : ReferencePath} (hp : p.Plain) (hq : q.Plain)
    (h : p.display = q.display) : p = q := by
  obtain ⟨root, segments⟩ := p
  obtain ⟨other, others⟩ := q
  obtain ⟨rfl, hs⟩ := PathSegment.name_append_inj hp.1 hq.1 (String.ofList_injective h)
  obtain rfl : segments = others := PathSegment.flatMap_chars_inj hp.2 hq.2 hs
  rfl

end ReferencePath

namespace PathSegment

def isField : PathSegment → Bool
  | field _ => true
  | index _ | dynamic => false

theorem isField_eq_true {segment : PathSegment} :
    segment.isField = true ↔ ∃ name, segment = field name := by
  cases segment <;> simp [isField]

end PathSegment

theorem Expr.segment_eq_field {key : Expr} (h : key.segment = .field name) :
    key = .literal (.string name) := by
  unfold segment at h
  split at h
  · cases h
  · cases h
    rfl
  · cases h

namespace ReferencePath

/-- The path without its indexes. -/
def fields (path : ReferencePath) : ReferencePath :=
  { path with segments := path.segments.filter PathSegment.isField }

theorem display_fields (path : ReferencePath) : path.fields.display = path.withoutIndices := by
  obtain ⟨root, segments⟩ := path
  simp only [display, withoutIndices, fields]
  congr 2
  induction segments with
  | nil => rfl
  | cons segment segments ih =>
    rw [List.flatMap_cons, ← ih]
    cases segment <;> rfl

theorem Plain.fields {path : ReferencePath} (h : path.Plain) : path.fields.Plain :=
  ⟨h.1, fun s hs => h.2 s (List.mem_filter.mp hs).1⟩

theorem fields_push_field (path : ReferencePath) (name : String) :
    (path.push (.field name)).fields = path.fields.push (.field name) := by
  simp [fields, push, PathSegment.isField]

theorem fields_push_index (path : ReferencePath) {segment : PathSegment}
    (h : segment.isField = false) :
    (path.push segment).fields = path.fields := by
  simp [fields, push, h]

end ReferencePath

end FormLetter
