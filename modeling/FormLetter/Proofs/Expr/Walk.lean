import FormLetter.Expr.Eval
import FormLetter.Proofs.Expr.Path
import FormLetter.Proofs.Expr.RoundTrip
import FormLetter.Proofs.Outcome

namespace FormLetter

open Outcome

namespace PathSegment

/-- The name by which an index selects a member of an object. -/
def numeral (n : Int64) : String :=
  String.ofList (Decimal.ofInt n.toInt)

end PathSegment

namespace Value

/-- What a segment selects: a field the member of an object, and an index an item of an array, or
the member of an object that the index names in decimal digits. -/
def select? : Value → PathSegment → Option Value
  | object members, .field name => Dict.get? name members
  | object members, .index n => Dict.get? (PathSegment.numeral n) members
  | array items, .index n =>
    match n.toInt with
    | .ofNat i => items[i]?
    | .negSucc _ => none
  | _, _ => none

/-- Goes from value to value, and to null from where a segment selects nothing. -/
def walk : Value → List PathSegment → Value
  | v, [] => v
  | v, segment :: segments =>
    match v.select? segment with
    | some w => w.walk segments
    | none => null

theorem walk_null (segments : List PathSegment) : null.walk segments = null := by
  cases segments with
  | nil => rfl
  | cons segment segments => rfl

theorem walk_singleton (v : Value) (segment : PathSegment) :
    v.walk [segment] = (v.select? segment).getD null := by
  rw [walk]
  cases v.select? segment with
  | none => rfl
  | some w => rfl

/-- Nothing is found after a segment that selects nothing. -/
theorem walk_append (v : Value) (segments more : List PathSegment) :
    v.walk (segments ++ more) = (v.walk segments).walk more := by
  induction segments generalizing v with
  | nil => rfl
  | cons segment segments ih =>
    rw [List.cons_append, walk, walk]
    cases v.select? segment with
    | none => exact (walk_null more).symm
    | some w => exact ih w

theorem select?_field (v : Value) (name : String) : v.select? (.field name) = v.member? name := by
  cases v with
  | object members => rfl
  | null | bool _ | int _ | float _ | string _ | array _ => rfl

/-- An index selects what is found under the whole number. -/
theorem getD_select?_index (v : Value) (n : Int64) :
    (v.select? (.index n)).getD null = v.itemAt n := by
  cases v with
  | object members => rfl
  | array items =>
    have hsign : n < 0 ↔ n.toInt < 0 := Int64.lt_iff_toInt_lt
    cases hn : n.toInt with
    | ofNat i =>
      have h : ¬n < 0 := by rw [hsign, hn]; simp
      simp only [select?, itemAt, hn, if_neg h]
      rfl
    | negSucc i =>
      have h : n < 0 := by rw [hsign, hn]; exact Int.negSucc_lt_zero i
      simp only [select?, itemAt, hn, if_pos h]
      rfl
  | null | bool _ | int _ | float _ | string _ => rfl

end Value

namespace ReferencePath

/-- None of the indexes is computed. -/
def IsStatic (path : ReferencePath) : Prop :=
  .dynamic ∉ path.segments

instance (path : ReferencePath) : Decidable path.IsStatic :=
  inferInstanceAs (Decidable (.dynamic ∉ path.segments))

theorem isStatic_push {path : ReferencePath} {segment : PathSegment} :
    (path.push segment).IsStatic ↔ path.IsStatic ∧ segment ≠ .dynamic := by
  simp only [IsStatic, push, List.mem_append, List.mem_singleton, not_or, ne_eq, eq_comm]

/-- What a walk through data finds that starts at the variable of a path. -/
def walk (path : ReferencePath) (data : Context) : Value :=
  ((data.get? path.root).getD .null).walk path.segments

theorem walk_push (path : ReferencePath) (segment : PathSegment) (data : Context) :
    (path.push segment).walk data = ((path.walk data).select? segment).getD .null := by
  rw [← Value.walk_singleton]
  exact Value.walk_append _ _ _

end ReferencePath

namespace Expr

theorem segment_eq_index {key : Expr} (h : key.segment = .index n) : key = .literal (.int n) := by
  unfold segment at h
  split at h
  · cases h
    rfl
  · cases h
  · cases h

variable {functions : Functions} {data : Context}

/-- An index that is not computed finds what its segment selects. -/
theorem eval_index_of_segment {object key : Expr} (ho : object.eval functions data = .ok v)
    (hk : key.segment ≠ .dynamic) :
    (index object key).eval functions data = .ok ((v.select? key.segment).getD .null) := by
  rw [eval, ho, ok_bind]
  cases hs : key.segment with
  | field name =>
    obtain rfl := segment_eq_field hs
    rw [v.select?_field]
    rfl
  | index n =>
    obtain rfl := segment_eq_index hs
    rw [v.getD_select?_index]
    rfl
  | dynamic => exact absurd hs hk

/-- The induction goes from the variable outwards, a segment at a time. -/
theorem eval_of_path? : (e : Expr) → ∀ {path}, e.path? = some path → path.IsStatic →
    e.eval functions data = .ok (path.walk data)
  | var name, path, hp, _ => by
    cases hp
    rfl
  | field object name, path, hp, hs => by
    obtain ⟨inner, hi, rfl⟩ := Option.map_eq_some_iff.mp hp
    obtain ⟨hstatic, _⟩ := ReferencePath.isStatic_push.mp hs
    rw [eval, eval_of_path? object hi hstatic, ok_bind, ReferencePath.walk_push,
      Value.select?_field]
    rfl
  | index object key, path, hp, hs => by
    obtain ⟨inner, hi, rfl⟩ := Option.map_eq_some_iff.mp hp
    obtain ⟨hstatic, hk⟩ := ReferencePath.isStatic_push.mp hs
    rw [eval_index_of_segment (eval_of_path? object hi hstatic) hk, ReferencePath.walk_push]
  | literal _, _, hp, _ | unary _ _, _, hp, _ | binary _ _ _, _, hp, _ | call _ _, _, hp, _ => by
    cases hp
termination_by structural e => e

/-- An index in source text has no sign. -/
theorem Written.index_nonneg : {e : Expr} → e.Written → ∀ {path}, e.path? = some path →
    ∀ n, .index n ∈ path.segments → 0 ≤ n.toInt
  | var name, _, path, hp, n, hn => by
    cases hp
    cases hn
  | field object name, hw, path, hp, n, hn => by
    obtain ⟨inner, hi, rfl⟩ := Option.map_eq_some_iff.mp hp
    rcases List.mem_append.mp hn with hn | hn
    · exact index_nonneg hw.1 hi n hn
    · cases List.mem_singleton.mp hn
  | index object key, hw, path, hp, n, hn => by
    obtain ⟨inner, hi, rfl⟩ := Option.map_eq_some_iff.mp hp
    rcases List.mem_append.mp hn with hn | hn
    · exact index_nonneg hw.1 hi n hn
    · obtain rfl := segment_eq_index (List.mem_singleton.mp hn).symm
      exact hw.2
  | literal _, _, _, hp, _, _ | unary _ _, _, _, hp, _, _ | binary _ _ _, _, _, hp, _, _
  | call _ _, _, _, hp, _, _ => by cases hp
termination_by structural e => e

/-- An expression whose path has no computed index evaluates, whatever the functions, to what a walk
of its path through the data finds. Expressions with one such path, however they spell it, evaluate
alike. In source text no index is negative; in other trees a negative one is no item of an array,
but it names a member of an object as any other index does. -/
theorem eval_eq_walk :
    (∀ (e : Expr) (path : ReferencePath), e.path? = some path → path.IsStatic →
      ∀ functions data, e.eval functions data = .ok (path.walk data)) ∧
    (∀ (e e' : Expr) (path : ReferencePath), e.path? = some path → e'.path? = some path →
      path.IsStatic →
      ∀ functions functions' data, e.eval functions data = e'.eval functions' data) ∧
    ∀ (s : String) (e : Expr) (path : ReferencePath), parse s = .ok e → e.path? = some path →
      ∀ n, .index n ∈ path.segments → 0 ≤ n.toInt := by
  refine ⟨fun e path hp hs functions data => eval_of_path? e hp hs, ?_, ?_⟩
  · intro e e' path hp hp' hs functions functions' data
    rw [eval_of_path? e hp hs, eval_of_path? e' hp' hs]
  · intro s e path h hp
    exact (written_of_parse (.inl h)).index_nonneg hp

/-- A member that has digits for its name, by a key in quotes and by a field. -/
theorem eval_eq_walk_of_numbered_member :
    let path : ReferencePath := ⟨"a", [.field "b", .index 0]⟩
    let dotted : Expr := .index (.field (.var "a") "b") (.literal (.int 0))
    let quoted : Expr := .index (.index (.var "a") (.literal (.string "b"))) (.literal (.int 0))
    let data : Context := [("a", .object [("b", .object [("0", .bool true)])])]
    (dotted.path? = some path ∧ quoted.path? = some path ∧ path.IsStatic ∧
      parse "a.b[0]" = .ok dotted) ∧
    dotted.eval .none data = .ok (path.walk data) ∧ path.walk data = .bool true ∧
    dotted.eval .none data = quoted.eval .none data ∧
    ∀ n, .index n ∈ path.segments → 0 ≤ n.toInt := by
  intro path dotted quoted data
  have ha : IsReference "a" := ⟨⟨'a', [], rfl, rfl, by simp⟩, rfl⟩
  have hb : IsName "b" := ⟨'b', [], rfl, rfl, by simp⟩
  have hwritten : dotted.Written := ⟨⟨ha, hb⟩, show (0 : Int) ≤ 0 from Int.le_refl 0⟩
  have hdisplay : dotted.display = "a.b[0]" := by decide +kernel
  have hparse : parse "a.b[0]" = .ok dotted := hdisplay ▸ parse_display_of_written hwritten
  have hstatic : path.IsStatic := by decide
  obtain ⟨hwalk, hspelled, hsign⟩ := eval_eq_walk
  refine ⟨⟨rfl, rfl, hstatic, hparse⟩, hwalk dotted path rfl hstatic .none data, rfl, ?_, ?_⟩
  · exact hspelled dotted quoted path rfl rfl hstatic .none .none data
  · exact hsign "a.b[0]" dotted path hparse rfl

end Expr

end FormLetter
