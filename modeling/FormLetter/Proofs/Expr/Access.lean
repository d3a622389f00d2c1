import FormLetter.Expr.Eval
import FormLetter.Proofs.Expr.Path
import FormLetter.Proofs.Outcome

namespace FormLetter

open Outcome

namespace Value

/-- A path leads from a value to another. Fields are those of the items where there is an array; an
index that is not known leads to all items or members. -/
inductive Reaches : Value → List PathSegment → Value → Prop where
  | here (v : Value) : Reaches v [] v
  | member (hm : Dict.get? name members = some w) (h : Reaches w segments v) :
      Reaches (.object members) (.field name :: segments) v
  | items (hi : item ∈ items) (h : Reaches item (.field name :: segments) v) :
      Reaches (.array items) (.field name :: segments) v
  | index (n : Int64) (h : Reaches (itemAt u n) segments v) : Reaches u (.index n :: segments) v
  | anyItem (hi : item ∈ items) (h : Reaches item segments v) :
      Reaches (.array items) (.dynamic :: segments) v
  | anyMember (hm : Dict.get? name members = some w) (h : Reaches w segments v) :
      Reaches (.object members) (.dynamic :: segments) v

theorem Reaches.trans (h : Reaches u segments v) (h' : Reaches v more w) :
    Reaches u (segments ++ more) w := by
  induction h with
  | here => exact h'
  | member hm _ ih => exact .member hm (ih h')
  | items hi _ ih => exact .items hi (ih h')
  | index n _ ih => exact .index n (ih h')
  | anyItem hi _ ih => exact .anyItem hi (ih h')
  | anyMember hm _ ih => exact .anyMember hm (ih h')

theorem Reaches.of_object (h : Reaches (.object members) (.field name :: segments) v) :
    ∃ w, Dict.get? name members = some w ∧ Reaches w segments v := by
  cases h with
  | member hm h => exact ⟨_, hm, h⟩

theorem Reaches.of_array {vs : List Value} (h : Reaches (.array vs) (.field name :: segments) v) :
    ∃ item ∈ vs, Reaches item (.field name :: segments) v := by
  cases h with
  | items hi h => exact ⟨_, hi, h⟩

/-- A value is an item of another one, or of one of its items, and so on, so many times. -/
inductive Holds : Value → Nat → Value → Prop where
  | itself (v : Value) : Holds v 0 v
  | item (h : Holds u n (.array items)) (hi : item ∈ items) : Holds u (n + 1) item

theorem Holds.eq_of_zero (h : Holds u 0 v) : u = v := by
  cases h
  rfl

theorem Holds.exists_items (h : Holds u n v) (hn : n ≠ 0) : ∃ items, u = .array items := by
  induction h with
  | itself => exact absurd rfl hn
  | @item n items _ h _ ih =>
    cases n with
    | zero => exact ⟨items, h.eq_of_zero⟩
    | succ n => exact ih (Nat.succ_ne_zero n)

theorem Holds.mem_of_one (h : Holds (.array items) 1 v) : v ∈ items := by
  cases h with
  | item h hi =>
    cases h
    exact hi

/-- Fields of items are reached from their array. -/
theorem Holds.reaches (h : Holds u n v) (hv : v.Reaches (.field name :: segments) w) :
    u.Reaches (.field name :: segments) w := by
  induction h with
  | itself => exact hv
  | item _ hi ih => exact ih (.items hi hv)

theorem reaches_member (v : Value) (name : String) :
    (v.member? name).getD .null = .null ∨
      v.Reaches [.field name] ((v.member? name).getD .null) := by
  cases hm : v.member? name with
  | none => exact .inl rfl
  | some w =>
    cases v with
    | object members => exact .inr (.member hm (.here w))
    | _ => cases hm

theorem itemAt_array (items : List Value) (n : Int64) :
    (array items).itemAt n = .null ∨ (array items).itemAt n ∈ items := by
  simp only [itemAt]
  split
  · exact .inl rfl
  · cases hi : items[n.toInt.toNat]? with
    | none => exact .inl rfl
    | some item => exact .inr (List.mem_of_getElem? hi)

/-- What is found under a key is found under a whole number or a name. -/
theorem at?_eq_ok {v : Value} (h : v.at? key = .ok w) :
    (∃ n, w = v.itemAt n) ∨ ∃ name, key = string name ∧ w = (v.member? name).getD .null := by
  unfold at? at h
  split at h
  · split at h
    · cases h
      exact .inl ⟨_, rfl⟩
    · cases h
  · split at h
    · cases h
      exact .inl ⟨_, rfl⟩
    · cases h
  · cases h
    exact .inr ⟨_, rfl, rfl⟩
  · cases h

/-- Where there is no object, what is found under a key is an item. -/
theorem holds_of_at? {v : Value} (hv : ∀ members, v ≠ object members) (h : v.at? key = .ok w) :
    w = .null ∨ ∃ items, v = array items ∧ w ∈ items := by
  cases v with
  | object members => exact absurd rfl (hv members)
  | array items =>
    rcases at?_eq_ok h with ⟨n, rfl⟩ | ⟨name, _, rfl⟩
    · exact (itemAt_array items n).imp_right fun hi => ⟨items, rfl, hi⟩
    · exact .inl rfl
  | _ =>
    rcases at?_eq_ok h with ⟨n, rfl⟩ | ⟨name, _, rfl⟩
    · exact .inl rfl
    · exact .inl rfl

/-- Whatever a key is, what is found under it is an item or a member. -/
theorem reaches_dynamic {v : Value} (h : v.at? key = .ok w) :
    w = .null ∨ v.Reaches [.dynamic] w := by
  cases v with
  | object members =>
    have hmember (name : String) : (Dict.get? name members).getD .null = .null ∨
        (object members).Reaches [.dynamic] ((Dict.get? name members).getD .null) := by
      cases hm : Dict.get? name members with
      | none => exact .inl rfl
      | some w => exact .inr (.anyMember hm (.here w))
    rcases at?_eq_ok h with ⟨n, rfl⟩ | ⟨name, _, rfl⟩
    · exact hmember _
    · exact hmember name
  | _ =>
    rcases holds_of_at? (by simp) h with rfl | ⟨items, hv, hi⟩
    · exact .inl rfl
    · rw [hv]
      exact .inr (.anyItem hi (.here w))

end Value

/-- A variable of data, with a path after it, leads to a value. -/
def ReferencePath.Leads (path : ReferencePath) (data : Context) (v : Value) : Prop :=
  ∃ start, data.get? path.root = some start ∧ start.Reaches path.segments v

namespace ReferencePath

theorem Leads.push {path : ReferencePath} {segment : PathSegment} (h : path.Leads data u)
    (hs : u.Reaches [segment] v) : (path.push segment).Leads data v := by
  obtain ⟨start, hstart, hu⟩ := h
  exact ⟨start, hstart, hu.trans hs⟩

/-- A member of an item is a field of what holds the item. -/
theorem Leads.member {path : ReferencePath} (h : path.fields.Leads data u) (hh : u.Holds n w)
    (name : String) : (w.member? name).getD .null = .null ∨
      ∃ u', (path.push (.field name)).fields.Leads data u' ∧
        u'.Holds 0 ((w.member? name).getD .null) := by
  refine (w.reaches_member name).imp_right fun hm => ⟨_, ?_, .itself _⟩
  rw [fields_push_field]
  exact h.push (hh.reaches hm)

end ReferencePath

namespace Expr

variable {functions : Functions} {data : Context}

/-- What is found under a key is what its segment leads to. -/
theorem reaches_segment {key : Expr} {v w : Value} (hk : key.eval functions data = .ok k)
    (h : v.at? k = .ok w) : w = .null ∨ v.Reaches [key.segment] w := by
  cases hs : key.segment with
  | field name =>
    obtain rfl := segment_eq_field hs
    cases hk
    cases h
    exact Value.reaches_member v name
  | index n =>
    unfold segment at hs
    split at hs
    · cases hs
      cases hk
      cases h
      exact .inr (.index n (.here _))
    · cases hs
    · cases hs
  | dynamic => exact Value.reaches_dynamic h

/-- A path evaluates to what it leads to. -/
theorem leads_of_eval : (e : Expr) → ∀ {path v}, e.path? = some path →
    e.eval functions data = .ok v → v = .null ∨ path.Leads data v
  | var name, path, v, hp, h => by
    cases hp
    cases h
    cases hv : data.get? name with
    | none => exact .inl rfl
    | some v => exact .inr ⟨v, hv, .here v⟩
  | field object name, path, v, hp, h => by
    obtain ⟨inner, hi, rfl⟩ := Option.map_eq_some_iff.mp hp
    obtain ⟨u, hu, hv⟩ := bind_eq_ok.mp h
    cases hv
    rcases leads_of_eval object hi hu with rfl | hl
    · exact .inl rfl
    · exact (u.reaches_member name).imp_right hl.push
  | index object key, path, v, hp, h => by
    obtain ⟨inner, hi, rfl⟩ := Option.map_eq_some_iff.mp hp
    obtain ⟨u, hu, h⟩ := bind_eq_ok.mp h
    obtain ⟨k, hk, hv⟩ := bind_eq_ok.mp h
    rcases leads_of_eval object hi hu with rfl | hl
    · exact .inl (by simpa using Value.holds_of_at? (by simp) hv)
    · exact (reaches_segment hk hv).imp_right hl.push
  | literal _, _, _, hp, _ | unary _ _, _, _, hp, _ | binary _ _ _, _, _, hp, _
  | call _ _, _, _, hp, _ => by cases hp
termination_by structural e => e

/-- The indexes along a path, names apart, are not applied to objects. -/
def SparesObjects (functions : Functions) (data : Context) : Expr → Prop
  | field object _ => object.SparesObjects functions data
  | index object key => object.SparesObjects functions data ∧
      (key.segment.isField ∨ ∀ members, object.eval functions data ≠ .ok (.object members))
  | _ => True
termination_by structural e => e

/-- The number of indexes that a path ends in. -/
def lastIndexes : Expr → Nat
  | index object key => if key.segment.isField then 0 else object.lastIndexes + 1
  | _ => 0

/-- Without its indexes, a path leads to what its value is an item of. -/
theorem leads_fields_of_eval : (e : Expr) → ∀ {path v}, e.path? = some path →
    e.SparesObjects functions data → e.eval functions data = .ok v →
    v = .null ∨ ∃ u, path.fields.Leads data u ∧ u.Holds e.lastIndexes v
  | var name, path, v, hp, _, h => by
    rcases leads_of_eval (var name) hp h with rfl | hl
    · exact .inl rfl
    · cases hp
      exact .inr ⟨v, hl, .itself v⟩
  | field object name, path, v, hp, hs, h => by
    obtain ⟨inner, hi, rfl⟩ := Option.map_eq_some_iff.mp hp
    obtain ⟨w, hw, hv⟩ := bind_eq_ok.mp h
    cases hv
    rcases leads_fields_of_eval object hi hs hw with rfl | ⟨u, hl, hh⟩
    · exact .inl rfl
    · exact hl.member hh name
  | index object key, path, v, hp, hs, h => by
    obtain ⟨inner, hi, rfl⟩ := Option.map_eq_some_iff.mp hp
    obtain ⟨w, hw, h⟩ := bind_eq_ok.mp h
    obtain ⟨k, hk, hv⟩ := bind_eq_ok.mp h
    rcases leads_fields_of_eval object hi hs.1 hw with rfl | ⟨u, hl, hh⟩
    · exact .inl (by simpa using Value.holds_of_at? (by simp) hv)
    · cases hf : key.segment.isField with
      | true =>
        obtain ⟨name, hs⟩ := PathSegment.isField_eq_true.mp hf
        obtain rfl := segment_eq_field hs
        cases hk
        cases hv
        exact hl.member hh name
      | false =>
        have hobject := hs.2.resolve_left (by simp [hf])
        rcases Value.holds_of_at? (fun members hm => hobject members (by rw [hw, hm])) hv with
          rfl | ⟨items, rfl, hm⟩
        · exact .inl rfl
        · refine .inr ⟨u, ?_, ?_⟩
          · rw [ReferencePath.fields_push_index _ hf]
            exact hl
          · rw [lastIndexes, if_neg (by simp [hf])]
            exact hh.item hm
  | literal _, _, _, hp, _, _ | unary _ _, _, _, hp, _, _ | binary _ _ _, _, _, hp, _, _
  | call _ _, _, _, hp, _, _ => by cases hp
termination_by structural e => e

end Expr

end FormLetter
