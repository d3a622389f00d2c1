import FormLetter.Proofs.Expr.Calls
import FormLetter.Proofs.Schema.Conformity
import FormLetter.Proofs.Validation.Findings
import FormLetter.Proofs.Validation.Kinds

namespace FormLetter

open Outcome

namespace Expr

variable {functions : Functions} {data : Context}

/-- Where an operator is not one of logic, it is applied to the values of its operands. -/
theorem eval_binary_ok (h : (binary op left right).eval functions data = .ok v) :
    (op.isLogical ∧ ∃ b, v = .bool b) ∨ ∃ a b, left.eval functions data = .ok a ∧
      right.eval functions data = .ok b ∧ Value.binary op a b = .ok v := by
  cases op with
  | and =>
    rw [eval] at h
    obtain ⟨a, _, h⟩ := bind_eq_ok.mp h
    refine .inl ⟨rfl, ?_⟩
    split at h
    · obtain ⟨b, _, h⟩ := bind_eq_ok.mp h
      exact ⟨_, (Except.ok.inj h).symm⟩
    · exact ⟨_, (Except.ok.inj h).symm⟩
  | or =>
    rw [eval] at h
    obtain ⟨a, _, h⟩ := bind_eq_ok.mp h
    refine .inl ⟨rfl, ?_⟩
    split at h
    · exact ⟨_, (Except.ok.inj h).symm⟩
    · obtain ⟨b, _, h⟩ := bind_eq_ok.mp h
      exact ⟨_, (Except.ok.inj h).symm⟩
  | _ =>
    rw [eval] at h
    · obtain ⟨a, ha, h⟩ := bind_eq_ok.mp h
      obtain ⟨b, hb, h⟩ := bind_eq_ok.mp h
      exact .inr ⟨a, b, ha, hb, h⟩
    · simp
    · simp

end Expr

namespace Validation.Env

section

variable (env : Env) (functions : Functions) (data : Context)

/-- What the schema knows of a path is about its value. -/
structure ReliablePath (e : Expr) (path : ReferencePath) : Prop where
  /-- No name or literal key in it looks like a path. -/
  plain : path.Plain
  /-- Unless the schema knows the path with its indexes, none of these is applied to an object. -/
  spares : env.schema.resolve? path.display = none → e.SparesObjects functions data
  /-- The path of an array that the schema knows without indexes only does not end in one, unless
  its items are arrays themselves: the kind is that of the array, where a loop takes that of the
  items. -/
  ends : env.schema.resolve? path.display = none → (env.reference path).1.kind = .array →
    e.lastIndexes = 0 ∨ e.lastIndexes = 1 ∧ (env.reference path).1.element = some .array

/-- The kind of an expression follows from what the schema knows. That of a sum follows from one
operand if it is a text, and from both if their kinds are known. -/
def Reliable : Expr → Prop
  | .binary .add left right =>
    ((env.infer left).1.kind = .string ∧ Reliable left) ∨
    ((env.infer right).1.kind = .string ∧ Reliable right) ∨
    (¬(env.infer left).1.permissive ∧ ¬(env.infer right).1.permissive ∧
      Reliable left ∧ Reliable right)
  | e => ∀ path, e.path? = some path → env.ReliablePath functions data e path
termination_by structural e => e

end

section

variable {env : Env} {schema : Schema} {functions : Functions} {data : Context}

/-- Outside of loops, a path is looked up as it is. -/
theorem reference_of_no_bindings (ho : env.scopes.flatten = []) (path : ReferencePath) :
    (env.reference path).1 = (env.lookup path).getD .unknown := by
  have hb : env.binding? path.root = none := by rw [binding?, ho, List.find?_nil]
  unfold reference
  rw [hb]
  cases env.lookup path <;> rfl

/-- The kind of a reliable path is that of its value. -/
theorem admits_reference (hi : env.schema = schema.index) (ho : env.scopes.flatten = [])
    (hd : schema.Conforms data) {e : Expr} (hp : e.path? = some path)
    (hr : env.ReliablePath functions data e path) (he : e.eval functions data = .ok v) :
    (env.reference path).1.kind.Admits v := by
  obtain ⟨hplain, hspares, hends⟩ := hr
  rw [hi] at hspares hends
  rw [reference_of_no_bindings ho, lookup, hi] at hends ⊢
  cases hdisplay : schema.index.resolve? path.display with
  | some r =>
    cases r with
    | parent | underAny => exact .inl rfl
    | field f =>
      rcases e.leads_of_eval hp he with rfl | hl
      · exact (FieldDef.Admits.null f).kind
      · exact (hd.admits hdisplay hplain hl).kind
  | none =>
    rw [hdisplay] at hends
    cases hfields : schema.index.resolve? path.withoutIndices with
    | none => exact .inr (.inl rfl)
    | some r =>
      cases r with
      | parent | underAny => exact .inl rfl
      | field f =>
        rw [hfields] at hends
        rcases e.leads_fields_of_eval hp (hspares hdisplay) he with rfl | ⟨u, hl, hh⟩
        · exact (FieldDef.Admits.null f).kind
        · rw [← ReferencePath.display_fields] at hfields
          exact (hd.admits hfields hplain.fields hl).of_holds hh (hends rfl)

/-- The kind of a sum, given what its operands may be. -/
theorem kind_sum {left right : TypeInfo} (h : Value.binary .add a b = .ok v)
    (hr : left.kind = .string ∧ left.kind.Admits a ∨ right.kind = .string ∧ right.kind.Admits b ∨
      ¬left.permissive ∧ ¬right.permissive ∧ left.kind.Admits a ∧ right.kind.Admits b) :
    Kind.ofValue v = (binaryType .add left right).kind := by
  rw [binaryType_add]
  rcases hr with ⟨hl, ha⟩ | ⟨hr, hb⟩ | ⟨hl, hr, ha, hb⟩
  · rw [if_pos (.inl hl)]
    exact Value.kind_add_string h (.inl (hl ▸ ha))
  · rw [if_pos (.inr hr)]
    exact Value.kind_add_string h (.inr (hr ▸ hb))
  · by_cases hs : left.kind = .string ∨ right.kind = .string
    · rw [if_pos hs]
      rcases hs with hs | hs
      · exact Value.kind_add_string h (.inl (hs ▸ ha))
      · exact Value.kind_add_string h (.inr (hs ▸ hb))
    · obtain ⟨hsl, hsr⟩ := not_or.mp hs
      have hnone : ¬(Kind.ofValue a = .string ∨ Kind.ofValue b = .string) :=
        not_or.mpr ⟨ha.ne_string hl hsl, hb.ne_string hr hsr⟩
      rw [if_neg hs, Value.kind_binary h, binaryType_add]
      exact if_neg hnone

/-- The kind of a reliable expression is that of its value. -/
theorem admits_infer (hi : env.schema = schema.index) (ho : env.scopes.flatten = [])
    (hd : schema.Conforms data) : (e : Expr) → ∀ {v}, e.calls = [] →
    env.Reliable functions data e → e.eval functions data = .ok v → (env.infer e).1.kind.Admits v
  | .literal value, v, _, _, he => by
    cases he
    exact Kind.admits_of_ofValue rfl
  | .var name, v, _, hr, he => admits_reference hi ho hd rfl (hr _ rfl) he
  | .field object name, v, _, hr, he => by
    cases hp : (Expr.field object name).path? with
    | some path =>
      simp only [infer, hp]
      exact admits_reference hi ho hd hp (hr path hp) he
    | none =>
      simp only [infer, hp]
      exact .inr (.inl rfl)
  | .index object key, v, _, hr, he => by
    cases hp : (Expr.index object key).path? with
    | some path =>
      simp only [infer, hp]
      exact admits_reference hi ho hd hp (hr path hp) he
    | none =>
      simp only [infer, hp]
      exact .inr (.inl rfl)
  | .unary op operand, v, _, _, he => by
    obtain ⟨a, _, ha⟩ := bind_eq_ok.mp he
    exact Kind.admits_of_ofValue (Value.kind_unary ha)
  | .binary op left right, v, hc, hr, he => by
    obtain ⟨hleft, hright⟩ := List.append_eq_nil_iff.mp hc
    have ihl (hr : env.Reliable functions data left) {v} (he : left.eval functions data = .ok v) :=
      admits_infer hi ho hd left hleft hr he
    have ihr (hr : env.Reliable functions data right) {v}
        (he : right.eval functions data = .ok v) :=
      admits_infer hi ho hd right hright hr he
    have htype : (env.infer (.binary op left right)).1 =
        binaryType op (env.infer left).1 (env.infer right).1 := rfl
    rw [htype]
    rcases Expr.eval_binary_ok he with ⟨hlogical, b, rfl⟩ | ⟨a, b, ha, hb, h⟩
    · rw [binaryType_logical hlogical]
      exact Kind.admits_of_ofValue rfl
    · apply Kind.admits_of_ofValue
      by_cases hop : op = .add
      · subst hop
        refine kind_sum h ?_
        rcases hr with ⟨hs, hl⟩ | ⟨hs, hr⟩ | ⟨hkl, hkr, hl, hr⟩
        · exact .inl ⟨hs, ihl hl ha⟩
        · exact .inr (.inl ⟨hs, ihr hr hb⟩)
        · exact .inr (.inr ⟨hkl, hkr, ihl hl ha, ihr hr hb⟩)
      · rw [Value.kind_binary h, binaryType_of_ne_add hop]
  | .call _ _, _, hc, _, _ => nomatch hc
termination_by structural e => e

end

theorem inferAll_types (env : Env) (args : List Expr) :
    (env.inferAll args).1 = args.map fun arg => (env.infer arg).1 := by
  induction args with
  | nil => rfl
  | cons arg args ih =>
    rw [inferAll, List.map_cons, ← ih]

/-- A call is told of a mismatch of one of its own arguments, whose kind is known and not
allowed. -/
theorem argument_of_mem_call {env : Env} {args : List Expr}
    (h : Finding.argumentKind f n allowed kind ∈ (env.call name (env.inferAll args).1).2) :
    ∃ arg, args[n]? = some arg ∧ ¬(env.infer arg).1.permissive ∧
      (env.infer arg).1.kind ∉ allowed := by
  rcases of_mem_call h with ⟨_, hx⟩ | ⟨function, hx | h⟩
  · cases hx
  · cases hx
  · obtain ⟨k, type, _, htype, hp, hk, hx⟩ := of_mem_argumentFindings h
    cases hx
    rw [inferAll_types, List.getElem?_map, Option.map_eq_some_iff] at htype
    obtain ⟨arg, harg, rfl⟩ := htype
    exact ⟨arg, by rwa [Nat.zero_add], hp, hk⟩

/-- A value that is not null is of the kind that is inferred for its expression, if one is, in data
that conforms to the schema, where the expression is reliable, calls nothing and is outside of
loops. So a call is not told of a mismatch of an argument whose value is of a kind that is
allowed. -/
theorem infer_sound (schema : Schema) (functions : Functions) (data : Context)
    (hd : schema.Conforms data) (scopes : List Scope) (ho : scopes.flatten = []) :
    let env : Env := ⟨schema.index, scopes⟩
    (∀ e v, e.calls = [] → env.Reliable functions data e → e.eval functions data = .ok v →
      v ≠ .null → (env.infer e).1.kind ≠ .any → (env.infer e).1.kind ≠ .unknown →
      Kind.ofValue v = (env.infer e).1.kind) ∧
    ∀ name args n arg v, args[n]? = some arg → arg.calls = [] → env.Reliable functions data arg →
      arg.eval functions data = .ok v → v ≠ .null → ∀ f allowed kind,
      Finding.argumentKind f n allowed kind ∈ (env.call name (env.inferAll args).1).2 →
      Kind.ofValue v ∉ allowed := by
  intro env
  have hsound (e : Expr) (v : Value) (hc : e.calls = []) (hr : env.Reliable functions data e)
      (he : e.eval functions data = .ok v) : (env.infer e).1.kind.Admits v :=
    admits_infer rfl ho hd e hc hr he
  refine ⟨?_, ?_⟩
  · intro e v hc hr he hv ha hu
    exact (hsound e v hc hr he).ofValue ha hu hv
  · intro name args n arg v harg hc hr he hv f allowed kind hf
    obtain ⟨other, hother, hk, hallowed⟩ := argument_of_mem_call hf
    obtain rfl : arg = other := Option.some.inj (harg.symm.trans hother)
    simp only [TypeInfo.permissive, decide_eq_true_eq, not_or] at hk
    rwa [(hsound arg v hc hr he).ofValue hk.1 hk.2 hv]

/-- A field of items is read by an index of their array, and is the text of a sum. -/
theorem infer_sound_of_item :
    let upper : FunctionDef := ⟨"upper", 1, 1, [[.string]], .string⟩
    let schema : Schema := ⟨[⟨"rows[].name", .string, false, none⟩], [upper]⟩
    let data : Context := [("rows", .array [.object [("name", .string "a")]])]
    let e : Expr := .binary .add (.field (.index (.var "rows") (.literal (.int 0))) "name")
      (.literal (.int 1))
    let env : Env := ⟨schema.index, []⟩
    ∃ v, e.eval .none data = .ok v ∧ Kind.ofValue v = (env.infer e).1.kind ∧
      ∀ f allowed kind,
        Finding.argumentKind f 0 allowed kind ∈ (env.call "upper" (env.inferAll [e]).1).2 →
        Kind.ofValue v ∉ allowed := by
  intro upper schema data e env
  have hd : schema.Conforms data := by
    apply Schema.conforms_of_readings
    intro f hf
    obtain rfl := List.mem_singleton.mp hf
    refine ⟨⟨"rows", [.field "name"]⟩, by decide +kernel, by decide +kernel, ?_⟩
    rintro v ⟨start, hstart, hv⟩
    cases hstart
    obtain ⟨_, hi, hv⟩ := hv.of_array
    obtain rfl := List.mem_singleton.mp hi
    obtain ⟨w, hw, hv⟩ := hv.of_object
    cases hw
    cases hv
    exact ⟨.inr (.inr (.inr rfl)), by simp⟩
  have hr : env.Reliable .none data e := by
    refine .inl ⟨by decide +kernel, fun path hp => ?_⟩
    cases hp
    refine ⟨by decide +kernel, fun _ => ⟨trivial, .inr fun members h => ?_⟩, fun _ _ => .inl rfl⟩
    cases h
  obtain ⟨hkind, hcall⟩ := infer_sound schema .none data hd [] rfl
  refine ⟨_, rfl, ?_, ?_⟩
  · exact hkind e _ rfl hr rfl (by simp) (by decide +kernel) (by decide +kernel)
  · exact hcall "upper" [e] 0 e _ rfl rfl hr rfl (by simp)

/-- An expression without calls has a value of another kind than the one that is inferred. -/
def Misjudges (env : Env) (functions : Functions) (data : Context) (e : Expr) : Prop :=
  e.calls = [] ∧ ∃ v, e.eval functions data = .ok v ∧ v ≠ .null ∧ ¬(env.infer e).1.permissive ∧
    Kind.ofValue v ≠ (env.infer e).1.kind

/-- Kinds that are not reliable, each in data that conforms: that of a sum of what may be anything,
that of an index on an object and that of a key that looks like a path, and that of an item, which
is given the kind of its array. A mismatch is told of the sum, though it is a text and a text is
allowed, and one of null, though null is allowed. -/
theorem infer_not_sound :
    let upper : FunctionDef := ⟨"upper", 1, 1, [[.string]], .string⟩
    let isNull : FunctionDef := ⟨"isNull", 1, 1, [[.null]], .bool⟩
    let schema : Schema := ⟨[⟨"x", .any, false, none⟩, ⟨"tags", .array, false, some .string⟩,
      ⟨"a.b", .string, false, none⟩, ⟨"m.b.c", .string, false, none⟩, ⟨"n", .string, true, none⟩],
      [upper, isNull]⟩
    let data : Context := [("a", .object [("0", .object [("b", .int 1)])]),
      ("m", .object [("b.c", .int 1)]), ("n", .null), ("tags", .array [.string "t"]),
      ("x", .string "a")]
    let sum : Expr := .binary .add (.var "x") (.var "x")
    let env : Env := ⟨schema.index, []⟩
    schema.Conforms data ∧ env.Misjudges .none data sum ∧
      env.Misjudges .none data (.index (.var "tags") (.literal (.int 0))) ∧
      env.Misjudges .none data (.field (.index (.var "a") (.literal (.int 0))) "b") ∧
      env.Misjudges .none data (.index (.var "m") (.literal (.string "b.c"))) ∧
      (sum.eval .none data = .ok (.string "aa") ∧
        .argumentKind upper 0 [.string] .number ∈ (env.infer (.call "upper" [sum])).2) ∧
      (Expr.var "n").eval .none data = .ok .null ∧
        .argumentKind isNull 0 [.null] .string ∈ (env.infer (.call "isNull" [.var "n"])).2 := by
  intro upper isNull schema data sum env
  refine ⟨?_, ?_, ?_, ?_, ?_, ⟨?_, ?_⟩, rfl, ?_⟩
  · apply Schema.conforms_of_readings
    simp only [schema, List.forall_mem_cons]
    refine ⟨⟨⟨"x", []⟩, ?_⟩, ⟨⟨"tags", []⟩, ?_⟩, ⟨⟨"a", [.field "b"]⟩, ?_⟩,
      ⟨⟨"m", [.field "b", .field "c"]⟩, ?_⟩, ⟨⟨"n", []⟩, ?_⟩, by simp⟩
    all_goals
      refine ⟨by decide +kernel, by decide +kernel, ?_⟩
      rintro v ⟨start, hstart, hv⟩
      cases hstart
    · exact ⟨.inl rfl, by simp⟩
    · cases hv
      refine ⟨.inr (.inr (.inr rfl)), fun items element _ hv he item hi => ?_⟩
      cases hv
      cases he
      obtain rfl := List.mem_singleton.mp hi
      exact .inr (.inr (.inr rfl))
    · obtain ⟨w, hw, _⟩ := hv.of_object
      cases hw
    · obtain ⟨w, hw, _⟩ := hv.of_object
      cases hw
    · cases hv
      exact FieldDef.Admits.null _
  · exact ⟨rfl, .string "aa", rfl, by simp, by decide +kernel, by decide +kernel⟩
  · exact ⟨rfl, .string "t", rfl, by simp, by decide +kernel, by decide +kernel⟩
  · exact ⟨rfl, .int 1, rfl, by simp, by decide +kernel, by decide +kernel⟩
  · exact ⟨rfl, .int 1, rfl, by simp, by decide +kernel, by decide +kernel⟩
  · rfl
  · decide +kernel
  · decide +kernel

end Validation.Env

end FormLetter
