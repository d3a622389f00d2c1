import FormLetter.Proofs.Schema.Lookup
import FormLetter.Proofs.Validation.InStep
import FormLetter.Proofs.Validation.Substitution
import FormLetter.Proofs.Validation.Uses

namespace FormLetter

def PathSegment.name? : PathSegment → Option String
  | field name => some name
  | index _ | dynamic => none

namespace ReferencePath

/-- The names along a path: its variable and its fields. -/
def names (path : ReferencePath) : List String :=
  path.root :: path.segments.filterMap PathSegment.name?

/-- The names along a path with dots between them. -/
def dotted (path : ReferencePath) : List Char :=
  ['.'].intercalate (path.names.map String.toList)

theorem intercalate_cons (cs : List Char) (names : List String) :
    ['.'].intercalate (cs :: names.map String.toList) = cs ++ names.flatMap ('.' :: ·.toList) := by
  induction names generalizing cs with
  | nil => simp
  | cons name names ih =>
    rw [List.map_cons, List.intercalate_cons_cons, ih, List.flatMap_cons]
    simp

theorem toList_withoutIndices_eq (path : ReferencePath) :
    path.withoutIndices.toList = path.dotted := by
  rw [dotted, names, List.map_cons, intercalate_cons, withoutIndices, String.toList_ofList]
  congr 1
  induction path.segments with
  | nil => rfl
  | cons segment segments ih =>
    cases segment with
    | field name => simpa [PathSegment.name?] using ih
    | index n => exact ih
    | dynamic => exact ih

end ReferencePath

namespace Schema

/-- A field is declared under the names along a path, with markers for items of arrays anywhere. -/
def Spells (schema : Schema) (path : ReferencePath) : Prop :=
  ∃ f ∈ schema.fields, Marked path.dotted f.path.toList

theorem Spells.exists_declared {schema : Schema} {path : ReferencePath} (h : schema.Spells path) :
    ∃ f, schema.declared? path.withoutIndices = some f := by
  obtain ⟨f, hf, hm⟩ := h
  have hnormal : normalize f.path = path.withoutIndices := by
    rw [normalize, hm.normalize, ← path.toList_withoutIndices_eq, String.ofList_toList]
  exact Option.isSome_iff_exists.mp (List.find?_isSome.mpr ⟨f, hf, by simpa using hnormal⟩)

end Schema

namespace Validation

namespace Env

variable {env : Env} {path : ReferencePath}

theorem lookup_of_spells {schema : Schema} (hi : env.schema = schema.index)
    (h : schema.Spells path) : env.lookup path ≠ none := by
  obtain ⟨f, hf⟩ := h.exists_declared
  intro hnone
  rw [lookup, Option.map_eq_none_iff, Option.orElse_eq_none, hi, Schema.resolve?_eq_search,
    Schema.resolve?_eq_search] at hnone
  rw [Schema.search, Schema.search, hf] at hnone
  cases hnone.2

/-- Nothing is wrong with a path that spells a declared one, unless it starts at a variable of a
loop. -/
theorem reference_of_spells {schema : Schema} (hi : env.schema = schema.index)
    (hb : env.binding? path.root = none) (h : schema.Spells path) :
    (env.reference path).2 = [] := by
  obtain ⟨type, ht⟩ := Option.ne_none_iff_exists'.mp (lookup_of_spells hi h)
  simp [reference, hb, ht]

/-- What is found for a path is about that path. -/
theorem eq_display_of_misses (h : Misses (env.reference path).2 shown) : shown = path.display := by
  obtain ⟨names, h⟩ := h
  unfold reference at h
  split at h
  · split at h
    · cases h
    · cases List.mem_singleton.mp h
      rfl
  · split at h
    · cases h
    · split at h
      · cases h
      · split at h
        · cases h
        · cases List.mem_singleton.mp h
          rfl

/-- One of some paths is reported. -/
def MissesAny (env : Env) (paths : List ReferencePath) (shown : String) : Prop :=
  ∃ path ∈ paths, Misses (env.reference path).2 shown

@[simp] theorem not_missesAny_nil (env : Env) (shown : String) : ¬env.MissesAny [] shown := by
  simp [MissesAny]

@[simp] theorem missesAny_cons : env.MissesAny (path :: paths) shown ↔
    Misses (env.reference path).2 shown ∨ env.MissesAny paths shown := by
  simp [MissesAny]

@[simp] theorem missesAny_append : env.MissesAny (paths ++ more) shown ↔
    env.MissesAny paths shown ∨ env.MissesAny more shown := by
  simp [MissesAny, or_and_right, exists_or]

mutual
/-- What is reported in an expression are paths that it reads. -/
theorem misses_infer (env : Env) : (e : Expr) →
    (Misses (env.infer e).2 shown ↔ env.MissesAny e.reads shown)
  | .literal _ => by simp [infer, Expr.reads, Expr.path?, Expr.innerReads]
  | .var name => by simp [infer, Expr.reads, Expr.path?, Expr.innerReads]
  | .field object name => by
    cases hp : (Expr.field object name).path? with
    | some path =>
      obtain ⟨inner, hi, -⟩ := Option.map_eq_some_iff.mp hp
      simp only [infer, hp]
      rw [misses_append, misses_keyFindings env object hi, Expr.reads_of_path hp, missesAny_cons,
        or_comm]
      rfl
    | none =>
      have ho := Expr.path?_field_eq_none hp
      simp only [infer, hp]
      rw [misses_infer env object, Expr.reads_of_no_path ho, Expr.reads_of_no_path hp]
      rfl
  | .index object key => by
    cases hp : (Expr.index object key).path? with
    | some path =>
      obtain ⟨inner, hi, -⟩ := Option.map_eq_some_iff.mp hp
      simp only [infer, hp]
      rw [misses_append, misses_append, misses_keyFindings env object hi, misses_infer env key,
        ← missesAny_append, Expr.reads_of_path hp, missesAny_cons, or_comm]
      rfl
    | none =>
      have ho := Expr.path?_index_eq_none hp
      simp only [infer, hp]
      rw [misses_append, misses_infer env object, misses_infer env key, Expr.reads_of_no_path ho,
        ← missesAny_append, Expr.reads_of_no_path hp]
      rfl
  | .unary _ operand => misses_infer env operand
  | .binary _ left right => by
    have hpath (op : BinaryOp) : (Expr.binary op left right).path? = none := rfl
    rw [infer, misses_append, misses_infer env left, misses_infer env right, ← missesAny_append,
      Expr.reads_of_no_path (hpath _)]
    rfl
  | .call name args => by
    have hpath : (Expr.call name args).path? = none := rfl
    rw [infer, misses_append, misses_inferAll env args, Expr.reads_of_no_path hpath]
    exact or_iff_left (not_misses_call env name _ shown)
termination_by structural e => e

theorem misses_keyFindings (env : Env) : (e : Expr) → ∀ {path}, e.path? = some path →
    (Misses (env.keyFindings e) shown ↔ env.MissesAny e.innerReads shown)
  | .var name, _, _ => by simp [keyFindings, Expr.innerReads]
  | .field object _, _, hp => by
    obtain ⟨inner, hi, -⟩ := Option.map_eq_some_iff.mp hp
    exact misses_keyFindings env object hi
  | .index object key, _, hp => by
    obtain ⟨inner, hi, -⟩ := Option.map_eq_some_iff.mp hp
    rw [keyFindings, misses_append, misses_keyFindings env object hi, misses_infer env key,
      ← missesAny_append]
    rfl
  | .literal _, _, hp | .unary _ _, _, hp | .binary _ _ _, _, hp | .call _ _, _, hp => by cases hp
termination_by structural e => e

theorem misses_inferAll (env : Env) : (es : List Expr) →
    (Misses (env.inferAll es).2 shown ↔ env.MissesAny (Expr.argReads es) shown)
  | [] => by simp [inferAll, Expr.argReads]
  | e :: es => by
    rw [inferAll, misses_append, misses_infer env e, misses_inferAll env es, ← missesAny_append]
    rfl
termination_by structural es => es
end

end Env

/-- What is found in a tag is found in the expression that it has. -/
theorem exists_bears {token : MarkupToken} (h : f ∈ (visitToken schema scopes token).1) :
    ∃ e, token.Bears e ∧ f ∈ (Env.infer ⟨schema, scopes⟩ e).2 := by
  cases hk : token.kind with
  | text | pageBreak | elseTag | endTag =>
    simp only [visitToken, hk] at h
    cases h
  | forTag =>
    simp only [visitToken, hk] at h
    split at h
    · rename_i header hp
      exact ⟨header.collection, .collection ⟨hk, hp⟩, h⟩
    · cases h
  | value | includeTag | ifTag | unlessTag | elsifTag =>
    simp only [visitToken, hk, expressionFindings] at h
    split at h
    · rename_i e hp
      exact ⟨e, .value ⟨hk, hp⟩ rfl, h⟩
    · cases h

/-- What is remarked is found at some tag, with the scopes that the tags before it leave. -/
theorem exists_visit_of_mem {spans : List Span} (h : r ∈ scopeRemarks schema scopes spans) :
    ∃ before after, spans = before ++ r.span :: after ∧
      r.finding ∈ (visitSpan schema
        (before.foldl (fun scopes span => (visitSpan schema scopes span).2) scopes) r.span).1 := by
  induction spans generalizing scopes with
  | nil => cases h
  | cons span spans ih =>
    rcases List.mem_append.mp h with h | h
    · obtain ⟨f, hf, rfl⟩ := List.mem_map.mp h
      exact ⟨[], spans, rfl, hf⟩
    · obtain ⟨before, after, hspans, hf⟩ := ih h
      exact ⟨span :: before, after, by rw [hspans]; rfl, hf⟩

/-- The index of a schema says of each path what the list of the fields says. So outside of loops a
path that spells a declared one is not reported as unknown, whatever indexes are put into it: of an
expression that is such a path only what stands in its indexes is, and whatever is reported in a
document as unknown spells no declared path, unless it starts at a variable of an open loop. -/
theorem spelled_paths_known (schema : Schema) :
    (∀ path, schema.index.resolve? path = schema.search path) ∧
    (∀ scopes e path, e.path? = some path →
      Env.binding? ⟨schema.index, scopes⟩ path.root = none → schema.Spells path →
      (Env.infer ⟨schema.index, scopes⟩ e).2 = Env.keyFindings ⟨schema.index, scopes⟩ e) ∧
    ∀ spans span shown hints, ⟨span, .unknownField shown hints⟩ ∈ schemaRemarks schema spans →
      ∃ before after token e path, spans = before ++ span :: after ∧ span.content = .ok token ∧
        token.Bears e ∧ path ∈ e.reads ∧ shown = path.display ∧
        (schema.Spells path →
          ∃ header, some header ∈ (openAfter before).map OpenTag.header? ∧
            header.Binds path.root) := by
  refine ⟨Schema.resolve?_eq_search schema, ?_, ?_⟩
  · intro scopes e path he hb hs
    rw [infer_of_path? _ he, Env.reference_of_spells rfl hb hs, List.append_nil]
  · intro spans span shown hints h
    obtain ⟨before, after, hspans, hf⟩ := exists_visit_of_mem h
    have hscopes : before.foldl (fun scopes span => (visitSpan schema.index scopes span).2) [] =
        scopesIn schema.index ((openAfter before).map OpenTag.header?) :=
      scopesAfter_eq schema.index before
    rw [hscopes, visitSpan] at hf
    split at hf
    · cases hf
    · rename_i token hc
      obtain ⟨e, hbears, hf⟩ := exists_bears hf
      obtain ⟨path, hread, hmisses⟩ := (Env.misses_infer _ e).mp ⟨hints, hf⟩
      refine ⟨before, after, token, e, path, hspans, hc, hbears, hread,
        Env.eq_display_of_misses hmisses, ?_⟩
      intro hs
      rw [← binding?_isSome_iff schema.index]
      by_contra hnone
      rw [Bool.not_eq_true, Option.isSome_eq_false_iff, Option.isNone_iff_eq_none] at hnone
      have hnil := Env.reference_of_spells rfl hnone hs
      exact not_misses_nil shown (hnil ▸ hmisses)

/-- Two indexes after a declared array, one of which the schema does not know. -/
theorem spelled_paths_known_of_lines :
    let schema : Schema := ⟨[⟨"order.lines[].sku", .string, false, none⟩], []⟩
    let path : ReferencePath := ⟨"order", [.field "lines", .index 0, .dynamic, .field "sku"]⟩
    let e : Expr := .field (.index (.index (.field (.var "order") "lines") (.literal (.int 0)))
      (.var "i")) "sku"
    let env : Env := ⟨schema.index, []⟩
    let source := "order.lines[0][i].sku"
    let span : Span :=
      ⟨Document.mainPart, 0, 0, 0, 25, "\x7b\x7b" ++ source ++ "\x7d\x7d", source, 0,
        .ok ⟨.value, source, 0⟩⟩
    (e.path? = some path ∧ env.binding? path.root = none ∧ schema.Spells path ∧
      (env.infer e).2 = env.keyFindings e) ∧
    ⟨span, .unknownField "i" []⟩ ∈ schemaRemarks schema [span] ∧
    ∃ before after token e path, [span] = before ++ span :: after ∧ span.content = .ok token ∧
      token.Bears e ∧ path ∈ e.reads ∧ "i" = path.display ∧
      (schema.Spells path → ∃ header, some header ∈ (openAfter before).map OpenTag.header? ∧
        header.Binds path.root) := by
  intro schema path e env source span
  obtain ⟨-, hknown, hreported⟩ := spelled_paths_known schema
  have hpath : e.path? = some path := rfl
  have hspells : schema.Spells path := by
    refine ⟨_, List.mem_singleton_self _, ?_⟩
    have hplain : path.dotted = "order.lines".toList ++ (".sku".toList ++ []) := by decide +kernel
    have hmarked : "order.lines[].sku".toList =
        "order.lines".toList ++ '[' :: ']' :: (".sku".toList ++ []) := by decide +kernel
    rw [hplain, hmarked]
    exact .append (by decide +kernel) (.brackets (.append (by decide +kernel) .nil))
  have hwritten : e.Written :=
    have horder : Expr.IsReference "order" :=
      ⟨isName_of_all (show "order".toList = ['o', 'r', 'd', 'e', 'r'] from rfl) rfl rfl, rfl⟩
    have hlines : IsName "lines" :=
      isName_of_all (show "lines".toList = ['l', 'i', 'n', 'e', 's'] from rfl) rfl rfl
    have hi : Expr.IsReference "i" :=
      ⟨isName_of_all (show "i".toList = ['i'] from rfl) rfl rfl, rfl⟩
    have hsku : IsName "sku" :=
      isName_of_all (show "sku".toList = ['s', 'k', 'u'] from rfl) rfl rfl
    have hzero : Expr.IsLiteral (.int 0) := show 0 ≤ (0 : Int64).toInt by decide
    ⟨⟨⟨⟨horder, hlines⟩, hzero⟩, hi⟩, hsku⟩
  have hexpr : Expr.parse source = .ok e := by
    have hdisplay : e.display = source := by decide +kernel
    rw [← hdisplay]
    exact Expr.parse_display_of_written hwritten
  have hfindings : (env.infer e).2 = [.unknownField "i" []] := by decide +kernel
  have hremark : ⟨span, .unknownField "i" []⟩ ∈ schemaRemarks schema [span] := by
    simp [schemaRemarks, scopeRemarks, visitSpan, visitToken, span, expressionFindings, hexpr, env,
      hfindings]
  exact ⟨⟨hpath, rfl, hspells, hknown [] e path hpath rfl hspells⟩, hremark,
    hreported [span] span "i" [] hremark⟩

end Validation

end FormLetter
