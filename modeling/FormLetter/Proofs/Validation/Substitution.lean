import FormLetter.Proofs.Expr.Path
import FormLetter.Proofs.Validation.Enclosing

namespace FormLetter

namespace Schema

/-- No path of the schema has an index in it. -/
def Indexless (schema : Schema) : Prop :=
  ∀ f ∈ schema.fields, '[' ∉ (normalize f.path).toList

instance (schema : Schema) : Decidable schema.Indexless :=
  inferInstanceAs (Decidable (∀ f ∈ schema.fields, '[' ∉ (normalize f.path).toList))

/-- A path is something in a schema if it is declared, leads to what is, or lies below what may be
anything. -/
theorem resolve?_isSome {index : Index} {path : String} : (index.resolve? path).isSome = true ↔
    (∃ f, index.fields.get? path = some f) ∨ index.parents.has path = true ∨
      ∃ a ∈ ancestors path, ∃ f, index.fields.get? a = some f ∧ f.kind = .any := by
  unfold Index.resolve?
  cases index.fields.get? path with
  | some f => simp
  | none =>
    cases index.parents.has path with
    | true => simp
    | false => simp [Option.any_eq_true]

namespace Indexless

variable {schema : Schema}

theorem not_mem_of_get? (hs : schema.Indexless) (h : schema.index.fields.get? path = some f) :
    '[' ∉ path.toList := by
  obtain ⟨hf, hp⟩ := exists_field_of_get? h
  rw [← hp]
  exact hs f hf

theorem not_mem_of_parent (hs : schema.Indexless) (h : schema.index.parents.has path = true) :
    '[' ∉ path.toList := by
  obtain ⟨f, hf, hp⟩ := has_parents.mp h
  obtain ⟨rest, hpath⟩ := mem_ancestors.mp hp
  intro hmem
  exact hs f hf (by rw [hpath]; exact List.mem_append_left _ hmem)

end Indexless

end Schema

namespace PathSegment

theorem exists_chars_of_not_isField {segment : PathSegment} (h : segment.isField = false) :
    ∃ cs, segment.chars = '[' :: cs := by
  cases segment with
  | field name => cases h
  | index n => exact ⟨_, rfl⟩
  | dynamic => exact ⟨_, rfl⟩

/-- Without an index, all segments of a path are fields. -/
theorem filter_isField_of_not_mem {segments : List PathSegment}
    (h : '[' ∉ segments.flatMap chars) : segments.filter isField = segments := by
  rw [List.filter_eq_self]
  intro segment hm
  by_contra hf
  obtain ⟨cs, hcs⟩ := exists_chars_of_not_isField (Bool.not_eq_true _ ▸ hf)
  exact h (List.mem_flatMap.mpr ⟨segment, hm, by simp [hcs]⟩)

/-- What stands before a dot of a path, and has no index in it, stands there without the indexes of
the path too. -/
theorem exists_rest_of_fields {segments : List PathSegment} (ha : '[' ∉ a)
    (h : before ++ segments.flatMap chars = a ++ '.' :: rest) :
    ∃ rest, before ++ (segments.filter isField).flatMap chars = a ++ '.' :: rest := by
  induction segments generalizing before with
  | nil => exact ⟨rest, h⟩
  | cons segment segments ih =>
    rw [List.flatMap_cons, ← List.append_assoc] at h
    cases hs : segment.isField with
    | true =>
      obtain ⟨more, hmore⟩ := ih h
      exact ⟨more, by simpa [hs] using hmore⟩
    | false =>
      obtain ⟨cs, hcs⟩ := exists_chars_of_not_isField hs
      rw [hcs, List.append_assoc, List.cons_append] at h
      obtain ⟨us, rfl, hus⟩ | ⟨us, rfl, hus⟩ := List.append_eq_append_iff.mp h
      · -- The index would be part of what stands before the dot.
        cases us with
        | nil => cases hus
        | cons c us =>
          obtain ⟨rfl, -⟩ := List.cons.inj hus
          simp at ha
      · cases us with
        | nil => cases hus
        | cons c us =>
          obtain ⟨rfl, -⟩ := List.cons.inj hus
          exact ⟨us ++ ((segment :: segments).filter isField).flatMap chars, by simp⟩

end PathSegment

theorem ReferencePath.toList_display (path : ReferencePath) :
    path.display.toList = path.root.toList ++ path.segments.flatMap PathSegment.chars :=
  String.toList_ofList

theorem ReferencePath.toList_withoutIndices (path : ReferencePath) :
    path.withoutIndices.toList =
      path.root.toList ++ (path.segments.filter PathSegment.isField).flatMap PathSegment.chars := by
  rw [← display_fields, toList_display]
  rfl

namespace Schema.Indexless

variable {schema : Schema} {path : ReferencePath}

/-- What is found with the indexes of a path is found without them. -/
theorem resolve?_withoutIndices (hs : schema.Indexless)
    (h : (schema.index.resolve? path.display).isSome = true) :
    (schema.index.resolve? path.withoutIndices).isSome = true := by
  have hsame (hb : '[' ∉ path.display.toList) : path.withoutIndices = path.display := by
    rw [ReferencePath.toList_display, List.mem_append, not_or] at hb
    apply String.toList_inj.mp
    rw [ReferencePath.toList_withoutIndices, ReferencePath.toList_display,
      PathSegment.filter_isField_of_not_mem hb.2]
  rcases resolve?_isSome.mp h with ⟨f, hf⟩ | hp | ⟨a, ha, f, hf, hany⟩
  · rwa [hsame (hs.not_mem_of_get? hf)]
  · rwa [hsame (hs.not_mem_of_parent hp)]
  · obtain ⟨rest, hrest⟩ := mem_ancestors.mp ha
    rw [ReferencePath.toList_display] at hrest
    obtain ⟨more, hmore⟩ := PathSegment.exists_rest_of_fields (hs.not_mem_of_get? hf) hrest
    rw [← ReferencePath.toList_withoutIndices] at hmore
    exact resolve?_isSome.mpr (.inr (.inr ⟨a, mem_ancestors.mpr ⟨more, hmore⟩, f, hf, hany⟩))

end Schema.Indexless

/-- The path with more segments at its end. -/
def ReferencePath.extend (path : ReferencePath) (segments : List PathSegment) : ReferencePath :=
  { path with segments := path.segments ++ segments }

namespace Blocks

/-- The path that a path stands for outside all loops. The path of the collection takes the place of
an item, and is read where the loop starts. An index stands for no path. -/
def outside? : Blocks → ReferencePath → Option ReferencePath
  | [], path => some path
  | none :: outer, path => outside? outer path
  | some header :: outer, path =>
    if header.item = path.root then
      match header.collection.path? with
      | some collection => outside? outer (collection.extend path.segments)
      | none => none
    else if header.index = some path.root then none
    else outside? outer path

/-- The nearest loop with a variable of this name has it for its item. -/
def BindsItem : Blocks → String → Prop
  | [], _ => False
  | none :: outer, name => BindsItem outer name
  | some header :: outer, name =>
    header.item = name ∨ (header.index ≠ some name ∧ BindsItem outer name)

theorem outside?_extend (blocks : Blocks) (path : ReferencePath) (segments : List PathSegment) :
    blocks.outside? (path.extend segments) =
      (blocks.outside? path).map (·.extend segments) := by
  induction blocks generalizing path with
  | nil => rfl
  | cons block outer ih =>
    cases block with
    | none => exact ih path
    | some header =>
      unfold outside?
      have hroot : (path.extend segments).root = path.root := rfl
      rw [hroot]
      split
      · cases header.collection.path? with
        | none => rfl
        | some collection =>
          have := ih (collection.extend path.segments)
          simpa [ReferencePath.extend] using this
      · split
        · rfl
        · exact ih path

end Blocks

namespace Validation

/-- All the loops go through collections that the schema knows, each read where the loop starts. -/
def Describes (schema : Schema.Index) : Blocks → Prop
  | [] => True
  | none :: outer => Describes schema outer
  | some header :: outer => Describes schema outer ∧
    ∃ collection path, header.collection.path? = some collection ∧
      Blocks.outside? outer collection = some path ∧
      (schema.resolve? path.withoutIndices).isSome = true

theorem exists_outside {schema : Schema.Index} {blocks : Blocks} (hd : Describes schema blocks)
    (h : blocks.BindsItem name) (segments : List PathSegment) :
    ∃ path, blocks.outside? ⟨name, segments⟩ = some path := by
  induction blocks with
  | nil => cases h
  | cons block outer ih =>
    cases block with
    | none => exact ih hd h
    | some header =>
      obtain ⟨hd, collection, path, hcollection, hpath, -⟩ := hd
      unfold Blocks.outside?
      split
      · exact ⟨path.extend segments, by simp [hcollection, Blocks.outside?_extend, hpath]⟩
      · rename_i hitem
        obtain ⟨hindex, h⟩ := h.resolve_left hitem
        rw [if_neg hindex]
        exact ih hd h

/-- The path in the schema that is tried for a path, without its indexes. -/
def Env.candidate? (env : Env) (path : ReferencePath) : Option String :=
  match env.binding? path.root with
  | some b => b.path.map fun base => (path.rebased base).withoutIndices
  | none => some path.withoutIndices

theorem Env.schemaPath?_eq (env : Env) (path : ReferencePath) : env.schemaPath? path =
    (env.candidate? path).bind fun c => (env.schema.resolve? c).map fun _ => c := by
  have hknown (c : String) : (env.schema.resolve? c).bind (fun _ => some c) =
      (env.schema.resolve? c).map fun _ => c := by
    cases env.schema.resolve? c <;> rfl
  unfold schemaPath? candidate?
  cases env.binding? path.root with
  | none => exact hknown _
  | some b =>
    dsimp only
    cases b.path with
    | none => rfl
    | some base => exact hknown _

theorem withoutIndices_rebased (path : ReferencePath) (segments : List PathSegment)
    (root : String) :
    (ReferencePath.rebased ⟨root, segments⟩ path.withoutIndices).withoutIndices =
      (path.extend segments).withoutIndices := by
  apply String.toList_inj.mp
  simp [ReferencePath.toList_withoutIndices, ReferencePath.rebased, ReferencePath.extend]

/-- The validation tries the path that stands outside all loops. -/
theorem candidate?_eq {schema : Schema.Index} {blocks : Blocks} (hd : Describes schema blocks)
    (h : blocks.outside? path = some outside) :
    (envIn schema blocks).candidate? path = some outside.withoutIndices := by
  induction blocks generalizing path outside with
  | nil =>
    cases h
    rfl
  | cons block outer ih =>
    cases block with
    | none => exact ih hd h
    | some header =>
      obtain ⟨hd, collection, base, hcollection, hbase, hknown⟩ := hd
      unfold Blocks.outside? at h
      unfold Env.candidate?
      rw [binding?_loop]
      split at h
      · rename_i hitem
        have hextend := Blocks.outside?_extend outer collection path.segments
        rw [hbase] at hextend
        rw [hcollection] at h
        obtain rfl := Option.some.inj (hextend.symm.trans h)
        have hprefix : (envIn schema outer).schemaPath? collection = some base.withoutIndices := by
          obtain ⟨found, hfound⟩ := Option.isSome_iff_exists.mp hknown
          have hschema : (envIn schema outer).schema = schema := rfl
          rw [Env.schemaPath?_eq, ih hd hbase, hschema, Option.bind_some, hfound, Option.map_some]
        rw [if_pos hitem]
        simp only [itemBinding, hcollection, Option.bind_some, hprefix, Option.map_some]
        exact congrArg some (withoutIndices_rebased base path.segments path.root)
      · rename_i hitem
        split at h
        · cases h
        · rename_i hindex
          rw [if_neg hitem, if_neg hindex]
          exact ih hd h

section

variable {schema : Schema}

theorem lookup_eq_none (hs : schema.Indexless) (scopes : List Scope) (path : ReferencePath) :
    Env.lookup ⟨schema.index, scopes⟩ path = none ↔
      schema.index.resolve? path.withoutIndices = none := by
  unfold Env.lookup
  rw [Option.map_eq_none_iff, Option.orElse_eq_none]
  refine ⟨And.right, fun h => ⟨?_, h⟩⟩
  cases hd : schema.index.resolve? path.display with
  | none => rfl
  | some found =>
    have hplain : (schema.index.resolve? path.withoutIndices).isSome = true :=
      hs.resolve?_withoutIndices (by rw [hd]; rfl)
    rw [h] at hplain
    cases hplain

/-- A path is unknown if what is tried for it is nothing in the schema. -/
theorem misses_reference_iff (hs : schema.Indexless) {scopes : List Scope} {path : ReferencePath}
    (hc : Env.candidate? ⟨schema.index, scopes⟩ path = some candidate)
    (hv : (Env.binding? ⟨schema.index, scopes⟩ path.root).isSome = true → path.segments ≠ []) :
    Misses (Env.reference ⟨schema.index, scopes⟩ path).2 path.display ↔
      schema.index.resolve? candidate = none := by
  unfold Env.candidate? at hc
  unfold Env.reference
  cases hb : Env.binding? ⟨schema.index, scopes⟩ path.root with
  | none =>
    rw [hb] at hc
    cases hc
    rw [← lookup_eq_none hs scopes path]
    cases Env.lookup ⟨schema.index, scopes⟩ path <;> simp [Misses]
  | some b =>
    rw [hb] at hc
    obtain ⟨base, hbase, rfl⟩ := Option.map_eq_some_iff.mp hc
    have hne : path.segments.isEmpty = false := by
      simpa using hv (by rw [hb]; rfl)
    simp only [hne, hbase, Bool.false_eq_true, if_false]
    rw [← lookup_eq_none hs scopes (path.rebased base)]
    cases Env.lookup ⟨schema.index, scopes⟩ (path.rebased base) <;> simp [Misses]

/-- What is wrong with a path is found apart from what is wrong in its indexes. -/
theorem infer_of_path? (env : Env) {e : Expr} (h : e.path? = some path) :
    (env.infer e).2 = env.keyFindings e ++ (env.reference path).2 := by
  cases e with
  | var name =>
    cases h
    rfl
  | field object name => simp [Env.infer, Env.keyFindings, h]
  | index object key => simp [Env.infer, Env.keyFindings, h]
  | literal | unary | binary | call => cases h

/-- A path from the item of a loop is reported as unknown if and only if the path that comes of
putting collections in place of items is, where there is no loop. Indexes in either do not
matter. -/
theorem misses_iff_outside (hs : schema.Indexless)
    (hd : Describes schema.index (Blocks.after [] front))
    (hv : (Blocks.after [] front).BindsItem path.root) (hrest : path.segments ≠ []) :
    ∃ outside, (Blocks.after [] front).outside? path = some outside ∧
      let env : Env := ⟨schema.index, (visitTokens schema.index [] front).2⟩
      let bare : Env := ⟨schema.index, []⟩
      ∀ e e' path', e.path? = some path → e'.path? = some path' → path'.fields = outside.fields →
        (env.infer e).2 = env.keyFindings e ++ (env.reference path).2 ∧
        (bare.infer e').2 = bare.keyFindings e' ++ (bare.reference path').2 ∧
        (Misses (env.reference path).2 path.display ↔
          Misses (bare.reference path').2 path'.display) := by
  obtain ⟨outside, houtside⟩ := exists_outside hd hv path.segments
  refine ⟨outside, houtside, ?_⟩
  intro env bare e e' path' he he' hfields
  refine ⟨infer_of_path? env he, infer_of_path? bare he', ?_⟩
  have henv : env.candidate? path = some outside.withoutIndices := by
    have := candidate?_eq hd houtside
    rwa [envIn, ← visitTokens_scopes] at this
  have hbare : bare.candidate? path' = some outside.withoutIndices := by
    rw [← ReferencePath.display_fields, ← hfields, ReferencePath.display_fields]
    rfl
  rw [misses_reference_iff hs henv fun _ => hrest,
    misses_reference_iff hs hbare (by simp [Env.binding?])]

/-- A loop in a loop, over a field of the items of the outer one. The index of the path does not
matter. -/
theorem misses_iff_outside_of_nested :
    let schema : Schema :=
      ⟨[⟨"xs", .array, false, none⟩, ⟨"xs[].rows[].name", .string, false, none⟩], []⟩
    let path : ReferencePath := ⟨"y", [.index 0, .field "age"]⟩
    let front : List MarkupToken := [⟨.forTag, "x in xs", 6⟩, ⟨.forTag, "y in x.rows", 21⟩]
    let env : Env := ⟨schema.index, (visitTokens schema.index [] front).2⟩
    schema.Indexless ∧ Describes schema.index (Blocks.after [] front) ∧
      (Blocks.after [] front).BindsItem path.root ∧ path.segments ≠ [] ∧
      (Misses (env.reference path).2 path.display ↔
        Misses (Env.reference ⟨schema.index, []⟩ ⟨"xs", [.field "rows", .field "age"]⟩).2
          "xs.rows.age") := by
  intro schema path front env
  have hname (name : String) (hn : IsName name) (hv : Value.ofName? name = none) :
      Expr.IsReference name := ⟨hn, hv⟩
  have hx := hname "x" (isName_of_all (show "x".toList = ['x'] from rfl) rfl rfl) rfl
  have hy := hname "y" (isName_of_all (show "y".toList = ['y'] from rfl) rfl rfl) rfl
  have hxs := hname "xs" (isName_of_all (show "xs".toList = ['x', 's'] from rfl) rfl rfl) rfl
  have hrows : IsName "rows" :=
    isName_of_all (show "rows".toList = ['r', 'o', 'w', 's'] from rfl) rfl rfl
  have hfree : Parser.isReserved "x" = false ∧ Parser.isReserved "y" = false := ⟨rfl, rfl⟩
  have houter : LoopHeader.parse "x in xs" = .ok ⟨none, "x", .var "xs"⟩ := by
    have hdisplay : LoopHeader.display ⟨none, "x", .var "xs"⟩ = "x in xs" := by decide +kernel
    rw [← hdisplay]
    exact LoopHeader.parse_display_of_written ⟨by simpa [LoopHeader.variableTokens] using hx.1,
      by simpa [LoopHeader.AreVariables, LoopHeader.variableTokens] using hfree.1, hxs⟩
  have hinner : LoopHeader.parse "y in x.rows" = .ok ⟨none, "y", .field (.var "x") "rows"⟩ := by
    have hdisplay : LoopHeader.display ⟨none, "y", .field (.var "x") "rows"⟩ = "y in x.rows" := by
      decide +kernel
    rw [← hdisplay]
    exact LoopHeader.parse_display_of_written ⟨by simpa [LoopHeader.variableTokens] using hy.1,
      by simpa [LoopHeader.AreVariables, LoopHeader.variableTokens] using hfree.2, hx, hrows⟩
  have hblocks : Blocks.after [] front =
      [some ⟨none, "y", .field (.var "x") "rows"⟩, some ⟨none, "x", .var "xs"⟩] := by
    simp [front, Blocks.visit, houter, hinner, Except.toOption]
  have hs : schema.Indexless := by decide +kernel
  have hxs : (schema.index.resolve? "xs").isSome = true := by decide +kernel
  have hrows : (schema.index.resolve? "xs.rows").isSome = true := by decide +kernel
  have hd : Describes schema.index (Blocks.after [] front) := by
    rw [hblocks]
    exact ⟨⟨trivial, ⟨"xs", []⟩, ⟨"xs", []⟩, rfl, rfl, hxs⟩, ⟨"x", [.field "rows"]⟩,
      ⟨"xs", [.field "rows"]⟩, rfl, rfl, hrows⟩
  have hv : (Blocks.after [] front).BindsItem path.root := by
    rw [hblocks]
    exact .inl rfl
  have hrest : path.segments ≠ [] := by simp [path]
  refine ⟨hs, hd, hv, hrest, ?_⟩
  obtain ⟨outside, houtside, hiff⟩ := misses_iff_outside hs hd hv hrest
  rw [hblocks] at houtside
  cases houtside
  exact (hiff (.field (.index (.var "y") (.literal (.int 0))) "age")
    (.field (.field (.var "xs") "rows") "age") _ rfl rfl rfl).2.2

end

end Validation

end FormLetter
