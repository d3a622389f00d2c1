import FormLetter.Proofs.Template.References
import FormLetter.Proofs.Validation.Findings
import FormLetter.Validation.References
import FormLetter.Validation.Scopes

namespace FormLetter

namespace Validation

/-- The paths of data among mentions. -/
def mentionedPaths (found : List Mention) : List String :=
  (found.filter (·.1 = .path)).map Prod.snd

theorem mem_mentionedPaths : s ∈ mentionedPaths found ↔ (ReferenceKind.path, s) ∈ found := by
  simp [mentionedPaths]

theorem mentionedPaths_mention_path (found : List Mention) (path : ReferencePath) :
    mentionedPaths (mention found (.path, path.display)) =
      Template.addPath [] path (mentionedPaths found) := by
  have hc : found.contains (.path, path.display) =
      (mentionedPaths found).contains path.display := by
    rw [Bool.eq_iff_iff, List.contains_iff_mem, List.contains_iff_mem, mem_mentionedPaths]
  rw [mention, Template.addPath, hc, List.contains_nil, Bool.false_or]
  split
  · rfl
  · simp [mentionedPaths]

theorem mentionedPaths_mention_function (found : List Mention) (name : String) :
    mentionedPaths (mention found (.function, name)) = mentionedPaths found := by
  unfold mention
  split
  · rfl
  · simp [mentionedPaths]

mutual
/-- The paths that an expression mentions are those that a template lists for it outside loops. -/
theorem mentionedPaths_mentions : (e : Expr) → (found : List Mention) →
    mentionedPaths (mentions e found) = Template.addExpr [] e (mentionedPaths found)
  | .literal _, _ => rfl
  | .var name, found => by
    have hname : (⟨name, []⟩ : ReferencePath).display = name := by simp [ReferencePath.display]
    rw [mentions, Template.addExpr, ← mentionedPaths_mention_path, hname]
  | .field object name, found => by
    cases hp : (Expr.field object name).path? with
    | some path =>
      simp only [mentions, Template.addExpr, hp]
      rw [mentionedPaths_keyMentions object, mentionedPaths_mention_path]
    | none =>
      simp only [mentions, Template.addExpr, hp]
      exact mentionedPaths_mentions object found
  | .index object key, found => by
    cases hp : (Expr.index object key).path? with
    | some path =>
      simp only [mentions, Template.addExpr, hp]
      rw [mentionedPaths_mentions key, mentionedPaths_keyMentions object,
        mentionedPaths_mention_path]
    | none =>
      simp only [mentions, Template.addExpr, hp]
      rw [mentionedPaths_mentions key, mentionedPaths_mentions object]
  | .unary _ operand, found => mentionedPaths_mentions operand found
  | .binary _ left right, found => by
    rw [mentions, Template.addExpr, mentionedPaths_mentions right, mentionedPaths_mentions left]
  | .call name args, found => by
    rw [mentions, Template.addExpr, mentionedPaths_mentionsAll args,
      mentionedPaths_mention_function]
termination_by structural e => e

theorem mentionedPaths_keyMentions : (e : Expr) → (found : List Mention) →
    mentionedPaths (keyMentions e found) = Template.addKeys [] e (mentionedPaths found)
  | .field object _, found => mentionedPaths_keyMentions object found
  | .index object key, found => by
    rw [keyMentions, Template.addKeys, mentionedPaths_mentions key,
      mentionedPaths_keyMentions object]
  | .literal _, _ | .var _, _ | .unary _ _, _ | .binary _ _ _, _ | .call _ _, _ => rfl
termination_by structural e => e

theorem mentionedPaths_mentionsAll : (es : List Expr) → (found : List Mention) →
    mentionedPaths (mentionsAll es found) = Template.addArgs [] es (mentionedPaths found)
  | [], _ => rfl
  | e :: es, found => by
    rw [mentionsAll, Template.addArgs, mentionedPaths_mentionsAll es, mentionedPaths_mentions e]
termination_by structural es => es
end

/-- A path is found to be unknown. -/
def Misses (found : List Finding) (path : String) : Prop :=
  ∃ names, Finding.unknownField path names ∈ found

@[simp] theorem not_misses_nil (path : String) : ¬Misses [] path := by
  simp [Misses]

@[simp] theorem misses_append :
    Misses (found ++ more) path ↔ Misses found path ∨ Misses more path := by
  simp [Misses, exists_or]

namespace Env

/-- A call is about its function and its arguments, not about a path. -/
theorem not_misses_call (env : Env) (name : String) (types : List TypeInfo) (path : String) :
    ¬Misses (env.call name types).2 path := by
  rintro ⟨names, h⟩
  rcases of_mem_call h with ⟨_, hx⟩ | ⟨function, hx | h⟩
  · cases hx
  · cases hx
  · obtain ⟨_, _, _, _, _, _, hx⟩ := of_mem_argumentFindings h
    cases hx

/-- Nothing is known but the names of the variables of loops. -/
structure KnowsOnly (locals : List String) (env : Env) : Prop where
  unresolved : ∀ path, env.schema.resolve? path = none
  pathless : ∀ b ∈ env.scopes.flatten, b.path = none
  names : env.scopes.flatten.map Binding.name = locals

section

variable {env : Env}

theorem misses_reference (h : env.KnowsOnly locals) (path : ReferencePath) :
    Misses (env.reference path).2 s ↔ path.root ∉ locals ∧ s = path.display := by
  unfold reference
  rw [← h.names, List.mem_map]
  cases hb : env.binding? path.root with
  | none =>
    have hn : ¬∃ b ∈ env.scopes.flatten, b.name = path.root := by
      rintro ⟨b, hm, hname⟩
      exact List.find?_eq_none.mp hb b hm (by simpa using hname)
    simp only [hn, not_false_eq_true, true_and, lookup, h.unresolved]
    simp [Misses]
  | some b =>
    have hm := List.mem_of_find?_eq_some hb
    have hl : ∃ b ∈ env.scopes.flatten, b.name = path.root :=
      ⟨b, hm, by simpa using List.find?_some hb⟩
    simp only [hl, not_true_eq_false, false_and, iff_false, h.pathless b hm]
    split <;> exact not_misses_nil s

theorem mem_addPath (h : env.KnowsOnly locals) (path : ReferencePath) (found : List String) :
    s ∈ Template.addPath locals path found ↔ s ∈ found ∨ Misses (env.reference path).2 s := by
  rw [misses_reference h, Template.addPath]
  split
  · rename_i hx
    simp only [Bool.or_eq_true, List.contains_iff_mem] at hx
    constructor
    · exact .inl
    · rintro (hs | ⟨hroot, rfl⟩)
      · exact hs
      · exact hx.resolve_left hroot
  · rename_i hx
    simp only [Bool.or_eq_true, List.contains_iff_mem, not_or] at hx
    simp [hx.1]

mutual
/-- What a template adds for an expression is what is not known in it. -/
theorem mem_addExpr (h : env.KnowsOnly locals) : (e : Expr) → (found : List String) →
    (s ∈ Template.addExpr locals e found ↔ s ∈ found ∨ Misses (env.infer e).2 s)
  | .literal _, found => by simp [Template.addExpr, infer]
  | .var name, found => mem_addPath h ⟨name, []⟩ found
  | .field object name, found => by
    cases hp : (Expr.field object name).path? with
    | some path =>
      simp only [Template.addExpr, infer, hp]
      rw [mem_addKeys h object, mem_addPath h, misses_append, or_assoc, Or.comm (a := Misses _ s)]
    | none =>
      simp only [Template.addExpr, infer, hp]
      exact mem_addExpr h object found
  | .index object key, found => by
    cases hp : (Expr.index object key).path? with
    | some path =>
      simp only [Template.addExpr, infer, hp]
      rw [mem_addExpr h key, mem_addKeys h object, mem_addPath h, misses_append, misses_append]
      tauto
    | none =>
      simp only [Template.addExpr, infer, hp]
      rw [mem_addExpr h key, mem_addExpr h object, misses_append, or_assoc]
  | .unary _ operand, found => mem_addExpr h operand found
  | .binary _ left right, found => by
    rw [Template.addExpr, infer, mem_addExpr h right, mem_addExpr h left, misses_append, or_assoc]
  | .call name args, found => by
    have hcall : ¬Misses (env.call name (env.inferAll args).1).2 s := not_misses_call env name _ s
    rw [Template.addExpr, infer, mem_addArgs h args, misses_append]
    simp [hcall]
termination_by structural e => e

theorem mem_addKeys (h : env.KnowsOnly locals) : (e : Expr) → (found : List String) →
    (s ∈ Template.addKeys locals e found ↔ s ∈ found ∨ Misses (env.keyFindings e) s)
  | .field object _, found => mem_addKeys h object found
  | .index object key, found => by
    rw [Template.addKeys, keyFindings, mem_addExpr h key, mem_addKeys h object, misses_append,
      or_assoc]
  | .literal _, _ | .var _, _ | .unary _ _, _ | .binary _ _ _, _ | .call _ _, _ => by
    simp [Template.addKeys, keyFindings]
termination_by structural e => e

theorem mem_addArgs (h : env.KnowsOnly locals) : (es : List Expr) → (found : List String) →
    (s ∈ Template.addArgs locals es found ↔ s ∈ found ∨ Misses (env.inferAll es).2 s)
  | [], found => by simp [Template.addArgs, inferAll]
  | e :: es, found => by
    rw [Template.addArgs, inferAll, mem_addArgs h es, mem_addExpr h e, misses_append, or_assoc]
termination_by structural es => es
end

end

section

variable {schema : Schema.Index} {scopes : List Scope}

/-- A block has variables of its own only in a loop. -/
theorem KnowsOnly.openBlock (h : KnowsOnly locals ⟨schema, scopes⟩) :
    KnowsOnly locals ⟨schema, [] :: scopes⟩ :=
  ⟨h.unresolved, h.pathless, h.names⟩

/-- A loop adds the names of its variables. -/
theorem KnowsOnly.openLoop (h : KnowsOnly locals ⟨schema, scopes⟩) (header : LoopHeader)
    (collection : TypeInfo) :
    KnowsOnly (header.item :: header.index.toList ++ locals)
      ⟨schema, headerScope ⟨schema, scopes⟩ header collection :: scopes⟩ := by
  have hpath (path : ReferencePath) : schemaPath? ⟨schema, scopes⟩ path = none := by
    have hu : ∀ candidate, schema.resolve? candidate = none := h.unresolved
    unfold schemaPath?
    split <;> simp [hu]
  refine ⟨h.unresolved, ?_, ?_⟩
  · intro b hb
    rcases List.mem_append.mp hb with hb | hb
    · rcases List.mem_cons.mp hb with rfl | hb
      · simp [hpath]
      · obtain ⟨_, _, rfl⟩ := List.mem_map.mp hb
        rfl
    · exact h.pathless b hb
  · have hnames : scopes.flatten.map Binding.name = locals := h.names
    simp [headerScope, hnames, Function.comp_def]

end

end Env

end Validation

end FormLetter
