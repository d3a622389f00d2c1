import FormLetter.Proofs.Expr.Calls
import FormLetter.Proofs.Template.Grammar
import FormLetter.Validation.References

namespace FormLetter

namespace Expr

mutual
/-- The paths that an expression reads in its parts. The front of a path is none of them, since it
is read as part of the whole, but the indexes along a path are. -/
def innerReads : Expr → List ReferencePath
  | literal _ | var _ => []
  | field object _ => object.innerReads
  | index object key => object.innerReads ++ (key.path?.toList ++ key.innerReads)
  | unary _ operand => operand.path?.toList ++ operand.innerReads
  | binary _ left right =>
    (left.path?.toList ++ left.innerReads) ++ (right.path?.toList ++ right.innerReads)
  | call _ args => argReads args
termination_by structural e => e

def argReads : List Expr → List ReferencePath
  | [] => []
  | arg :: args => (arg.path?.toList ++ arg.innerReads) ++ argReads args
termination_by structural es => es
end

/-- The paths that an expression reads: itself, if it is one, and those in its parts. -/
def reads (e : Expr) : List ReferencePath :=
  e.path?.toList ++ e.innerReads

theorem reads_of_path {e : Expr} (h : e.path? = some path) : e.reads = path :: e.innerReads := by
  rw [reads, h]
  rfl

theorem reads_of_no_path {e : Expr} (h : e.path? = none) : e.reads = e.innerReads := by
  rw [reads, h]
  rfl

theorem path?_field_eq_none {object : Expr} (h : (field object name).path? = none) :
    object.path? = none :=
  Option.map_eq_none_iff.mp h

theorem path?_index_eq_none {object key : Expr} (h : (index object key).path? = none) :
    object.path? = none :=
  Option.map_eq_none_iff.mp h

end Expr

namespace Validation

/-- Calls and reads, as they are mentioned. -/
def uses (calls : List String) (reads : List ReferencePath) : List Mention :=
  calls.map (.function, ·) ++ reads.map fun path => (.path, path.display)

theorem mem_uses_append : m ∈ uses (calls ++ more) (reads ++ others) ↔
    m ∈ uses calls reads ∨ m ∈ uses more others := by
  simp only [uses, List.map_append, List.mem_append]
  tauto

theorem mem_uses_call : m ∈ uses (name :: calls) reads ↔
    m = (.function, name) ∨ m ∈ uses calls reads := by
  simp [uses]

theorem mem_uses_read : m ∈ uses calls (path :: reads) ↔
    m = (.path, path.display) ∨ m ∈ uses calls reads := by
  simp only [uses, List.map_cons, List.mem_append, List.mem_cons]
  exact or_left_comm

theorem mem_mention : m ∈ mention found n ↔ m ∈ found ∨ m = n := by
  unfold mention
  split
  · rename_i h
    have hn := List.contains_iff_mem.mp h
    constructor
    · exact .inl
    · rintro (hm | rfl)
      · exact hm
      · exact hn
  · simp

theorem nodup_mention (h : found.Nodup) (n : Mention) : (mention found n).Nodup := by
  unfold mention
  split
  · exact h
  · rename_i hn
    rw [List.contains_iff_mem] at hn
    rw [← List.concat_eq_append]
    exact h.concat hn

mutual
theorem mem_mentions : (e : Expr) → (found : List Mention) →
    (m ∈ mentions e found ↔ m ∈ found ∨ m ∈ uses e.calls e.reads)
  | .literal _, found => by
    simp [mentions, uses, Expr.calls, Expr.reads, Expr.path?, Expr.innerReads]
  | .var name, found => by
    have hname : (⟨name, []⟩ : ReferencePath).display = name := by simp [ReferencePath.display]
    rw [mentions, mem_mention]
    simp [uses, Expr.calls, Expr.reads, Expr.path?, Expr.innerReads, hname]
  | .field object name, found => by
    cases hp : (Expr.field object name).path? with
    | some path =>
      obtain ⟨inner, hi, -⟩ := Option.map_eq_some_iff.mp hp
      simp only [mentions, hp]
      rw [mem_keyMentions object hi, mem_mention, or_assoc, Expr.reads_of_path hp, mem_uses_read]
      rfl
    | none =>
      have ho := Expr.path?_field_eq_none hp
      simp only [mentions, hp]
      rw [mem_mentions object, Expr.reads_of_no_path ho, Expr.reads_of_no_path hp]
      rfl
  | .index object key, found => by
    cases hp : (Expr.index object key).path? with
    | some path =>
      obtain ⟨inner, hi, -⟩ := Option.map_eq_some_iff.mp hp
      simp only [mentions, hp]
      rw [mem_mentions key, mem_keyMentions object hi, mem_mention, or_assoc, or_assoc,
        ← mem_uses_append, Expr.reads_of_path hp, mem_uses_read]
      rfl
    | none =>
      have ho := Expr.path?_index_eq_none hp
      simp only [mentions, hp]
      rw [mem_mentions key, mem_mentions object, Expr.reads_of_no_path ho, Expr.reads_of_no_path hp,
        or_assoc, ← mem_uses_append]
      rfl
  | .unary _ operand, found => mem_mentions operand found
  | .binary _ left right, found => by
    rw [mentions, mem_mentions right, mem_mentions left, or_assoc, ← mem_uses_append]
    rfl
  | .call name args, found => by
    have hpath : (Expr.call name args).path? = none := rfl
    rw [mentions, mem_mentionsAll args, mem_mention, or_assoc, ← mem_uses_call,
      Expr.reads_of_no_path hpath]
    rfl
termination_by structural e => e

theorem mem_keyMentions : (e : Expr) → ∀ {path}, e.path? = some path → (found : List Mention) →
    (m ∈ keyMentions e found ↔ m ∈ found ∨ m ∈ uses e.calls e.innerReads)
  | .var name, _, _, found => by simp [keyMentions, uses, Expr.calls, Expr.innerReads]
  | .field object _, _, hp, found => by
    obtain ⟨inner, hi, -⟩ := Option.map_eq_some_iff.mp hp
    exact mem_keyMentions object hi found
  | .index object key, _, hp, found => by
    obtain ⟨inner, hi, -⟩ := Option.map_eq_some_iff.mp hp
    rw [keyMentions, mem_mentions key, mem_keyMentions object hi, or_assoc, ← mem_uses_append]
    rfl
  | .literal _, _, hp, _ | .unary _ _, _, hp, _ | .binary _ _ _, _, hp, _
  | .call _ _, _, hp, _ => by cases hp
termination_by structural e => e

theorem mem_mentionsAll : (es : List Expr) → (found : List Mention) →
    (m ∈ mentionsAll es found ↔ m ∈ found ∨ m ∈ uses (Expr.argCalls es) (Expr.argReads es))
  | [], found => by simp [mentionsAll, uses, Expr.argCalls, Expr.argReads]
  | e :: es, found => by
    rw [mentionsAll, mem_mentionsAll es, mem_mentions e, or_assoc, ← mem_uses_append]
    rfl
termination_by structural es => es
end

mutual
theorem nodup_mentions : (e : Expr) → {found : List Mention} → found.Nodup →
    (mentions e found).Nodup
  | .literal _, _, h => h
  | .var name, _, h => nodup_mention h _
  | .field object name, found, h => by
    cases hp : (Expr.field object name).path? with
    | some path =>
      simp only [mentions, hp]
      exact nodup_keyMentions object (nodup_mention h _)
    | none =>
      simp only [mentions, hp]
      exact nodup_mentions object h
  | .index object key, found, h => by
    cases hp : (Expr.index object key).path? with
    | some path =>
      simp only [mentions, hp]
      exact nodup_mentions key (nodup_keyMentions object (nodup_mention h _))
    | none =>
      simp only [mentions, hp]
      exact nodup_mentions key (nodup_mentions object h)
  | .unary _ operand, _, h => nodup_mentions operand h
  | .binary _ left right, _, h => nodup_mentions right (nodup_mentions left h)
  | .call name args, _, h => nodup_mentionsAll args (nodup_mention h _)
termination_by structural e => e

theorem nodup_keyMentions : (e : Expr) → {found : List Mention} → found.Nodup →
    (keyMentions e found).Nodup
  | .field object _, _, h => nodup_keyMentions object h
  | .index object key, _, h => nodup_mentions key (nodup_keyMentions object h)
  | .literal _, _, h | .var _, _, h | .unary _ _, _, h | .binary _ _ _, _, h | .call _ _, _, h => h
termination_by structural e => e

theorem nodup_mentionsAll : (es : List Expr) → {found : List Mention} → found.Nodup →
    (mentionsAll es found).Nodup
  | [], _, h => h
  | e :: es, _, h => nodup_mentionsAll es (nodup_mentions e h)
termination_by structural es => es
end

end Validation

/-- Kinds of tags whose value is an expression. -/
def MarkupKind.hasExpression : MarkupKind → Bool
  | value | includeTag | ifTag | unlessTag | elsifTag => true
  | text | pageBreak | elseTag | endTag | forTag => false

/-- A tag has an expression in it that can be read: its value, or the collection of its loop. -/
inductive MarkupToken.Bears (t : MarkupToken) : Expr → Prop where
  | value {k : MarkupKind} (h : t.Holds k e) (hk : k.hasExpression = true) : t.Bears e
  | collection (h : t.Loops header) : t.Bears header.collection

theorem MarkupToken.Bears.readable {t : MarkupToken} (h : t.Bears e) : t.Readable := by
  cases h with
  | value h hk =>
    obtain ⟨rfl, he⟩ := h
    cases hkind : t.kind with
    | value | includeTag | ifTag | unlessTag | elsifTag =>
      rw [Readable, hkind]
      exact ⟨e, he⟩
    | text | pageBreak | elseTag | endTag | forTag =>
      rw [hkind] at hk
      cases hk
  | collection h =>
    rw [Readable, h.1]
    exact ⟨_, h.2⟩

namespace Validation

/-- What the text of a tag mentions is what its expression uses. -/
theorem mem_textMentions {token : MarkupToken} : m ∈ textMentions token found ↔
    m ∈ found ∨ ∃ e, token.Bears e ∧ m ∈ uses e.calls e.reads := by
  have hidle (h : ∀ e, ¬token.Bears e) :
      m ∈ found ↔ m ∈ found ∨ ∃ e, token.Bears e ∧ m ∈ uses e.calls e.reads :=
    ⟨.inl, fun hm => hm.resolve_right fun ⟨e, hb, _⟩ => h e hb⟩
  have hone {e : Expr} (h : ∀ e', token.Bears e' ↔ e' = e) :
      m ∈ mentions e found ↔ m ∈ found ∨ ∃ e, token.Bears e ∧ m ∈ uses e.calls e.reads := by
    rw [mem_mentions]
    simp [h]
  cases hk : token.kind with
  | text | pageBreak | elseTag | endTag =>
    simp only [textMentions, hk]
    apply hidle
    rintro e (⟨⟨rfl, -⟩, hx⟩ | ⟨hl, -⟩)
    · rw [hk] at hx
      cases hx
    · cases hk.symm.trans hl
  | forTag =>
    simp only [textMentions, hk]
    split
    · rename_i header hp
      apply hone
      intro e'
      constructor
      · rintro (⟨⟨rfl, -⟩, hx⟩ | ⟨-, hp'⟩)
        · rw [hk] at hx
          cases hx
        · cases hp.symm.trans hp'
          rfl
      · rintro rfl
        exact .collection ⟨hk, hp⟩
    · rename_i hp
      apply hidle
      rintro e (⟨⟨rfl, -⟩, hx⟩ | ⟨-, hp'⟩)
      · rw [hk] at hx
        cases hx
      · cases hp.symm.trans hp'
  | value | includeTag | ifTag | unlessTag | elsifTag =>
    simp only [textMentions, hk]
    split
    · rename_i e hp
      apply hone
      intro e'
      constructor
      · rintro (⟨⟨-, hp'⟩, -⟩ | ⟨hl, -⟩)
        · cases hp.symm.trans hp'
          rfl
        · cases hk.symm.trans hl
      · rintro rfl
        exact .value ⟨hk, hp⟩ rfl
    · rename_i hp
      apply hidle
      rintro e (⟨⟨-, hp'⟩, -⟩ | ⟨hl, -⟩)
      · cases hp.symm.trans hp'
      · cases hk.symm.trans hl

theorem nodup_textMentions (h : found.Nodup) (token : MarkupToken) :
    (textMentions token found).Nodup := by
  unfold textMentions
  split
  · exact h
  · exact h
  · exact h
  · exact h
  · split
    · exact nodup_mentions _ h
    · exact h
  · split
    · exact nodup_mentions _ h
    · exact h

/-- A tag refers to something of a kind: to itself, if it controls, and to what its expression calls
and reads. -/
def Refers (span : Span) : ReferenceKind → String → Prop
  | .control, text => ∃ token, span.content = .ok token ∧ token.kind.isControl = true ∧
      text = span.inner
  | .function, name => ∃ token e, span.content = .ok token ∧ token.Bears e ∧ name ∈ e.calls
  | .path, text => ∃ token e, span.content = .ok token ∧ token.Bears e ∧
      ∃ path ∈ e.reads, text = path.display

theorem mem_spanMentions {span : Span} {kind : ReferenceKind} :
    (kind, text) ∈ spanMentions span ↔ Refers span kind text := by
  unfold spanMentions
  cases hc : span.content with
  | error r => cases kind <;> simp [Refers, hc]
  | ok token =>
    simp only
    rw [mem_textMentions]
    cases kind with
    | control => cases hk : token.kind.isControl <;> simp [Refers, hc, hk, uses]
    | function => cases hk : token.kind.isControl <;> simp [Refers, hc, uses]
    | path => cases hk : token.kind.isControl <;> simp [Refers, hc, uses, eq_comm]

theorem nodup_spanMentions (span : Span) : (spanMentions span).Nodup := by
  unfold spanMentions
  split
  · exact .nil
  · apply nodup_textMentions
    split
    · exact List.nodup_singleton _
    · exact .nil

end Validation

end FormLetter
