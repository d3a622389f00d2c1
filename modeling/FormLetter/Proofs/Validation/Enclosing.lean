import FormLetter.Proofs.Validation.Paths

namespace FormLetter

open Phrase (Yields)

/-- A loop has a variable of this name. -/
def LoopHeader.Binds (header : LoopHeader) (name : String) : Prop :=
  header.item = name ∨ header.index = some name

/-- The open blocks, the innermost first. Only a loop that can be read has a header. -/
abbrev Blocks := List (Option LoopHeader)

namespace Blocks

/-- The open blocks after a tag. -/
def visit (blocks : Blocks) (t : MarkupToken) : Blocks :=
  match t.kind with
  | .ifTag | .unlessTag => none :: blocks
  | .forTag => (LoopHeader.parse t.value).toOption :: blocks
  | .endTag => blocks.tail
  | .text | .value | .elsifTag | .elseTag | .includeTag | .pageBreak => blocks

def after (blocks : Blocks) (ts : List MarkupToken) : Blocks :=
  ts.foldl visit blocks

@[simp] theorem after_nil (blocks : Blocks) : blocks.after [] = blocks := rfl

@[simp] theorem after_cons (blocks : Blocks) (t : MarkupToken) (ts : List MarkupToken) :
    blocks.after (t :: ts) = (blocks.visit t).after ts := rfl

@[simp] theorem after_append (blocks : Blocks) (ts us : List MarkupToken) :
    blocks.after (ts ++ us) = (blocks.after ts).after us :=
  List.foldl_append

variable {t : MarkupToken}

theorem visit_loop (h : t.Loops header) (blocks : Blocks) :
    blocks.visit t = some header :: blocks := by
  simp [visit, h.1, h.2, Except.toOption]

theorem visit_end (h : t.kind = .endTag) (block : Option LoopHeader) (blocks : Blocks) :
    visit (block :: blocks) t = blocks := by
  simp [visit, h]

end Blocks

/-- The open blocks after a phrase. A block is open till the tag that ends it. -/
def Phrase.blocks (outer : Blocks) : Phrase → Blocks
  | branches _ => none :: outer
  | node _ | body _ | orElse _ => outer

theorem Phrase.Yields.blocks_after (h : Yields phrase ts) (blocks : Blocks) :
    blocks.after ts = phrase.blocks blocks := by
  induction h generalizing blocks with
  | text ht | pageBreak ht => simp [Blocks.visit, ht, Phrase.blocks]
  | value ht | fragment ht => simp [Blocks.visit, ht.1, Phrase.blocks]
  | ifBlock _ _ hstop ihbranches ihelse =>
    simp [ihbranches, ihelse, Phrase.blocks, Blocks.visit_end hstop]
  | @unlessBlock _ _ _ _ _ t _ ht _ _ hstop ihbody ihelse =>
    have hopen : blocks.visit t = none :: blocks := by simp [Blocks.visit, ht.1]
    simp [hopen, ihbody, ihelse, Phrase.blocks, Blocks.visit_end hstop]
  | forBlock ht _ hstop ihbody =>
    simp [Blocks.visit_loop ht, ihbody, Phrase.blocks, Blocks.visit_end hstop]
  | nil | noElse => rfl
  | cons _ _ ihnode ihbody => simp [ihnode, ihbody, Phrase.blocks]
  | @ifTag _ _ _ t ht _ ihbody =>
    have hopen : blocks.visit t = none :: blocks := by simp [Blocks.visit, ht.1]
    simp [hopen, ihbody, Phrase.blocks]
  | elsifTag _ ht _ ihbranches ihbody =>
    simp [ihbranches, ihbody, Blocks.visit, ht.1, Phrase.blocks]
  | elseTag ht _ ihbody => simp [Blocks.visit, ht, ihbody, Phrase.blocks]

namespace Validation

/-- The variables in scope in some open blocks. -/
def scopesIn (schema : Schema.Index) : Blocks → List Scope
  | [] => []
  | none :: outer => [] :: scopesIn schema outer
  | some header :: outer =>
    let env : Env := ⟨schema, scopesIn schema outer⟩
    headerScope env header (env.infer header.collection).1 :: env.scopes

/-- What a schema knows in some open blocks. -/
def envIn (schema : Schema.Index) (blocks : Blocks) : Env :=
  ⟨schema, scopesIn schema blocks⟩

/-- What is known of the item of a loop. -/
def itemBinding (env : Env) (header : LoopHeader) : Binding :=
  ⟨header.item, ((env.infer header.collection).1.element.map TypeInfo.ofKind).getD .unknown,
    header.collection.path?.bind env.schemaPath?⟩

def indexBinding (name : String) : Binding :=
  ⟨name, .ofKind .number, none⟩

/-- The item of a loop hides an index of the same name. -/
theorem binding?_loop (schema : Schema.Index) (header : LoopHeader) (outer : Blocks)
    (name : String) : (envIn schema (some header :: outer)).binding? name =
      if header.item = name then some (itemBinding (envIn schema outer) header)
      else if header.index = some name then some (indexBinding name)
      else (envIn schema outer).binding? name := by
  have hscope : (envIn schema (some header :: outer)).scopes.flatten =
      itemBinding (envIn schema outer) header :: header.index.toList.map indexBinding ++
        (envIn schema outer).scopes.flatten := rfl
  unfold Env.binding?
  rw [hscope, List.cons_append, List.find?_cons]
  by_cases hitem : header.item = name
  · simp [hitem, itemBinding]
  · cases hindex : header.index with
    | none => simp [hitem, itemBinding]
    | some index =>
      by_cases hname : index = name
      · simp [hitem, itemBinding, indexBinding, hname]
      · simp [hitem, itemBinding, indexBinding, hname]

theorem binding?_loop_of_not_binds {header : LoopHeader} (h : ¬header.Binds name)
    (schema : Schema.Index) (outer : Blocks) :
    (envIn schema (some header :: outer)).binding? name = (envIn schema outer).binding? name := by
  simp only [LoopHeader.Binds, not_or] at h
  rw [binding?_loop, if_neg h.1, if_neg h.2]

theorem scopesIn_tail (schema : Schema.Index) (blocks : Blocks) :
    scopesIn schema blocks.tail = (scopesIn schema blocks).tail := by
  cases blocks with
  | nil => rfl
  | cons block outer => cases block <;> rfl

theorem scopesIn_visit (schema : Schema.Index) (blocks : Blocks) (t : MarkupToken) :
    (visitToken schema (scopesIn schema blocks) t).2 = scopesIn schema (blocks.visit t) := by
  unfold visitToken Blocks.visit
  cases t.kind with
  | forTag =>
    dsimp only
    cases LoopHeader.parse t.value <;> rfl
  | endTag => exact (scopesIn_tail schema blocks).symm
  | _ => rfl

/-- The variables in scope after tags are those of the blocks that they leave open. -/
theorem scopesIn_after (schema : Schema.Index) (blocks : Blocks) (ts : List MarkupToken) :
    (visitTokens schema (scopesIn schema blocks) ts).2 = scopesIn schema (blocks.after ts) := by
  induction ts generalizing blocks with
  | nil => rfl
  | cons t ts ih =>
    rw [visitTokens, Blocks.after_cons, ← ih, ← scopesIn_visit]

theorem visitTokens_scopes (schema : Schema.Index) (ts : List MarkupToken) :
    (visitTokens schema [] ts).2 = scopesIn schema (Blocks.after [] ts) :=
  scopesIn_after schema [] ts

end Validation

end FormLetter
