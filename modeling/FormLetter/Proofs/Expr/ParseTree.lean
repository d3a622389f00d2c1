import FormLetter.Proofs.Expr.Written

namespace FormLetter

/-- What a token stands for that is an expression by itself. -/
def TokenKind.value? : TokenKind → Option Value
  | int n => some (.int n)
  | float x => some (.float x)
  | string s => some (.string s)
  | name word => Value.ofName? word
  | symbol _ => none

/-- The tokens of an expression as they hang together. -/
inductive ParseTree where
  | literal (k : TokenKind) (value : Value) (h : k.value? = some value)
  | var (name : String) (h : Value.ofName? name = none)
  | call (name : String) (args : List ParseTree) (h : Value.ofName? name = none)
  | group (inner : ParseTree)
  | field (object : ParseTree) (name : String)
  /-- A dot and a whole number. -/
  | item (object : ParseTree) (n : Int64)
  | index (object key : ParseTree)
  | unary (s : Symbol) (op : UnaryOp) (operand : ParseTree) (h : UnaryOp.ofSymbol? s = some op)
  | binary (l : Level) (s : Symbol) (op : BinaryOp) (left right : ParseTree)
      (h : l.operator? s = some op)

namespace ParseTree

mutual
def tokens : ParseTree → List TokenKind
  | literal k _ _ => [k]
  | var name _ => [.name name]
  | call name args _ =>
    .name name :: .symbol .openParen :: commaSeparated (allTokens args) ++ [.symbol .closeParen]
  | group inner => .symbol .openParen :: inner.tokens ++ [.symbol .closeParen]
  | field object name => object.tokens ++ [.symbol .dot, .name name]
  | item object n => object.tokens ++ [.symbol .dot, .int n]
  | index object key =>
    object.tokens ++ .symbol .openBracket :: key.tokens ++ [.symbol .closeBracket]
  | unary s _ operand _ => .symbol s :: operand.tokens
  | binary _ s _ left right _ => left.tokens ++ .symbol s :: right.tokens
termination_by structural g => g

def allTokens : List ParseTree → List (List TokenKind)
  | [] => []
  | g :: gs => g.tokens :: allTokens gs
termination_by structural gs => gs
end

mutual
/-- The expression that is left when the grouping is taken for granted. -/
def expr : ParseTree → Expr
  | literal _ value _ => .literal value
  | var name _ => .var name
  | call name args _ => .call name (allExprs args)
  | group inner => inner.expr
  | field object name => .field object.expr name
  | item object n => .index object.expr (.literal (.int n))
  | index object key => .index object.expr key.expr
  | unary _ op operand _ => .unary op operand.expr
  | binary _ _ op left right _ => .binary op left.expr right.expr
termination_by structural g => g

def allExprs : List ParseTree → List Expr
  | [] => []
  | g :: gs => g.expr :: allExprs gs
termination_by structural gs => gs
end

/-- What a parse tree is as a whole. -/
def category : ParseTree → Category
  | literal .. | var .. | call .. | group .. => .primary
  | field .. | item .. | index .. => .accessed
  | unary .. => .unary
  | binary l .. => .level l

def looseness (g : ParseTree) : Nat :=
  g.category.looseness

mutual
/-- Nothing looser than an operator is its operand unless it is in parentheses, and of operators
that are equally loose the later one is on top. -/
def Grouped : ParseTree → Prop
  | literal .. | var .. => True
  | call _ args _ => AllGrouped args
  | group inner => inner.Grouped
  | field object _ | item object _ =>
    object.looseness ≤ Category.accessed.looseness ∧ object.Grouped
  | index object key =>
    object.looseness ≤ Category.accessed.looseness ∧ object.Grouped ∧ key.Grouped
  | unary _ _ operand _ => operand.looseness ≤ Category.unary.looseness ∧ operand.Grouped
  | binary l _ _ left right _ =>
    left.looseness ≤ (Category.level l).looseness ∧
      right.looseness < (Category.level l).looseness ∧ left.Grouped ∧ right.Grouped
termination_by structural g => g

def AllGrouped : List ParseTree → Prop
  | [] => True
  | g :: gs => g.Grouped ∧ AllGrouped gs
termination_by structural gs => gs
end

theorem allTokens_eq (gs : List ParseTree) : allTokens gs = gs.map tokens := by
  induction gs with
  | nil => rfl
  | cons g gs ih => simp [allTokens, ih]

theorem allExprs_eq (gs : List ParseTree) : allExprs gs = gs.map expr := by
  induction gs with
  | nil => rfl
  | cons g gs ih => simp [allExprs, ih]

theorem derives_literal (h : k.value? = some value) : Derives .primary [k] (.literal value) := by
  cases k with
  | name name => exact .word h
  | symbol s => cases h
  | _ =>
    cases h
    constructor

mutual
theorem derives : (g : ParseTree) → g.Grouped → Derives g.category g.tokens g.expr
  | .literal _ _ h, _ => derives_literal h
  | .var _ h, _ => .var h
  | .call name args h, hg => by
    have hargs := derives_all args hg
    have hc := Derives.call (args.map fun g => (g.tokens, g.expr)) h (by simpa using hargs)
    rw [List.map_map, List.map_map] at hc
    change Derives .primary _ _
    rw [tokens, expr, allTokens_eq, allExprs_eq]
    exact hc
  | .group inner, hg => (derives inner hg).loosest.paren
  | .field object _, ⟨hl, hg⟩ => ((derives object hg).loosen _ hl).field
  | .item object _, ⟨hl, hg⟩ => ((derives object hg).loosen _ hl).number
  | .index object key, ⟨hl, ho, hk⟩ =>
    ((derives object ho).loosen _ hl).index (derives key hk).loosest
  | .unary _ _ operand h, ⟨hl, hg⟩ => .unary h ((derives operand hg).loosen _ hl)
  | .binary l _ _ left right h, ⟨hl, hr, hgl, hgr⟩ => by
    have hright : right.looseness ≤ l.operands.looseness := by
      have := l.looseness_operands
      omega
    exact .binary ((derives left hgl).loosen _ hl) h ((derives right hgr).loosen _ hright)
termination_by structural g => g

theorem derives_all : (gs : List ParseTree) → AllGrouped gs →
    ∀ g ∈ gs, Derives (.level .or) g.tokens g.expr
  | [], _ => by simp
  | g :: gs, ⟨hg, hgs⟩ => List.forall_mem_cons.mpr ⟨(derives g hg).loosest, derives_all gs hgs⟩
termination_by structural gs => gs
end

/-- Arguments that have parse trees each have a list of them. -/
theorem exists_args {args : List (List TokenKind × Expr)}
    (h : ∀ arg ∈ args, ∃ g : ParseTree, g.Grouped ∧ g.tokens = arg.1 ∧ g.expr = arg.2) :
    ∃ gs, AllGrouped gs ∧ allTokens gs = args.map Prod.fst ∧ allExprs gs = args.map Prod.snd := by
  induction args with
  | nil => exact ⟨[], trivial, rfl, rfl⟩
  | cons arg args ih =>
    obtain ⟨harg, hargs⟩ := List.forall_mem_cons.mp h
    obtain ⟨g, hg, ht, he⟩ := harg
    obtain ⟨gs, hgs, hts, hes⟩ := ih hargs
    exact ⟨g :: gs, ⟨hg, hgs⟩, by simp [allTokens, ht, hts], by simp [allExprs, he, hes]⟩

end ParseTree

/-- Every derivation is one of a parse tree. -/
theorem Derives.exists_parseTree (h : Derives c ks e) :
    ∃ g : ParseTree, g.Grouped ∧ g.looseness ≤ c.looseness ∧ g.tokens = ks ∧ g.expr = e := by
  induction h with
  | @operand _ _ l _ ih =>
    obtain ⟨g, hg, hl, ht⟩ := ih
    have := l.looseness_operands
    exact ⟨g, hg, by omega, ht⟩
  | @binary l _ _ _ _ _ _ _ hop _ ihl ihr =>
    obtain ⟨left, hgl, hl, rfl, rfl⟩ := ihl
    obtain ⟨right, hgr, hr, rfl, rfl⟩ := ihr
    have := l.looseness_operands
    exact ⟨.binary l _ _ left right hop, ⟨hl, by omega, hgl, hgr⟩, Nat.le_refl _, rfl, rfl⟩
  | unary hop _ ih =>
    obtain ⟨g, hg, hl, rfl, rfl⟩ := ih
    exact ⟨.unary _ _ g hop, ⟨hl, hg⟩, Nat.le_refl _, rfl, rfl⟩
  | accessed _ ih | primary _ ih =>
    obtain ⟨g, hg, hl, ht⟩ := ih
    exact ⟨g, hg, Nat.le_succ_of_le hl, ht⟩
  | @field _ _ name _ ih =>
    obtain ⟨g, hg, hl, rfl, rfl⟩ := ih
    exact ⟨.field g name, ⟨hl, hg⟩, Nat.le_refl _, rfl, rfl⟩
  | @number _ _ n _ ih =>
    obtain ⟨g, hg, hl, rfl, rfl⟩ := ih
    exact ⟨.item g n, ⟨hl, hg⟩, Nat.le_refl _, rfl, rfl⟩
  | index _ _ iho ihk =>
    obtain ⟨object, ho, hl, rfl, rfl⟩ := iho
    obtain ⟨key, hk, _, rfl, rfl⟩ := ihk
    exact ⟨.index object key, ⟨hl, ho, hk⟩, Nat.le_refl _, rfl, rfl⟩
  | int | float | string => exact ⟨.literal _ _ rfl, trivial, Nat.le_refl _, rfl, rfl⟩
  | word hv => exact ⟨.literal (.name _) _ hv, trivial, Nat.le_refl _, rfl, rfl⟩
  | var hv => exact ⟨.var _ hv, trivial, Nat.le_refl _, rfl, rfl⟩
  | call args hv _ ih =>
    have hargs : ∀ arg ∈ args, ∃ g : ParseTree, g.Grouped ∧ g.tokens = arg.1 ∧ g.expr = arg.2 := by
      intro arg harg
      obtain ⟨g, hg, _, ht⟩ := ih arg harg
      exact ⟨g, hg, ht⟩
    obtain ⟨gs, hgs, hts, hes⟩ := ParseTree.exists_args hargs
    refine ⟨.call _ gs hv, hgs, Nat.le_refl _, ?_, ?_⟩
    · rw [ParseTree.tokens, hts]
    · rw [ParseTree.expr, hes]
  | paren _ ih =>
    obtain ⟨g, hg, _, rfl, rfl⟩ := ih
    exact ⟨.group g, hg, Nat.zero_le _, rfl, rfl⟩

namespace ParseTree

/-- The grammar derives an expression from tokens if and only if they group to it. -/
theorem derives_iff : Derives (.level .or) ks e ↔
    ∃ g : ParseTree, g.Grouped ∧ g.tokens = ks ∧ g.expr = e := by
  constructor
  · intro h
    obtain ⟨g, hg, _, ht⟩ := h.exists_parseTree
    exact ⟨g, hg, ht⟩
  · intro h
    obtain ⟨g, hg, rfl, rfl⟩ := h
    exact (g.derives hg).loosest

end ParseTree

end FormLetter
