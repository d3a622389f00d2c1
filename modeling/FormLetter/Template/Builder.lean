import FormLetter.Expr.Parser
import FormLetter.Markup.Lexer
import FormLetter.Template.Node

namespace FormLetter.Body

/-- The expression of a tag, with errors placed in the whole source. -/
def expression (t : MarkupToken) : Except ParseError Expr :=
  (Expr.parse t.value).mapError (·.shift t.offset)

def loopHeader (t : MarkupToken) : Except ParseError LoopHeader :=
  (LoopHeader.parse t.value).mapError (·.shift t.offset)

def unbalanced (t : MarkupToken) (fault : BlockFault) : ParseError :=
  ⟨t.offset, .unbalanced fault⟩

/-- The error that the tokens end in a block. -/
def missingEnd (stop : Nat) (opener : MarkupToken) : ParseError :=
  ⟨stop, .unexpectedEnd (.endTag opener.kind.keyword opener.offset)⟩

/-- The tags that end a body of an `if` block. -/
def ifClosers : List MarkupKind := [.elsifTag, .elseTag, .endTag]

def unlessClosers : List MarkupKind := [.elseTag, .endTag]

def forClosers : List MarkupKind := [.endTag]

/-- The tag that ends a body, and the tokens after it. -/
structure Closing (ts : List MarkupToken) where
  tag : MarkupToken
  rest : List MarkupToken
  shorter : rest.length < ts.length

def Closing.widen {ts us : List MarkupToken} (h : ts.length ≤ us.length) (c : Closing ts) :
    Closing us :=
  ⟨c.tag, c.rest, Nat.lt_of_lt_of_le c.shorter h⟩

/-- A result with the tokens after it, of which there are no more than before. That is why nested
blocks come to an end. -/
abbrev Read (α : Type) (ts : List MarkupToken) :=
  Except ParseError (α × { rest : List MarkupToken // rest.length ≤ ts.length })

mutual
/-- The nodes up to a tag that ends the body. Without one they take all the tokens. -/
def nodes (stop : Nat) (closers : List MarkupKind) (ts : List MarkupToken) :
    Except ParseError (Body × Option (Closing ts)) :=
  match ts with
  | [] => return ([], none)
  | t :: ts =>
    if closers.contains t.kind then return ([], some ⟨t, ts, Nat.lt_succ_self _⟩)
    else do
      let (first, rest) ← node stop t ts
      let (body, closing) ← nodes stop closers rest.1
      return (first :: body, closing.map (.widen (Nat.le_succ_of_le rest.2)))
termination_by (ts.length, 0)
decreasing_by
  · exact Prod.Lex.left _ _ (Nat.lt_succ_self _)
  · exact Prod.Lex.left _ _ (Nat.lt_succ_of_le rest.2)

/-- The node that a token starts, given the tokens after it. -/
def node (stop : Nat) (t : MarkupToken) (ts : List MarkupToken) : Read Node ts :=
  match t.kind with
  | .text => return (.text t.value, ⟨ts, Nat.le_refl _⟩)
  | .value => return (.value (← expression t), ⟨ts, Nat.le_refl _⟩)
  | .pageBreak => return (.pageBreak, ⟨ts, Nat.le_refl _⟩)
  | .includeTag => return (.includeTag (← expression t), ⟨ts, Nat.le_refl _⟩)
  | .ifTag => do
    let condition ← expression t
    let ((branches, otherwise), rest) ← branches stop t condition ts
    return (.ifBlock branches otherwise, rest)
  | .unlessTag => do
    let condition ← expression t
    match ← nodes stop unlessClosers ts with
    | (_, none) => throw (missingEnd stop t)
    | (body, some closing) =>
      if closing.tag.kind = .elseTag then
        let (otherwise, rest) ← otherwise stop t unlessClosers closing.rest
        return (.unlessBlock condition body (some otherwise),
          ⟨rest.1, Nat.le_trans rest.2 (Nat.le_of_lt closing.shorter)⟩)
      else return (.unlessBlock condition body none, ⟨closing.rest, Nat.le_of_lt closing.shorter⟩)
  | .forTag => do
    let header ← loopHeader t
    match ← nodes stop forClosers ts with
    | (_, none) => throw (missingEnd stop t)
    | (body, some closing) =>
      return (.forBlock header body, ⟨closing.rest, Nat.le_of_lt closing.shorter⟩)
  | .elsifTag => throw (unbalanced t .elsifOutside)
  | .elseTag => throw (unbalanced t .elseOutside)
  | .endTag => throw (unbalanced t .endOutside)
termination_by (ts.length, 2)
decreasing_by
  · exact Prod.Lex.right _ (by omega)
  · exact Prod.Lex.right _ (by omega)
  · exact Prod.Lex.left _ _ closing.shorter
  · exact Prod.Lex.right _ (by omega)

/-- The branches of an `if` block from the one with a given condition on, and the body after its
`else`. -/
def branches (stop : Nat) (opener : MarkupToken) (condition : Expr) (ts : List MarkupToken) :
    Read (List (Expr × Body) × Option Body) ts := do
  match ← nodes stop ifClosers ts with
  | (_, none) => throw (missingEnd stop opener)
  | (body, some closing) =>
    match closing.tag.kind with
    | .elsifTag =>
      let next ← expression closing.tag
      let ((others, last), rest) ← branches stop opener next closing.rest
      return (((condition, body) :: others, last),
        ⟨rest.1, Nat.le_trans rest.2 (Nat.le_of_lt closing.shorter)⟩)
    | .elseTag =>
      let (last, rest) ← otherwise stop opener ifClosers closing.rest
      return (([(condition, body)], some last),
        ⟨rest.1, Nat.le_trans rest.2 (Nat.le_of_lt closing.shorter)⟩)
    | _ => return (([(condition, body)], none), ⟨closing.rest, Nat.le_of_lt closing.shorter⟩)
termination_by (ts.length, 1)
decreasing_by
  · exact Prod.Lex.right _ (by omega)
  · exact Prod.Lex.left _ _ closing.shorter
  · exact Prod.Lex.left _ _ closing.shorter

/-- The body after the `else` of a block, which only an `end` may follow. -/
def otherwise (stop : Nat) (opener : MarkupToken) (closers : List MarkupKind)
    (ts : List MarkupToken) : Read Body ts := do
  match ← nodes stop closers ts with
  | (_, none) => throw (missingEnd stop opener)
  | (body, some closing) =>
    match closing.tag.kind with
    | .elsifTag => throw (unbalanced closing.tag .elsifAfterElse)
    | .elseTag => throw (unbalanced closing.tag .secondElse)
    | _ => return (body, ⟨closing.rest, Nat.le_of_lt closing.shorter⟩)
termination_by (ts.length, 1)
decreasing_by exact Prod.Lex.right _ (by omega)
end

/-- The body that the tokens of a source of a given size make up. -/
def ofTokens (stop : Nat) (ts : List MarkupToken) : Except ParseError Body :=
  return (← nodes stop [] ts).1

end FormLetter.Body

namespace FormLetter

structure Template where
  source : String
  body : Body

def Template.parse (source : String) : Except ParseError Template := do
  let tokens ← Markup.tokens source
  let body ← Body.ofTokens source.utf8ByteSize tokens
  return { source, body }

end FormLetter
