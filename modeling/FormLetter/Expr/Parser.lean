import FormLetter.Expr
import FormLetter.Expr.Lexer

namespace FormLetter

/-- The levels of binary operators, the loosest first. -/
inductive Level where
  | or
  | and
  | equality
  | comparison
  | sum
  | product
  deriving DecidableEq

namespace Level

/-- The operands of a level are chains of the next tighter one; those of products are unary. -/
def tighter? : Level → Option Level
  | or => some and
  | and => some equality
  | equality => some comparison
  | comparison => some sum
  | sum => some product
  | product => none

def height : Level → Nat
  | or => 5
  | and => 4
  | equality => 3
  | comparison => 2
  | sum => 1
  | product => 0

def operator? : Level → Symbol → Option BinaryOp
  | or, .or => some .or
  | and, .and => some .and
  | equality, .eq => some .eq
  | equality, .assign => some .eq
  | equality, .ne => some .ne
  | comparison, .le => some .le
  | comparison, .ge => some .ge
  | comparison, .lt => some .lt
  | comparison, .gt => some .gt
  | sum, .plus => some .add
  | sum, .minus => some .sub
  | product, .star => some .mul
  | product, .slash => some .div
  | product, .percent => some .mod
  | _, _ => none

theorem height_tighter {l m : Level} (h : l.tighter? = some m) : m.height < l.height := by
  cases l <;> cases m <;> simp_all [tighter?, height]

end Level

def UnaryOp.ofSymbol? : Symbol → Option UnaryOp
  | .bang => some .not
  | .minus => some .neg
  | .plus => some .plus
  | _ => none

/-- Names that stand for a value and not for a variable. -/
def Value.ofName? : String → Option Value
  | "true" => some (.bool true)
  | "false" => some (.bool false)
  | "null" => some .null
  | "nil" => some .null
  | _ => none

namespace Parser

/-- The error that something else was expected where the tokens go on. -/
def unexpected (stop : Nat) (expected : Expected) : List Token → ParseError
  | [] => ⟨stop, .unexpectedEnd expected⟩
  | t :: _ => ⟨t.position, .unexpectedToken expected t.kind.text⟩

/-- A result with the tokens after it, of which there are fewer than before. That is why nested
expressions come to an end. -/
abbrev Parsed (α : Type) (ts : List Token) :=
  Except ParseError (α × { rest : List Token // rest.length < ts.length })

/-- A result with the tokens after it, where none need have been taken. -/
abbrev Continued (α : Type) (ts : List Token) :=
  Except ParseError (α × { rest : List Token // rest.length ≤ ts.length })

/-- Moves the tokens left after a part to the whole. -/
def shorten {after ts : List Token} (rest : { rest : List Token // rest.length ≤ after.length })
    (h : after.length < ts.length) : { rest : List Token // rest.length < ts.length } :=
  ⟨rest.1, Nat.lt_of_le_of_lt rest.2 h⟩

mutual
/-- A chain of operands at one level. -/
def level (stop : Nat) (l : Level) (ts : List Token) : Parsed Expr ts := do
  let (left, rest) ← operand stop l ts
  let (e, rest') ← chain stop l left rest.1
  return (e, shorten rest' rest.2)
termination_by (ts.length, 2 * l.height + 5)
decreasing_by
  · exact Prod.Lex.right _ (by omega)
  · exact Prod.Lex.left _ _ rest.2

def operand (stop : Nat) (l : Level) (ts : List Token) : Parsed Expr ts :=
  match _ : l.tighter? with
  | some tighter => level stop tighter ts
  | none => unary stop ts
termination_by (ts.length, 2 * l.height + 4)
decreasing_by
  · exact Prod.Lex.right _ (by have := Level.height_tighter ‹_›; omega)
  · exact Prod.Lex.right _ (by omega)

/-- The operators and operands after the first operand of a chain. -/
def chain (stop : Nat) (l : Level) (left : Expr) (ts : List Token) : Continued Expr ts :=
  match ts with
  | ⟨.symbol s, p⟩ :: rest =>
    match l.operator? s with
    | none => return (left, ⟨⟨.symbol s, p⟩ :: rest, Nat.le_refl _⟩)
    | some op => do
      let (right, rest') ← operand stop l rest
      let (e, rest'') ← chain stop l (.binary op left right) rest'.1
      return (e, ⟨rest''.1, by
        have := rest'.2; have := rest''.2; simp only [List.length_cons]; omega⟩)
  | ts => return (left, ⟨ts, Nat.le_refl _⟩)
termination_by (ts.length, 0)
decreasing_by
  · exact Prod.Lex.left _ _ (by simp)
  · exact Prod.Lex.left _ _ (by have := rest'.2; simp only [List.length_cons]; omega)

def unary (stop : Nat) (ts : List Token) : Parsed Expr ts :=
  match ts with
  | ⟨.symbol s, p⟩ :: rest =>
    match UnaryOp.ofSymbol? s with
    | none => accessed stop (⟨.symbol s, p⟩ :: rest)
    | some op => do
      let (e, rest') ← unary stop rest
      return (.unary op e, ⟨rest'.1, Nat.lt_succ_of_lt rest'.2⟩)
  | ts => accessed stop ts
termination_by (ts.length, 3)
decreasing_by
  · exact Prod.Lex.right _ (by omega)
  · exact Prod.Lex.left _ _ (by simp)
  · exact Prod.Lex.right _ (by omega)

/-- A primary expression with its accesses. -/
def accessed (stop : Nat) (ts : List Token) : Parsed Expr ts := do
  let (e, rest) ← primary stop ts
  let (e, rest') ← accesses stop e rest.1
  return (e, shorten rest' rest.2)
termination_by (ts.length, 2)
decreasing_by
  · exact Prod.Lex.right _ (by omega)
  · exact Prod.Lex.left _ _ rest.2

/-- Fields and indexes after an object. A dot before a whole number is an index. -/
def accesses (stop : Nat) (object : Expr) (ts : List Token) : Continued Expr ts :=
  match ts with
  | ⟨.symbol .dot, _⟩ :: ⟨.name field, _⟩ :: rest => do
    let (e, rest') ← accesses stop (.field object field) rest
    return (e, ⟨rest'.1, Nat.le_add_right_of_le (Nat.le_add_right_of_le rest'.2)⟩)
  | ⟨.symbol .dot, _⟩ :: ⟨.int n, _⟩ :: rest => do
    let (e, rest') ← accesses stop (.index object (.literal (.int n))) rest
    return (e, ⟨rest'.1, Nat.le_add_right_of_le (Nat.le_add_right_of_le rest'.2)⟩)
  | ⟨.symbol .dot, _⟩ :: rest => throw (unexpected stop .fieldName rest)
  | ⟨.symbol .openBracket, _⟩ :: rest => do
    let (key, ⟨rest', h⟩) ← level stop .or rest
    match rest', h with
    | ⟨.symbol .closeBracket, _⟩ :: rest'', h =>
      let (e, rest) ← accesses stop (.index object key) rest''
      return (e, ⟨rest.1, by have := rest.2; simp only [List.length_cons] at h ⊢; omega⟩)
    | rest', _ => throw (unexpected stop .closeBracket rest')
  | ts => return (object, ⟨ts, Nat.le_refl _⟩)
termination_by (ts.length, 0)
decreasing_by
  · exact Prod.Lex.left _ _ (by simp only [List.length_cons]; omega)
  · exact Prod.Lex.left _ _ (by simp only [List.length_cons]; omega)
  · exact Prod.Lex.left _ _ (by simp only [List.length_cons]; omega)
  · exact Prod.Lex.left _ _ (by simp only [List.length_cons] at h ⊢; omega)

def primary (stop : Nat) (ts : List Token) : Parsed Expr ts :=
  match ts with
  | ⟨.int n, _⟩ :: rest => return (.literal (.int n), ⟨rest, Nat.lt_succ_self _⟩)
  | ⟨.float x, _⟩ :: rest => return (.literal (.float x), ⟨rest, Nat.lt_succ_self _⟩)
  | ⟨.string s, _⟩ :: rest => return (.literal (.string s), ⟨rest, Nat.lt_succ_self _⟩)
  | ⟨.name name, _⟩ :: rest =>
    match Value.ofName? name with
    | some value => return (.literal value, ⟨rest, Nat.lt_succ_self _⟩)
    | none =>
      match rest with
      | ⟨.symbol .openParen, _⟩ :: ⟨.symbol .closeParen, _⟩ :: rest =>
        return (.call name [], ⟨rest, by simp only [List.length_cons]; omega⟩)
      | ⟨.symbol .openParen, _⟩ :: rest => do
        let (args, rest') ← arguments stop rest
        return (.call name args, ⟨rest'.1, by have := rest'.2; simp only [List.length_cons]; omega⟩)
      | rest => return (.var name, ⟨rest, Nat.lt_succ_self _⟩)
  | ⟨.symbol .openParen, _⟩ :: rest => do
    let (e, ⟨rest', h⟩) ← level stop .or rest
    match rest', h with
    | ⟨.symbol .closeParen, _⟩ :: rest'', h =>
      return (e, ⟨rest'', by simp only [List.length_cons] at h ⊢; omega⟩)
    | rest', _ => throw (unexpected stop .closeParen rest')
  | ts => throw (unexpected stop .expression ts)
termination_by (ts.length, 1)
decreasing_by
  · exact Prod.Lex.left _ _ (by simp only [List.length_cons]; omega)
  · exact Prod.Lex.left _ _ (by simp)

/-- One argument or more, and the closing parenthesis. -/
def arguments (stop : Nat) (ts : List Token) : Parsed (List Expr) ts := do
  let (arg, ⟨rest, h⟩) ← level stop .or ts
  match rest, h with
  | ⟨.symbol .comma, _⟩ :: rest', h =>
    let (args, rest'') ← arguments stop rest'
    return (arg :: args,
      ⟨rest''.1, by have := rest''.2; simp only [List.length_cons] at h ⊢; omega⟩)
  | ⟨.symbol .closeParen, _⟩ :: rest', h =>
    return ([arg], ⟨rest', by simp only [List.length_cons] at h ⊢; omega⟩)
  | rest, _ => throw (unexpected stop .commaOrCloseParen rest)
termination_by (ts.length, 20)
decreasing_by
  · exact Prod.Lex.right _ (by simp [Level.height])
  · exact Prod.Lex.left _ _ (by simp only [List.length_cons] at h ⊢; omega)
end

/-- The longest expression that the tokens start with, and the tokens after it. -/
def expression (tokens : Tokens) : Except ParseError (Expr × List Token) := do
  let (e, rest) ← level tokens.stop .or tokens.items
  return (e, rest.1)

/-- An expression that takes all the tokens. -/
def whole (tokens : Tokens) : Except ParseError Expr := do
  match ← expression tokens with
  | (e, []) => return e
  | (_, t :: _) => throw ⟨t.position, .trailingToken t.kind.text⟩

/-- Names that cannot be loop variables. -/
def isReserved (name : String) : Bool :=
  (Value.ofName? name).isSome || name == "in"

/-- The error that a loop header goes wrong where the tokens go on. -/
def invalidLoop (stop : Nat) (fault : LoopFault) (ts : List Token) : ParseError :=
  ⟨(ts.head?.map Token.position).getD stop, .invalidLoop fault⟩

/-- A loop variable. -/
def loopVariable (stop : Nat) (fault : LoopFault) (ts : List Token) :
    Except ParseError (String × List Token) :=
  match ts with
  | ⟨.name name, p⟩ :: rest =>
    if isReserved name then throw (invalidLoop stop fault (⟨.name name, p⟩ :: rest))
    else return (name, rest)
  | ts => throw (invalidLoop stop fault ts)

/-- One loop variable, or an index and a variable with a comma between them. -/
def loopVariables (stop : Nat) (ts : List Token) :
    Except ParseError (Option String × String × List Token) := do
  let (first, rest) ← loopVariable stop .noVariable ts
  match rest with
  | ⟨.symbol .comma, _⟩ :: rest =>
    let (second, rest) ← loopVariable stop .noVariableAfterComma rest
    return (some first, second, rest)
  | rest => return (none, first, rest)

def header (tokens : Tokens) : Except ParseError LoopHeader := do
  if let ⟨.symbol .comma, _⟩ :: _ := tokens.items then
    throw (invalidLoop tokens.stop .emptyIndex tokens.items)
  let (index, item, rest) ← loopVariables tokens.stop tokens.items
  match rest with
  | ⟨.name "in", _⟩ :: [] => throw (invalidLoop tokens.stop .noCollection [])
  | ⟨.name "in", _⟩ :: rest =>
    let collection ← whole { tokens with items := rest }
    return { index, item, collection }
  | rest => throw (invalidLoop tokens.stop .noIn rest)

end Parser

/-- Reads tokens off a text and parses them. -/
def Tokens.parse (parse : Tokens → Except ParseError α) (s : String) : Except ParseError α :=
  match Tokens.ofChars? s.toList with
  | .error e => .error e.toParseError
  | .ok tokens => parse tokens

/-- Parses exactly one expression. -/
def Expr.parse (s : String) : Except ParseError Expr :=
  Tokens.parse Parser.whole s

/-- Parses the longest expression at the start of a text, whatever tokens follow it. -/
def Expr.parseStart (s : String) : Except ParseError Expr :=
  Tokens.parse (fun tokens => Prod.fst <$> Parser.expression tokens) s

def LoopHeader.parse (s : String) : Except ParseError LoopHeader :=
  Tokens.parse Parser.header s

end FormLetter
