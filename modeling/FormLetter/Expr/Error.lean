namespace FormLetter

inductive LexFault where
  | unexpectedCharacter (c : Char)
  /-- Holds the opening quote. -/
  | unterminatedString (quote : Char)
  /-- A number whose double would be infinite. -/
  | numberOutOfRange (digits : String)
  deriving DecidableEq

/-- Positions are byte offsets. -/
structure LexError where
  position : Nat
  fault : LexFault
  deriving DecidableEq

/-- What would have continued a text that stops making sense. -/
inductive Expected where
  | expression
  | fieldName
  | closeBracket
  | closeParen
  | commaOrCloseParen
  /-- The end tag of a block, by the keyword and the place of its first tag. -/
  | endTag (keyword : String) (openedAt : Nat)
  deriving DecidableEq

inductive LoopFault where
  | emptyIndex
  | noVariable
  | noVariableAfterComma
  | noIn
  | noCollection
  deriving DecidableEq

inductive BlockFault where
  | elsifOutside
  | elseOutside
  | endOutside
  | elsifAfterElse
  | secondElse
  deriving DecidableEq

inductive ParseFault where
  /-- Holds the name of the token that was found. -/
  | unexpectedToken (expected : Expected) (found : String)
  | unexpectedEnd (expected : Expected)
  | trailingToken (found : String)
  | invalidLoop (fault : LoopFault)
  | unbalanced (fault : BlockFault)
  | unclosedTag
  | lexical (error : LexError)
  deriving DecidableEq

structure ParseError where
  position : Nat
  fault : ParseFault
  deriving DecidableEq

def LexFault.message : LexFault → String
  | unexpectedCharacter c => s!"Unexpected character '{c}'"
  | unterminatedString quote => s!"Unterminated string opened with '{quote}'"
  | numberOutOfRange digits => s!"Number out of range: {digits}"

def LexError.message (e : LexError) : String :=
  s!"{e.fault.message} at byte {e.position}"

def Expected.text : Expected → String
  | expression => "expression"
  | fieldName => "field name after '.'"
  | closeBracket => "']'"
  | closeParen => "')'"
  | commaOrCloseParen => "',' or ')'"
  | endTag keyword openedAt =>
    "\x7b\x7bend\x7d\x7d for '" ++ keyword ++ s!"' opened at byte {openedAt}"

def LoopFault.message : LoopFault → String
  | emptyIndex => "index variable is empty"
  | noVariable => "expected a loop variable name"
  | noVariableAfterComma => "expected a loop variable name after ','"
  | noIn => "expected 'in' after the loop variable"
  | noCollection => "missing collection expression"

def BlockFault.message : BlockFault → String
  | elsifOutside => "elsif outside of an if block"
  | elseOutside => "else outside of an if or unless block"
  | endOutside => "end without an open block"
  | elsifAfterElse => "elsif after else"
  | secondElse => "duplicate else"

def ParseFault.message : ParseFault → String
  | unexpectedToken expected found => s!"Expected {expected.text}, found {found}"
  | unexpectedEnd expected => s!"Unexpected end of input (expected {expected.text})"
  | trailingToken found => s!"Unexpected trailing token {found}"
  | invalidLoop fault => s!"Invalid for loop: {fault.message}"
  | unbalanced fault => s!"Unbalanced block: {fault.message}"
  | unclosedTag => "Unclosed template tag"
  | lexical error => error.message

def ParseError.message (e : ParseError) : String :=
  s!"Parse error at byte {e.position}: {e.fault.message}"

/-- Moves an error to the place of its text in a larger one. What a lexical error says of its own
position stays. -/
def ParseError.shift (offset : Nat) (e : ParseError) : ParseError :=
  { e with position := e.position + offset }

def LexError.toParseError (e : LexError) : ParseError :=
  ⟨e.position, .lexical e⟩

end FormLetter
