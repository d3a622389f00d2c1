import FormLetter.Value
import FormLetter.Text.Quoted

namespace FormLetter

inductive Symbol where
  | eq
  | ne
  | lt
  | le
  | gt
  | ge
  | plus
  | minus
  | star
  | slash
  | percent
  | and
  | or
  | bang
  /-- A single equals sign, which expressions read as equality. -/
  | assign
  | openParen
  | closeParen
  | openBracket
  | closeBracket
  | comma
  | dot
  deriving DecidableEq, Repr

def Symbol.text : Symbol → String
  | eq => "=="
  | ne => "!="
  | lt => "<"
  | le => "<="
  | gt => ">"
  | ge => ">="
  | plus => "+"
  | minus => "-"
  | star => "*"
  | slash => "/"
  | percent => "%"
  | and => "&"
  | or => "|"
  | bang => "!"
  | assign => "="
  | openParen => "("
  | closeParen => ")"
  | openBracket => "["
  | closeBracket => "]"
  | comma => ","
  | dot => "."

inductive TokenKind where
  | name (s : String)
  | int (n : Int64)
  | float (x : Float)
  | string (s : String)
  | symbol (s : Symbol)

namespace TokenKind

/-- How messages name a token. -/
def text : TokenKind → String
  | name s => s!"identifier '{s}'"
  | int n => "number " ++ String.ofList (Decimal.ofInt n.toInt)
  | float x => "number " ++ String.ofList (Decimal.ofFloat x)
  | string s => "string " ++ Text.quoted s
  | symbol s => s!"'{s.text}'"

/-- Tokens that end an operand. A dot that touches one is an access and not a decimal point. -/
def endsOperand : TokenKind → Bool
  | name _ | int _ | float _ | string _ => true
  | symbol .closeParen | symbol .closeBracket => true
  | symbol _ => false

end TokenKind

structure Token where
  kind : TokenKind
  /-- Byte offset of the first character. -/
  position : Nat

/-- The tokens of a whole text. -/
structure Tokens where
  items : List Token
  /-- Byte offset of the end of the text. -/
  stop : Nat

/-- How messages name the end of a text. -/
def Tokens.stopText : String := "end of input"

end FormLetter
