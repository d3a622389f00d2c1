import FormLetter.Expr

namespace FormLetter.Expr

/-- Objects that need no parentheses before a field or an index. -/
def isAccessible : Expr → Bool
  | var _ | field .. | index .. | call .. => true
  | literal (.string _) | literal (.bool _) | literal .null => true
  | _ => false

def escapeChar (c : Char) : List Char :=
  if c = '"' then ['\\', '"']
  else if c = '\\' then ['\\', '\\']
  else if c = '\n' then ['\\', 'n']
  else if c = '\t' then ['\\', 't']
  else if c = '\r' then ['\\', 'r']
  else [c]

def stringLiteral (s : String) : List Char :=
  '"' :: s.toList.flatMap escapeChar ++ ['"']

/-- Doubles that are no numbers have no literal. A whole double keeps a zero after the point, so
that it is not read as a whole number. -/
def floatLiteral (x : Float) : List Char :=
  let cs := Decimal.ofFloat x
  if !x.isFinite then "null".toList
  else if cs.contains '.' then cs
  else cs ++ ['.', '0']

def literalChars : Value → List Char
  | .null => "null".toList
  | .string s => stringLiteral s
  | .float x => floatLiteral x
  | value => value.chars

def parenthesized (needed : Bool) (cs : List Char) : List Char :=
  if needed then '(' :: cs ++ [')'] else cs

mutual
def chars : Expr → List Char
  | literal value => literalChars value
  | var name => name.toList
  | field object name =>
    parenthesized (!object.isAccessible) object.chars ++ '.' :: name.toList
  | index object key =>
    parenthesized (!object.isAccessible) object.chars ++ '[' :: key.chars ++ [']']
  | unary op operand => op.symbol.toList ++ '(' :: operand.chars ++ [')']
  | binary op left right =>
    '(' :: left.chars ++ ' ' :: op.symbol.toList ++ ' ' :: right.chars ++ [')']
  | call function args => function.toList ++ '(' :: argChars args ++ [')']
termination_by structural e => e

def argChars : List Expr → List Char
  | [] => []
  | [arg] => arg.chars
  | arg :: args => arg.chars ++ ", ".toList ++ argChars args
termination_by structural es => es
end

/-- Source text with every operation in parentheses. -/
def display (e : Expr) : String :=
  String.ofList e.chars

end FormLetter.Expr
