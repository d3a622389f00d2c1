import FormLetter.Expr.Error
import FormLetter.Markup
import FormLetter.Schema
import FormLetter.Span.Fault

namespace FormLetter.Validation

inductive IssueCode where
  | syntaxError
  | unsupportedExpression
  | controlBlockMismatch
  | elsifAfterElse
  | duplicateElse
  | unmatchedEnd
  | missingEnd
  | unknownField
  | unknownFunction
  | functionArgumentError
  | typeMismatch
  deriving DecidableEq, Repr

namespace IssueCode

def text : IssueCode → String
  | syntaxError => "SYNTAX_ERROR"
  | unsupportedExpression => "UNSUPPORTED_EXPRESSION"
  | controlBlockMismatch => "CONTROL_BLOCK_MISMATCH"
  | elsifAfterElse => "ELSIF_AFTER_ELSE"
  | duplicateElse => "DUPLICATE_ELSE"
  | unmatchedEnd => "UNMATCHED_END"
  | missingEnd => "MISSING_END"
  | unknownField => "UNKNOWN_FIELD"
  | unknownFunction => "UNKNOWN_FUNCTION"
  | functionArgumentError => "FUNCTION_ARGUMENT_ERROR"
  | typeMismatch => "TYPE_MISMATCH"

def all : List IssueCode :=
  [syntaxError, unsupportedExpression, controlBlockMismatch, elsifAfterElse, duplicateElse,
    unmatchedEnd, missingEnd, unknownField, unknownFunction, functionArgumentError, typeMismatch]

def ofText? (s : String) : Option IssueCode :=
  all.find? (·.text = s)

/-- Blocks that do not nest. -/
def isBlockIssue : IssueCode → Bool
  | controlBlockMismatch | elsifAfterElse | duplicateElse | unmatchedEnd | missingEnd => true
  | _ => false

end IssueCode

inductive Severity where
  | error
  | warning
  deriving DecidableEq, Repr

/-- What can be found wrong with a tag. -/
inductive Finding where
  | malformed (fault : SpanFault)
  /-- The text of a tag is no expression, or no loop header. -/
  | unparsable (value : String) (error : ParseError)
  /-- There is text after a keyword that takes none. -/
  | textAfter (kind : MarkupKind) (value : String)
  | elsifAfterElse
  | elsifOutside
  | elseOutside
  | secondElse (kind : MarkupKind)
  | endOutside
  | missingEnd (kind : MarkupKind)
  | unknownField (path : String) (suggestions : List String)
  | unknownFunction (name : String) (suggestions : List String)
  | argumentCount (function : FunctionDef) (count : Nat)
  /-- The kind of an argument is not among those allowed. -/
  | argumentKind (function : FunctionDef) (position : Nat) (allowed : List Kind) (kind : Kind)
  deriving DecidableEq

namespace Finding

def code : Finding → IssueCode
  | malformed _ => .syntaxError
  | unparsable .. | textAfter .. => .unsupportedExpression
  | elsifAfterElse => .elsifAfterElse
  | elsifOutside | elseOutside => .controlBlockMismatch
  | secondElse _ => .duplicateElse
  | endOutside => .unmatchedEnd
  | missingEnd _ => .missingEnd
  | unknownField .. => .unknownField
  | unknownFunction .. => .unknownFunction
  | argumentCount .. => .functionArgumentError
  | argumentKind .. => .typeMismatch

def message : Finding → String
  | malformed fault => fault.message
  | unparsable value error => s!"Cannot parse '{value}': {error.message}"
  | textAfter kind value => s!"Unexpected '{value}' after '{kind.keyword}'"
  | elsifAfterElse => "'elsif' cannot follow 'else' in the same 'if' block"
  | elsifOutside => "'elsif' is not inside an 'if' block"
  | elseOutside => "'else' is not inside an 'if' or 'unless' block"
  | secondElse kind => s!"'{kind.keyword}' block already has an 'else'"
  | endOutside => "'end' has no open block to close"
  | missingEnd kind => s!"'{kind.keyword}' block is never closed with 'end'"
  | unknownField path _ => s!"Unknown field '{path}'"
  | unknownFunction name _ => s!"Unknown function '{name}'"
  | argumentCount function count =>
    s!"Function '{function.name}' takes {function.arity} argument(s), found {count}"
  | argumentKind function position allowed kind =>
    let expected := " or ".intercalate (allowed.map Kind.name)
    s!"Argument {position + 1} of '{function.name}' expects {expected}, found {kind.name}"

def suggestions : Finding → List String
  | unknownField _ names | unknownFunction _ names => names
  | _ => []

end Finding

end FormLetter.Validation
