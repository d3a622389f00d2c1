import FormLetter.Document
import FormLetter.Expr.Error
import FormLetter.Value.Operators

namespace FormLetter

inductive RenderError where
  | parse (error : ParseError)
  | evaluation (error : EvalError)
  /-- A fragment includes itself. Holds the open fragments, the outermost first. -/
  | circular (fragment : String) (stack : List String)
  | tooDeep (depth limit : Nat)
  | missingFragment (name : String)
  | document (error : DocumentError)

def RenderError.message? : RenderError → Option String
  | parse error => some error.message
  | evaluation error => some s!"Evaluation error: {error.message}"
  | circular fragment stack =>
    some (s!"Circular fragment reference: {fragment} (stack: " ++ " -> ".intercalate stack ++ ")")
  | tooDeep depth limit => some s!"Maximum include depth {limit} exceeded at depth {depth}"
  | missingFragment name => some s!"Fragment not found: {name}"
  | document (.package error) => error.message?
  | document (.malformed _) => none

end FormLetter
