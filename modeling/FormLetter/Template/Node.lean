import FormLetter.Expr

namespace FormLetter

inductive Node where
  | text (content : String)
  | value (expr : Expr)
  /-- The first branch is that of the `if` tag, the others are those of its `elsif` tags. -/
  | ifBlock (branches : List (Expr × List Node)) (otherwise : Option (List Node))
  | unlessBlock (condition : Expr) (body : List Node) (otherwise : Option (List Node))
  | forBlock (header : LoopHeader) (body : List Node)
  | includeTag (name : Expr)
  | pageBreak
  deriving Inhabited

abbrev Body := List Node

end FormLetter
