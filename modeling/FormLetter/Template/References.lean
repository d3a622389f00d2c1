import FormLetter.Expr.Path
import FormLetter.Template.Builder

namespace FormLetter.Template

/-- Adds a path that is not among those found and does not start at a local name. -/
def addPath (locals : List String) (path : ReferencePath) (found : List String) : List String :=
  if locals.contains path.root || found.contains path.display then found
  else found ++ [path.display]

mutual
def addExpr (locals : List String) : Expr → List String → List String
  | .literal _, found => found
  | .var name, found => addPath locals ⟨name, []⟩ found
  | .field object name, found =>
    match (Expr.field object name).path? with
    | some path => addKeys locals object (addPath locals path found)
    | none => addExpr locals object found
  | .index object key, found =>
    match (Expr.index object key).path? with
    | some path => addExpr locals key (addKeys locals object (addPath locals path found))
    | none => addExpr locals key (addExpr locals object found)
  | .unary _ operand, found => addExpr locals operand found
  | .binary _ left right, found => addExpr locals right (addExpr locals left found)
  | .call _ args, found => addArgs locals args found
termination_by structural e => e

/-- Adds what the indexes along a path read. -/
def addKeys (locals : List String) : Expr → List String → List String
  | .field object _, found => addKeys locals object found
  | .index object key, found => addExpr locals key (addKeys locals object found)
  | _, found => found
termination_by structural e => e

def addArgs (locals : List String) : List Expr → List String → List String
  | [], found => found
  | arg :: args, found => addArgs locals args (addExpr locals arg found)
termination_by structural es => es
end

mutual
def addNode (locals : List String) : Node → List String → List String
  | .text _, found => found
  | .pageBreak, found => found
  | .value e, found => addExpr locals e found
  | .includeTag name, found => addExpr locals name found
  | .ifBlock branches otherwise, found =>
    addOtherwise locals otherwise (addBranches locals branches found)
  | .unlessBlock condition body otherwise, found =>
    addOtherwise locals otherwise (addBody locals body (addExpr locals condition found))
  | .forBlock header body, found =>
    addBody (header.item :: header.index.toList ++ locals) body
      (addExpr locals header.collection found)
termination_by structural node => node

def addBody (locals : List String) : List Node → List String → List String
  | [], found => found
  | node :: body, found => addBody locals body (addNode locals node found)
termination_by structural body => body

def addBranches (locals : List String) : List (Expr × List Node) → List String → List String
  | [], found => found
  | (condition, body) :: branches, found =>
    addBranches locals branches (addBody locals body (addExpr locals condition found))
termination_by structural branches => branches

def addOtherwise (locals : List String) : Option (List Node) → List String → List String
  | none, found => found
  | some body, found => addBody locals body found
termination_by structural otherwise => otherwise
end

/-- The paths in the expressions of a template, in the order of their first use, without those that
start at a variable of a loop around them. -/
def references (template : Template) : List String :=
  addBody [] template.body []

end FormLetter.Template
