import FormLetter.Expr

namespace FormLetter

inductive PathSegment where
  /-- The field `.name`, or the index by a string literal. -/
  | field (name : String)
  | index (n : Int64)
  /-- An index that is any other expression. -/
  | dynamic
  deriving DecidableEq

/-- A chain of fields and indexes that starts at a variable. -/
structure ReferencePath where
  root : String
  segments : List PathSegment
  deriving DecidableEq

def PathSegment.chars : PathSegment → List Char
  | field name => '.' :: name.toList
  | index n => '[' :: Decimal.ofInt n.toInt ++ [']']
  | dynamic => ['[', ']']

namespace ReferencePath

def display (path : ReferencePath) : String :=
  String.ofList (path.root.toList ++ path.segments.flatMap PathSegment.chars)

/-- The path with its fields only. -/
def withoutIndices (path : ReferencePath) : String :=
  String.ofList (path.root.toList ++ path.segments.flatMap fun
    | .field name => '.' :: name.toList
    | _ => [])

def rebased (path : ReferencePath) (root : String) : ReferencePath :=
  { path with root }

def push (path : ReferencePath) (segment : PathSegment) : ReferencePath :=
  { path with segments := path.segments ++ [segment] }

end ReferencePath

/-- The segment that an index stands for. -/
def Expr.segment : Expr → PathSegment
  | .literal (.int n) => .index n
  | .literal (.string name) => .field name
  | _ => .dynamic

/-- The path that an expression reads, if it is a variable with fields and indexes after it. What
the indexes read themselves is not part of it. -/
def Expr.path? : Expr → Option ReferencePath
  | .var name => some ⟨name, []⟩
  | .field object name => object.path?.map (·.push (.field name))
  | .index object key => object.path?.map (·.push key.segment)
  | _ => none

end FormLetter
