import FormLetter.Expr.Path
import FormLetter.Schema.Index
import FormLetter.Validation.Finding
import FormLetter.Validation.Suggestion

namespace FormLetter.Validation

/-- A variable of a loop. -/
structure Binding where
  name : String
  type : TypeInfo
  /-- The path of the collection of an item, if the schema knows it. -/
  path : Option String
  deriving DecidableEq, Repr

/-- The variables of a block. Only loops have some. -/
abbrev Scope := List Binding

structure Env where
  schema : Schema.Index
  /-- The innermost first. -/
  scopes : List Scope

namespace Env

def binding? (env : Env) (name : String) : Option Binding :=
  env.scopes.flatten.find? (·.name = name)

/-- A path in the schema for one that may start at a variable of a loop. -/
def schemaPath? (env : Env) (path : ReferencePath) : Option String := do
  let candidate ← match env.binding? path.root with
    | some b => b.path.map fun base => (path.rebased base).withoutIndices
    | none => some path.withoutIndices
  let _ ← env.schema.resolve? candidate
  return candidate

/-- Paths below the collection of a variable, as paths below the variable. -/
def memberPaths (env : Env) (base name : String) : List String :=
  env.schema.paths.filterMap fun path =>
    ((base ++ ".").toList.isPrefixOf? path.toList).map fun rest =>
      name ++ "." ++ String.ofList rest

/-- The type at a path of the schema, tried first with its indexes and then without. -/
def lookup (env : Env) (path : ReferencePath) : Option TypeInfo :=
  (env.schema.resolve? path.display <|> env.schema.resolve? path.withoutIndices).map
    Schema.Resolution.type

def reference (env : Env) (path : ReferencePath) : TypeInfo × List Finding :=
  match env.binding? path.root with
  | none =>
    match env.lookup path with
    | some type => (type, [])
    | none =>
      (.unknown,
        [.unknownField path.display (suggestions path.withoutIndices env.schema.paths)])
  | some b =>
    if path.segments.isEmpty then (b.type, [])
    else
      match b.path with
      | none => (.unknown, [])
      | some base =>
        match env.lookup (path.rebased base) with
        | some type => (type, [])
        | none =>
          (.unknown, [.unknownField path.display
            (suggestions path.withoutIndices (env.memberPaths base b.name))])

/-- What is wrong with the kinds of arguments from a position on. -/
def argumentFindings (function : FunctionDef) (position : Nat) : List TypeInfo → List Finding
  | [] => []
  | type :: types =>
    (match function.allowed? position with
      | none => []
      | some allowed =>
        if type.permissive || allowed.contains .any || allowed.contains type.kind then []
        else [.argumentKind function position allowed type.kind])
      ++ argumentFindings function (position + 1) types

/-- The type of a call, given those of its arguments. -/
def call (env : Env) (name : String) (args : List TypeInfo) : TypeInfo × List Finding :=
  match env.schema.functions.get? name with
  | none =>
    (.unknown, [.unknownFunction name (suggestions name env.schema.functions.names)])
  | some function =>
    (.ofKind function.returns,
      (if function.accepts args.length then [] else [.argumentCount function args.length])
        ++ argumentFindings function 0 args)

def unaryType : UnaryOp → TypeInfo
  | .not => .ofKind .bool
  | .neg | .plus => .ofKind .number

def binaryType (op : BinaryOp) (left right : TypeInfo) : TypeInfo :=
  if op.isComparison || op.isLogical then .ofKind .bool
  else if op = .add ∧ (left.kind = .string ∨ right.kind = .string) then .ofKind .string
  else .ofKind .number

mutual
/-- The type of an expression, and what is wrong in it. -/
def infer (env : Env) : Expr → TypeInfo × List Finding
  | .literal v => (.ofKind (.ofValue v), [])
  | .var name => env.reference ⟨name, []⟩
  | .field object name =>
    match (Expr.field object name).path? with
    | some path =>
      let found := env.keyFindings object
      let (type, more) := env.reference path
      (type, found ++ more)
    | none => (.unknown, (env.infer object).2)
  | .index object key =>
    match (Expr.index object key).path? with
    | some path =>
      let found := env.keyFindings object ++ (env.infer key).2
      let (type, more) := env.reference path
      (type, found ++ more)
    | none => (.unknown, (env.infer object).2 ++ (env.infer key).2)
  | .unary op operand => (unaryType op, (env.infer operand).2)
  | .binary op left right =>
    let (leftType, found) := env.infer left
    let (rightType, more) := env.infer right
    (binaryType op leftType rightType, found ++ more)
  | .call name args =>
    let (types, found) := env.inferAll args
    let (type, more) := env.call name types
    (type, found ++ more)
termination_by structural e => e

/-- What is wrong in the indexes along a path. -/
def keyFindings (env : Env) : Expr → List Finding
  | .field object _ => env.keyFindings object
  | .index object key => env.keyFindings object ++ (env.infer key).2
  | _ => []
termination_by structural e => e

def inferAll (env : Env) : List Expr → List TypeInfo × List Finding
  | [] => ([], [])
  | e :: es =>
    let (type, found) := env.infer e
    let (types, more) := env.inferAll es
    (type :: types, found ++ more)
termination_by structural es => es
end

end Env

end FormLetter.Validation
