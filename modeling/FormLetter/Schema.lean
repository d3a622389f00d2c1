import FormLetter.Dict
import FormLetter.Value

namespace FormLetter

inductive Kind where
  /-- Declared as whatever it may be. -/
  | any
  /-- Nothing is known. -/
  | unknown
  | null
  | string
  | number
  | bool
  | object
  | array
  deriving DecidableEq, Repr

namespace Kind

def name : Kind → String
  | any => "any"
  | unknown => "unknown"
  | null => "null"
  | string => "string"
  | number => "number"
  | bool => "bool"
  | object => "object"
  | array => "array"

def all : List Kind :=
  [any, unknown, null, string, number, bool, object, array]

def ofName? (s : String) : Option Kind :=
  all.find? (·.name = s)

def ofValue : Value → Kind
  | .null => null
  | .bool _ => bool
  | .int _ | .float _ => number
  | .string _ => string
  | .array _ => array
  | .object _ => object

end Kind

/-- What is known of the value of an expression. -/
structure TypeInfo where
  kind : Kind
  nullable : Bool
  /-- The kind of the items of an array. -/
  element : Option Kind
  deriving DecidableEq, Repr

namespace TypeInfo

def ofKind (kind : Kind) : TypeInfo :=
  ⟨kind, false, none⟩

def unknown : TypeInfo :=
  ofKind .unknown

def known (t : TypeInfo) : Bool :=
  t.kind ≠ .unknown

/-- Fits wherever a value is asked for. -/
def permissive (t : TypeInfo) : Bool :=
  t.kind = .any ∨ t.kind = .unknown

end TypeInfo

structure FieldDef where
  path : String
  kind : Kind
  nullable : Bool
  element : Option Kind
  deriving DecidableEq, Repr

def FieldDef.type (f : FieldDef) : TypeInfo :=
  ⟨f.kind, f.nullable, f.element⟩

structure FunctionDef where
  name : String
  minArgs : Nat
  /-- Negative for any number. -/
  maxArgs : Int
  /-- The kinds that each argument may have. -/
  argKinds : List (List Kind)
  returns : Kind
  deriving DecidableEq, Repr

namespace FunctionDef

def accepts (f : FunctionDef) (count : Nat) : Bool :=
  f.minArgs ≤ count && (f.maxArgs < 0 || count ≤ f.maxArgs)

/-- The kinds for an argument, if it is bound to any. The last ones go for all further arguments
where any number may be given. -/
def allowed? (f : FunctionDef) (position : Nat) : Option (List Kind) :=
  let kinds := match f.argKinds[position]? with
    | some kinds => some kinds
    | none => if f.maxArgs < 0 then f.argKinds.getLast? else none
  kinds.filter (!·.isEmpty)

def arity (f : FunctionDef) : String :=
  if f.maxArgs < 0 then s!"at least {f.minArgs}"
  else if f.maxArgs = f.minArgs then s!"exactly {f.minArgs}"
  else s!"{f.minArgs} to {f.maxArgs}"

end FunctionDef

structure Schema where
  fields : List FieldDef
  functions : List FunctionDef
  deriving DecidableEq, Repr

namespace Schema

def dropStars : List Char → List Char
  | '[' :: '*' :: ']' :: cs => dropStars cs
  | c :: cs => c :: dropStars cs
  | [] => []

def dropBrackets : List Char → List Char
  | '[' :: ']' :: cs => dropBrackets cs
  | c :: cs => c :: dropBrackets cs
  | [] => []

/-- A path without the markers for the items of arrays. -/
def normalize (path : String) : String :=
  String.ofList (dropBrackets (dropStars path.toList))

end Schema

end FormLetter
