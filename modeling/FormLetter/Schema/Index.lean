import FormLetter.Schema

namespace FormLetter.Schema

/-- What a path is in a schema. -/
inductive Resolution where
  | field (definition : FieldDef)
  /-- Leads to fields, but is none. -/
  | parent
  /-- Lies below a field that may be anything. -/
  | underAny
  deriving DecidableEq, Repr

def Resolution.type : Resolution → TypeInfo
  | field definition => definition.type
  | parent | underAny => .ofKind .any

/-- What stands before each dot of a text. -/
def frontsFrom (before : List Char) : List Char → List (List Char)
  | [] => []
  | c :: cs =>
    if c = '.' then before :: frontsFrom (before ++ [c]) cs else frontsFrom (before ++ [c]) cs

def ancestors (path : String) : List String :=
  (frontsFrom [] path.toList).map String.ofList

structure Index where
  /-- By normalized path. -/
  fields : Dict FieldDef
  parents : Dict Unit
  functions : Dict FunctionDef

namespace Index

def empty : Index := ⟨[], [], []⟩

/-- The first of several fields of one path stays. -/
def addField (index : Index) (f : FieldDef) : Index :=
  let path := normalize f.path
  { index with
    parents := (ancestors path).foldl (fun parents p => parents.insert p ()) index.parents
    fields := if index.fields.has path then index.fields else index.fields.insert path f }

/-- The last of several functions of one name stays. -/
def addFunction (index : Index) (f : FunctionDef) : Index :=
  { index with functions := index.functions.insert f.name f }

def resolve? (index : Index) (path : String) : Option Resolution :=
  match index.fields.get? path with
  | some f => some (.field f)
  | none =>
    if index.parents.has path then some .parent
    else if (ancestors path).any fun p => (index.fields.get? p).any (·.kind = .any) then
      some .underAny
    else none

/-- All paths that are something in the schema by themselves. -/
def paths (index : Index) : List String :=
  index.fields.names ++ index.parents.names

end Index

def index (schema : Schema) : Index :=
  schema.functions.foldl Index.addFunction (schema.fields.foldl Index.addField .empty)

end FormLetter.Schema
