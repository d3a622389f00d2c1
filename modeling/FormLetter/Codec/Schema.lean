import FormLetter.Json.Record
import FormLetter.Schema

namespace FormLetter

def Kind.ofJson? (json : Json) : Option Kind :=
  json.choice? Kind.ofName?

def Kind.toJson (kind : Kind) : Json :=
  .string kind.name

namespace FieldDef

def ofJson? (json : Json) : Option FieldDef := do
  match ← json.record? ["path", "type", "nullable", "elementKind"] with
  | [path, kind, nullable, element] =>
    return {
      path := ← Json.required Json.string? path
      kind := ← Json.required Kind.ofJson? kind
      nullable := ← Json.defaulted false Json.bool? nullable
      element := ← Json.optional Kind.ofJson? element }
  | _ => none

/-- Without the kind of the items where there is none. -/
def toJson (f : FieldDef) : Json :=
  .object ([("path", .string f.path), ("type", f.kind.toJson), ("nullable", .bool f.nullable)] ++
    f.element.toList.map fun kind => ("elementKind", kind.toJson))

end FieldDef

namespace FunctionDef

/-- The bound of the number of arguments is a 32-bit number with a sign. -/
def ofJson? (json : Json) : Option FunctionDef := do
  match ← json.record? ["name", "minArgs", "maxArgs", "argKinds", "returnKind"] with
  | [name, minArgs, maxArgs, argKinds, returns] =>
    return {
      name := ← Json.required Json.string? name
      minArgs := ← Json.defaulted 0 Json.nat? minArgs
      maxArgs := ← Json.defaulted (-1) (Json.int? Int32.minValue.toInt Int32.maxValue.toInt) maxArgs
      argKinds := ← Json.defaulted [] (Json.list? (Json.list? Kind.ofJson?)) argKinds
      returns := ← Json.defaulted .unknown Kind.ofJson? returns }
  | _ => none

def toJson (f : FunctionDef) : Json :=
  .object [("name", .string f.name), ("minArgs", .ofNat f.minArgs), ("maxArgs", .ofInt f.maxArgs),
    ("argKinds", .ofList (Json.ofList Kind.toJson) f.argKinds), ("returnKind", f.returns.toJson)]

end FunctionDef

namespace Schema

def ofJson? (json : Json) : Option Schema := do
  match ← json.record? ["fields", "functions"] with
  | [fields, functions] =>
    return {
      fields := ← Json.defaulted [] (Json.list? FieldDef.ofJson?) fields
      functions := ← Json.defaulted [] (Json.list? FunctionDef.ofJson?) functions }
  | _ => none

def toJson (schema : Schema) : Json :=
  .object [("fields", .ofList FieldDef.toJson schema.fields),
    ("functions", .ofList FunctionDef.toJson schema.functions)]

end Schema

end FormLetter
