import FormLetter.Json

namespace FormLetter.Json

def string? : Json → Option String
  | string s => some s
  | _ => none

def bool? : Json → Option Bool
  | bool b => some b
  | _ => none

/-- A whole number between bounds. -/
def int? (low high : Int) : Json → Option Int
  | number n => n.toInt?.filter fun m => low ≤ m && m ≤ high
  | _ => none

/-- A 64-bit number without sign. -/
def nat? (json : Json) : Option Nat :=
  (json.int? 0 (UInt64.size - 1)).map Int.toNat

def list? (decode : Json → Option α) : Json → Option (List α)
  | array items => items.mapM decode
  | _ => none

/-- One of several names, alone or as the only member of an object, with null. -/
def choice? (decode : String → Option α) : Json → Option α
  | string s => decode s
  | object [(s, null)] => decode s
  | _ => none

/-- The values of a record's fields, from an object in which no field is repeated, or from an array
in the order of the fields. Members of other names are left aside. -/
def record? (fields : List String) : Json → Option (List (Option Json))
  | object members => fields.mapM fun field =>
    match (object members).membersOf field with
    | [] => some none
    | [json] => some (some json)
    | _ => none
  | array items =>
    if items.length ≤ fields.length then
      some (items.map some ++ List.replicate (fields.length - items.length) none)
    else none
  | _ => none

/-- Whether a record says something of the place of every field: an object always does, an array if
it goes that far. -/
def isFull (fields : List String) : Json → Bool
  | array items => fields.length ≤ items.length
  | _ => true

def required (decode : Json → Option α) (json : Option Json) : Option α :=
  json.bind decode

/-- A field that may be missing. -/
def defaulted (value : α) (decode : Json → Option α) : Option Json → Option α
  | none => some value
  | some json => decode json

/-- A field that may be missing or null. -/
def optional (decode : Json → Option α) : Option Json → Option (Option α)
  | none | some null => some none
  | some json => (decode json).map some

end FormLetter.Json
