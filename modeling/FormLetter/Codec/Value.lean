import FormLetter.Json.Number
import FormLetter.Value

namespace FormLetter.Value

/-- Documents that go deeper are refused. -/
def maxDepth : Nat := 127

/-- A number without point and exponent is whole if it fits in 64 bits. -/
def ofNumeral? (n : Numeral) : Option Value :=
  match n.toInt?.bind Decimal.int64? with
  | some m => some (int m)
  | none => n.toFloat?.map float

mutual
def ofTree? : Json → Option Value
  | .null => some null
  | .bool b => some (bool b)
  | .number n => ofNumeral? n
  | .string s => some (string s)
  | .garbled => none
  | .array items => (ofItems? items).map array
  | .object members => (ofMembers? members).map fun entries => object (Dict.ofList entries)
termination_by structural json => json

def ofItems? : List Json → Option (List Value)
  | [] => some []
  | item :: items => do return (← ofTree? item) :: (← ofItems? items)
termination_by structural items => items

def ofMembers? : List (String × Json) → Option (List (String × Value))
  | [] => some []
  | (name, json) :: members => do return (name, ← ofTree? json) :: (← ofMembers? members)
termination_by structural members => members
end

def ofJson? (json : Json) : Option Value :=
  if json.depth ≤ maxDepth then ofTree? json else none

end FormLetter.Value

/-- A context is an object of values. -/
def FormLetter.Context.ofJson? : FormLetter.Json → Option FormLetter.Context
  | .object members => match FormLetter.Value.ofJson? (.object members) with
    | some (.object entries) => some entries
    | _ => none
  | _ => none
