import FormLetter.Decimal.Digits

namespace FormLetter

/-- A number as it is written. -/
structure Numeral where
  negative : Bool
  whole : List Char
  /-- The digits after the point, if there is one. -/
  fraction : Option (List Char)
  /-- The sign and digits of the exponent, if there is one. -/
  exponent : Option (Bool × List Char)

/-- Members are kept in their order, repeated names included. -/
inductive Json where
  | null
  | bool (b : Bool)
  | number (n : Numeral)
  | string (s : String)
  /-- A string that escapes half a surrogate pair and so stands for no text, or an object with such
  a name. It may only stand where a reader does not look. -/
  | garbled
  | array (items : List Json)
  | object (members : List (String × Json))
  deriving Inhabited

namespace Numeral

def isWhole (n : Numeral) : Bool :=
  n.fraction.isNone && n.exponent.isNone

/-- A numeral without point and exponent. Zero with a sign is none, because the sign would be
lost. -/
def toInt? (n : Numeral) : Option Int :=
  if n.isWhole then
    let m := Decimal.toNat n.whole
    if n.negative then (if m = 0 then none else some (-m)) else some m
  else none

def ofInt (n : Int) : Numeral :=
  ⟨n < 0, Decimal.ofNat n.natAbs, none, none⟩

def chars (n : Numeral) : List Char :=
  (if n.negative then ['-'] else []) ++ n.whole ++
    (n.fraction.elim [] fun cs => '.' :: cs) ++
    (n.exponent.elim [] fun (negative, cs) => 'e' :: (if negative then ['-'] else []) ++ cs)

end Numeral

namespace Json

def ofNat (n : Nat) : Json :=
  number (Numeral.ofInt n)

def ofInt (n : Int) : Json :=
  number (Numeral.ofInt n)

/-- Null stands for no value. -/
def ofOption (encode : α → Json) : Option α → Json
  | none => null
  | some a => encode a

def ofList (encode : α → Json) (as : List α) : Json :=
  array (as.map encode)

/-- The members of one name, in their order. -/
def membersOf (name : String) : Json → List Json
  | object members => members.filterMap fun (key, json) => if key = name then some json else none
  | _ => []

/-- The first member of a name. -/
def get? (name : String) (json : Json) : Option Json :=
  (json.membersOf name).head?

mutual
/-- How many arrays and objects lie one inside the other. -/
def depth : Json → Nat
  | array items => depthItems items + 1
  | object members => depthMembers members + 1
  | _ => 0
termination_by structural json => json

def depthItems : List Json → Nat
  | [] => 0
  | item :: items => max item.depth (depthItems items)
termination_by structural items => items

def depthMembers : List (String × Json) → Nat
  | [] => 0
  | (_, json) :: members => max json.depth (depthMembers members)
termination_by structural members => members
end

end Json

end FormLetter
