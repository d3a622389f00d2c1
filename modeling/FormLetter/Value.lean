import FormLetter.Dict
import FormLetter.Decimal.Shortest

namespace FormLetter

/-- Whole numbers and doubles are kept apart, so that arithmetic on whole numbers stays exact. -/
inductive Value where
  | null
  | bool (b : Bool)
  | int (n : Int64)
  | float (x : Float)
  | string (s : String)
  | array (items : List Value)
  | object (members : List (String × Value))
  deriving Inhabited

namespace Value

/-- Null, zero, the empty text and empty containers count as false. -/
def truthy : Value → Bool
  | null => false
  | bool b => b
  | int n => n != 0
  | float x => x != 0.0
  | string s => !s.isEmpty
  | array items => !items.isEmpty
  | object members => !members.isEmpty

def typeName : Value → String
  | null => "null"
  | bool _ => "bool"
  | int _ => "int"
  | float _ => "float"
  | string _ => "string"
  | array _ => "array"
  | object _ => "object"

def isNumber : Value → Bool
  | int _ | float _ => true
  | _ => false

def toFloat? : Value → Option Float
  | int n => some n.toFloat
  | float x => some x
  | _ => none

/-- The whole number that a value holds exactly. A double qualifies when it has no fraction and is
well within the 64-bit range. -/
def toInt? : Value → Option Int64
  | int n => some n
  | float x => if x.isFinite && x.floor == x && x.abs < 9.2e18 then some x.toInt64 else none
  | _ => none

def toString? : Value → Option String
  | string s => some s
  | _ => none

/-- Only objects have members. -/
def member? (name : String) : Value → Option Value
  | object members => Dict.get? name members
  | _ => none

/-- What a loop walks: the items of an array, the members of an object in the order of their names,
and nothing for null. -/
def items? : Value → Option (List Value)
  | null => some []
  | array items => some items
  | object members => some (members.map Prod.snd)
  | _ => none

mutual
/-- The same kind and the same content. A whole number is never the same as a double, and NaN is
not the same as itself. -/
def same : Value → Value → Bool
  | null, null => true
  | bool a, bool b => a == b
  | int a, int b => a == b
  | float a, float b => a == b
  | string a, string b => a == b
  | array as, array bs => sameItems as bs
  | object as, object bs => sameMembers as bs
  | _, _ => false
termination_by structural v => v

def sameItems : List Value → List Value → Bool
  | [], [] => true
  | a :: as, b :: bs => a.same b && sameItems as bs
  | _, _ => false
termination_by structural vs => vs

def sameMembers : List (String × Value) → List (String × Value) → Bool
  | [], [] => true
  | (k, a) :: as, (l, b) :: bs => k == l && a.same b && sameMembers as bs
  | _, _ => false
termination_by structural vs => vs
end

mutual
/-- The text that takes a value's place in a letter. -/
def chars : Value → List Char
  | null => []
  | bool true => "true".toList
  | bool false => "false".toList
  | int n => Decimal.ofInt n.toInt
  | float x => Decimal.ofFloat x
  | string s => s.toList
  | array items => '[' :: charsItems items ++ [']']
  | object members => '{' :: charsMembers members ++ ['}']
termination_by structural v => v

def charsItems : List Value → List Char
  | [] => []
  | [v] => v.chars
  | v :: vs => v.chars ++ ", ".toList ++ charsItems vs
termination_by structural vs => vs

def charsMembers : List (String × Value) → List Char
  | [] => []
  | [(k, v)] => k.toList ++ ": ".toList ++ v.chars
  | (k, v) :: vs => k.toList ++ ": ".toList ++ v.chars ++ ", ".toList ++ charsMembers vs
termination_by structural vs => vs
end

def text (v : Value) : String :=
  String.ofList v.chars

end Value

/-- The variables that an expression can see. -/
abbrev Context := Dict Value

end FormLetter
