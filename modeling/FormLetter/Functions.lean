import FormLetter.Expr.Eval

namespace FormLetter.Functions

def upper : List Value → Except String Value
  | [.string s] => .ok (.string s.toUpper)
  | _ => .error "upper takes one string"

def length : List Value → Except String Value
  | [.string s] => .ok (.int (Int64.ofNat s.length))
  | [.array items] => .ok (.int (Int64.ofNat items.length))
  | _ => .error "len takes one string or array"

def list (args : List Value) : Except String Value :=
  .ok (.array args)

def first : List Value → Except String Value
  | arg :: _ => .ok arg
  | [] => .error ""

def half (_ : List Value) : Except String Value :=
  .ok (.float 0.5)

def fail (args : List Value) : Except String Value :=
  .error ("|".intercalate (args.map Value.text))

def basic : Functions
  | "upper" => some upper
  | "len" => some length
  | "list" => some list
  | "first" => some first
  | "half" => some half
  | "fail" => some fail
  | _ => Option.none

end FormLetter.Functions
