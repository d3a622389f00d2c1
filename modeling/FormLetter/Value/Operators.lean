import FormLetter.Expr

namespace FormLetter

inductive EvalError where
  | divisionByZero
  | moduloByZero
  /-- Holds the texts of both operands. -/
  | nonIntegerModulo (left right : String)
  | nonNumericOperand (operator found : String)
  | invalidComparison (operator left right : String)
  | unknownFunction (name : String)
  | functionFailed (name reason : String)
  | invalidIndex (found : String)
  | notIterable (found : String)
  | includeNameNotString (found : String)
  deriving DecidableEq

def EvalError.message : EvalError → String
  | divisionByZero => "Division by zero"
  | moduloByZero => "Modulo by zero"
  | nonIntegerModulo left right =>
    s!"Modulo requires integer operands, found {left} and {right}"
  | nonNumericOperand operator found => s!"Operator '{operator}' cannot be applied to {found}"
  | invalidComparison operator left right =>
    s!"Cannot compare {left} with {right} using '{operator}'"
  | unknownFunction name => s!"Unknown function: {name}"
  | functionFailed name reason => s!"Function {name} failed: {reason}"
  | invalidIndex found => s!"Cannot index with a value of type {found}"
  | notIterable found => s!"Cannot iterate over a value of type {found}"
  | includeNameNotString found => s!"Include name must be a string, found {found}"

namespace Value

/-- Numbers are equal if their values are, whole or not. -/
def equal (left right : Value) : Bool :=
  match left, right with
  | int a, int b => a == b
  | _, _ =>
    match left.toFloat?, right.toFloat? with
    | some a, some b => a == b
    | _, _ => left.same right

def compareFloats (a b : Float) : Option Ordering :=
  if a < b then some .lt else if a == b then some .eq else if b < a then some .gt else none

/-- Numbers are ordered among themselves, and so are texts, by their code points. -/
def order? (left right : Value) : Option Ordering :=
  match left, right with
  | int a, int b => some (compare a b)
  | string a, string b => some (compare a b)
  | _, _ =>
    match left.toFloat?, right.toFloat? with
    | some a, some b => compareFloats a b
    | _, _ => none

/-- A whole result if there is one, and else a double. -/
def exactOr (exact : Option Int64) (inexact : Float) : Value :=
  match exact with
  | some n => int n
  | none => float inexact

/-- Arithmetic on whole numbers. Division stays whole if it leaves no remainder; the remainder has
the sign of the dividend. -/
def intArithmetic (op : BinaryOp) (a b : Int64) : Except EvalError Value :=
  match op with
  | .add => .ok (exactOr (Decimal.int64? (a.toInt + b.toInt)) (a.toFloat + b.toFloat))
  | .sub => .ok (exactOr (Decimal.int64? (a.toInt - b.toInt)) (a.toFloat - b.toFloat))
  | .mul => .ok (exactOr (Decimal.int64? (a.toInt * b.toInt)) (a.toFloat * b.toFloat))
  | .div =>
    if b = 0 then .error .divisionByZero
    else
      let exact := if a.toInt.tmod b.toInt = 0 then Decimal.int64? (a.toInt.tdiv b.toInt) else none
      .ok (exactOr exact (a.toFloat / b.toFloat))
  | _ =>
    if b = 0 then .error .moduloByZero
    else .ok (int (Int64.ofInt (a.toInt.tmod b.toInt)))

/-- Arithmetic where an operand is a double. The remainder needs operands without fractions. -/
def floatArithmetic (op : BinaryOp) (left right : Value) (a b : Float) : Except EvalError Value :=
  match op with
  | .add => .ok (float (a + b))
  | .sub => .ok (float (a - b))
  | .mul => .ok (float (a * b))
  | .div => if b == 0.0 then .error .divisionByZero else .ok (float (a / b))
  | _ =>
    match left.toInt?, right.toInt? with
    | some x, some y =>
      if y = 0 then .error .moduloByZero
      else .ok (float (Int64.ofInt (x.toInt.tmod y.toInt)).toFloat)
    | _, _ => .error (.nonIntegerModulo left.text right.text)

def arithmetic (op : BinaryOp) (left right : Value) : Except EvalError Value :=
  match left, right with
  | int a, int b => intArithmetic op a b
  | _, _ =>
    match left.toFloat?, right.toFloat? with
    | some a, some b => floatArithmetic op left right a b
    | none, _ => .error (.nonNumericOperand op.symbol left.typeName)
    | some _, none => .error (.nonNumericOperand op.symbol right.typeName)

/-- An ordering operator holds if its test accepts the order of the operands. -/
def ordering (op : BinaryOp) (left right : Value) (test : Ordering → Bool) :
    Except EvalError Value :=
  match left.order? right with
  | some order => .ok (bool (test order))
  | none => .error (.invalidComparison op.symbol left.typeName right.typeName)

/-- A binary operator on two values. A sum with a text is the texts of both, one after the
other. -/
def binary (op : BinaryOp) (left right : Value) : Except EvalError Value :=
  match op with
  | .eq => .ok (bool (left.equal right))
  | .ne => .ok (bool (!left.equal right))
  | .lt => ordering op left right Ordering.isLT
  | .le => ordering op left right Ordering.isLE
  | .gt => ordering op left right Ordering.isGT
  | .ge => ordering op left right Ordering.isGE
  | .and => .ok (bool (left.truthy && right.truthy))
  | .or => .ok (bool (left.truthy || right.truthy))
  | .add =>
    match left, right with
    | string _, _ | _, string _ => .ok (string (left.text ++ right.text))
    | _, _ => arithmetic op left right
  | op => arithmetic op left right

def unary (op : UnaryOp) (operand : Value) : Except EvalError Value :=
  match op, operand with
  | .not, v => .ok (bool !v.truthy)
  | .neg, int n => .ok (exactOr (Decimal.int64? (-n.toInt)) (-n.toFloat))
  | .neg, float x => .ok (float (-x))
  | .plus, int n => .ok (int n)
  | .plus, float x => .ok (float x)
  | op, v => .error (.nonNumericOperand op.symbol v.typeName)

/-- The item or member under a whole number. Whatever has none under it gives null. -/
def itemAt (container : Value) (n : Int64) : Value :=
  match container with
  | array items => if n < 0 then null else (items[n.toInt.toNat]?).getD null
  | object members => ((Dict.get? (String.ofList (Decimal.ofInt n.toInt)) members).getD null)
  | _ => null

def at? (container key : Value) : Except EvalError Value :=
  match key with
  | int _ | float _ =>
    match key.toInt? with
    | some n => .ok (container.itemAt n)
    | none => .error (.invalidIndex key.typeName)
  | string name => .ok ((container.member? name).getD null)
  | _ => .error (.invalidIndex key.typeName)

end Value

end FormLetter
