import FormLetter.Value

namespace FormLetter

inductive UnaryOp where
  | not
  | neg
  | plus
  deriving DecidableEq, Repr

inductive BinaryOp where
  | or
  | and
  | eq
  | ne
  | lt
  | le
  | gt
  | ge
  | add
  | sub
  | mul
  | div
  | mod
  deriving DecidableEq, Repr

namespace UnaryOp

def symbol : UnaryOp → String
  | not => "!"
  | neg => "-"
  | plus => "+"

end UnaryOp

namespace BinaryOp

def symbol : BinaryOp → String
  | or => "|"
  | and => "&"
  | eq => "=="
  | ne => "!="
  | lt => "<"
  | le => "<="
  | gt => ">"
  | ge => ">="
  | add => "+"
  | sub => "-"
  | mul => "*"
  | div => "/"
  | mod => "%"

def isComparison : BinaryOp → Bool
  | eq | ne | lt | le | gt | ge => true
  | _ => false

def isLogical : BinaryOp → Bool
  | or | and => true
  | _ => false

def isArithmetic : BinaryOp → Bool
  | add | sub | mul | div | mod => true
  | _ => false

end BinaryOp

inductive Expr where
  | literal (value : Value)
  | var (name : String)
  | field (object : Expr) (name : String)
  | index (object : Expr) (key : Expr)
  | unary (op : UnaryOp) (operand : Expr)
  | binary (op : BinaryOp) (left right : Expr)
  | call (function : String) (args : List Expr)
  deriving Inhabited

namespace Expr

mutual
/-- The same tree, with literals compared by `Value.same`. -/
def same : Expr → Expr → Bool
  | literal a, literal b => a.same b
  | var a, var b => a == b
  | field a f, field b g => a.same b && f == g
  | index a i, index b j => a.same b && i.same j
  | unary o a, unary p b => o == p && a.same b
  | binary o a c, binary p b d => o == p && a.same b && c.same d
  | call f as, call g bs => f == g && sameArgs as bs
  | _, _ => false
termination_by structural e => e

def sameArgs : List Expr → List Expr → Bool
  | [], [] => true
  | a :: as, b :: bs => a.same b && sameArgs as bs
  | _, _ => false
termination_by structural es => es
end

end Expr

/-- The head of a loop: `item in collection`, or `index, item in collection`. -/
structure LoopHeader where
  index : Option String
  item : String
  collection : Expr
  deriving Inhabited

end FormLetter
