import FormLetter.Value.Operators

namespace FormLetter

/-- The functions that expressions can call, by name. A function may fail with a reason. -/
abbrev Functions := String → Option (List Value → Except String Value)

def Functions.none : Functions := fun _ => Option.none

namespace Expr

mutual
/-- Missing variables, fields and items are null. The operands of `&` and `|` are evaluated only as
far as they decide the result, and the arguments of a function only if it exists. -/
def eval (functions : Functions) (context : Context) : Expr → Except EvalError Value
  | literal value => .ok value
  | var name => .ok ((context.get? name).getD .null)
  | field object name => do
    let object ← object.eval functions context
    return (object.member? name).getD .null
  | index object key => do
    let object ← object.eval functions context
    let key ← key.eval functions context
    object.at? key
  | unary op operand => do
    let operand ← operand.eval functions context
    Value.unary op operand
  | binary .and left right => do
    let left ← left.eval functions context
    if left.truthy then
      let right ← right.eval functions context
      return .bool right.truthy
    else return .bool false
  | binary .or left right => do
    let left ← left.eval functions context
    if left.truthy then return .bool true
    else
      let right ← right.eval functions context
      return .bool right.truthy
  | binary op left right => do
    let left ← left.eval functions context
    let right ← right.eval functions context
    Value.binary op left right
  | call name args =>
    match functions name with
    | none => .error (.unknownFunction name)
    | some function => do
      let args ← evalArgs functions context args
      match function args with
      | .ok value => return value
      | .error reason => throw (.functionFailed name reason)
termination_by structural e => e

def evalArgs (functions : Functions) (context : Context) :
    List Expr → Except EvalError (List Value)
  | [] => .ok []
  | arg :: args => do
    let value ← arg.eval functions context
    let values ← evalArgs functions context args
    return value :: values
termination_by structural es => es
end

end Expr

end FormLetter
