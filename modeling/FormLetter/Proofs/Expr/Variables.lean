import FormLetter.Expr.Eval

namespace FormLetter.Expr

mutual
/-- The variables that an expression reads. Those of operands that are not evaluated count too. -/
def vars : Expr → List String
  | literal _ => []
  | var name => [name]
  | field object _ => object.vars
  | index object key => object.vars ++ key.vars
  | unary _ operand => operand.vars
  | binary _ left right => left.vars ++ right.vars
  | call _ args => argVars args
termination_by structural e => e

def argVars : List Expr → List String
  | [] => []
  | arg :: args => arg.vars ++ argVars args
termination_by structural es => es
end

mutual
theorem eval_congr (functions : Functions) {c c' : Context} : (e : Expr) →
    (∀ v ∈ e.vars, c.get? v = c'.get? v) → e.eval functions c = e.eval functions c'
  | literal _, _ => rfl
  | var name, h => by
    have hv := h name (by simp [vars])
    rw [eval, eval, hv]
  | field object _, h => by
    have ho := eval_congr functions object h
    rw [eval, eval, ho]
  | index object key, h => by
    have ho := eval_congr functions object fun v hv => h v (by simp [vars, hv])
    have hk := eval_congr functions key fun v hv => h v (by simp [vars, hv])
    rw [eval, eval, ho, hk]
  | unary _ operand, h => by
    have ho := eval_congr functions operand h
    rw [eval, eval, ho]
  | binary op left right, h => by
    have hl := eval_congr functions left fun v hv => h v (by simp [vars, hv])
    have hr := eval_congr functions right fun v hv => h v (by simp [vars, hv])
    cases op <;> simp only [eval, hl, hr]
  | call _ args, h => by
    have ha := evalArgs_congr functions args h
    rw [eval, eval, ha]
termination_by structural e => e

theorem evalArgs_congr (functions : Functions) {c c' : Context} : (es : List Expr) →
    (∀ v ∈ argVars es, c.get? v = c'.get? v) → evalArgs functions c es = evalArgs functions c' es
  | [], _ => rfl
  | arg :: args, h => by
    have hf := eval_congr functions arg fun v hv => h v (by simp [argVars, hv])
    have hr := evalArgs_congr functions args fun v hv => h v (by simp [argVars, hv])
    rw [evalArgs, evalArgs, hf, hr]
termination_by structural es => es
end

end FormLetter.Expr
