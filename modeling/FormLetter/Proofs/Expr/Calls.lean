import FormLetter.Expr.Eval
import FormLetter.Proofs.Outcome

namespace FormLetter

open Outcome

namespace Value

theorem intArithmetic_ne_unknown (op : BinaryOp) (a b : Int64) (name : String) :
    intArithmetic op a b ≠ .error (.unknownFunction name) := by
  unfold intArithmetic
  split
  · simp
  · simp
  · simp
  · split <;> simp
  · split <;> simp

theorem floatArithmetic_ne_unknown (op : BinaryOp) (left right : Value) (a b : Float)
    (name : String) : floatArithmetic op left right a b ≠ .error (.unknownFunction name) := by
  unfold floatArithmetic
  split
  · simp
  · simp
  · simp
  · split <;> simp
  · split
    · split <;> simp
    · simp

theorem arithmetic_ne_unknown (op : BinaryOp) (left right : Value) (name : String) :
    arithmetic op left right ≠ .error (.unknownFunction name) := by
  unfold arithmetic
  split
  · exact intArithmetic_ne_unknown op _ _ name
  · split
    · exact floatArithmetic_ne_unknown op left right _ _ name
    · simp
    · simp

theorem ordering_ne_unknown (op : BinaryOp) (left right : Value) (test : Ordering → Bool)
    (name : String) : ordering op left right test ≠ .error (.unknownFunction name) := by
  unfold ordering
  split <;> simp

/-- Operators look up no functions. -/
theorem binary_ne_unknown (op : BinaryOp) (left right : Value) (name : String) :
    binary op left right ≠ .error (.unknownFunction name) := by
  cases op with
  | eq | ne | and | or => simp [binary]
  | lt | le | gt | ge => exact ordering_ne_unknown _ left right _ name
  | add =>
    simp only [binary]
    split
    · simp
    · simp
    · exact arithmetic_ne_unknown .add left right name
  | sub | mul | div | mod => exact arithmetic_ne_unknown _ left right name

theorem unary_ne_unknown (op : UnaryOp) (operand : Value) (name : String) :
    unary op operand ≠ .error (.unknownFunction name) := by
  unfold unary
  split <;> simp

theorem at?_ne_unknown (container key : Value) (name : String) :
    container.at? key ≠ .error (.unknownFunction name) := by
  unfold at?
  split
  · split <;> simp
  · split <;> simp
  · simp
  · simp

end Value

namespace Expr

mutual
/-- The functions that an expression calls. Those in operands that are not evaluated count too. -/
def calls : Expr → List String
  | literal _ | var _ => []
  | field object _ => object.calls
  | index object key => object.calls ++ key.calls
  | unary _ operand => operand.calls
  | binary _ left right => left.calls ++ right.calls
  | call function args => function :: argCalls args
termination_by structural e => e

def argCalls : List Expr → List String
  | [] => []
  | arg :: args => arg.calls ++ argCalls args
termination_by structural es => es
end

variable {functions : Functions} {context : Context}

/-- A binary operator fails where an operand does, or where it is applied to their values. -/
theorem eval_binary_error (h : (binary op left right).eval functions context = .error error) :
    left.eval functions context = .error error ∨ right.eval functions context = .error error ∨
      ∃ a b, Value.binary op a b = .error error := by
  cases op with
  | and =>
    rw [eval] at h
    rcases bind_eq_error.mp h with h | ⟨a, _, h⟩
    · exact .inl h
    · split at h
      · rcases bind_eq_error.mp h with h | ⟨b, _, h⟩
        · exact .inr (.inl h)
        · cases h
      · cases h
  | or =>
    rw [eval] at h
    rcases bind_eq_error.mp h with h | ⟨a, _, h⟩
    · exact .inl h
    · split at h
      · cases h
      · rcases bind_eq_error.mp h with h | ⟨b, _, h⟩
        · exact .inr (.inl h)
        · cases h
  | _ =>
    rw [eval] at h
    · rcases bind_eq_error.mp h with h | ⟨a, _, h⟩
      · exact .inl h
      · rcases bind_eq_error.mp h with h | ⟨b, _, h⟩
        · exact .inr (.inl h)
        · exact .inr (.inr ⟨a, b, h⟩)
    · simp
    · simp

/-- An operator that is not one of logic is applied to the values of its operands. -/
theorem eval_binary (hop : op.isLogical = false) (hl : left.eval functions context = .ok a)
    (hr : right.eval functions context = .ok b) :
    (binary op left right).eval functions context = Value.binary op a b := by
  cases op with
  | and | or => cases hop
  | _ =>
    rw [eval, hl, ok_bind, hr, ok_bind]
    · simp
    · simp

mutual
/-- A function that turns out to be missing is one that the expression calls. -/
theorem mem_calls_of_eval : (e : Expr) →
    e.eval functions context = .error (.unknownFunction name) →
    name ∈ e.calls ∧ functions name = none
  | literal _, h | var _, h => by cases h
  | field object _, h => by
    rw [eval] at h
    rcases bind_eq_error.mp h with h | ⟨v, _, h⟩
    · exact mem_calls_of_eval object h
    · cases h
  | index object key, h => by
    rw [eval] at h
    rcases bind_eq_error.mp h with h | ⟨v, _, h⟩
    · exact (mem_calls_of_eval object h).imp_left (List.mem_append_left _)
    · rcases bind_eq_error.mp h with h | ⟨k, _, h⟩
      · exact (mem_calls_of_eval key h).imp_left (List.mem_append_right _)
      · exact absurd h (v.at?_ne_unknown k name)
  | unary op operand, h => by
    rw [eval] at h
    rcases bind_eq_error.mp h with h | ⟨v, _, h⟩
    · exact mem_calls_of_eval operand h
    · exact absurd h (Value.unary_ne_unknown op v name)
  | binary op left right, h => by
    rcases eval_binary_error h with h | h | ⟨a, b, h⟩
    · exact (mem_calls_of_eval left h).imp_left (List.mem_append_left _)
    · exact (mem_calls_of_eval right h).imp_left (List.mem_append_right _)
    · exact absurd h (Value.binary_ne_unknown op a b name)
  | call function args, h => by
    rw [eval] at h
    split at h
    · rename_i hf
      cases h
      exact ⟨List.mem_cons_self, hf⟩
    · rcases bind_eq_error.mp h with h | ⟨values, _, h⟩
      · exact (mem_argCalls_of_eval args h).imp_left (List.mem_cons_of_mem _)
      · split at h <;> cases h
termination_by structural e => e

theorem mem_argCalls_of_eval : (es : List Expr) →
    evalArgs functions context es = .error (.unknownFunction name) →
    name ∈ argCalls es ∧ functions name = none
  | [], h => by cases h
  | arg :: args, h => by
    rw [evalArgs] at h
    rcases bind_eq_error.mp h with h | ⟨value, _, h⟩
    · exact (mem_calls_of_eval arg h).imp_left (List.mem_append_left _)
    · rcases bind_eq_error.mp h with h | ⟨values, _, h⟩
      · exact (mem_argCalls_of_eval args h).imp_left (List.mem_append_right _)
      · cases h
termination_by structural es => es
end

end Expr

end FormLetter
