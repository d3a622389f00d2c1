import FormLetter.Expr.Parser
import FormLetter.Proofs.Outcome

namespace FormLetter.Parser

open Outcome

/-- A result without the fact about the tokens after it. -/
def plain {P : List Token → Prop} (r : Except ParseError (α × { rest : List Token // P rest })) :
    Except ParseError (α × List Token) :=
  r.map fun found => (found.1, found.2.1)

theorem plain_bind {P Q : List Token → Prop}
    (r : Except ParseError (α × { rest : List Token // P rest }))
    {f : α × { rest : List Token // P rest } →
      Except ParseError (β × { rest : List Token // Q rest })}
    {g : α × List Token → Except ParseError (β × List Token)}
    (h : ∀ a rest, plain (f (a, rest)) = g (a, rest.1)) : plain (r >>= f) = plain r >>= g := by
  cases r with
  | error e => rfl
  | ok found => exact h found.1 found.2

theorem plain_level (stop : Nat) (l : Level) (ts : List Token) :
    plain (level stop l ts) = (do
      let (left, rest) ← plain (operand stop l ts)
      plain (chain stop l left rest)) := by
  rw [level]
  apply plain_bind
  intro left rest
  dsimp only
  cases chain stop l left rest.1 <;> rfl

theorem plain_operand (stop : Nat) (l : Level) (ts : List Token) :
    plain (operand stop l ts) =
      match l.tighter? with
      | some tighter => plain (level stop tighter ts)
      | none => plain (unary stop ts) := by
  rw [operand]
  split <;> (rename_i h; rw [h])

theorem plain_chain (stop : Nat) (l : Level) (left : Expr) (ts : List Token) :
    plain (chain stop l left ts) =
      match ts with
      | ⟨.symbol s, _⟩ :: rest =>
        match l.operator? s with
        | none => .ok (left, ts)
        | some op => do
          let (right, rest) ← plain (operand stop l rest)
          plain (chain stop l (.binary op left right) rest)
      | _ => .ok (left, ts) := by
  rw [chain.eq_def]
  rcases ts with _ | ⟨⟨kind, p⟩, rest⟩
  · rfl
  · cases kind with
    | symbol s =>
      dsimp only
      cases l.operator? s with
      | none => rfl
      | some op =>
        apply plain_bind
        intro right rest
        dsimp only
        cases chain stop l (.binary op left right) rest.1 <;> rfl
    | _ => rfl

theorem plain_unary (stop : Nat) (ts : List Token) :
    plain (unary stop ts) =
      match ts with
      | ⟨.symbol s, _⟩ :: rest =>
        match UnaryOp.ofSymbol? s with
        | none => plain (accessed stop ts)
        | some op => do
          let (e, rest) ← plain (unary stop rest)
          return (.unary op e, rest)
      | _ => plain (accessed stop ts) := by
  rw [unary.eq_def]
  rcases ts with _ | ⟨⟨kind, p⟩, rest⟩
  · rfl
  · cases kind with
    | symbol s =>
      dsimp only
      cases UnaryOp.ofSymbol? s with
      | none => rfl
      | some op => exact plain_bind _ fun e rest => rfl
    | _ => rfl

theorem plain_accessed (stop : Nat) (ts : List Token) :
    plain (accessed stop ts) = (do
      let (e, rest) ← plain (primary stop ts)
      plain (accesses stop e rest)) := by
  rw [accessed]
  apply plain_bind
  intro e rest
  dsimp only
  cases accesses stop e rest.1 <;> rfl

theorem plain_accesses (stop : Nat) (object : Expr) (ts : List Token) :
    plain (accesses stop object ts) =
      match ts with
      | ⟨.symbol .dot, _⟩ :: ⟨.name field, _⟩ :: rest =>
        plain (accesses stop (.field object field) rest)
      | ⟨.symbol .dot, _⟩ :: ⟨.int n, _⟩ :: rest =>
        plain (accesses stop (.index object (.literal (.int n))) rest)
      | ⟨.symbol .dot, _⟩ :: rest => .error (unexpected stop .fieldName rest)
      | ⟨.symbol .openBracket, _⟩ :: rest => do
        let (key, rest) ← plain (level stop .or rest)
        match rest with
        | ⟨.symbol .closeBracket, _⟩ :: rest => plain (accesses stop (.index object key) rest)
        | rest => .error (unexpected stop .closeBracket rest)
      | _ => .ok (object, ts) := by
  rw [accesses.eq_def]
  rcases ts with _ | ⟨⟨kind, p⟩, rest⟩
  · rfl
  · cases kind with
    | symbol s =>
      cases s with
      | dot =>
        rcases rest with _ | ⟨⟨kind, q⟩, rest⟩
        · rfl
        · cases kind with
          | name field =>
            dsimp only
            cases accesses stop (.field object field) rest <;> rfl
          | int n =>
            dsimp only
            cases accesses stop (.index object (.literal (.int n))) rest <;> rfl
          | _ => rfl
      | openBracket =>
        apply plain_bind
        intro key after
        rcases after with ⟨_ | ⟨⟨kind, q⟩, after⟩, h⟩
        · rfl
        · cases kind with
          | symbol s =>
            cases s with
            | closeBracket =>
              dsimp only
              cases accesses stop (.index object key) after <;> rfl
            | _ => rfl
          | _ => rfl
      | _ => rfl
    | _ => rfl

theorem plain_primary (stop : Nat) (ts : List Token) :
    plain (primary stop ts) =
      match ts with
      | ⟨.int n, _⟩ :: rest => .ok (.literal (.int n), rest)
      | ⟨.float x, _⟩ :: rest => .ok (.literal (.float x), rest)
      | ⟨.string s, _⟩ :: rest => .ok (.literal (.string s), rest)
      | ⟨.name name, _⟩ :: rest =>
        match Value.ofName? name with
        | some value => .ok (.literal value, rest)
        | none =>
          match rest with
          | ⟨.symbol .openParen, _⟩ :: ⟨.symbol .closeParen, _⟩ :: rest => .ok (.call name [], rest)
          | ⟨.symbol .openParen, _⟩ :: rest => do
            let (args, rest) ← plain (arguments stop rest)
            return (.call name args, rest)
          | rest => .ok (.var name, rest)
      | ⟨.symbol .openParen, _⟩ :: rest => do
        let (e, rest) ← plain (level stop .or rest)
        match rest with
        | ⟨.symbol .closeParen, _⟩ :: rest => .ok (e, rest)
        | rest => .error (unexpected stop .closeParen rest)
      | ts => .error (unexpected stop .expression ts) := by
  rw [primary.eq_def]
  rcases ts with _ | ⟨⟨kind, p⟩, rest⟩
  · rfl
  · cases kind with
    | name name =>
      dsimp only
      cases Value.ofName? name with
      | some value => rfl
      | none =>
        rcases rest with _ | ⟨⟨kind, q⟩, rest⟩
        · rfl
        · cases kind with
          | symbol s =>
            cases s with
            | openParen =>
              rcases rest with _ | ⟨⟨kind, r⟩, rest⟩
              · exact plain_bind _ fun args rest => rfl
              · cases kind with
                | symbol s =>
                  cases s with
                  | closeParen => rfl
                  | _ => exact plain_bind _ fun args rest => rfl
                | _ => exact plain_bind _ fun args rest => rfl
            | _ => rfl
          | _ => rfl
    | symbol s =>
      cases s with
      | openParen =>
        apply plain_bind
        intro e after
        rcases after with ⟨_ | ⟨⟨kind, q⟩, after⟩, h⟩
        · rfl
        · cases kind with
          | symbol s => cases s <;> rfl
          | _ => rfl
      | _ => rfl
    | _ => rfl

theorem plain_arguments (stop : Nat) (ts : List Token) :
    plain (arguments stop ts) = (do
      let (arg, rest) ← plain (level stop .or ts)
      match rest with
      | ⟨.symbol .comma, _⟩ :: rest => do
        let (args, rest) ← plain (arguments stop rest)
        return (arg :: args, rest)
      | ⟨.symbol .closeParen, _⟩ :: rest => .ok ([arg], rest)
      | rest => .error (unexpected stop .commaOrCloseParen rest)) := by
  rw [arguments]
  apply plain_bind
  intro arg after
  rcases after with ⟨_ | ⟨⟨kind, p⟩, after⟩, h⟩
  · rfl
  · cases kind with
    | symbol s =>
      cases s with
      | comma => exact plain_bind _ fun args rest => rfl
      | _ => rfl
    | _ => rfl

end FormLetter.Parser
