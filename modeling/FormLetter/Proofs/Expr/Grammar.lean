import FormLetter.Expr.Parser

namespace FormLetter

/-- The binary operators, level by level. A single equality sign compares too. -/
theorem Level.operator?_eq_some_iff {l : Level} : l.operator? s = some op ↔
    (l, s, op) ∈ ([(.or, .or, .or), (.and, .and, .and),
      (.equality, .eq, .eq), (.equality, .assign, .eq), (.equality, .ne, .ne),
      (.comparison, .lt, .lt), (.comparison, .le, .le), (.comparison, .gt, .gt),
      (.comparison, .ge, .ge), (.sum, .plus, .add), (.sum, .minus, .sub),
      (.product, .star, .mul), (.product, .slash, .div), (.product, .percent, .mod)] :
        List (Level × Symbol × BinaryOp)) := by
  cases l <;> cases s <;> simp [operator?, eq_comm]

theorem Level.tighter?_eq_some_iff {l : Level} : l.tighter? = some m ↔
    (l, m) ∈ [(or, and), (and, equality), (equality, comparison), (comparison, sum),
      (sum, product)] := by
  cases l <;> simp [tighter?, eq_comm]

theorem UnaryOp.ofSymbol?_eq_some_iff : UnaryOp.ofSymbol? s = some op ↔
    (s, op) ∈ ([(.bang, .not), (.minus, .neg), (.plus, .plus)] : List (Symbol × UnaryOp)) := by
  cases s <;> simp [ofSymbol?, eq_comm]

theorem Value.ofName?_eq_some_iff : Value.ofName? name = some value ↔
    (name = "true" ∧ value = .bool true) ∨ (name = "false" ∧ value = .bool false) ∨
      ((name = "null" ∨ name = "nil") ∧ value = .null) := by
  unfold ofName?
  split <;> simp_all [eq_comm]

/-- What a run of tokens can be. -/
inductive Category where
  /-- A chain of operands with operators of one level between them. -/
  | level (l : Level)
  | unary
  | accessed
  | primary

/-- What the operands of a level are. -/
def Level.operands (l : Level) : Category :=
  match l.tighter? with
  | some tighter => .level tighter
  | none => .unary

def commaSeparated : List (List TokenKind) → List TokenKind
  | [] => []
  | [ks] => ks
  | ks :: kss => ks ++ .symbol .comma :: commaSeparated kss

inductive Derives : Category → List TokenKind → Expr → Prop where
  | operand : Derives l.operands ks e → Derives (.level l) ks e
  | binary : Derives (.level l) ks left → l.operator? s = some op → Derives l.operands ls right →
      Derives (.level l) (ks ++ .symbol s :: ls) (.binary op left right)
  | unary : UnaryOp.ofSymbol? s = some op → Derives .unary ks e →
      Derives .unary (.symbol s :: ks) (.unary op e)
  | accessed : Derives .accessed ks e → Derives .unary ks e
  | primary : Derives .primary ks e → Derives .accessed ks e
  | field : Derives .accessed ks object →
      Derives .accessed (ks ++ [.symbol .dot, .name name]) (.field object name)
  | number : Derives .accessed ks object →
      Derives .accessed (ks ++ [.symbol .dot, .int n]) (.index object (.literal (.int n)))
  | index : Derives .accessed ks object → Derives (.level .or) ls key →
      Derives .accessed (ks ++ .symbol .openBracket :: ls ++ [.symbol .closeBracket])
        (.index object key)
  | int : Derives .primary [.int n] (.literal (.int n))
  | float : Derives .primary [.float x] (.literal (.float x))
  | string : Derives .primary [.string s] (.literal (.string s))
  | word : Value.ofName? name = some value → Derives .primary [.name name] (.literal value)
  | var : Value.ofName? name = none → Derives .primary [.name name] (.var name)
  | call (args : List (List TokenKind × Expr)) : Value.ofName? name = none →
      (∀ arg ∈ args, Derives (.level .or) arg.1 arg.2) →
      Derives .primary
        (.name name :: .symbol .openParen :: commaSeparated (args.map Prod.fst) ++
          [.symbol .closeParen])
        (.call name (args.map Prod.snd))
  | paren : Derives (.level .or) ks e →
      Derives .primary (.symbol .openParen :: ks ++ [.symbol .closeParen]) e

/-- No symbol is an operator of two levels. -/
theorem Level.eq_of_operator? {l m : Level} (h : l.operator? s = some op)
    (h' : m.operator? s = some op') : l = m := by
  cases s <;> cases l <;> cases h <;> cases m <;> cases h' <;> rfl

theorem Level.operator?_ne {l : Level} (h : l.operator? s = some op) :
    s ≠ .dot ∧ s ≠ .openBracket ∧ s ≠ .openParen := by
  refine ⟨?_, ?_, ?_⟩ <;> (rintro rfl; cases l <;> cases h)

namespace Category

/-- The tokens that a run can start with. -/
def CanStart (c : Category) (k : TokenKind) : Prop :=
  match k with
  | .name _ | .int _ | .float _ | .string _ => True
  | .symbol s => s = .openParen ∨ (UnaryOp.ofSymbol? s).isSome ∧ (c ≠ .accessed ∧ c ≠ .primary)

theorem CanStart.widen {c d : Category} (h : c.CanStart k)
    (hd : d ≠ .accessed ∧ d ≠ .primary) : d.CanStart k := by
  cases k with
  | symbol s =>
    rcases h with h | ⟨h, _⟩
    · exact Or.inl h
    · exact Or.inr ⟨h, hd⟩
  | _ => trivial

end Category

/-- No run is empty, and an access never starts with an operator. -/
theorem Derives.head (h : Derives c ks e) : ∃ k ls, ks = k :: ls ∧ c.CanStart k := by
  induction h with
  | operand _ ih =>
    obtain ⟨k, ls, rfl, hk⟩ := ih
    exact ⟨k, ls, rfl, hk.widen (by simp)⟩
  | binary _ _ _ ih _ =>
    obtain ⟨k, ls, rfl, hk⟩ := ih
    exact ⟨k, _, rfl, hk⟩
  | unary hs _ _ => exact ⟨_, _, rfl, Or.inr ⟨by simp [hs], by simp⟩⟩
  | accessed _ ih =>
    obtain ⟨k, ls, rfl, hk⟩ := ih
    exact ⟨k, ls, rfl, hk.widen (by simp)⟩
  | primary _ ih =>
    obtain ⟨k, ls, rfl, hk⟩ := ih
    refine ⟨k, ls, rfl, ?_⟩
    cases k with
    | symbol s => exact hk.imp_right fun h => absurd rfl h.2.2
    | _ => trivial
  | field _ ih | number _ ih =>
    obtain ⟨k, ls, rfl, hk⟩ := ih
    exact ⟨k, _, rfl, hk⟩
  | index _ _ ih _ =>
    obtain ⟨k, ls, rfl, hk⟩ := ih
    exact ⟨k, _, rfl, hk⟩
  | int | float | string | word | var | call => exact ⟨_, _, rfl, trivial⟩
  | paren => exact ⟨_, _, rfl, Or.inl rfl⟩

namespace Category

/-- How far a run of tokens reaches: the tighter its parts hold together, the lower. -/
def looseness : Category → Nat
  | primary => 0
  | accessed => 1
  | unary => 2
  | level l => l.height + 3

/-- The category that the grammar goes on to if a run has no operator or access of its own. -/
def tighter : Category → Category
  | primary => primary
  | accessed => primary
  | unary => accessed
  | level l => l.operands

theorem looseness_tighter {c : Category} (h : c ≠ primary) :
    c.tighter.looseness + 1 = c.looseness := by
  cases c with
  | primary => exact absurd rfl h
  | level l => cases l <;> rfl
  | _ => rfl

theorem looseness_injective {c d : Category} (h : c.looseness = d.looseness) : c = d := by
  cases c with
  | level l =>
    cases d with
    | level m => cases l <;> cases m <;> first | rfl | cases h
    | _ => simp [looseness] at h
  | _ =>
    cases d with
    | level m => simp [looseness] at h
    | _ => first | rfl | cases h

/-- Chains of the loosest operators are as loose as any run. -/
theorem looseness_le_or (c : Category) : c.looseness ≤ (level .or).looseness := by
  cases c with
  | level l => cases l <;> decide
  | _ => simp [looseness]

end Category

theorem Level.looseness_operands (l : Level) :
    l.operands.looseness + 1 = (Category.level l).looseness :=
  Category.looseness_tighter (c := .level l) (by simp)

theorem Derives.ofTighter (h : Derives c.tighter ks e) : Derives c ks e := by
  cases c with
  | primary => exact h
  | accessed => exact .primary h
  | unary => exact .accessed h
  | level l => exact .operand h

/-- A run can stand wherever a looser one can. -/
theorem Derives.loosen (h : Derives c ks e) (d : Category) (hcd : c.looseness ≤ d.looseness) :
    Derives d ks e := by
  by_cases hd : c.looseness = d.looseness
  · rwa [← Category.looseness_injective hd]
  · have hd : d ≠ .primary := by
      rintro rfl
      exact hd (Nat.le_zero.mp hcd)
    have := Category.looseness_tighter hd
    exact (h.loosen d.tighter (by omega)).ofTighter
termination_by d.looseness

/-- Any run is a whole expression. -/
theorem Derives.loosest (h : Derives c ks e) : Derives (.level .or) ks e :=
  h.loosen (.level .or) c.looseness_le_or

end FormLetter
