import FormLetter.Expr.Display
import FormLetter.Proofs.Expr.Completeness

namespace FormLetter

/-- Names as they stand in source text. -/
def IsName (s : String) : Prop :=
  ∃ c cs, s.toList = c :: cs ∧ Text.startsName c = true ∧ ∀ d ∈ cs, Text.continuesName d = true

theorem isName_of_all (h : s.toList = c :: cs) (hc : Text.startsName c = true)
    (hcs : cs.all Text.continuesName = true) : IsName s :=
  ⟨c, cs, h, hc, List.all_eq_true.mp hcs⟩

/-- Finite doubles without a sign. -/
def Decimal.IsMagnitude (x : Float) : Prop :=
  x.toBits.toNat < infinityBits

/-- Tokens as they are read from source text. Numbers in it have no sign. -/
def TokenKind.Written : TokenKind → Prop
  | name s => IsName s
  | int n => 0 ≤ n.toInt
  | float x => Decimal.IsMagnitude x
  | string _ | symbol _ => True

namespace UnaryOp

def token : UnaryOp → Symbol
  | not => .bang
  | neg => .minus
  | plus => .plus

theorem ofSymbol?_token (op : UnaryOp) : ofSymbol? op.token = some op := by
  cases op <;> rfl

end UnaryOp

namespace BinaryOp

def token : BinaryOp → Symbol
  | or => .or
  | and => .and
  | eq => .eq
  | ne => .ne
  | lt => .lt
  | le => .le
  | gt => .gt
  | ge => .ge
  | add => .plus
  | sub => .minus
  | mul => .star
  | div => .slash
  | mod => .percent

def level : BinaryOp → Level
  | or => .or
  | and => .and
  | eq | ne => .equality
  | lt | le | gt | ge => .comparison
  | add | sub => .sum
  | mul | div | mod => .product

theorem operator?_token (op : BinaryOp) : op.level.operator? op.token = some op := by
  cases op <;> rfl

end BinaryOp

namespace Expr

/-- Values that literals stand for. -/
def IsLiteral : Value → Prop
  | .null | .bool _ | .string _ => True
  | .int n => (TokenKind.int n).Written
  | .float x => (TokenKind.float x).Written
  | .array _ | .object _ => False

/-- Names that stand for a variable or a function. -/
def IsReference (name : String) : Prop :=
  IsName name ∧ Value.ofName? name = none

mutual
/-- Trees that source text can stand for. -/
def Written : Expr → Prop
  | literal value => IsLiteral value
  | var name => IsReference name
  | field object name => object.Written ∧ IsName name
  | index object key => object.Written ∧ key.Written
  | unary _ operand => operand.Written
  | binary _ left right => left.Written ∧ right.Written
  | call function args => IsReference function ∧ AllWritten args
termination_by structural e => e

def AllWritten : List Expr → Prop
  | [] => True
  | arg :: args => arg.Written ∧ AllWritten args
termination_by structural es => es
end

theorem allWritten_iff {es : List Expr} : AllWritten es ↔ ∀ e ∈ es, e.Written := by
  induction es with
  | nil => simp [AllWritten]
  | cons e es ih => simp [AllWritten, ih]

def literalToken : Value → TokenKind
  | .bool true => .name "true"
  | .bool false => .name "false"
  | .int n => .int n
  | .float x => .float x
  | .string s => .string s
  | .null | .array _ | .object _ => .name "null"

def groupedTokens (needed : Bool) (ks : List TokenKind) : List TokenKind :=
  if needed then .symbol .openParen :: ks ++ [.symbol .closeParen] else ks

mutual
/-- The tokens of the display form. -/
def tokens : Expr → List TokenKind
  | literal value => [literalToken value]
  | var name => [.name name]
  | field object name =>
    groupedTokens (!object.isAccessible) object.tokens ++ [.symbol .dot, .name name]
  | index object key =>
    groupedTokens (!object.isAccessible) object.tokens ++ .symbol .openBracket :: key.tokens ++
      [.symbol .closeBracket]
  | unary op operand =>
    .symbol op.token :: (.symbol .openParen :: operand.tokens ++ [.symbol .closeParen])
  | binary op left right =>
    .symbol .openParen :: (left.tokens ++ .symbol op.token :: right.tokens) ++
      [.symbol .closeParen]
  | call function args =>
    .name function :: .symbol .openParen :: argTokens args ++ [.symbol .closeParen]
termination_by structural e => e

def argTokens : List Expr → List TokenKind
  | [] => []
  | [arg] => arg.tokens
  | arg :: args => arg.tokens ++ .symbol .comma :: argTokens args
termination_by structural es => es
end

theorem argTokens_eq (es : List Expr) : argTokens es = commaSeparated (es.map tokens) := by
  induction es with
  | nil => rfl
  | cons e es ih =>
    cases es with
    | nil => rfl
    | cons next es => exact congrArg (e.tokens ++ .symbol .comma :: ·) ih

end Expr

namespace Derives

/-- An operand is an expression of any level. -/
theorem anyLevel (h : Derives .unary ks e) (l : Level) : Derives (.level l) ks e :=
  h.loosen (.level l) (Nat.le_add_left 2 (l.height + 1))

theorem operands (h : Derives .unary ks e) (l : Level) : Derives l.operands ks e :=
  h.loosen l.operands (by cases l <;> simp [Level.operands, Level.tighter?, Category.looseness])

theorem grouped (h : Derives .unary ks e) : Derives .primary
    (.symbol .openParen :: ks ++ [.symbol .closeParen]) e :=
  .paren (h.anyLevel .or)

/-- A display form of an object is grouped unless it can be accessed as it is. -/
theorem groupedTokens {object : Expr} (h : Derives .unary ks object)
    (ha : object.isAccessible = true → Derives .accessed ks object) :
    Derives .accessed (Expr.groupedTokens (!object.isAccessible) ks) object := by
  unfold Expr.groupedTokens
  cases hb : object.isAccessible with
  | true => exact ha hb
  | false => exact .primary h.grouped

theorem literal (h : Expr.IsLiteral value) :
    Derives .primary [Expr.literalToken value] (.literal value) := by
  cases value with
  | null => exact .word rfl
  | bool b => cases b <;> exact .word rfl
  | int n => exact .int
  | float x => exact .float
  | string s => exact .string
  | array | object => cases h

end Derives

namespace Expr

mutual
theorem derives_tokens : (e : Expr) → e.Written → Derives .unary e.tokens e ∧
    (e.isAccessible = true → Derives .accessed e.tokens e)
  | .literal value, h => by
    have hl := (Derives.literal h).primary
    exact ⟨hl.accessed, fun _ => hl⟩
  | .var name, h => by
    have hv : Derives .accessed [.name name] (.var name) := .primary (.var h.2)
    exact ⟨hv.accessed, fun _ => hv⟩
  | .field object name, h => by
    obtain ⟨ho, ha⟩ := derives_tokens object h.1
    have hf : Derives .accessed (Expr.field object name).tokens (.field object name) :=
      (ho.groupedTokens ha).field
    exact ⟨hf.accessed, fun _ => hf⟩
  | .index object key, h => by
    obtain ⟨ho, ha⟩ := derives_tokens object h.1
    obtain ⟨hk, _⟩ := derives_tokens key h.2
    have hi := (ho.groupedTokens ha).index (hk.anyLevel .or)
    exact ⟨hi.accessed, fun _ => hi⟩
  | .unary op operand, h => by
    obtain ⟨ho, _⟩ := derives_tokens operand h
    exact ⟨.unary op.ofSymbol?_token ho.grouped.primary.accessed, fun ha => by cases ha⟩
  | .binary op left right, h => by
    obtain ⟨hl, _⟩ := derives_tokens left h.1
    obtain ⟨hr, _⟩ := derives_tokens right h.2
    have hb : Derives (.level op.level) (left.tokens ++ .symbol op.token :: right.tokens)
        (.binary op left right) :=
      .binary (hl.anyLevel _) op.operator?_token (hr.operands _)
    exact ⟨(Derives.paren hb.loosest).primary.accessed, fun ha => by cases ha⟩
  | .call function args, h => by
    have hargs := derives_argTokens args h.2
    have hc := (Derives.call (args.map fun e => (e.tokens, e)) h.1.2 (by simpa using hargs)).primary
    simp only [List.map_map, Function.comp_def, List.map_id', ← argTokens_eq] at hc
    exact ⟨hc.accessed, fun _ => hc⟩
termination_by structural e => e

theorem derives_argTokens : (es : List Expr) → AllWritten es →
    ∀ e ∈ es, Derives (.level .or) e.tokens e
  | [], _ => by simp
  | e :: es, h => by
    have he := (derives_tokens e h.1).1.anyLevel .or
    exact List.forall_mem_cons.mpr ⟨he, derives_argTokens es h.2⟩
termination_by structural es => es
end

end Expr

theorem Value.isLiteral_of_ofName? (h : ofName? name = some value) : Expr.IsLiteral value := by
  unfold ofName? at h
  split at h <;> cases h <;> trivial

theorem mem_commaSeparated {kss : List (List TokenKind)} (hks : ks ∈ kss) (hk : k ∈ ks) :
    k ∈ commaSeparated kss := by
  induction kss with
  | nil => cases hks
  | cons first kss ih =>
    cases kss with
    | nil => simpa [commaSeparated, List.mem_singleton.mp hks] using hk
    | cons next kss =>
      rcases List.mem_cons.mp hks with rfl | hks
      · exact List.mem_append_left _ hk
      · exact List.mem_append_right _ (List.mem_cons_of_mem _ (ih hks))

/-- A tree that is derived from tokens of source text can stand in source text. -/
theorem Derives.written (h : Derives c ks e) (hk : ∀ k ∈ ks, k.Written) : e.Written := by
  induction h with
  | operand _ ih | accessed _ ih | primary _ ih => exact ih hk
  | binary _ _ _ ihl ihr =>
    exact ⟨ihl fun k h => hk k (by simp [h]), ihr fun k h => hk k (by simp [h])⟩
  | unary _ _ ih => exact ih fun k h => hk k (by simp [h])
  | field _ ih => exact ⟨ih fun k h => hk k (by simp [h]), hk (.name _) (by simp)⟩
  | number _ ih => exact ⟨ih fun k h => hk k (by simp [h]), hk (.int _) (by simp)⟩
  | index _ _ iho ihk =>
    exact ⟨iho fun k h => hk k (by simp [h]), ihk fun k h => hk k (by simp [h])⟩
  | int => exact hk (.int _) (by simp)
  | float => exact hk (.float _) (by simp)
  | string => trivial
  | word hv => exact Value.isLiteral_of_ofName? hv
  | var hv => exact ⟨hk (.name _) (by simp), hv⟩
  | call args hv _ ih =>
    refine ⟨⟨hk (.name _) (by simp), hv⟩, Expr.allWritten_iff.mpr fun e he => ?_⟩
    obtain ⟨arg, harg, rfl⟩ := List.mem_map.mp he
    refine ih arg harg fun k h => hk k ?_
    have := mem_commaSeparated (List.mem_map_of_mem (f := Prod.fst) harg) h
    simp [this]
  | paren _ ih => exact ih fun k h => hk k (by simp [h])

end FormLetter
