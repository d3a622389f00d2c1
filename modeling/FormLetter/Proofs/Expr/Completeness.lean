import FormLetter.Proofs.Expr.Soundness

namespace FormLetter

open Outcome
open FormLetter.Parser

/-- Tokens with which an operand of a level does not go on. -/
def Level.Follows (l : Level) (ts : List Token) : Prop :=
  ∀ s p us, ts = ⟨.symbol s, p⟩ :: us → s ≠ .dot ∧ s ≠ .openBracket ∧ s ≠ .openParen ∧
    ∀ m : Level, m.height < l.height → m.operator? s = none

namespace Level

theorem Follows.tighten (h : Follows l ts) (hm : m.height ≤ l.height) : Follows m ts := by
  intro s p us ht
  obtain ⟨hd, hb, hp, ho⟩ := h s p us ht
  exact ⟨hd, hb, hp, fun n hn => ho n (Nat.lt_of_lt_of_le hn hm)⟩

theorem follows_nil (l : Level) : l.Follows [] := by
  intro s p us h
  cases h

/-- An operand ends before an operator of its level. -/
theorem follows_operator {l : Level} (h : l.operator? s = some op) :
    l.Follows (⟨.symbol s, p⟩ :: ts) := by
  intro t q us hx
  cases hx
  obtain ⟨hd, hb, hp⟩ := operator?_ne h
  refine ⟨hd, hb, hp, fun m hm => ?_⟩
  cases ho : m.operator? s with
  | none => rfl
  | some op' =>
    obtain rfl := eq_of_operator? h ho
    exact absurd hm (Nat.lt_irrefl _)

/-- Symbols that end a whole expression. -/
def closers : List Symbol := [.closeParen, .closeBracket, .comma]

theorem follows_closer (hs : s ∈ closers) (l : Level) : l.Follows (⟨.symbol s, p⟩ :: ts) := by
  intro t q us hx
  cases hx
  simp only [closers, List.mem_cons, List.not_mem_nil, or_false] at hs
  rcases hs with rfl | rfl | rfl <;>
    exact ⟨by simp, by simp, by simp, fun m _ => by cases m <;> rfl⟩

end Level

/-- Tokens that do not make a call of the name before them. -/
def NotCalled (ts : List Token) : Prop :=
  ∀ p us, ts ≠ ⟨.symbol .openParen, p⟩ :: us

theorem Level.Follows.notCalled (h : Follows l ts) : NotCalled ts := by
  rintro p us rfl
  exact (h _ _ _ rfl).2.2.1 rfl

namespace Parser

theorem chain_ends {l : Level} (h : ∀ s p us, ts = ⟨.symbol s, p⟩ :: us → l.operator? s = none)
    (stop : Nat) (left : Expr) : plain (chain stop l left ts) = .ok (left, ts) := by
  rw [plain_chain]
  split
  · rw [h _ _ _ rfl]
  · rfl

theorem chain_ends_closer (hs : s ∈ Level.closers) (stop : Nat) (l : Level) (left : Expr) :
    plain (chain stop l left (⟨.symbol s, p⟩ :: ts)) = .ok (left, ⟨.symbol s, p⟩ :: ts) := by
  refine chain_ends ?_ stop left
  intro t q us hx
  cases hx
  simp only [Level.closers, List.mem_cons, List.not_mem_nil, or_false] at hs
  rcases hs with rfl | rfl | rfl <;> cases l <;> rfl

theorem accesses_ends (h : Level.Follows l ts) (stop : Nat) (object : Expr) :
    plain (accesses stop object ts) = .ok (object, ts) := by
  rw [plain_accesses]
  split
  · exact absurd rfl (h _ _ _ rfl).1
  · exact absurd rfl (h _ _ _ rfl).1
  · exact absurd rfl (h _ _ _ rfl).1
  · exact absurd rfl (h _ _ _ rfl).2.1
  · rfl

/-- The parsers of a category read a run as a tree. Chains and accesses are read up to where they
may go on, with the tree as what has been read so far. -/
def Reads (c : Category) (ks : List TokenKind) (e : Expr) : Prop :=
  ∀ stop ts rest, Takes ts ks rest →
    match c with
    | .level l => l.Follows rest → plain (level stop l ts) = plain (chain stop l e rest)
    | .unary => Level.product.Follows rest → plain (unary stop ts) = .ok (e, rest)
    | .accessed => NotCalled rest → plain (accessed stop ts) = plain (accesses stop e rest)
    | .primary => NotCalled rest → plain (primary stop ts) = .ok (e, rest)

theorem operand_complete {l : Level} (h : Reads l.operands ks e) (ht : Takes ts ks rest)
    (hf : l.Follows rest) (stop : Nat) : plain (operand stop l ts) = .ok (e, rest) := by
  rw [plain_operand]
  unfold Level.operands at h
  cases hm : l.tighter? with
  | some m =>
    rw [hm] at h
    have hlt := Level.height_tighter hm
    refine (h stop ts rest ht (hf.tighten (Nat.le_of_lt hlt))).trans ?_
    exact chain_ends (fun s p us hr => (hf s p us hr).2.2.2 m hlt) stop e
  | none =>
    rw [hm] at h
    exact h stop ts rest ht (hf.tighten (Nat.zero_le _))

/-- An expression in brackets or among arguments is read up to where it ends. -/
theorem level_complete_closer {l : Level} (h : Reads (.level l) ks e)
    (hs : s ∈ Level.closers) (ht : Takes ts ks (⟨.symbol s, p⟩ :: rest)) (stop : Nat) :
    plain (level stop l ts) = .ok (e, ⟨.symbol s, p⟩ :: rest) :=
  (h stop ts _ ht (Level.follows_closer hs l)).trans (chain_ends_closer hs stop l e)

theorem arguments_complete {args : List (List TokenKind × Expr)} (hne : args ≠ [])
    (h : ∀ arg ∈ args, Reads (.level .or) arg.1 arg.2)
    (ht : Takes ts (commaSeparated (args.map Prod.fst) ++ [.symbol .closeParen]) rest)
    (stop : Nat) : plain (arguments stop ts) = .ok (args.map Prod.snd, rest) := by
  induction args generalizing ts with
  | nil => exact absurd rfl hne
  | cons arg args ih =>
    obtain ⟨harg, hargs⟩ := List.forall_mem_cons.mp h
    cases args with
    | nil =>
      obtain ⟨us, hfirst, hr⟩ := takes_append.mp ht
      obtain ⟨p, vs, rfl, hv⟩ := takes_cons.mp hr
      obtain rfl := takes_nil.mp hv
      rw [plain_arguments, level_complete_closer (s := .closeParen) harg (by decide) hfirst]
      rfl
    | cons next args =>
      simp only [List.map_cons, commaSeparated, List.append_assoc, List.cons_append] at ht
      obtain ⟨us, hfirst, hr⟩ := takes_append.mp ht
      obtain ⟨p, vs, rfl, hv⟩ := takes_cons.mp hr
      rw [plain_arguments, level_complete_closer (s := .comma) harg (by decide) hfirst, ok_bind]
      dsimp only
      rw [ih (by simp) hargs hv]
      rfl

/-- A name with a parenthesis after it calls a function of the arguments that follow. -/
theorem primary_call (hv : Value.ofName? name = none)
    (hts : ∀ r us, ts ≠ ⟨.symbol .closeParen, r⟩ :: us) (stop p q : Nat) :
    plain (primary stop (⟨.name name, p⟩ :: ⟨.symbol .openParen, q⟩ :: ts)) =
      (plain (arguments stop ts)).map fun (args, rest) => (.call name args, rest) := by
  rw [plain_primary]
  simp only [hv]
  cases plain (arguments stop ts) <;> rfl

theorem primary_var (hv : Value.ofName? name = none) (h : NotCalled ts) (stop p : Nat) :
    plain (primary stop (⟨.name name, p⟩ :: ts)) = .ok (.var name, ts) := by
  rw [plain_primary]
  simp only [hv]
  split
  · exact absurd rfl (h _ _)
  · exact absurd rfl (h _ _)
  · rfl

/-- A run that starts as a primary expression does is no operator with its operand. -/
theorem unary_accessed (hk : Category.CanStart .accessed k) (stop p : Nat) (ts : List Token) :
    plain (unary stop (⟨k, p⟩ :: ts)) = plain (accessed stop (⟨k, p⟩ :: ts)) := by
  rw [plain_unary]
  cases k with
  | symbol s =>
    obtain rfl | h := hk
    · rfl
    · exact absurd rfl h.2.1
  | _ => rfl

end Parser

theorem commaSeparated_head (kss : List (List TokenKind)) (h : Derives c ks e) :
    ∃ k ls, commaSeparated (ks :: kss) = k :: ls ∧ c.CanStart k := by
  obtain ⟨k, ls, rfl, hk⟩ := h.head
  cases kss with
  | nil => exact ⟨k, ls, rfl, hk⟩
  | cons next kss => exact ⟨k, _, rfl, hk⟩

theorem Derives.reads (h : Derives c ks e) : Reads c ks e := by
  induction h with
  | operand hd ih =>
    intro stop ts rest ht hf
    rw [plain_level, operand_complete ih ht hf, ok_bind]
  | binary _ hop _ ihl ihr =>
    intro stop ts rest ht hf
    obtain ⟨us, hl, hr⟩ := takes_append.mp ht
    obtain ⟨p, vs, rfl, hright⟩ := takes_cons.mp hr
    rw [ihl stop ts _ hl (Level.follows_operator hop), plain_chain]
    simp only [hop]
    rw [operand_complete ihr hright hf, ok_bind]
  | unary hs _ ih =>
    intro stop ts rest ht hf
    obtain ⟨p, us, rfl, hr⟩ := takes_cons.mp ht
    rw [plain_unary]
    simp only [hs]
    rw [ih stop us rest hr hf]
    rfl
  | accessed hd ih =>
    intro stop ts rest ht hf
    obtain ⟨k, ls, rfl, hk⟩ := hd.head
    obtain ⟨p, us, rfl, _⟩ := takes_cons.mp ht
    rw [unary_accessed hk, ih stop _ rest ht hf.notCalled, accesses_ends hf]
  | primary _ ih =>
    intro stop ts rest ht hf
    rw [plain_accessed, ih stop ts rest ht hf, ok_bind]
  | field _ ih =>
    intro stop ts rest ht hf
    obtain ⟨us, ho, hdot⟩ := takes_append.mp ht
    obtain ⟨p, vs, rfl, hname⟩ := takes_cons.mp hdot
    obtain ⟨q, ws, rfl, hr⟩ := takes_cons.mp hname
    obtain rfl := takes_nil.mp hr
    rw [ih stop ts _ ho (by simp [NotCalled]), plain_accesses]
  | number _ ih =>
    intro stop ts rest ht hf
    obtain ⟨us, ho, hdot⟩ := takes_append.mp ht
    obtain ⟨p, vs, rfl, hint⟩ := takes_cons.mp hdot
    obtain ⟨q, ws, rfl, hr⟩ := takes_cons.mp hint
    obtain rfl := takes_nil.mp hr
    rw [ih stop ts _ ho (by simp [NotCalled]), plain_accesses]
  | index _ _ iho ihk =>
    intro stop ts rest ht hf
    obtain ⟨us, hkey, hclose⟩ := takes_append.mp ht
    obtain ⟨vs, ho, hopen⟩ := takes_append.mp hkey
    obtain ⟨p, ws, rfl, hk⟩ := takes_cons.mp hopen
    obtain ⟨q, us, rfl, hr⟩ := takes_cons.mp hclose
    obtain rfl := takes_nil.mp hr
    rw [iho stop ts _ ho (by simp [NotCalled]), plain_accesses]
    dsimp only
    rw [level_complete_closer (s := .closeBracket) ihk (by decide) hk, ok_bind]
  | int | float | string =>
    intro stop ts rest ht hf
    obtain ⟨p, us, rfl, hr⟩ := takes_cons.mp ht
    obtain rfl := takes_nil.mp hr
    rw [plain_primary]
  | word hv =>
    intro stop ts rest ht hf
    obtain ⟨p, us, rfl, hr⟩ := takes_cons.mp ht
    obtain rfl := takes_nil.mp hr
    rw [plain_primary]
    simp only [hv]
  | var hv =>
    intro stop ts rest ht hf
    obtain ⟨p, us, rfl, hr⟩ := takes_cons.mp ht
    obtain rfl := takes_nil.mp hr
    exact primary_var hv hf stop p
  | call args hv hd ih =>
    intro stop ts rest ht hf
    obtain ⟨p, us, rfl, hcall⟩ := takes_cons.mp ht
    obtain ⟨q, vs, rfl, ha⟩ := takes_cons.mp hcall
    cases args with
    | nil =>
      obtain ⟨r, ws, rfl, hr⟩ := takes_cons.mp ha
      obtain rfl := takes_nil.mp hr
      rw [plain_primary]
      simp only [hv]
      rfl
    | cons arg args =>
      obtain ⟨k, ls, hls, hk⟩ := commaSeparated_head (args.map Prod.fst) (hd arg (by simp))
      have hts : ∀ r us, vs ≠ ⟨.symbol .closeParen, r⟩ :: us := by
        rintro r us rfl
        rw [List.map_cons, hls] at ha
        obtain ⟨_, _, he, _⟩ := takes_cons.mp ha
        cases he
        rcases hk with h | ⟨h, _⟩ <;> cases h
      rw [primary_call hv hts, arguments_complete (by simp) ih ha]
      rfl
  | paren _ ih =>
    intro stop ts rest ht hf
    obtain ⟨p, us, rfl, hinner⟩ := takes_cons.mp ht
    obtain ⟨vs, hi, hclose⟩ := takes_append.mp hinner
    obtain ⟨q, ws, rfl, hr⟩ := takes_cons.mp hclose
    obtain rfl := takes_nil.mp hr
    rw [plain_primary]
    dsimp only
    rw [level_complete_closer (s := .closeParen) ih (by decide) hi, ok_bind]

namespace Parser

theorem expression_eq (tokens : Tokens) :
    expression tokens = plain (level tokens.stop .or tokens.items) := by
  rw [expression]
  cases level tokens.stop .or tokens.items <;> rfl

theorem whole_eq_ok {tokens : Tokens} :
    whole tokens = .ok e ↔ expression tokens = .ok (e, []) := by
  rw [whole]
  cases expression tokens with
  | error error => simp [error_bind]
  | ok found =>
    obtain ⟨e', rest⟩ := found
    cases rest <;> simp [ok_bind, pure_eq_ok, throw_eq_error]

/-- A tree is parsed from the front of tokens only if it is derived from those that are taken. -/
theorem derives_of_expression {tokens : Tokens} (h : expression tokens = .ok (e, rest)) :
    ∃ ks, Takes tokens.items ks rest ∧ Derives (.level .or) ks e := by
  rw [expression_eq] at h
  exact level_sound h

/-- Tokens are parsed as a tree if and only if the grammar derives the tree from them. -/
theorem whole_iff_derives {tokens : Tokens} :
    whole tokens = .ok e ↔ Derives (.level .or) (tokens.items.map Token.kind) e := by
  rw [whole_eq_ok]
  constructor
  · intro h
    obtain ⟨ks, ⟨us, hu, rfl⟩, hd⟩ := derives_of_expression h
    rwa [hu, List.append_nil]
  · intro h
    rw [expression_eq, h.reads tokens.stop tokens.items [] ⟨_, (List.append_nil _).symm, rfl⟩
      (Level.follows_nil _)]
    exact chain_ends (by simp) tokens.stop e

end Parser

end FormLetter
