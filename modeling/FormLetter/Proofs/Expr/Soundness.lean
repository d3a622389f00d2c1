import FormLetter.Proofs.Expr.Grammar
import FormLetter.Proofs.Expr.Steps

namespace FormLetter.Parser

open Outcome

theorem plain_spec {α : Type} {P : List Token → Prop} {a : α}
    {r : Except ParseError (α × { rest : List Token // P rest })} (h : plain r = .ok (a, rest)) :
    P rest := by
  obtain ⟨found, _, h⟩ := map_eq_ok.mp h
  cases h
  exact found.2.2

/-- The tokens taken to get from one list to another. -/
def Takes (ts : List Token) (ks : List TokenKind) (rest : List Token) : Prop :=
  ∃ us, ts = us ++ rest ∧ us.map Token.kind = ks

theorem Takes.nil (ts : List Token) : Takes ts [] ts := ⟨[], rfl, rfl⟩

theorem Takes.cons (t : Token) (h : Takes ts ks rest) : Takes (t :: ts) (t.kind :: ks) rest := by
  obtain ⟨us, rfl, rfl⟩ := h
  exact ⟨t :: us, rfl, rfl⟩

theorem takes_nil : Takes ts [] rest ↔ ts = rest := by
  constructor
  · intro hx
    obtain ⟨us, rfl, h⟩ := hx
    obtain rfl := List.map_eq_nil_iff.mp h
    rfl
  · rintro rfl
    exact .nil ts

theorem Takes.append (h : Takes ts ks us) (h' : Takes us ls rest) :
    Takes ts (ks ++ ls) rest := by
  obtain ⟨vs, rfl, rfl⟩ := h
  obtain ⟨ws, rfl, rfl⟩ := h'
  exact ⟨vs ++ ws, by rw [List.append_assoc], List.map_append⟩

theorem takes_cons : Takes ts (k :: ks) rest ↔ ∃ p us, ts = ⟨k, p⟩ :: us ∧ Takes us ks rest := by
  constructor
  · intro hx
    obtain ⟨us, rfl, h⟩ := hx
    cases us with
    | nil => cases h
    | cons t us =>
      cases h
      exact ⟨t.position, us ++ rest, rfl, us, rfl, rfl⟩
  · intro hx
    obtain ⟨p, us, rfl, h⟩ := hx
    exact h.cons ⟨k, p⟩

theorem takes_append :
    Takes ts (ks ++ ls) rest ↔ ∃ us, Takes ts ks us ∧ Takes us ls rest := by
  constructor
  · intro hx
    obtain ⟨us, rfl, h⟩ := hx
    obtain ⟨vs, ws, rfl, rfl, rfl⟩ := List.map_eq_append_iff.mp h
    exact ⟨ws ++ rest, ⟨vs, List.append_assoc .., rfl⟩, ws, rfl, rfl⟩
  · intro hx
    obtain ⟨us, h, h'⟩ := hx
    exact h.append h'

-- The recursion is that of the parsers: fewer tokens, or the same tokens and a tighter level.
mutual
theorem level_sound (h : plain (level stop l ts) = .ok (e, rest)) :
    ∃ ks, Takes ts ks rest ∧ Derives (.level l) ks e := by
  rw [plain_level] at h
  obtain ⟨⟨left, us⟩, ho, h⟩ := bind_eq_ok.mp h
  have hlt := plain_spec ho
  obtain ⟨ks, hk, hd⟩ := operand_sound ho
  obtain ⟨ls, hl, he⟩ := chain_sound h (.operand hd)
  exact ⟨_, hk.append hl, he⟩
termination_by (ts.length, 2 * l.height + 5)
decreasing_by
  · exact Prod.Lex.right _ (by omega)
  · exact Prod.Lex.left _ _ hlt

theorem operand_sound (h : plain (operand stop l ts) = .ok (e, rest)) :
    ∃ ks, Takes ts ks rest ∧ Derives l.operands ks e := by
  rw [plain_operand] at h
  unfold Level.operands
  cases ht : l.tighter? with
  | some tighter =>
    rw [ht] at h
    exact level_sound h
  | none =>
    rw [ht] at h
    exact unary_sound h
termination_by (ts.length, 2 * l.height + 4)
decreasing_by
  · exact Prod.Lex.right _ (by omega)
  · exact Prod.Lex.right _ (by have := Level.height_tighter ht; omega)

theorem chain_sound (h : plain (chain stop l left ts) = .ok (e, rest))
    (hl : Derives (.level l) ks left) :
    ∃ ls, Takes ts ls rest ∧ Derives (.level l) (ks ++ ls) e := by
  have hstop (h : Except.ok (left, ts) = (.ok (e, rest) : Except ParseError _)) :
      ∃ ls, Takes ts ls rest ∧ Derives (.level l) (ks ++ ls) e := by
    cases h
    exact ⟨[], .nil _, by rwa [List.append_nil]⟩
  rw [plain_chain] at h
  generalize hts : ts = tokens at h hstop ⊢
  split at h
  · rename_i s p us
    split at h
    · exact hstop h
    · rename_i op hop
      obtain ⟨⟨right, vs⟩, ho, h⟩ := bind_eq_ok.mp h
      have hlt := plain_spec ho
      obtain ⟨ls, hls, hr⟩ := operand_sound ho
      obtain ⟨ms, hms, he⟩ := chain_sound h (.binary hl hop hr)
      exact ⟨.symbol s :: ls ++ ms, (hls.cons ⟨.symbol s, p⟩).append hms, by
        rwa [← List.append_assoc]⟩
  · exact hstop h
termination_by (ts.length, 0)
decreasing_by
  · exact Prod.Lex.left _ _ (by simp [hts])
  · exact Prod.Lex.left _ _ (by simp only [hts, List.length_cons]; omega)

theorem unary_sound (h : plain (unary stop ts) = .ok (e, rest)) :
    ∃ ks, Takes ts ks rest ∧ Derives .unary ks e := by
  have haccessed (h : plain (accessed stop ts) = .ok (e, rest)) :
      ∃ ks, Takes ts ks rest ∧ Derives .unary ks e := by
    obtain ⟨ks, hk, hd⟩ := accessed_sound h
    exact ⟨ks, hk, .accessed hd⟩
  rw [plain_unary] at h
  generalize hts : ts = tokens at h haccessed ⊢
  split at h
  · rename_i s p us
    split at h
    · exact haccessed h
    · rename_i op hop
      obtain ⟨⟨operand, vs⟩, ho, h⟩ := bind_eq_ok.mp h
      cases h
      obtain ⟨ks, hk, hd⟩ := unary_sound ho
      exact ⟨_, hk.cons ⟨.symbol s, p⟩, .unary hop hd⟩
  · exact haccessed h
termination_by (ts.length, 3)
decreasing_by
  · exact Prod.Lex.right _ (by omega)
  · exact Prod.Lex.left _ _ (by simp [hts])

theorem accessed_sound (h : plain (accessed stop ts) = .ok (e, rest)) :
    ∃ ks, Takes ts ks rest ∧ Derives .accessed ks e := by
  rw [plain_accessed] at h
  obtain ⟨⟨object, us⟩, hp, h⟩ := bind_eq_ok.mp h
  have hlt := plain_spec hp
  obtain ⟨ks, hk, hd⟩ := primary_sound hp
  obtain ⟨ls, hl, he⟩ := accesses_sound h (.primary hd)
  exact ⟨_, hk.append hl, he⟩
termination_by (ts.length, 2)
decreasing_by
  · exact Prod.Lex.right _ (by omega)
  · exact Prod.Lex.left _ _ hlt

theorem accesses_sound (h : plain (accesses stop object ts) = .ok (e, rest))
    (ho : Derives .accessed ks object) :
    ∃ ls, Takes ts ls rest ∧ Derives .accessed (ks ++ ls) e := by
  rw [plain_accesses] at h
  generalize hts : ts = tokens at h ⊢
  split at h
  · rename_i p name q us
    obtain ⟨ls, hl, he⟩ := accesses_sound h (.field ho)
    exact ⟨_, (hl.cons ⟨.name name, q⟩).cons ⟨.symbol .dot, p⟩, by simpa using he⟩
  · rename_i p n q us
    obtain ⟨ls, hl, he⟩ := accesses_sound h (.number ho)
    exact ⟨_, (hl.cons ⟨.int n, q⟩).cons ⟨.symbol .dot, p⟩, by simpa using he⟩
  · cases h
  · rename_i p us
    obtain ⟨⟨key, vs⟩, hk, h⟩ := bind_eq_ok.mp h
    have hlt := plain_spec hk
    obtain ⟨ls, hl, hd⟩ := level_sound hk
    dsimp only at h
    split at h
    · rename_i q ws
      obtain ⟨ms, hm, he⟩ := accesses_sound h (.index ho hd)
      exact ⟨_, (hl.cons ⟨.symbol .openBracket, p⟩).append (hm.cons ⟨.symbol .closeBracket, q⟩),
        by simpa using he⟩
    · cases h
  · cases h
    exact ⟨[], .nil _, by rwa [List.append_nil]⟩
termination_by (ts.length, 0)
decreasing_by
  · exact Prod.Lex.left _ _ (by simp only [hts, List.length_cons]; omega)
  · exact Prod.Lex.left _ _ (by simp only [hts, List.length_cons]; omega)
  · exact Prod.Lex.left _ _ (by simp [hts])
  · exact Prod.Lex.left _ _ (by simp only [hts, List.length_cons] at hlt ⊢; omega)

theorem primary_sound (h : plain (primary stop ts) = .ok (e, rest)) :
    ∃ ks, Takes ts ks rest ∧ Derives .primary ks e := by
  rw [plain_primary] at h
  generalize hts : ts = tokens at h ⊢
  split at h
  · cases h
    exact ⟨_, (Takes.nil rest).cons _, .int⟩
  · cases h
    exact ⟨_, (Takes.nil rest).cons _, .float⟩
  · cases h
    exact ⟨_, (Takes.nil rest).cons _, .string⟩
  · rename_i name p us
    split at h
    · rename_i value hv
      cases h
      exact ⟨_, (Takes.nil rest).cons _, .word hv⟩
    · rename_i hv
      split at h
      · rename_i q r vs
        cases h
        exact ⟨_, (((Takes.nil rest).cons ⟨.symbol .closeParen, r⟩).cons
          ⟨.symbol .openParen, q⟩).cons ⟨.name name, p⟩, .call [] hv (by simp)⟩
      · rename_i q vs _
        obtain ⟨⟨es, ws⟩, ha, h⟩ := bind_eq_ok.mp h
        cases h
        obtain ⟨args, _, ht, rfl, hd⟩ := arguments_sound ha
        exact ⟨_, (ht.cons ⟨.symbol .openParen, q⟩).cons ⟨.name name, p⟩, .call args hv hd⟩
      · cases h
        exact ⟨_, (Takes.nil rest).cons _, .var hv⟩
  · rename_i p us
    obtain ⟨⟨inner, vs⟩, hk, h⟩ := bind_eq_ok.mp h
    obtain ⟨ks, ht, hd⟩ := level_sound hk
    dsimp only at h
    split at h
    · rename_i q ws
      cases h
      exact ⟨_, (ht.cons ⟨.symbol .openParen, p⟩).append
        ((Takes.nil rest).cons ⟨.symbol .closeParen, q⟩), .paren hd⟩
    · cases h
  · cases h
termination_by (ts.length, 1)
decreasing_by
  · exact Prod.Lex.left _ _ (by simp only [hts, List.length_cons]; omega)
  · exact Prod.Lex.left _ _ (by simp [hts])

/-- Arguments come with the closing parenthesis. -/
theorem arguments_sound (h : plain (arguments stop ts) = .ok (es, rest)) :
    ∃ args : List (List TokenKind × Expr), args ≠ [] ∧
      Takes ts (commaSeparated (args.map Prod.fst) ++ [.symbol .closeParen]) rest ∧
      es = args.map Prod.snd ∧ ∀ arg ∈ args, Derives (.level .or) arg.1 arg.2 := by
  rw [plain_arguments] at h
  obtain ⟨⟨arg, us⟩, ha, h⟩ := bind_eq_ok.mp h
  have hlt := plain_spec ha
  obtain ⟨ks, hk, hd⟩ := level_sound ha
  dsimp only at h
  split at h
  · rename_i p vs
    obtain ⟨⟨others, ws⟩, ho, h⟩ := bind_eq_ok.mp h
    cases h
    obtain ⟨args, hne, ht, rfl, hds⟩ := arguments_sound ho
    refine ⟨(ks, arg) :: args, by simp, ?_, rfl, List.forall_mem_cons.mpr ⟨hd, hds⟩⟩
    cases args with
    | nil => exact absurd rfl hne
    | cons next args => simpa [commaSeparated] using hk.append (ht.cons ⟨.symbol .comma, p⟩)
  · rename_i p vs
    cases h
    exact ⟨[(ks, arg)], by simp, hk.append ((Takes.nil rest).cons ⟨.symbol .closeParen, p⟩), rfl,
      by simpa using hd⟩
  · cases h
termination_by (ts.length, 20)
decreasing_by
  · exact Prod.Lex.right _ (by simp [Level.height])
  · exact Prod.Lex.left _ _ (by simp only [List.length_cons] at hlt ⊢; omega)
end

end FormLetter.Parser
