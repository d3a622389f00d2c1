import FormLetter.Proofs.Expr.ParseTree

namespace FormLetter

open Outcome
open FormLetter.Parser

/-- Lists that go on after an element agree if neither can go on where the other one does. -/
theorem append_cons_inj {xs xs' ys ys' : List α} (h : xs ++ a :: ys = xs' ++ b :: ys')
    (hl : ∀ zs, xs' ≠ xs ++ a :: zs) (hr : ∀ zs, xs ≠ xs' ++ b :: zs) :
    xs = xs' ∧ a = b ∧ ys = ys' := by
  rcases List.append_eq_append_iff.mp h with ⟨zs, hxs, hys⟩ | ⟨zs, hxs, hys⟩
  · cases zs with
    | nil =>
      cases hys
      exact ⟨(hxs.trans (List.append_nil xs)).symm, rfl, rfl⟩
    | cons z zs =>
      cases hys
      exact absurd hxs (hl zs)
  · cases zs with
    | nil =>
      cases hys
      exact ⟨hxs.trans (List.append_nil xs'), rfl, rfl⟩
    | cons z zs =>
      cases hys
      exact absurd hxs (hr zs)

namespace Parser

/-- What has been read of a chain only grows. -/
theorem chain_sizeOf (h : plain (chain stop l left ts) = .ok (e, rest)) :
    sizeOf left ≤ sizeOf e := by
  rw [plain_chain] at h
  generalize hts : ts = tokens at h
  split at h
  · split at h
    · cases h
      exact Nat.le_refl _
    · obtain ⟨⟨right, us⟩, ho, h⟩ := bind_eq_ok.mp h
      have hlt := plain_spec ho
      have hle := chain_sizeOf h
      rw [Expr.binary.sizeOf_spec] at hle
      omega
  · cases h
    exact Nat.le_refl _
termination_by ts.length
decreasing_by
  simp only [hts, List.length_cons]
  omega

theorem accesses_sizeOf (h : plain (accesses stop object ts) = .ok (e, rest)) :
    sizeOf object ≤ sizeOf e := by
  rw [plain_accesses] at h
  generalize hts : ts = tokens at h
  split at h
  · have hle := accesses_sizeOf h
    rw [Expr.field.sizeOf_spec] at hle
    omega
  · have hle := accesses_sizeOf h
    rw [Expr.index.sizeOf_spec] at hle
    omega
  · cases h
  · obtain ⟨⟨key, us⟩, hk, h⟩ := bind_eq_ok.mp h
    have hlt := plain_spec hk
    dsimp only at h
    split at h
    · have hle := accesses_sizeOf h
      rw [Expr.index.sizeOf_spec] at hle
      omega
    · cases h
  · cases h
    exact Nat.le_refl _
termination_by ts.length
decreasing_by
  · simp only [hts, List.length_cons]
    omega
  · simp only [hts, List.length_cons]
    omega
  · simp only [hts, List.length_cons] at hlt ⊢
    omega

theorem takes_append_cons :
    Takes ts (ks ++ k :: ls) rest ↔ ∃ p us, Takes ts ks (⟨k, p⟩ :: us) ∧ Takes us ls rest := by
  rw [takes_append]
  constructor
  · rintro ⟨us, hks, h⟩
    obtain ⟨p, vs, rfl, hls⟩ := takes_cons.mp h
    exact ⟨p, vs, hks, hls⟩
  · rintro ⟨p, us, hks, hls⟩
    exact ⟨_, hks, hls.cons ⟨k, p⟩⟩

theorem exists_takes (ks : List TokenKind) : ∃ ts, Takes ts ks [] :=
  ⟨ks.map (Token.mk · 0), _, (List.append_nil _).symm, by simp [Function.comp_def]⟩

end Parser

namespace Derives

/-- A chain that goes on with another operand is another expression. -/
theorem not_chained (h : Derives (.level l) ks e) (hop : l.operator? s = some op) :
    ¬ Derives (.level l) (ks ++ .symbol s :: ls) e := by
  intro hlonger
  obtain ⟨ts, hall⟩ := exists_takes (ks ++ .symbol s :: ls)
  obtain ⟨p, vs, hks, _⟩ := takes_append_cons.mp hall
  have hshort : plain (level 0 l ts) = plain (chain 0 l e (⟨.symbol s, p⟩ :: vs)) :=
    h.reads 0 ts _ hks (Level.follows_operator hop)
  have hlong : plain (level 0 l ts) = .ok (e, []) :=
    (hlonger.reads 0 ts [] hall (Level.follows_nil l)).trans (chain_ends (by simp) 0 e)
  rw [hshort, plain_chain] at hlong
  simp only [hop] at hlong
  obtain ⟨⟨right, rest⟩, _, hc⟩ := bind_eq_ok.mp hlong
  have hle := chain_sizeOf hc
  rw [Expr.binary.sizeOf_spec] at hle
  omega

/-- An object with an index after it is another expression. -/
theorem not_indexed (h : Derives .accessed ks e) :
    ¬ Derives .accessed (ks ++ .symbol .openBracket :: ls) e := by
  intro hlonger
  obtain ⟨ts, hall⟩ := exists_takes (ks ++ .symbol .openBracket :: ls)
  obtain ⟨p, vs, hks, _⟩ := takes_append_cons.mp hall
  have hshort : plain (Parser.accessed 0 ts) =
      plain (accesses 0 e (⟨.symbol .openBracket, p⟩ :: vs)) :=
    h.reads 0 ts _ hks (by simp [NotCalled])
  have hlong : plain (Parser.accessed 0 ts) = .ok (e, []) :=
    (hlonger.reads 0 ts [] hall (by simp [NotCalled])).trans
      (accesses_ends (Level.follows_nil .or) 0 e)
  rw [hshort, plain_accesses] at hlong
  obtain ⟨⟨key, rest⟩, _, hc⟩ := bind_eq_ok.mp hlong
  dsimp only at hc
  split at hc
  · have hle := accesses_sizeOf hc
    rw [Expr.index.sizeOf_spec] at hle
    omega
  · cases hc

/-- Chains that are the same expression end before the same operator. -/
theorem chain_inj (h : Derives (.level l) ks e) (h' : Derives (.level l) ks' e)
    (hop : l.operator? s = some op) (hop' : l.operator? s' = some op')
    (heq : ks ++ .symbol s :: ls = ks' ++ .symbol s' :: ls') : ks = ks' ∧ s = s' ∧ ls = ls' := by
  have hl (zs : List TokenKind) : ks' ≠ ks ++ .symbol s :: zs := by
    rintro rfl
    exact h.not_chained hop h'
  have hr (zs : List TokenKind) : ks ≠ ks' ++ .symbol s' :: zs := by
    rintro rfl
    exact h'.not_chained hop' h
  obtain ⟨hks, hs, hls⟩ := append_cons_inj heq hl hr
  cases hs
  exact ⟨hks, rfl, hls⟩

/-- Objects that are the same expression end before the same bracket. -/
theorem index_inj (h : Derives .accessed ks e) (h' : Derives .accessed ks' e)
    (heq : ks ++ .symbol .openBracket :: ls = ks' ++ .symbol .openBracket :: ls') :
    ks = ks' ∧ ls = ls' := by
  have hl (zs : List TokenKind) : ks' ≠ ks ++ .symbol .openBracket :: zs := by
    rintro rfl
    exact h.not_indexed h'
  have hr (zs : List TokenKind) : ks ≠ ks' ++ .symbol .openBracket :: zs := by
    rintro rfl
    exact h'.not_indexed h
  obtain ⟨hks, -, hls⟩ := append_cons_inj heq hl hr
  exact ⟨hks, hls⟩

/-- The first operand of a chain ends where the tokens end or an operator of its level stands. -/
theorem first_operand (h : Derives (.level l) ks e) : ∃ ls rest first,
    ks = ls ++ rest ∧ Derives l.operands ls first ∧
      (rest = [] ∨ ∃ s op us, rest = .symbol s :: us ∧ l.operator? s = some op) := by
  generalize hc : Category.level l = c at h
  induction h with
  | @operand ks e _ hd _ =>
    cases hc
    exact ⟨ks, [], e, (List.append_nil ks).symm, hd, Or.inl rfl⟩
  | @binary _ _ _ s op right _ _ hop _ ih _ =>
    cases hc
    obtain ⟨ls, rest, first, rfl, hd, hrest⟩ := ih rfl
    refine ⟨ls, rest ++ .symbol s :: right, first, List.append_assoc .., hd, Or.inr ?_⟩
    rcases hrest with rfl | ⟨s', op', us, rfl, hop'⟩
    · exact ⟨s, op, right, rfl, hop⟩
    · exact ⟨s', op', _, rfl, hop'⟩
  | _ => cases hc

/-- What is an operand as a whole is no chain of several. -/
theorem not_binary (h : Derives l.operands ks e) (hleft : Derives (.level l) ls left)
    (hop : l.operator? s = some op) : ks ≠ ls ++ .symbol s :: us := by
  rintro rfl
  obtain ⟨ts, hall⟩ := exists_takes (ls ++ .symbol s :: us)
  have hwhole : plain (Parser.operand 0 l ts) = .ok (e, []) :=
    operand_complete h.reads hall (Level.follows_nil l) 0
  obtain ⟨fs, rest, first, rfl, hfirst, hrest⟩ := hleft.first_operand
  have hend : ∃ s' op' vs, rest ++ .symbol s :: us = .symbol s' :: vs ∧
      l.operator? s' = some op' := by
    rcases hrest with rfl | ⟨s', op', vs, rfl, hop'⟩
    · exact ⟨s, op, us, rfl, hop⟩
    · exact ⟨s', op', _, rfl, hop'⟩
  obtain ⟨s', op', vs, hvs, hop'⟩ := hend
  rw [List.append_assoc, hvs] at hall
  obtain ⟨p, xs, hfs, _⟩ := takes_append_cons.mp hall
  rw [operand_complete hfirst.reads hfs (Level.follows_operator hop') 0] at hwhole
  cases hwhole

/-- Two expressions with a comma after each end at the same comma. -/
theorem comma_inj (h : Derives (.level .or) ks e) (h' : Derives (.level .or) ks' e')
    (heq : ks ++ .symbol .comma :: ls = ks' ++ .symbol .comma :: ls') : ks = ks' ∧ ls = ls' := by
  obtain ⟨ts, hall⟩ := exists_takes (ks ++ .symbol .comma :: ls)
  have hall' := hall
  rw [heq] at hall'
  obtain ⟨p, vs, hks, hls⟩ := takes_append_cons.mp hall
  obtain ⟨p', vs', hks', hls'⟩ := takes_append_cons.mp hall'
  have hread := level_complete_closer h.reads (by decide) hks 0
  rw [level_complete_closer h'.reads (by decide) hks' 0] at hread
  cases hread
  obtain ⟨ws, rfl, rfl⟩ := hls
  obtain ⟨ws', hws, rfl⟩ := hls'
  rw [List.append_cancel_right hws] at heq ⊢
  exact ⟨List.append_cancel_right heq, rfl⟩

end Derives

/-- The operator tells the level. -/
theorem Level.eq_of_operator?_eq {l m : Level} (h : l.operator? s = some op)
    (h' : m.operator? s' = some op) : l = m := by
  have hlevel {l : Level} {s : Symbol} (h : l.operator? s = some op) : op.level = l := by
    cases s <;> cases l <;> cases h <;> rfl
  exact (hlevel h).symm.trans (hlevel h')

namespace ParseTree

theorem derives_of_looseness {g : ParseTree} {c : Category} (h : g.looseness ≤ c.looseness)
    (hg : g.Grouped) : Derives c g.tokens g.expr :=
  (g.derives hg).loosen c h

/-- Tokens that can be grouped as one parenthesised expression cannot be grouped as anything
else. -/
theorem group_of_tokens {g inner : ParseTree} (hg : g.Grouped) (hi : (group inner).Grouped)
    (h : g.tokens = (group inner).tokens) : ∃ inner', g = group inner' := by
  have hlast := congrArg List.getLast? h
  cases g with
  | group inner' => exact ⟨inner', rfl⟩
  | literal k value hk =>
    simp [tokens] at h
  | var => simp [tokens] at h
  | call => simp [tokens] at h
  | field => simp [tokens, List.getLast?_cons] at hlast
  | item => simp [tokens, List.getLast?_cons] at hlast
  | index => simp [tokens, List.getLast?_cons] at hlast
  | unary s op operand hop =>
    simp only [tokens, List.cons_append, List.cons.injEq, TokenKind.symbol.injEq] at h
    rw [h.1] at hop
    cases hop
  | binary l s op left right hop =>
    have hgroup : Derives l.operands (group inner).tokens inner.expr :=
      ((group inner).derives hi).loosen _ (Nat.zero_le _)
    exact absurd h.symm (hgroup.not_binary (derives_of_looseness hg.1 hg.2.2.1) hop)

-- The induction is on the one tree. That both are the same expression is what fixes where the parts
-- on the left end: the tokens alone could go on with the next operator or access.
mutual
/-- Tokens and an expression have one parse tree at most. -/
theorem eq_of_tokens : (g g' : ParseTree) → g.Grouped → g'.Grouped → g.tokens = g'.tokens →
    g.expr = g'.expr → g = g'
  | .literal k value h, g', hg, hg', ht, he => by
    cases g' with
    | literal k' value' h' =>
      cases ht
      cases he
      rfl
    | group => exact absurd (group_of_tokens hg hg' ht) (by simp)
    | _ => simp [expr] at he
  | .var name h, g', hg, hg', ht, he => by
    cases g' with
    | var =>
      cases he
      rfl
    | group => exact absurd (group_of_tokens hg hg' ht) (by simp)
    | _ => simp [expr] at he
  | .call name args h, g', hg, hg', ht, he => by
    cases g' with
    | call name' args' h' =>
      simp only [expr, Expr.call.injEq] at he
      obtain ⟨rfl, he⟩ := he
      simp only [tokens, List.cons_append, List.cons.injEq, true_and,
        List.append_cancel_right_eq] at ht
      rw [eq_of_allTokens args args' hg hg' ht he]
    | group => exact absurd (group_of_tokens hg hg' ht) (by simp)
    | _ => simp [expr] at he
  | .group inner, g', hg, hg', ht, he => by
    obtain ⟨inner', rfl⟩ := group_of_tokens hg' hg ht.symm
    simp only [tokens, List.cons_append, List.cons.injEq, true_and,
      List.append_cancel_right_eq] at ht
    rw [eq_of_tokens inner inner' hg hg' ht he]
  | .field object name, g', hg, hg', ht, he => by
    cases g' with
    | field object' name' =>
      simp only [expr, Expr.field.injEq] at he
      obtain ⟨he, rfl⟩ := he
      have ht := List.append_cancel_right ht
      rw [eq_of_tokens object object' hg.2 hg'.2 ht he]
    | group => exact absurd (group_of_tokens hg hg' ht) (by simp)
    | _ => simp [expr] at he
  | .item object n, g', hg, hg', ht, he => by
    cases g' with
    | item object' n' =>
      simp only [expr, Expr.index.injEq, Expr.literal.injEq, Value.int.injEq] at he
      obtain ⟨he, rfl⟩ := he
      have ht := List.append_cancel_right ht
      rw [eq_of_tokens object object' hg.2 hg'.2 ht he]
    | index object' key =>
      have hlast := congrArg List.getLast? ht
      simp [tokens, List.getLast?_cons] at hlast
    | group => exact absurd (group_of_tokens hg hg' ht) (by simp)
    | _ => simp [expr] at he
  | .index object key, g', hg, hg', ht, he => by
    cases g' with
    | index object' key' =>
      simp only [expr, Expr.index.injEq] at he
      have ho : Derives .accessed object.tokens object.expr := derives_of_looseness hg.1 hg.2.1
      have ho' : Derives .accessed object'.tokens object.expr := by
        rw [he.1]
        exact derives_of_looseness hg'.1 hg'.2.1
      simp only [tokens, List.append_cancel_right_eq] at ht
      obtain ⟨hto, htk⟩ := ho.index_inj ho' ht
      rw [eq_of_tokens object object' hg.2.1 hg'.2.1 hto he.1,
        eq_of_tokens key key' hg.2.2 hg'.2.2 htk he.2]
    | item object' n =>
      have hlast := congrArg List.getLast? ht
      simp [tokens, List.getLast?_cons] at hlast
    | group => exact absurd (group_of_tokens hg hg' ht) (by simp)
    | _ => simp [expr] at he
  | .unary s op operand h, g', hg, hg', ht, he => by
    cases g' with
    | unary s' op' operand' h' =>
      simp only [expr, Expr.unary.injEq] at he
      obtain ⟨rfl, he⟩ := he
      simp only [tokens, List.cons.injEq, TokenKind.symbol.injEq] at ht
      obtain ⟨rfl, ht⟩ := ht
      rw [eq_of_tokens operand operand' hg.2 hg'.2 ht he]
    | group => exact absurd (group_of_tokens hg hg' ht) (by simp)
    | _ => simp [expr] at he
  | .binary l s op left right h, g', hg, hg', ht, he => by
    cases g' with
    | binary l' s' op' left' right' h' =>
      simp only [expr, Expr.binary.injEq] at he
      obtain ⟨rfl, hel, her⟩ := he
      obtain rfl : l = l' := Level.eq_of_operator?_eq h h'
      have hl : Derives (.level l) left.tokens left.expr := derives_of_looseness hg.1 hg.2.2.1
      have hl' : Derives (.level l) left'.tokens left.expr := by
        rw [hel]
        exact derives_of_looseness hg'.1 hg'.2.2.1
      obtain ⟨htl, rfl, htr⟩ := hl.chain_inj hl' h h' ht
      rw [eq_of_tokens left left' hg.2.2.1 hg'.2.2.1 htl hel,
        eq_of_tokens right right' hg.2.2.2 hg'.2.2.2 htr her]
    | group => exact absurd (group_of_tokens hg hg' ht) (by simp)
    | _ => simp [expr] at he
termination_by structural g => g

theorem eq_of_allTokens : (gs gs' : List ParseTree) → AllGrouped gs → AllGrouped gs' →
    commaSeparated (allTokens gs) = commaSeparated (allTokens gs') →
    allExprs gs = allExprs gs' → gs = gs'
  | [], gs', _, _, _, he => by
    cases gs' with
    | nil => rfl
    | cons => cases he
  | [g], gs', hg, hg', ht, he => by
    cases gs' with
    | nil => cases he
    | cons g' gs' =>
      cases gs' with
      | nil =>
        have he : g.expr = g'.expr := List.head_eq_of_cons_eq he
        rw [eq_of_tokens g g' hg.1 hg'.1 ht he]
      | cons => simp [allExprs] at he
  | g :: next :: gs, gs', hg, hg', ht, he => by
    cases gs' with
    | nil => cases he
    | cons g' gs' =>
      cases gs' with
      | nil => simp [allExprs] at he
      | cons next' gs' =>
        obtain ⟨htg, hts⟩ := (g.derives hg.1).loosest.comma_inj (g'.derives hg'.1).loosest ht
        have heg : g.expr = g'.expr := List.head_eq_of_cons_eq he
        have hes : allExprs (next :: gs) = allExprs (next' :: gs') := List.tail_eq_of_cons_eq he
        rw [eq_of_tokens g g' hg.1 hg'.1 htg heg,
          eq_of_allTokens (next :: gs) (next' :: gs') hg.2 hg'.2 hts hes]
termination_by structural gs => gs
end

end ParseTree

namespace Parser

end Parser

end FormLetter
