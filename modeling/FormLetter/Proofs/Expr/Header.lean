import FormLetter.Proofs.Expr.Completeness

namespace FormLetter

open Outcome

namespace LoopHeader

/-- The tokens in front of the word `in`. -/
def variableTokens : LoopHeader → List TokenKind
  | ⟨some index, item, _⟩ => [.name index, .symbol .comma, .name item]
  | ⟨none, item, _⟩ => [.name item]

theorem exists_variableTokens (h : LoopHeader) :
    ∃ name ks, h.variableTokens = .name name :: ks := by
  obtain ⟨index, item, collection⟩ := h
  cases index with
  | none => exact ⟨item, [], rfl⟩
  | some index => exact ⟨index, _, rfl⟩

/-- The names of a header can be loop variables. -/
def AreVariables (h : LoopHeader) : Prop :=
  ∀ name, TokenKind.name name ∈ h.variableTokens → Parser.isReserved name = false

end LoopHeader

namespace Parser

theorem loopVariable_eq_ok : loopVariable stop fault ts = .ok (name, rest) ↔
    isReserved name = false ∧ Takes ts [.name name] rest := by
  constructor
  · intro h
    unfold loopVariable at h
    split at h
    · split at h
      · cases h
      · rename_i hr
        cases h
        exact ⟨by simpa using hr, (Takes.nil _).cons _⟩
    · cases h
  · intro hx
    obtain ⟨hr, ht⟩ := hx
    obtain ⟨p, us, rfl, hrest⟩ := takes_cons.mp ht
    obtain rfl := takes_nil.mp hrest
    rw [loopVariable, if_neg (by simp [hr])]
    rfl

variable {h : LoopHeader}

theorem loopVariables_sound
    (hl : loopVariables stop ts = .ok (index, item, rest)) (collection : Expr) :
    LoopHeader.AreVariables ⟨index, item, collection⟩ ∧
      Takes ts (LoopHeader.variableTokens ⟨index, item, collection⟩) rest := by
  obtain ⟨⟨first, us⟩, hfirst, hl⟩ := bind_eq_ok.mp hl
  obtain ⟨hr, ht⟩ := loopVariable_eq_ok.mp hfirst
  dsimp only at hl
  split at hl
  · rename_i p vs
    obtain ⟨⟨second, ws⟩, hsecond, hl⟩ := bind_eq_ok.mp hl
    obtain ⟨hr', ht'⟩ := loopVariable_eq_ok.mp hsecond
    cases hl
    exact ⟨by simp [LoopHeader.AreVariables, LoopHeader.variableTokens, hr, hr'],
      ht.append (ht'.cons ⟨.symbol .comma, p⟩)⟩
  · cases hl
    exact ⟨by simp [LoopHeader.AreVariables, LoopHeader.variableTokens, hr], ht⟩

/-- Variables are read up to a token that is no comma. -/
theorem loopVariables_complete (hv : h.AreVariables) (hk : k ≠ .symbol .comma)
    (ht : Takes ts h.variableTokens (⟨k, p⟩ :: rest)) (stop : Nat) :
    loopVariables stop ts = .ok (h.index, h.item, ⟨k, p⟩ :: rest) := by
  obtain ⟨index, item, collection⟩ := h
  have hitem : isReserved item = false :=
    hv item (by cases index <;> simp [LoopHeader.variableTokens])
  cases index with
  | none =>
    have hfirst : loopVariable stop .noVariable ts = .ok (item, ⟨k, p⟩ :: rest) :=
      loopVariable_eq_ok.mpr ⟨hitem, ht⟩
    rw [loopVariables, hfirst, ok_bind]
    cases k with
    | symbol s => cases s <;> first | rfl | exact absurd rfl hk
    | _ => rfl
  | some index =>
    obtain ⟨q, us, rfl, hcomma⟩ := takes_cons.mp ht
    obtain ⟨r, vs, rfl, hlast⟩ := takes_cons.mp hcomma
    have hindex : isReserved index = false := hv index (by simp [LoopHeader.variableTokens])
    have hfirst : loopVariable stop .noVariable (⟨.name index, q⟩ :: ⟨.symbol .comma, r⟩ :: vs) =
        .ok (index, ⟨.symbol .comma, r⟩ :: vs) :=
      loopVariable_eq_ok.mpr ⟨hindex, (Takes.nil _).cons _⟩
    have hsecond : loopVariable stop .noVariableAfterComma vs = .ok (item, ⟨k, p⟩ :: rest) :=
      loopVariable_eq_ok.mpr ⟨hitem, hlast⟩
    rw [loopVariables, hfirst, ok_bind]
    dsimp only
    rw [hsecond, ok_bind]
    rfl

/-- Tokens are parsed as a header if and only if they are variables, the word `in`, and what the
grammar derives the collection from. -/
theorem header_iff_derives {tokens : Tokens} : header tokens = .ok h ↔
    h.AreVariables ∧ ∃ ks, tokens.items.map Token.kind = h.variableTokens ++ .name "in" :: ks ∧
      Derives (.level .or) ks h.collection := by
  constructor
  · intro hh
    unfold header at hh
    dsimp only at hh
    split at hh
    · cases hh
    obtain ⟨⟨index, item, rest⟩, hl, hh⟩ := bind_eq_ok.mp hh
    dsimp only at hh
    split at hh
    · cases hh
    · rename_i p us _
      obtain ⟨collection, hw, hh⟩ := bind_eq_ok.mp hh
      cases hh
      obtain ⟨hv, vs, hitems, hkinds⟩ := loopVariables_sound hl collection
      refine ⟨hv, us.map Token.kind, ?_, whole_iff_derives.mp hw⟩
      rw [hitems, List.map_append, hkinds]
      rfl
    · cases hh
  · intro hx
    obtain ⟨hv, ks, hkinds, hd⟩ := hx
    obtain ⟨items, stop⟩ := tokens
    obtain ⟨us, rest, rfl, hu, hrest⟩ := List.map_eq_append_iff.mp hkinds
    obtain ⟨⟨k, p⟩, vs, rfl, rfl, rfl⟩ := List.map_eq_cons_iff.mp hrest
    have ht : Takes (us ++ ⟨.name "in", p⟩ :: vs) h.variableTokens (⟨.name "in", p⟩ :: vs) :=
      ⟨us, rfl, hu⟩
    have hl := loopVariables_complete hv (by simp) ht stop
    have hw : whole ⟨vs, stop⟩ = .ok h.collection := whole_iff_derives.mpr hd
    obtain ⟨name, ls, hname⟩ := h.exists_variableTokens
    obtain ⟨⟨k, q⟩, us, rfl, rfl, -⟩ := List.map_eq_cons_iff.mp (hu.trans hname)
    obtain ⟨k, ks, hks, -⟩ := hd.head
    obtain ⟨t, vs, rfl, -, -⟩ := List.map_eq_cons_iff.mp hks
    unfold header
    dsimp only [List.cons_append] at hl ⊢
    rw [hl, ok_bind]
    simp only [hw, ok_bind]
    rfl

end Parser

end FormLetter
