import FormLetter.Proofs.Expr.Header
import FormLetter.Proofs.Expr.Lexemes

namespace FormLetter

open Outcome

/-- A text starts with what a fault names, and nothing can be made of it. -/
inductive LexFault.At : LexFault → List Char → Prop where
  | character : Text.isBlank c = false → Decimal.isDigit c = false → Text.startsName c = false →
      Lexer.closingQuote? c = none → Lexer.symbol? c rest.head? = none →
      At (.unexpectedCharacter c) (c :: rest)
  | quote : Lexer.closingQuote? quote = some close → Lexer.splitString close rest = none →
      At (.unterminatedString quote) (quote :: rest)
  | number {digits : List Char} : digits ≠ [] →
      Lexer.splitNumber (digits ++ rest) = (digits, rest) →
      Lexer.numberKind? digits = none →
      At (.numberOutOfRange (String.ofList digits)) (digits ++ rest)

/-- An error stands at a place of a text. A lexical one names what stands there, by the same
place. -/
def ParseError.PlacedIn (e : ParseError) (cs : List Char) : Prop :=
  ∃ before after, cs = before ++ after ∧ e.position = Text.size8 before ∧
    ∀ l, e.fault = .lexical l → l.position = e.position ∧ l.fault.At after

namespace Lexer

theorem at_of_lexeme (hb : Text.isBlank c = false) (h : lexeme touching c rest = .error fault) :
    fault.At (c :: rest) := by
  unfold lexeme at h
  split at h
  · rename_i hn
    dsimp only at h
    split at h
    · cases h
    · rename_i hk
      cases h
      have happend := splitNumber_append (c :: rest)
      have hsplit : splitNumber ((splitNumber (c :: rest)).1 ++ (splitNumber (c :: rest)).2) =
          splitNumber (c :: rest) := by rw [happend]
      have hat := LexFault.At.number (splitNumber_ne_nil hn) hsplit hk
      rwa [happend] at hat
  · rename_i hn
    split at h
    · cases h
    · rename_i hname
      split at h
      · rename_i close hc
        split at h
        · cases h
        · rename_i hs
          cases h
          exact .quote hc hs
      · rename_i hc
        split at h
        · cases h
        · cases h
        · rename_i hs
          cases h
          have hd : Decimal.isDigit c = false := by
            simp only [startsNumber, Bool.or_eq_true, not_or, Bool.not_eq_true] at hn
            exact hn.1
          exact .character hb hd (by simpa using hname) hc hs

/-- The tokens that are read of a text stand at places of it, or the error does, and what it names
stands there. -/
def Places (position : Nat) (cs : List Char) : Except LexError (List Token) → Prop
  | .ok ts => ∀ t ∈ ts, ∃ before after, cs = before ++ after ∧
      t.position = position + Text.size8 before
  | .error e => ∃ before after, cs = before ++ after ∧ e.position = position + Text.size8 before ∧
      e.fault.At after

theorem places_of_lexFrom (position : Nat) (touching : Bool) (cs : List Char) :
    Places position cs (lexFrom position touching cs) := by
  cases h : lexFrom position touching cs with
  | ok ts =>
    intro t ht
    obtain ⟨before, after, rfl⟩ := List.append_of_mem ht
    obtain ⟨front, c, rest, near, hcs, hp, -⟩ := lexFrom_at_token h
    exact ⟨front, c :: rest, hcs, hp⟩
  | error e =>
    obtain ⟨front, c, rest, near, hcs, hp, hb, hl, -⟩ := lexFrom_at_error h
    exact ⟨front, c :: rest, hcs, hp, at_of_lexeme hb hl⟩

end Lexer

namespace Parser

/-- An error of a parser stands at one of its tokens or at the end, and is not lexical. -/
structure Refuses (stop : Nat) (ts : List Token) (e : ParseError) : Prop where
  place : e.position = stop ∨ ∃ t ∈ ts, e.position = t.position
  notLexical : ∀ l, e.fault ≠ .lexical l

namespace Refuses

theorem mono (h : Refuses stop us e) (hs : us ⊆ ts) : Refuses stop ts e := by
  refine ⟨h.place.imp_right fun hx => ?_, h.notLexical⟩
  obtain ⟨t, ht, hp⟩ := hx
  exact ⟨t, hs ht, hp⟩

theorem cons (h : Refuses stop ts e) (t : Token) : Refuses stop (t :: ts) e :=
  h.mono (List.subset_cons_self t ts)

end Refuses

theorem refuses_unexpected (stop : Nat) (expected : Expected) (ts : List Token) :
    Refuses stop ts (unexpected stop expected ts) := by
  cases ts with
  | nil => exact ⟨.inl rfl, fun l h => by cases h⟩
  | cons t ts => exact ⟨.inr ⟨t, List.mem_cons_self, rfl⟩, fun l h => by cases h⟩

theorem refuses_invalidLoop (stop : Nat) (fault : LoopFault) (ts : List Token) :
    Refuses stop ts (invalidLoop stop fault ts) := by
  cases ts with
  | nil => exact ⟨.inl rfl, fun l h => by cases h⟩
  | cons t ts => exact ⟨.inr ⟨t, List.mem_cons_self, rfl⟩, fun l h => by cases h⟩

theorem Takes.subset (h : Takes ts ks rest) : rest ⊆ ts := by
  obtain ⟨us, rfl, _⟩ := h
  exact List.subset_append_right us rest

theorem subset_of_level (h : plain (level stop l ts) = .ok (e, rest)) : rest ⊆ ts := by
  obtain ⟨ks, ht, _⟩ := level_sound h
  exact ht.subset

-- The recursion is that of the parsers, as for what they take.
mutual
theorem level_refuses (h : plain (level stop l ts) = .error e) : Refuses stop ts e := by
  rw [plain_level] at h
  rcases bind_eq_error.mp h with ho | ⟨⟨left, us⟩, ho, h⟩
  · exact operand_refuses ho
  · have hlt := plain_spec ho
    obtain ⟨ks, ht, _⟩ := operand_sound ho
    exact (chain_refuses h).mono ht.subset
termination_by (ts.length, 2 * l.height + 5)
decreasing_by
  · exact Prod.Lex.right _ (by omega)
  · exact Prod.Lex.left _ _ hlt

theorem operand_refuses (h : plain (operand stop l ts) = .error e) : Refuses stop ts e := by
  rw [plain_operand] at h
  cases ht : l.tighter? with
  | some tighter =>
    rw [ht] at h
    exact level_refuses h
  | none =>
    rw [ht] at h
    exact unary_refuses h
termination_by (ts.length, 2 * l.height + 4)
decreasing_by
  · exact Prod.Lex.right _ (by omega)
  · exact Prod.Lex.right _ (by have := Level.height_tighter ht; omega)

theorem chain_refuses (h : plain (chain stop l left ts) = .error e) : Refuses stop ts e := by
  rw [plain_chain] at h
  generalize hts : ts = tokens at h ⊢
  split at h
  · split at h
    · cases h
    · rename_i t us op hop
      rcases bind_eq_error.mp h with ho | ⟨⟨right, vs⟩, ho, h⟩
      · exact (operand_refuses ho).cons _
      · have hlt := plain_spec ho
        obtain ⟨ks, ht, _⟩ := operand_sound ho
        exact ((chain_refuses h).mono ht.subset).cons _
  · cases h
termination_by (ts.length, 0)
decreasing_by
  · exact Prod.Lex.left _ _ (by simp [hts])
  · exact Prod.Lex.left _ _ (by simp only [hts, List.length_cons]; omega)

theorem unary_refuses (h : plain (unary stop ts) = .error e) : Refuses stop ts e := by
  have haccessed (h : plain (accessed stop ts) = .error e) : Refuses stop ts e :=
    accessed_refuses h
  rw [plain_unary] at h
  generalize hts : ts = tokens at h haccessed ⊢
  split at h
  · split at h
    · exact haccessed h
    · rcases bind_eq_error.mp h with ho | ⟨_, _, h⟩
      · exact (unary_refuses ho).cons _
      · cases h
  · exact haccessed h
termination_by (ts.length, 3)
decreasing_by
  · exact Prod.Lex.right _ (by omega)
  · exact Prod.Lex.left _ _ (by simp [hts])

theorem accessed_refuses (h : plain (accessed stop ts) = .error e) : Refuses stop ts e := by
  rw [plain_accessed] at h
  rcases bind_eq_error.mp h with hp | ⟨⟨object, us⟩, hp, h⟩
  · exact primary_refuses hp
  · have hlt := plain_spec hp
    obtain ⟨ks, ht, _⟩ := primary_sound hp
    exact (accesses_refuses h).mono ht.subset
termination_by (ts.length, 2)
decreasing_by
  · exact Prod.Lex.right _ (by omega)
  · exact Prod.Lex.left _ _ hlt

theorem accesses_refuses (h : plain (accesses stop object ts) = .error e) :
    Refuses stop ts e := by
  rw [plain_accesses] at h
  generalize hts : ts = tokens at h ⊢
  split at h
  · exact ((accesses_refuses h).cons _).cons _
  · exact ((accesses_refuses h).cons _).cons _
  · cases h
    exact (refuses_unexpected stop _ _).cons _
  · rcases bind_eq_error.mp h with hk | ⟨⟨key, vs⟩, hk, h⟩
    · exact (level_refuses hk).cons _
    · have hlt := plain_spec hk
      have hs := subset_of_level hk
      dsimp only at h
      split at h
      · exact (((accesses_refuses h).cons _).mono hs).cons _
      · cases h
        exact ((refuses_unexpected stop _ _).mono hs).cons _
  · cases h
termination_by (ts.length, 0)
decreasing_by
  · exact Prod.Lex.left _ _ (by simp only [hts, List.length_cons]; omega)
  · exact Prod.Lex.left _ _ (by simp only [hts, List.length_cons]; omega)
  · exact Prod.Lex.left _ _ (by simp [hts])
  · exact Prod.Lex.left _ _ (by simp only [hts, List.length_cons] at hlt ⊢; omega)

theorem primary_refuses (h : plain (primary stop ts) = .error e) : Refuses stop ts e := by
  rw [plain_primary] at h
  generalize hts : ts = tokens at h ⊢
  split at h
  · cases h
  · cases h
  · cases h
  · split at h
    · cases h
    · split at h
      · cases h
      · rcases bind_eq_error.mp h with ha | ⟨_, _, h⟩
        · exact ((arguments_refuses ha).cons _).cons _
        · cases h
      · cases h
  · rcases bind_eq_error.mp h with hk | ⟨⟨inner, vs⟩, hk, h⟩
    · exact (level_refuses hk).cons _
    · have hs := subset_of_level hk
      dsimp only at h
      split at h
      · cases h
      · cases h
        exact ((refuses_unexpected stop _ _).mono hs).cons _
  · cases h
    exact refuses_unexpected stop _ _
termination_by (ts.length, 1)
decreasing_by
  · exact Prod.Lex.left _ _ (by simp only [hts, List.length_cons]; omega)
  · exact Prod.Lex.left _ _ (by simp [hts])

theorem arguments_refuses (h : plain (arguments stop ts) = .error e) : Refuses stop ts e := by
  rw [plain_arguments] at h
  rcases bind_eq_error.mp h with ha | ⟨⟨arg, us⟩, ha, h⟩
  · exact level_refuses ha
  · have hlt := plain_spec ha
    have hs := subset_of_level ha
    dsimp only at h
    split at h
    · rcases bind_eq_error.mp h with ho | ⟨_, _, h⟩
      · exact ((arguments_refuses ho).cons _).mono hs
      · cases h
    · cases h
    · cases h
      exact (refuses_unexpected stop _ _).mono hs
termination_by (ts.length, 20)
decreasing_by
  · exact Prod.Lex.right _ (by simp [Level.height])
  · exact Prod.Lex.left _ _ (by simp only [List.length_cons] at hlt ⊢; omega)
end

theorem whole_refuses {tokens : Tokens} (h : whole tokens = .error e) :
    Refuses tokens.stop tokens.items e := by
  rcases bind_eq_error.mp h with hx | ⟨⟨found, rest⟩, hx, h⟩
  · rcases bind_eq_error.mp hx with hl | ⟨_, _, hx⟩
    · exact level_refuses (by rw [plain, hl]; rfl)
    · cases hx
  · obtain ⟨⟨expr, left⟩, hl, hx⟩ := bind_eq_ok.mp hx
    cases hx
    have hs : left.1 ⊆ tokens.items := subset_of_level (by rw [plain, hl]; rfl)
    split at h
    · cases h
    · rename_i t us heq
      cases h
      have ht : t ∈ left.1 := by
        rw [(Prod.mk.inj heq).2]
        exact List.mem_cons_self
      exact ⟨.inr ⟨t, hs ht, rfl⟩, fun l h => by cases h⟩

theorem loopVariable_refuses (h : loopVariable stop fault ts = .error e) : Refuses stop ts e := by
  unfold loopVariable at h
  split at h
  · split at h
    · cases h
      exact refuses_invalidLoop stop fault _
    · cases h
  · cases h
    exact refuses_invalidLoop stop fault _

theorem loopVariables_refuses (h : loopVariables stop ts = .error e) : Refuses stop ts e := by
  rcases bind_eq_error.mp h with hfirst | ⟨⟨first, us⟩, hfirst, h⟩
  · exact loopVariable_refuses hfirst
  · obtain ⟨_, ht⟩ := loopVariable_eq_ok.mp hfirst
    dsimp only at h
    split at h
    · rcases bind_eq_error.mp h with hsecond | ⟨_, _, h⟩
      · exact ((loopVariable_refuses hsecond).cons _).mono ht.subset
      · cases h
    · cases h

theorem header_refuses {tokens : Tokens} (h : header tokens = .error e) :
    Refuses tokens.stop tokens.items e := by
  unfold header at h
  dsimp only at h
  split at h
  · cases h
    exact refuses_invalidLoop _ _ _
  rcases bind_eq_error.mp h with hl | ⟨⟨index, item, rest⟩, hl, h⟩
  · exact loopVariables_refuses hl
  · obtain ⟨_, ht⟩ := loopVariables_sound hl (.var item)
    dsimp only at h
    split at h
    · cases h
      exact (refuses_invalidLoop _ _ _).mono (List.nil_subset _)
    · rcases bind_eq_error.mp h with hw | ⟨_, _, h⟩
      · exact ((whole_refuses hw).cons _).mono ht.subset
      · cases h
    · cases h
      exact (refuses_invalidLoop _ _ _).mono ht.subset

end Parser

/-- The error of a text is that of its lexer, or one that its parser has of tokens of the text. -/
theorem Tokens.placedIn_of_parse {parse : Tokens → Except ParseError α}
    (hp : ∀ tokens e, parse tokens = .error e → Parser.Refuses tokens.stop tokens.items e)
    (h : Tokens.parse parse s = .error e) : e.PlacedIn s.toList := by
  have hplaces := Lexer.places_of_lexFrom 0 false s.toList
  unfold Tokens.parse Tokens.ofChars? at h
  cases hl : Lexer.lexFrom 0 false s.toList with
  | error l =>
    rw [hl] at h hplaces
    cases h
    obtain ⟨before, after, hs, hpos, hat⟩ := hplaces
    refine ⟨before, after, hs, by simpa [LexError.toParseError] using hpos, fun l' hl' => ?_⟩
    cases hl'
    exact ⟨rfl, hat⟩
  | ok ts =>
    rw [hl] at h hplaces
    have hrefuses := hp _ _ h
    rcases hrefuses.place with hpos | ⟨t, ht, hpos⟩
    · exact ⟨s.toList, [], by simp, hpos, fun l hl => absurd hl (hrefuses.notLexical l)⟩
    · obtain ⟨before, after, hs, hb⟩ := hplaces t ht
      exact ⟨before, after, hs, by rw [hpos, hb, Nat.zero_add],
        fun l hl => absurd hl (hrefuses.notLexical l)⟩

theorem Expr.placedIn_of_parse (h : Expr.parse s = .error e) : e.PlacedIn s.toList :=
  Tokens.placedIn_of_parse (fun _ _ => Parser.whole_refuses) h

theorem LoopHeader.placedIn_of_parse (h : LoopHeader.parse s = .error e) : e.PlacedIn s.toList :=
  Tokens.placedIn_of_parse (fun _ _ => Parser.header_refuses) h

end FormLetter
