import FormLetter.Proofs.Expr.Lexemes

namespace FormLetter

namespace Lexer

/-- A text that is one token, with nothing around it. -/
def IsToken (k : TokenKind) (text : List Char) : Prop :=
  text ≠ [] ∧ Tokens.ofChars? text = .ok ⟨[⟨k, 0⟩], Text.size8 text⟩

/-- A text is made up of tokens, with nothing but blanks between them. -/
inductive Tiles : Nat → List Token → List Char → Prop where
  | gap : (∀ c ∈ gap, Text.isBlank c = true) → Tiles position [] gap
  | token {t : Token} : (∀ c ∈ gap, Text.isBlank c = true) →
      t.position = position + Text.size8 gap →
      IsToken t.kind text → Tiles (t.position + Text.size8 text) ts rest →
      Tiles position (t :: ts) (gap ++ text ++ rest)

theorem Tiles.blank (hb : Text.isBlank c = true) (h : Tiles (position + c.utf8Size) ts cs) :
    Tiles position ts (c :: cs) := by
  cases h with
  | gap hgap => exact .gap (List.forall_mem_cons.mpr ⟨hb, hgap⟩)
  | @token gap _ text _ rest t hgap hp htext hrest =>
    have hsize : t.position = position + Text.size8 (c :: gap) := by
      rw [hp, Nat.add_assoc]
      rfl
    exact .token (List.forall_mem_cons.mpr ⟨hb, hgap⟩) hsize htext hrest

/-- A token is read alone as it is in a text. -/
theorem Lexes.isToken (h : Lexes touching k text rest) : IsToken k text := by
  have hempty : EndsDigits [] := fun c us h => nomatch h
  have hbefore : Lexes touching k text ([] ++ rest) := h
  have halone := (hbefore.cut.untouched fun _ => hempty).lexFrom_eq 0
  rw [List.append_nil, lexFrom] at halone
  obtain ⟨c, more, rfl, -⟩ := h.lexeme_eq
  refine ⟨List.cons_ne_nil c more, ?_⟩
  rw [Tokens.ofChars?, halone]
  rfl

theorem tiles_of_lexFrom (h : lexFrom position touching cs = .ok ts) : Tiles position ts cs := by
  fun_induction lexFrom position touching cs generalizing ts with
  | case1 =>
    cases h
    exact .gap (List.forall_mem_nil _)
  | case2 position touching c rest hb ih => exact .blank hb (ih h)
  | case3 => cases h
  | case4 => cases h
  | case5 position touching c rest hb l hl this tokens hr ih =>
    cases h
    have hrest : Tiles position (⟨l.kind, position⟩ :: tokens) ([] ++ l.text ++ l.rest) :=
      .token (List.forall_mem_nil _) rfl (lexes_of_lexeme hl).isToken (ih hr)
    rwa [List.nil_append, lexeme_append hl] at hrest

/-- A text that starts with a dot and a digit. -/
def StartsFraction (cs : List Char) : Prop :=
  ∃ d rest, cs = '.' :: d :: rest ∧ Decimal.isDigit d = true

theorem lexFrom_eq_cons (hb : Text.isBlank c = false) :
    lexFrom position touching (c :: rest) = .ok (t :: ts) ↔
      ∃ l, lexeme touching c rest = .ok l ∧ t = ⟨l.kind, position⟩ ∧
        lexFrom (position + Text.size8 l.text) l.kind.endsOperand l.rest = .ok ts := by
  cases hl : lexeme touching c rest with
  | error fault =>
    rw [lexFrom_error hb hl]
    simp
  | ok l =>
    rw [lexFrom_lexeme hb hl]
    cases hr : lexFrom (position + Text.size8 l.text) l.kind.endsOperand l.rest <;>
      simp [Except.map, hr, eq_comm]

/-- A token is read alike with nothing before it, unless it is a dot that is right before a
digit. -/
theorem lexFrom_untouched (hb : Text.isBlank c = false)
    (h : lexFrom position touching (c :: rest) = .ok (t :: ts)) :
    lexFrom position false (c :: rest) = .ok (t :: ts) ↔
      ¬(t.kind = .symbol .dot ∧ StartsFraction (c :: rest)) := by
  obtain ⟨l, hl, rfl, hts⟩ := (lexFrom_eq_cons hb).mp h
  have hlexes := lexes_of_lexeme hl
  have happend := lexeme_append hl
  constructor
  · intro hfalse
    rintro ⟨hk, d, back, heq, hd⟩
    obtain ⟨l', hl', ht, -⟩ := (lexFrom_eq_cons hb).mp hfalse
    have hlexes' := lexes_of_lexeme hl'
    have happend' := lexeme_append hl'
    obtain ⟨hkind, -⟩ := Token.mk.inj ht
    rw [← hkind, (show l.kind = .symbol .dot from hk)] at hlexes'
    obtain ⟨htext, hends⟩ := hlexes'.dot
    rw [htext, heq] at happend'
    have hd' := hends rfl d back (List.cons.inj happend').2
    rw [hd] at hd'
    cases hd'
  · intro hdot
    have huntouched : Lexes false l.kind l.text l.rest := by
      refine hlexes.untouched fun hk d back hrest => ?_
      rw [hk] at hlexes
      obtain ⟨htext, -⟩ := hlexes.dot
      rw [htext, hrest] at happend
      by_contra hd
      exact hdot ⟨hk, d, back, happend.symm, by simpa using hd⟩
    rw [← happend, huntouched.lexFrom_eq, hts]
    rfl

/-- An error stands there also with nothing before it. -/
theorem lexeme_error_untouched (h : lexeme touching c rest = .error fault) :
    lexeme false c rest = .error fault := by
  cases touching with
  | false => exact h
  | true =>
    by_cases hc : c = '.'
    · subst hc
      have hn : startsNumber true '.' rest = false := rfl
      rw [lexeme_symbol hn rfl] at h
      cases h
    · have hn : startsNumber false c rest = startsNumber true c rest := by
        simp [startsNumber, hc]
      rw [lexeme, hn]
      exact h

end Lexer

namespace Tokens

open Lexer

/-- From a token on, a text is read as that token and those after it. -/
def Resumes (back : List Char) (t : Token) (after : List Token) : Prop :=
  ∃ tokens, ofChars? back = .ok tokens ∧ tokens.items.map (Token.moved t.position) = t :: after

theorem resumes_iff : Resumes back t after ↔ lexFrom t.position false back = .ok (t :: after) := by
  have hmoved := lexFrom_moved t.position 0 false back
  rw [Nat.add_zero] at hmoved
  unfold Resumes ofChars?
  rw [hmoved]
  cases lexFrom 0 false back <;> simp [Except.map, Except.mapError]

/-- What becomes of a text. One that can be read is tiled by its tokens, and can be read from each
of them on, unless that is a dot right before a digit. One that cannot be read can be read up to
where it goes wrong, and goes wrong in the same way if it starts there. -/
def Tiled (cs : List Char) : Except LexError Tokens → Prop
  | .ok tokens => tokens.stop = Text.size8 cs ∧ Tiles 0 tokens.items cs ∧
      ∀ before t after, tokens.items = before ++ t :: after →
        ∃ front back, cs = front ++ back ∧ t.position = Text.size8 front ∧
          (Resumes back t after ↔ ¬(t.kind = .symbol .dot ∧ StartsFraction back))
  | .error e => ∃ front back, cs = front ++ back ∧ e.position = Text.size8 front ∧
      (∃ tokens, ofChars? front = .ok tokens) ∧ ofChars? back = .error ⟨0, e.fault⟩

/-- Reading a text cuts it at its tokens, or stops where it goes wrong. -/
theorem tiled_ofChars (cs : List Char) : Tiled cs (ofChars? cs) := by
  unfold ofChars?
  cases h : lexFrom 0 false cs with
  | ok items =>
    refine ⟨rfl, tiles_of_lexFrom h, ?_⟩
    rintro before t after rfl
    obtain ⟨front, c, rest, near, rfl, hp, hb, ht⟩ := lexFrom_at_token h
    refine ⟨front, c :: rest, rfl, by rw [hp, Nat.zero_add], ?_⟩
    rw [resumes_iff]
    exact lexFrom_untouched hb ht
  | error e =>
    obtain ⟨front, c, rest, near, rfl, hp, hb, he, items, hitems⟩ := lexFrom_at_error h
    refine ⟨front, c :: rest, rfl, by rw [hp, Nat.zero_add], ⟨⟨items, Text.size8 front⟩, ?_⟩, ?_⟩
    · rw [ofChars?, hitems]
    · rw [ofChars?, lexFrom_error hb (lexeme_error_untouched he)]

end Tokens

end FormLetter
