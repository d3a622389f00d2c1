import FormLetter.Proofs.Expr.Written
import FormLetter.Proofs.Text.Characters

namespace FormLetter

open Outcome

/-- Moves a token. -/
def Token.moved (distance : Nat) (t : Token) : Token :=
  { t with position := distance + t.position }

def LexError.moved (distance : Nat) (e : LexError) : LexError :=
  { e with position := distance + e.position }

namespace Lexer

/-- A text is read as tokens of certain kinds, wherever it starts and whatever comes before it. -/
def Spells (cs : List Char) (ks : List TokenKind) : Prop :=
  ∀ position touching, ∃ ts, lexFrom position touching cs = .ok ts ∧ ts.map Token.kind = ks

theorem lexFrom_lexeme (hb : Text.isBlank c = false) (h : lexeme touching c rest = .ok l)
    (position : Nat) :
    lexFrom position touching (c :: rest) =
      (lexFrom (position + Text.size8 l.text) l.kind.endsOperand l.rest).map
        (⟨l.kind, position⟩ :: ·) := by
  rw [lexFrom, if_neg (by simp [hb])]
  split
  · rename_i h'
    rw [h] at h'
    cases h'
  · rename_i h'
    rw [h] at h'
    cases h'
    cases lexFrom (position + Text.size8 l.text) l.kind.endsOperand l.rest <;> rfl

theorem lexFrom_blank (hb : Text.isBlank c = true) (position : Nat) (touching : Bool) :
    lexFrom position touching (c :: rest) = lexFrom (position + c.utf8Size) false rest := by
  rw [lexFrom, if_pos hb]

theorem lexFrom_error (hb : Text.isBlank c = false) (h : lexeme touching c rest = .error fault)
    (position : Nat) : lexFrom position touching (c :: rest) = .error ⟨position, fault⟩ := by
  rw [lexFrom, if_neg (by simp [hb])]
  split
  · rename_i h'
    rw [h] at h'
    cases h'
    rfl
  · rename_i h'
    rw [h] at h'
    cases h'

/-- Where a text starts matters only to where its tokens stand, or its error. -/
theorem lexFrom_moved (distance position : Nat) (touching : Bool) (cs : List Char) :
    lexFrom (distance + position) touching cs =
      ((lexFrom position touching cs).map (List.map (Token.moved distance))).mapError
        (LexError.moved distance) := by
  fun_induction lexFrom position touching cs with
  | case1 => rw [lexFrom]; rfl
  | case2 position touching c rest hb ih =>
    rw [lexFrom_blank hb, Nat.add_assoc, ih]
  | case3 position touching c rest hb fault hl =>
    rw [lexFrom_error (by simpa using hb) hl]
    rfl
  | case4 position touching c rest hb l hl this e hr ih =>
    rw [lexFrom_lexeme (by simpa using hb) hl, Nat.add_assoc, ih, hr]
    rfl
  | case5 position touching c rest hb l hl this tokens hr ih =>
    rw [lexFrom_lexeme (by simpa using hb) hl, Nat.add_assoc, ih, hr]
    rfl

namespace Spells

theorem nil : Spells [] [] := by
  intro position touching
  exact ⟨[], by rw [lexFrom], rfl⟩

theorem blank (hb : Text.isBlank c = true) (h : Spells cs ks) : Spells (c :: cs) ks := by
  intro position touching
  obtain ⟨ts, ht, hk⟩ := h (position + c.utf8Size) false
  exact ⟨ts, by rw [lexFrom, if_pos hb, ht], hk⟩

theorem space (h : Spells cs ks) : Spells (' ' :: cs) ks :=
  h.blank (by decide)

theorem lexeme (text : List Char) (hb : Text.isBlank c = false)
    (hl : ∀ touching, Lexer.lexeme touching c rest = .ok ⟨k, text, after⟩)
    (h : Spells after ks) : Spells (c :: rest) (k :: ks) := by
  intro position touching
  obtain ⟨ts, ht, hk⟩ := h (position + Text.size8 text) k.endsOperand
  refine ⟨⟨k, position⟩ :: ts, ?_, by rw [List.map_cons, hk]⟩
  rw [lexFrom_lexeme hb (hl touching), ht]
  rfl

end Spells

/-- Characters that can only begin symbols. A dot is not among them, since numbers can start with
it. -/
def isMark (c : Char) : Bool :=
  !(Text.isBlank c || Decimal.isDigit c || c == '.' || Text.startsName c ||
    (closingQuote? c).isSome)

theorem lexeme_mark (hc : isMark c = true) (touching : Bool) (rest : List Char) :
    lexeme touching c rest =
      match symbol? c rest.head? with
      | some (symbol, true) => .ok ⟨.symbol symbol, c :: rest.take 1, rest.drop 1⟩
      | some (symbol, false) => .ok ⟨.symbol symbol, [c], rest⟩
      | none => .error (.unexpectedCharacter c) := by
  simp only [isMark, Bool.not_eq_true', Bool.or_eq_false_iff] at hc
  obtain ⟨⟨⟨⟨_, hd⟩, hp⟩, hn⟩, hq⟩ := hc
  have hq := Option.isSome_eq_false_iff.mp hq
  rw [Option.isNone_iff_eq_none] at hq
  rw [lexeme, if_neg (by simp [startsNumber, hd, hp]), if_neg (by simp [hn])]
  split
  · rename_i h
    rw [hq] at h
    cases h
  · rfl

theorem isBlank_of_isMark (hc : isMark c = true) : Text.isBlank c = false := by
  simp only [isMark, Bool.not_eq_true', Bool.or_eq_false_iff] at hc
  exact hc.1.1.1.1

namespace Spells

theorem symbol (hc : isMark c = true) (hs : symbol? c rest.head? = some (s, false))
    (h : Spells rest ks) : Spells (c :: rest) (.symbol s :: ks) :=
  lexeme [c] (isBlank_of_isMark hc) (fun touching => by rw [lexeme_mark hc, hs]) h

theorem doubled (hc : isMark c = true) (hs : symbol? c (some d) = some (s, true))
    (h : Spells rest ks) : Spells (c :: d :: rest) (.symbol s :: ks) :=
  lexeme [c, d] (isBlank_of_isMark hc)
    (fun touching => by
      rw [lexeme_mark hc, List.head?_cons, hs]
      rfl) h

theorem openParen (h : Spells cs ks) : Spells ('(' :: cs) (.symbol .openParen :: ks) :=
  h.symbol rfl rfl

theorem closeParen (h : Spells cs ks) : Spells (')' :: cs) (.symbol .closeParen :: ks) :=
  h.symbol rfl rfl

theorem openBracket (h : Spells cs ks) : Spells ('[' :: cs) (.symbol .openBracket :: ks) :=
  h.symbol rfl rfl

theorem closeBracket (h : Spells cs ks) : Spells (']' :: cs) (.symbol .closeBracket :: ks) :=
  h.symbol rfl rfl

theorem comma (h : Spells cs ks) : Spells (',' :: cs) (.symbol .comma :: ks) :=
  h.symbol rfl rfl

theorem unaryOp (op : UnaryOp) (h : Spells ('(' :: cs) ks) :
    Spells (op.symbol.toList ++ '(' :: cs) (.symbol op.token :: ks) := by
  cases op <;> exact h.symbol rfl rfl

theorem binaryOp (op : BinaryOp) (h : Spells cs ks) :
    Spells (op.symbol.toList ++ ' ' :: cs) (.symbol op.token :: ks) := by
  cases op with
  | eq | ne | le | ge => exact h.space.doubled rfl rfl
  | _ => exact h.space.symbol rfl rfl

end Spells

/-- Whether a text does not go on with the same name. -/
def EndsName (cs : List Char) : Prop :=
  ∀ c rest, cs = c :: rest → Text.continuesName c = false

theorem takeWhile_append_of_ends {p : Char → Bool} (h : ∀ a ∈ as, p a = true)
    (hb : ∀ b rest, bs = b :: rest → p b = false) :
    (as ++ bs).takeWhile p = as ∧ (as ++ bs).dropWhile p = bs := by
  rw [List.takeWhile_append_of_pos h, List.dropWhile_append_of_pos h]
  cases bs with
  | nil => simp
  | cons b bs => simp [hb b bs rfl]

theorem of_dropWhile {p : Char → Bool} {cs : List Char} (h : cs.dropWhile p = c :: rest) :
    p c = false := by
  have hhead := List.head?_dropWhile_not p cs
  simpa [h] using hhead

theorem startsNumber_of_startsName (h : Text.startsName c = true) (touching : Bool)
    (rest : List Char) : startsNumber touching c rest = false := by
  simp [startsNumber, Text.isDigit_of_startsName h, Text.ne_dot_of_startsName h]

theorem lexeme_name {name : String} (hname : name.toList = c :: cs) (hc : Text.startsName c = true)
    (hcs : ∀ d ∈ cs, Text.continuesName d = true) (he : EndsName rest) (touching : Bool) :
    lexeme touching c (cs ++ rest) = .ok ⟨.name name, c :: cs, rest⟩ := by
  obtain ⟨htake, hdrop⟩ := takeWhile_append_of_ends hcs he
  rw [lexeme, if_neg (by simp [startsNumber_of_startsName hc]), if_pos hc]
  simp only [htake, hdrop, ← hname, String.ofList_toList]

namespace Spells

theorem name {name : String} (hn : IsName name) (he : EndsName rest) (h : Spells rest ks) :
    Spells (name.toList ++ rest) (.name name :: ks) := by
  obtain ⟨c, cs, hname, hc, hcs⟩ := hn
  rw [hname, List.cons_append]
  exact h.lexeme (c :: cs) (Text.isBlank_of_startsName hc) (lexeme_name hname hc hcs he)

/-- A dot before a name is an access. -/
theorem dot {name : String} (hn : IsName name) (h : Spells (name.toList ++ rest) ks) :
    Spells ('.' :: (name.toList ++ rest)) (.symbol .dot :: ks) := by
  obtain ⟨c, cs, hname, hc, _⟩ := hn
  apply h.lexeme ['.'] (by decide)
  intro touching
  have hd : startsNumber touching '.' (name.toList ++ rest) = false := by
    have hdot : Decimal.isDigit '.' = false := rfl
    simp [startsNumber, hname, Text.isDigit_of_startsName hc, hdot]
  have hs : Text.startsName '.' = false := rfl
  rw [Lexer.lexeme, if_neg (by simp [hd]), if_neg (by simp [hs])]
  rfl

end Spells

theorem splitString_cons (h1 : c ≠ '\\') (h2 : c ≠ close) :
    splitString close (c :: rest) =
      (splitString close rest).map fun (content, text, rest) =>
        (c :: content, c :: text, rest) := by
  rw [splitString.eq_def]
  simp [h1, h2]

theorem splitString_escape (close escaped : Char) (rest : List Char) :
    splitString close ('\\' :: escaped :: rest) =
      (splitString close rest).map fun (content, text, rest) =>
        (unescape escaped :: content, '\\' :: escaped :: text, rest) := by
  rw [splitString]
  rfl

theorem escapeChar_cases (c : Char) :
    (∃ e, Expr.escapeChar c = ['\\', e] ∧ unescape e = c) ∨
      Expr.escapeChar c = [c] ∧ c ≠ '\\' ∧ c ≠ '"' := by
  by_cases hq : c = '"'
  · exact Or.inl ⟨'"', by simp [Expr.escapeChar, hq], hq.symm⟩
  by_cases hb : c = '\\'
  · exact Or.inl ⟨'\\', by simp [Expr.escapeChar, hb], hb.symm⟩
  by_cases hn : c = '\n'
  · exact Or.inl ⟨'n', by simp [Expr.escapeChar, hn], hn ▸ rfl⟩
  by_cases ht : c = '\t'
  · exact Or.inl ⟨'t', by simp [Expr.escapeChar, ht], ht ▸ rfl⟩
  by_cases hr : c = '\r'
  · exact Or.inl ⟨'r', by simp [Expr.escapeChar, hr], hr ▸ rfl⟩
  · exact Or.inr ⟨by simp [Expr.escapeChar, hq, hb, hn, ht, hr], hb, hq⟩

/-- Escapes are undone. -/
theorem splitString_escaped (cs rest : List Char) :
    splitString '"' (cs.flatMap Expr.escapeChar ++ '"' :: rest) =
      some (cs, cs.flatMap Expr.escapeChar ++ ['"'], rest) := by
  induction cs with
  | nil => rw [List.flatMap_nil, List.nil_append, splitString.eq_def]; rfl
  | cons c cs ih =>
    obtain ⟨e, he, hu⟩ | ⟨he, hb, hq⟩ := escapeChar_cases c
    · simp [he, splitString_escape, ih, hu]
    · simp [he, splitString_cons hb hq, ih]

theorem Spells.string (s : String) (h : Spells rest ks) :
    Spells (Expr.stringLiteral s ++ rest) (.string s :: ks) := by
  rw [Expr.stringLiteral, List.cons_append, List.cons_append, List.append_assoc]
  apply h.lexeme ('"' :: s.toList.flatMap Expr.escapeChar ++ ['"']) (by decide)
  intro touching
  have hn (cs : List Char) : startsNumber touching '"' cs = false := rfl
  have hs : Text.startsName '"' = false := rfl
  rw [Lexer.lexeme, if_neg (by simp [hn]), if_neg (by simp [hs])]
  simp only [closingQuote?, List.singleton_append, splitString_escaped, String.ofList_toList]
  rfl

end Lexer

end FormLetter
