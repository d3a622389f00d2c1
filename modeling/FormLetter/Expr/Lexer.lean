import FormLetter.Decimal.Digits
import FormLetter.Decimal.Nearest
import FormLetter.Expr.Error
import FormLetter.Expr.Token
import FormLetter.Text.Blank
import FormLetter.Text.Letter
import FormLetter.Text.Size

namespace FormLetter.Lexer

/-- A token with the characters it is made of and those that follow. -/
structure Lexeme where
  kind : TokenKind
  text : List Char
  rest : List Char

/-- Digits, and a point if digits follow it. -/
def splitNumber (cs : List Char) : List Char × List Char :=
  let whole := cs.takeWhile Decimal.isDigit
  match cs.dropWhile Decimal.isDigit with
  | '.' :: d :: rest =>
    if Decimal.isDigit d then
      (whole ++ '.' :: (d :: rest).takeWhile Decimal.isDigit, (d :: rest).dropWhile Decimal.isDigit)
    else (whole, '.' :: d :: rest)
  | rest => (whole, rest)

/-- A number without a point is whole if it fits in 64 bits. Any other is a double, which has to be
finite. -/
def numberKind? (text : List Char) : Option TokenKind :=
  let whole := text.takeWhile Decimal.isDigit
  let fraction := (text.dropWhile Decimal.isDigit).drop 1
  match text.contains '.', Decimal.int64? (Decimal.toNat text) with
  | false, some n => some (.int n)
  | _, _ =>
    let x := Decimal.nearest false (Decimal.toNat (whole ++ fraction)) (-fraction.length)
    if x.isFinite then some (.float x) else none

/-- The closing quote for an opening one: straight quotes, and the typographic pairs that word
processors put in their place. -/
def closingQuote? : Char → Option Char
  | '"' => some '"'
  | '\'' => some '\''
  | '“' => some '”'
  | '‘' => some '’'
  | '„' => some '“'
  | '«' => some '»'
  | _ => none

/-- What a character stands for after a backslash. -/
def unescape : Char → Char
  | 'n' => '\n'
  | 't' => '\t'
  | 'r' => '\r'
  | c => c

/-- The content of a string, its characters with the closing quote, and what follows. -/
def splitString (close : Char) : List Char → Option (List Char × List Char × List Char)
  | [] => none
  | c :: rest =>
    if c = '\\' then
      match rest with
      | [] => none
      | escaped :: rest =>
        (splitString close rest).map fun (content, text, rest) =>
          (unescape escaped :: content, c :: escaped :: text, rest)
    else if c = close then some ([], [c], rest)
    else
      (splitString close rest).map fun (content, text, rest) => (c :: content, c :: text, rest)

/-- The symbol that a character begins, and whether it takes the next character too. -/
def symbol? (c : Char) (next : Option Char) : Option (Symbol × Bool) :=
  match c with
  | '=' => some (if next = some '=' then (.eq, true) else (.assign, false))
  | '!' => some (if next = some '=' then (.ne, true) else (.bang, false))
  | '<' => some (if next = some '=' then (.le, true) else (.lt, false))
  | '>' => some (if next = some '=' then (.ge, true) else (.gt, false))
  | '&' => some (.and, next = some '&')
  | '|' => some (.or, next = some '|')
  | '+' => some (.plus, false)
  | '-' => some (.minus, false)
  | '*' => some (.star, false)
  | '/' => some (.slash, false)
  | '%' => some (.percent, false)
  | '(' => some (.openParen, false)
  | ')' => some (.closeParen, false)
  | '[' => some (.openBracket, false)
  | ']' => some (.closeBracket, false)
  | ',' => some (.comma, false)
  | '.' => some (.dot, false)
  | _ => none

/-- A number starts with a digit, or with a dot before a digit unless the dot touches an operand:
then it is an access. -/
def startsNumber (touching : Bool) (c : Char) (rest : List Char) : Bool :=
  Decimal.isDigit c || c == '.' && !touching && rest.head?.any Decimal.isDigit

/-- The token at the front of a text that does not start with a blank. -/
def lexeme (touching : Bool) (c : Char) (rest : List Char) : Except LexFault Lexeme :=
  if startsNumber touching c rest then
    let (text, after) := splitNumber (c :: rest)
    match numberKind? text with
    | some kind => .ok ⟨kind, text, after⟩
    | none => .error (.numberOutOfRange (String.ofList text))
  else if Text.startsName c then
    let text := c :: rest.takeWhile Text.continuesName
    .ok ⟨.name (String.ofList text), text, rest.dropWhile Text.continuesName⟩
  else match closingQuote? c with
    | some close =>
      match splitString close rest with
      | some (content, text, after) => .ok ⟨.string (String.ofList content), c :: text, after⟩
      | none => .error (.unterminatedString c)
    | none =>
      match symbol? c rest.head? with
      | some (symbol, true) => .ok ⟨.symbol symbol, c :: rest.take 1, rest.drop 1⟩
      | some (symbol, false) => .ok ⟨.symbol symbol, [c], rest⟩
      | none => .error (.unexpectedCharacter c)

theorem splitNumber_append (cs : List Char) :
    (splitNumber cs).1 ++ (splitNumber cs).2 = cs := by
  have whole := List.takeWhile_append_dropWhile (p := Decimal.isDigit) (l := cs)
  unfold splitNumber
  split
  · rename_i d rest heq
    split
    · rw [List.append_assoc, List.cons_append, List.takeWhile_append_dropWhile, ← heq, whole]
    · rw [← heq, whole]
  · exact whole

theorem splitNumber_ne_nil (h : startsNumber touching c rest = true) :
    (splitNumber (c :: rest)).1 ≠ [] := by
  by_cases hc : Decimal.isDigit c
  · unfold splitNumber
    split
    · split <;> simp [hc]
    · simp [hc]
  · simp only [startsNumber, hc, Bool.false_or, Bool.and_eq_true, beq_iff_eq] at h
    obtain ⟨⟨rfl, _⟩, hd⟩ := h
    cases rest with
    | nil => simp at hd
    | cons d rest =>
      simp only [List.head?_cons, Option.any_some] at hd
      simp [splitNumber, hc, hd]

theorem splitString_append (h : splitString close cs = some (content, text, rest)) :
    text ++ rest = cs := by
  fun_induction splitString close cs generalizing content text with
  | case1 => simp at h
  | case2 => simp at h
  | case3 escaped cs ih =>
    obtain ⟨⟨content', text', rest'⟩, hr, he⟩ := Option.map_eq_some_iff.mp h
    simp only [Prod.mk.injEq] at he
    obtain ⟨_, rfl, rfl⟩ := he
    simp [ih hr]
  | case4 cs hc =>
    simp only [Option.some.injEq, Prod.mk.injEq] at h
    obtain ⟨_, rfl, rfl⟩ := h
    rfl
  | case5 c cs hc hclose ih =>
    obtain ⟨⟨content', text', rest'⟩, hr, he⟩ := Option.map_eq_some_iff.mp h
    simp only [Prod.mk.injEq] at he
    obtain ⟨_, rfl, rfl⟩ := he
    simp [ih hr]

/-- Nothing is lost: the characters of a token and those after it make up the text. -/
theorem lexeme_append (h : lexeme touching c rest = .ok l) : l.text ++ l.rest = c :: rest := by
  unfold lexeme at h
  split at h
  · have ha := splitNumber_append (c :: rest)
    dsimp only at h
    split at h
    · cases h; exact ha
    · simp at h
  · split at h
    · cases h; simp
    · split at h
      · split at h
        · rename_i hs; cases h; simp [splitString_append hs]
        · simp at h
      · split at h
        · cases h; exact congrArg (c :: ·) (List.take_append_drop 1 rest)
        · cases h; simp
        · simp at h

/-- A token is never empty. -/
theorem lexeme_ne_nil (h : lexeme touching c rest = .ok l) : l.text ≠ [] := by
  unfold lexeme at h
  split at h
  · rename_i hn
    have hne := splitNumber_ne_nil hn
    dsimp only at h
    split at h
    · cases h; exact hne
    · simp at h
  · split at h
    · cases h; simp
    · split at h
      · split at h
        · cases h; simp
        · simp at h
      · split at h
        · cases h; simp
        · cases h; simp
        · simp at h

theorem lexeme_length (h : lexeme touching c rest = .ok l) : l.rest.length < rest.length + 1 := by
  have ha := congrArg List.length (lexeme_append h)
  have hn := List.length_pos_iff.mpr (lexeme_ne_nil h)
  simp only [List.length_append, List.length_cons] at ha
  omega

/-- The tokens of a text that starts at a byte offset. `touching` says that an operand ends right
there. -/
def lexFrom (position : Nat) (touching : Bool) (cs : List Char) : Except LexError (List Token) :=
  match cs with
  | [] => .ok []
  | c :: rest =>
    if Text.isBlank c then lexFrom (position + c.utf8Size) false rest
    else
      match h : lexeme touching c rest with
      | .error fault => .error ⟨position, fault⟩
      | .ok l =>
        have := lexeme_length h
        match lexFrom (position + Text.size8 l.text) l.kind.endsOperand l.rest with
        | .error e => .error e
        | .ok tokens => .ok (⟨l.kind, position⟩ :: tokens)
termination_by cs.length
decreasing_by all_goals simp_all

end Lexer

/-- The tokens of a text. -/
def Tokens.ofChars? (cs : List Char) : Except LexError Tokens :=
  match Lexer.lexFrom 0 false cs with
  | .error e => .error e
  | .ok items => .ok ⟨items, Text.size8 cs⟩

end FormLetter
