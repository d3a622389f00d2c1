import FormLetter.Json

namespace FormLetter.Json.Reader

/-- A result with the characters after it, of which there are fewer than before. -/
abbrev Read (α : Type) (cs : List Char) :=
  Option (α × { rest : List Char // rest.length < cs.length })

def isSpace (c : Char) : Bool :=
  c == ' ' || c == '\n' || c == '\t' || c == '\r'

def skip (cs : List Char) : List Char :=
  cs.dropWhile isSpace

theorem length_skip (cs : List Char) : (skip cs).length ≤ cs.length :=
  (List.dropWhile_suffix _).length_le

def hexValue? (c : Char) : Option Nat :=
  if '0' ≤ c ∧ c ≤ '9' then some (c.toNat - '0'.toNat)
  else if 'a' ≤ c ∧ c ≤ 'f' then some (c.toNat - 'a'.toNat + 10)
  else if 'A' ≤ c ∧ c ≤ 'F' then some (c.toNat - 'A'.toNat + 10)
  else none

/-- A 16-bit unit from four hexadecimal digits. -/
def unit? (a b c d : Char) : Option Nat := do
  return ((← hexValue? a) * 16 + (← hexValue? b)) * 256 + (← hexValue? c) * 16 + (← hexValue? d)

def isLeading (n : Nat) : Bool := 0xD800 ≤ n && n ≤ 0xDBFF

def isTrailing (n : Nat) : Bool := 0xDC00 ≤ n && n ≤ 0xDFFF

/-- An escaped trailing unit at the front. -/
def trailing? : List Char → Option (Nat × List Char)
  | '\\' :: 'u' :: a :: b :: c :: d :: rest => do
    let unit ← unit? a b c d
    if isTrailing unit then some (unit, rest) else none
  | _ => none

def simpleEscape? : Char → Option Char
  | '"' => some '"'
  | '\\' => some '\\'
  | '/' => some '/'
  | 'b' => some '\x08'
  | 'f' => some '\x0c'
  | 'n' => some '\n'
  | 'r' => some '\r'
  | 't' => some '\t'
  | _ => none

/-- The character that an escape writes, after its backslash, and what follows it. A unit of a
surrogate pair without the other one is no character. -/
def escaped? : List Char → Option (Option Char × List Char)
  | 'u' :: a :: b :: c :: d :: rest => do
    let unit ← unit? a b c d
    if isLeading unit then
      match trailing? rest with
      | some (low, rest) =>
        some (some (Char.ofNat ((unit - 0xD800) * 0x400 + (low - 0xDC00) + 0x10000)), rest)
      | none => some (none, rest)
    else some (if isTrailing unit then none else some (Char.ofNat unit), rest)
  | e :: rest => (simpleEscape? e).map (some ·, rest)
  | [] => none

/-- Keeps a result only if characters were taken for it. -/
def shorter (cs : List Char) (result : Option (α × List Char)) : Read α cs :=
  match result with
  | some (a, rest) => if h : rest.length < cs.length then some (a, ⟨rest, h⟩) else none
  | none => none

/-- The rest of a string after its opening quote. `front` holds the characters before it, the last
one first, as long as each escape wrote one. -/
def stringTail (front : Option (List Char)) (cs : List Char) : Read (Option String) cs :=
  match cs with
  | [] => none
  | '"' :: rest => some (front.map (String.ofList ·.reverse), ⟨rest, Nat.lt_succ_self _⟩)
  | '\\' :: rest => do
    let (c, rest') ← shorter rest (escaped? rest)
    let (s, rest'') ← stringTail (do return (← c) :: (← front)) rest'.1
    return (s, ⟨rest''.1, Nat.lt_succ_of_lt (Nat.lt_trans rest''.2 rest'.2)⟩)
  | c :: rest =>
    if c.toNat < 0x20 then none
    else do
      let (s, rest') ← stringTail (front.map (c :: ·)) rest
      return (s, ⟨rest'.1, Nat.lt_succ_of_lt rest'.2⟩)
termination_by cs.length
decreasing_by
  · have := rest'.2
    simp only [List.length_cons]
    omega
  · simp

/-- Digits, of which there has to be one at least. -/
def digits? (cs : List Char) : Option (List Char × List Char) :=
  match cs.takeWhile Decimal.isDigit with
  | [] => none
  | ds => some (ds, cs.dropWhile Decimal.isDigit)

def fraction? : List Char → Option (Option (List Char) × List Char)
  | '.' :: rest => (digits? rest).map fun (ds, rest) => (some ds, rest)
  | cs => some (none, cs)

def exponent? : List Char → Option (Option (Bool × List Char) × List Char)
  | e :: cs =>
    if e = 'e' ∨ e = 'E' then
      match cs with
      | '-' :: rest => (digits? rest).map fun (ds, rest) => (some (true, ds), rest)
      | '+' :: rest => (digits? rest).map fun (ds, rest) => (some (false, ds), rest)
      | rest => (digits? rest).map fun (ds, rest) => (some (false, ds), rest)
    else some (none, e :: cs)
  | [] => some (none, [])

/-- A number starts with a zero only if that is its whole part. -/
def numeral? (cs : List Char) : Option (Numeral × List Char) := do
  let (negative, cs) := match cs with
    | '-' :: rest => (true, rest)
    | cs => (false, cs)
  let (whole, cs) ← digits? cs
  if whole.head? = some '0' ∧ whole.length > 1 then none
  else
    let (fraction, cs) ← fraction? cs
    let (exponent, cs) ← exponent? cs
    return (⟨negative, whole, fraction, exponent⟩, cs)

def string? (cs : List Char) : Read (Option String) cs :=
  match cs with
  | '"' :: rest => do
    let (s, rest') ← stringTail (some []) rest
    return (s, ⟨rest'.1, Nat.lt_succ_of_lt rest'.2⟩)
  | _ => none

mutual
/-- A document at the front of a text that does not start with a space. -/
def document? (cs : List Char) : Read Json cs :=
  match cs with
  | 'n' :: 'u' :: 'l' :: 'l' :: rest => some (.null, ⟨rest, by simp only [List.length_cons]; omega⟩)
  | 't' :: 'r' :: 'u' :: 'e' :: rest =>
    some (.bool true, ⟨rest, by simp only [List.length_cons]; omega⟩)
  | 'f' :: 'a' :: 'l' :: 's' :: 'e' :: rest =>
    some (.bool false, ⟨rest, by simp only [List.length_cons]; omega⟩)
  | '"' :: rest => (string? ('"' :: rest)).map fun (s, after) => (s.elim .garbled .string, after)
  | '[' :: rest =>
    match _h : skip rest with
    | ']' :: after => some (.array [], ⟨after, by
        have := length_skip rest
        simp_all only [List.length_cons]
        omega⟩)
    | start => do
      let (items, after) ← items? start
      return (.array items, ⟨after.1, by
        have := length_skip rest
        have := after.2
        simp_all only [List.length_cons]
        omega⟩)
  | '{' :: rest =>
    match _h : skip rest with
    | '}' :: after => some (.object [], ⟨after, by
        have := length_skip rest
        simp_all only [List.length_cons]
        omega⟩)
    | start => do
      let (members, after) ← members? start
      return (members.elim .garbled .object, ⟨after.1, by
        have := length_skip rest
        have := after.2
        simp_all only [List.length_cons]
        omega⟩)
  | cs => (shorter cs (numeral? cs)).map fun (n, after) => (.number n, after)
termination_by (cs.length, 0)
decreasing_by
  all_goals
    have := length_skip rest
    simp_all only [List.length_cons]
    exact Prod.Lex.left _ _ (by omega)

/-- One item or more, and the closing bracket. -/
def items? (cs : List Char) : Read (List Json) cs := do
  let (item, after) ← document? cs
  match _h : skip after.1 with
  | ']' :: rest => some ([item], ⟨rest, by
      have := length_skip after.1
      have := after.2
      simp_all only [List.length_cons]
      omega⟩)
  | ',' :: rest => do
    let (items, last) ← items? (skip rest)
    return (item :: items, ⟨last.1, by
      have := length_skip after.1
      have := length_skip rest
      have := after.2
      have := last.2
      simp_all only [List.length_cons]
      omega⟩)
  | _ => none
termination_by (cs.length, 1)
decreasing_by
  · exact Prod.Lex.right _ (by omega)
  · have := length_skip after.1
    have := length_skip rest
    have := after.2
    simp_all only [List.length_cons]
    exact Prod.Lex.left _ _ (by omega)

/-- One member or more, and the closing brace. All names have to be texts. -/
def members? (cs : List Char) : Read (Option (List (String × Json))) cs := do
  let (name, after) ← string? cs
  match _h : skip after.1 with
  | ':' :: rest => do
    let (json, after') ← document? (skip rest)
    match _h' : skip after'.1 with
    | '}' :: rest' => some (name.map fun s => [(s, json)], ⟨rest', by
        have := length_skip after.1
        have := length_skip rest
        have := length_skip after'.1
        have := after.2
        have := after'.2
        simp_all only [List.length_cons]
        omega⟩)
    | ',' :: rest' => do
      let (members, last) ← members? (skip rest')
      return (do return (← name, json) :: (← members), ⟨last.1, by
        have := length_skip after.1
        have := length_skip rest
        have := length_skip after'.1
        have := length_skip rest'
        have := after.2
        have := after'.2
        have := last.2
        simp_all only [List.length_cons]
        omega⟩)
    | _ => none
  | _ => none
termination_by (cs.length, 1)
decreasing_by
  · have := length_skip after.1
    have := length_skip rest
    have := after.2
    simp_all only [List.length_cons]
    exact Prod.Lex.left _ _ (by omega)
  · have := length_skip after.1
    have := length_skip rest
    have := length_skip after'.1
    have := length_skip rest'
    have := after.2
    have := after'.2
    simp_all only [List.length_cons]
    exact Prod.Lex.left _ _ (by omega)
end

end Reader

/-- The document that makes up a text, with blanks around it. -/
def parse (s : String) : Option Json := do
  let (json, rest) ← Reader.document? (Reader.skip s.toList)
  if (Reader.skip rest.1).isEmpty then some json else none

end FormLetter.Json
