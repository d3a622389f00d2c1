namespace FormLetter.Xml

def named? (name : List Char) : Option Char :=
  if name = "lt".toList then some '<'
  else if name = "gt".toList then some '>'
  else if name = "amp".toList then some '&'
  else if name = "apos".toList then some '\''
  else if name = "quot".toList then some '"'
  else none

def hexDigit? (c : Char) : Option Nat :=
  if '0' ≤ c ∧ c ≤ '9' then some (c.toNat - '0'.toNat)
  else if 'a' ≤ c ∧ c ≤ 'f' then some (c.toNat - 'a'.toNat + 10)
  else if 'A' ≤ c ∧ c ≤ 'F' then some (c.toNat - 'A'.toNat + 10)
  else none

/-- A number in a base, at least one digit long. -/
def number? (base : Nat) (cs : List Char) : Option Nat :=
  if cs.isEmpty then none
  else
    cs.foldlM (fun n c => (hexDigit? c).bind fun d =>
      if d < base then some (n * base + d) else none) 0

/-- No reference stands for the null character. -/
def scalar? (n : Nat) : Option Char :=
  if h : n.isValidChar ∧ n ≠ 0 then some (Char.ofNatAux n h.1) else none

/-- The character that stands between `&` and `;`. -/
def reference? : List Char → Option Char
  | '#' :: 'x' :: digits => (number? 16 digits).bind scalar?
  | '#' :: digits => (number? 10 digits).bind scalar?
  | name => named? name

/-- A text with its references replaced, if all of them are sound. A reference that another opens
before it ends is not. -/
def unescape? (cs : List Char) : Option (List Char) :=
  match _h : cs with
  | [] => some []
  | '&' :: after =>
    let name := after.takeWhile fun c => c != '&' && c != ';'
    match _hr : after.dropWhile fun c => c != '&' && c != ';' with
    | ';' :: rest => (reference? name).bind fun c => (unescape? rest).map (c :: ·)
    | _ => none
  | c :: rest => (unescape? rest).map (c :: ·)
termination_by cs.length
decreasing_by
  · have := (List.dropWhile_suffix (l := after) fun c => c != '&' && c != ';').length_le
    simp_all only [List.length_cons]
    omega
  · simp

end FormLetter.Xml
