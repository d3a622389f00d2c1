namespace FormLetter.Text

/-- The number of bytes after a first byte, and the bounds of the second one. -/
def tailBounds? (first : UInt8) : Option (Nat × UInt8 × UInt8) :=
  if 0xC2 ≤ first ∧ first ≤ 0xDF then some (1, 0x80, 0xBF)
  else if first = 0xE0 then some (2, 0xA0, 0xBF)
  else if first = 0xED then some (2, 0x80, 0x9F)
  else if 0xE1 ≤ first ∧ first ≤ 0xEF then some (2, 0x80, 0xBF)
  else if first = 0xF0 then some (3, 0x90, 0xBF)
  else if 0xF1 ≤ first ∧ first ≤ 0xF3 then some (3, 0x80, 0xBF)
  else if first = 0xF4 then some (3, 0x80, 0x8F)
  else none

/-- A character that is not complete: its bits so far, and how many bytes it lacks. -/
structure Partial where
  bits : Nat
  lacking : Nat
  low : UInt8
  high : UInt8

/-- Starts with a byte: a character, a partial one, or a fault. -/
def startByte (b : UInt8) : Except Partial (Option Char) :=
  if b < 0x80 then .ok (some (Char.ofNat b.toNat))
  else match tailBounds? b with
    | none => .ok none
    | some (n, low, high) => .error ⟨b.toNat % (64 >>> n), n, low, high⟩

/-- The characters of bytes, with none for a fault. The longest start of a character that goes no
further is one fault. -/
def decodeFrom (state : Option Partial) : List UInt8 → List (Option Char)
  | [] => if state.isSome then [none] else []
  | b :: rest =>
    let fresh (front : List (Option Char)) : List (Option Char) :=
      match startByte b with
      | .ok c => front ++ c :: decodeFrom none rest
      | .error p => front ++ decodeFrom (some p) rest
    match state with
    | none => fresh []
    | some p =>
      if p.low ≤ b ∧ b ≤ p.high then
        let bits := p.bits * 64 + b.toNat % 64
        if p.lacking ≤ 1 then some (Char.ofNat bits) :: decodeFrom none rest
        else decodeFrom (some ⟨bits, p.lacking - 1, 0x80, 0xBF⟩) rest
      else fresh [none]

/-- The characters of bytes without a fault. -/
def decode? (bytes : List UInt8) : Option (List Char) :=
  (decodeFrom none bytes).mapM id

/-- The characters of bytes, with a replacement character for each fault. -/
def decodeLossy (bytes : List UInt8) : List Char :=
  (decodeFrom none bytes).map (·.getD '\uFFFD')

end FormLetter.Text
