import FormLetter.Archive.Symbol

namespace FormLetter.Archive

/-- What the next bits are. -/
inductive Mode where
  | header
  /-- So many bytes of a plain block. -/
  | plain (left : Nat)
  | coded (literals distances : Code)
  | finished

/-- What is left to read. -/
structure Inflation where
  bits : Bits
  mode : Mode
  /-- In the last block. -/
  last : Bool

/-- What a step adds to the output. -/
inductive Addition where
  | nothing
  | byte (b : UInt8)
  /-- So many bytes, from a distance back. -/
  | copy (count distance : Nat)

/-- Repeats output from a distance back, a byte at a time, so that it may repeat itself. Before the
output stand zeros. -/
def repeatBytes : Nat → Nat → Array UInt8 → Array UInt8
  | 0, _, output => output
  | count + 1, distance, output =>
    let byte := if distance ≤ output.size then output[output.size - distance]?.getD 0 else 0
    repeatBytes count distance (output.push byte)

def Addition.apply (output : Array UInt8) : Addition → Array UInt8
  | nothing => output
  | byte b => output.push b
  | copy count distance => repeatBytes count distance output

namespace Inflation

/-- After the end of a block comes another one, or nothing. -/
def endMode (last : Bool) : Mode :=
  if last then .finished else .header

def plainMode (left : Nat) (last : Bool) : Mode :=
  if left = 0 then endMode last else .plain left

/-- Starts a block of a kind. A plain one starts at a whole byte with its size, given twice. -/
def openBlock? (last : Bool) (kind : Nat) (bits : Bits) : Option Inflation :=
  match kind with
  | 0 =>
    match Symbol.numbers? 16 2 (bits.drop (bits.length % 8)) with
    | some ([size, complement], rest) =>
      if size + complement = 0xFFFF then some ⟨rest, plainMode size last, last⟩ else none
    | _ => none
  | 1 => Symbol.fixedCodes?.map fun (literals, distances) =>
      ⟨bits, .coded literals distances, last⟩
  | 2 => (Symbol.describedCodes? bits).map fun (literals, distances, rest) =>
      ⟨rest, .coded literals distances, last⟩
  | _ => none

theorem openBlock?_length {bits : Bits} {last : Bool} (h : openBlock? last kind bits = some after) :
    after.bits.length ≤ bits.length := by
  unfold openBlock? at h
  grind [→ Symbol.numbers?_length, → Symbol.describedCodes?_length, List.length_drop,
    Option.map_eq_some_iff]

/-- Reads the header of a block, or a symbol of it. -/
def step? (s : Inflation) : Option (Addition × Inflation) :=
  match s.mode with
  | .finished => none
  | .header =>
    match s.bits.number? 1 with
    | none => none
    | some (last, bits) =>
      match bits.number? 2 with
      | none => none
      | some (kind, bits) => (openBlock? (last = 1) kind bits).map fun opened => (.nothing, opened)
  | .plain left =>
    (s.bits.number? 8).map fun (b, bits) =>
      (.byte b.toUInt8, { s with bits, mode := plainMode (left - 1) s.last })
  | .coded literals distances =>
    match literals.next? s.bits with
    | none => none
    | some (n, bits) =>
      if n < 256 then some (.byte n.toUInt8, { s with bits })
      else if n = 256 then some (.nothing, { s with bits, mode := endMode s.last })
      else
        match Symbol.stepValue? Symbol.lengthSteps (n - 257) bits with
        | none => none
        | some (count, bits) => (Symbol.distance? distances bits).map fun (back, bits) =>
            (.copy count back, { s with bits })

theorem step?_length (h : step? s = some (addition, after)) :
    after.bits.length < s.bits.length := by
  unfold step? at h
  grind [→ number?_length, → openBlock?_length, → Code.next?_length, → Symbol.stepValue?_length,
    → Symbol.distance?_length, Option.map_eq_some_iff]

def isFinished (s : Inflation) : Bool :=
  match s.mode with
  | .finished => true
  | _ => false

/-- The output at the end of the last block. -/
def run? (s : Inflation) (output : Array UInt8) : Option (Array UInt8) :=
  if s.isFinished then some output
  else
    match _h : s.step? with
    | none => none
    | some (addition, after) => run? after (addition.apply output)
termination_by s.bits.length
decreasing_by exact step?_length _h

end Inflation

/-- The plain form of deflated data. What follows its last block is left. -/
def inflate? (data : List UInt8) : Option (List UInt8) :=
  (Inflation.run? ⟨.ofBytes data, .header, false⟩ #[]).map Array.toList

end FormLetter.Archive
