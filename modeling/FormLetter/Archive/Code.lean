namespace FormLetter.Archive

/-- The lowest bit of each byte first. -/
abbrev Bits := List Bool

def Bits.ofBytes (bytes : List UInt8) : Bits :=
  bytes.flatMap fun b => (List.range 8).map b.toNat.testBit

/-- A number of a given width, and the bits after it. -/
def Bits.number? : Nat → Bits → Option (Nat × Bits)
  | 0, bits => some (0, bits)
  | _ + 1, [] => none
  | width + 1, b :: bits => (number? width bits).map fun (n, rest) => (2 * n + b.toNat, rest)

theorem number?_length (h : Bits.number? width bits = some (n, rest)) :
    rest.length + width = bits.length := by
  fun_induction Bits.number? width bits generalizing n <;> grind [Option.map_eq_some_iff]

/-- A tree whose forks are taken by the bits of a symbol. The lengths of the symbols fix it: shorter
ones come first, and equal ones in their own order. -/
inductive Code where
  | vacant
  | symbol (n : Nat)
  | fork (zero one : Code)
  deriving Repr

namespace Code

/-- The part of a code below a depth, for symbols in order, and the symbols that it leaves. -/
def subtree : Nat → Nat → List (Nat × Nat) → Code × List (Nat × Nat)
  | 0, _, symbols => (.vacant, symbols)
  | _, _, [] => (.vacant, [])
  | levels + 1, depth, (length, n) :: symbols =>
    if length = depth then (.symbol n, symbols)
    else
      let (zero, more) := subtree levels (depth + 1) ((length, n) :: symbols)
      let (one, rest) := subtree levels (depth + 1) more
      (.fork zero one, rest)

/-- The greatest length of a symbol. -/
def longest : Nat := 15

/-- The symbols with their lengths, in the order of their codes. A length of zero leaves a symbol
out. -/
def ordered (lengths : List Nat) : List (Nat × Nat) :=
  (lengths.zipIdx.filter (·.1 ≠ 0)).mergeSort fun a b => a.1 ≤ b.1

/-- Whether symbols use up all ways, and none twice. -/
def isFull (symbols : List (Nat × Nat)) : Bool :=
  symbols.foldl (fun used s => used + Nat.pow 2 (longest - s.1)) 0 = Nat.pow 2 longest

/-- Whether there is no symbol, or one of one bit. -/
def isSparse : List (Nat × Nat) → Bool
  | [] => true
  | [(length, _)] => length = 1
  | _ => false

/-- The code of given lengths, if they use it up. -/
def fullOfLengths? (lengths : List Nat) : Option Code :=
  let symbols := ordered lengths
  if isFull symbols then some (subtree (longest + 1) 0 symbols).1 else none

/-- The code of given lengths. A sparse one does not have to be used up. -/
def ofLengths? (lengths : List Nat) : Option Code :=
  let symbols := ordered lengths
  if isSparse symbols then some (subtree (longest + 1) 0 symbols).1 else fullOfLengths? lengths

def branch (b : Bool) : Code → Code
  | .fork zero one => if b then one else zero
  | _ => .vacant

/-- The symbol at the end of a way into the code. -/
def follow? : Code → Bits → Option (Nat × Bits)
  | .symbol n, bits => some (n, bits)
  | .vacant, _ => none
  | .fork _ _, [] => none
  | .fork zero one, b :: bits => follow? (if b then one else zero) bits
termination_by _ bits => bits.length

theorem follow?_length (h : follow? code bits = some (n, rest)) : rest.length ≤ bits.length := by
  fun_induction follow? code bits <;> grind

/-- The next symbol, at least one bit long, and the bits after it. -/
def next? (code : Code) : Bits → Option (Nat × Bits)
  | [] => none
  | b :: bits => (code.branch b).follow? bits

theorem next?_length (h : next? code bits = some (n, rest)) : rest.length < bits.length := by
  cases bits with
  | nil => simp [next?] at h
  | cons b bits =>
    have := follow?_length h
    grind

end Code

end FormLetter.Archive
