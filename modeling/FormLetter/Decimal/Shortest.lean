import FormLetter.Decimal.Digits
import FormLetter.Decimal.Nearest

namespace FormLetter.Decimal

/-- A finite positive double, `mantissa * 2 ^ exponent`. -/
structure Binary where
  mantissa : Nat
  exponent : Int
  /-- The gap to the double below is half the gap to the one above. -/
  narrow : Bool

def Binary.ofBits (bits : UInt64) : Binary :=
  let field : Nat := bits.toNat / leadingBit % 0x800
  let fraction : Nat := bits.toNat % leadingBit
  if field = 0 then ⟨fraction, -1074, false⟩
  else ⟨leadingBit + fraction, (field : Int) - 1075, fraction = 0 && field > 1⟩

/-- Compares `a * 10 ^ i` with `b * 2 ^ j`. -/
def compareScaled (a : Nat) (i : Int) (b : Nat) (j : Int) : Ordering :=
  compare (a * Nat.pow 10 i.toNat * Nat.pow 2 (-j).toNat)
    (b * Nat.pow 2 j.toNat * Nat.pow 10 (-i).toNat)

/-- Whether `digits * 10 ^ scale` lies among the numbers that round to `x`. The ends of that
interval are halfway to the neighbours, and belong to it when the mantissa is even. -/
def Binary.readsBack (x : Binary) (digits : Nat) (scale : Int) : Bool :=
  let low :=
    compareScaled digits scale (4 * x.mantissa - if x.narrow then 1 else 2) (x.exponent - 2)
  let high := compareScaled digits scale (4 * x.mantissa + 2) (x.exponent - 2)
  let closed := x.mantissa % 2 = 0
  (low = .gt || closed && low = .eq) && (high = .lt || closed && high = .eq)

/-- The number of places before the point; negative for zeros right after it. -/
def Binary.places (x : Binary) : Int :=
  let num := x.mantissa * Nat.pow 2 x.exponent.toNat
  let den := Nat.pow 2 (-x.exponent).toNat
  if den ≤ num then (ofNat (num / den)).length
  else 1 - (ofNat ((den - 1) / num)).length

/-- The number just below `x` on the grid of `10 ^ scale`. -/
def Binary.floorAt (x : Binary) (scale : Int) : Nat :=
  (x.mantissa * Nat.pow 2 x.exponent.toNat * Nat.pow 10 (-scale).toNat) /
    (Nat.pow 10 scale.toNat * Nat.pow 2 (-x.exponent).toNat)

/-- The nearest number of the grid that reads back as `x`. -/
def Binary.onGrid (x : Binary) (scale : Int) : Option Nat :=
  let below := x.floorAt scale
  let above := below + 1
  match x.readsBack below scale, x.readsBack above scale with
  | true, true =>
    some (if compareScaled (below + above) scale (2 * x.mantissa) x.exponent = .gt then below
      else above)
  | true, false => some below
  | false, true => some above
  | false, false => none

/-- The fewest digits that read back as `x`, the nearest of those, and the larger of two that are
equally near. Seventeen digits always suffice. -/
def Binary.shortest (x : Binary) : Nat × Int :=
  ((List.range 17).findSome? fun (n : Nat) =>
    let scale := x.places - (n + 1)
    (x.onGrid scale).map (·, scale)).getD (x.floorAt (x.places - 17), x.places - 17)

/-- Writes `digits * 10 ^ scale` in its places, without zeros at the end of the fraction. -/
def positional (digits : Nat) (scale : Int) : List Char :=
  let cs := ofNat digits
  if 0 ≤ scale then cs ++ List.replicate scale.toNat '0'
  else
    let places := (-scale).toNat
    let padded := List.replicate (places + 1 - cs.length) '0' ++ cs
    let whole := padded.take (padded.length - places)
    let fraction := ((padded.drop (padded.length - places)).reverse.dropWhile (· == '0')).reverse
    if fraction.isEmpty then whole else whole ++ '.' :: fraction

/-- The text of a double, with `NaN`, `inf` and `-inf` for those that are no numbers. The sign of
zero is kept. -/
def ofFloat (x : Float) : List Char :=
  if x.isNaN then "NaN".toList
  else
    let bits := x.toBits
    let sign := if bits.toNat < signBit then [] else ['-']
    if x.isInf then sign ++ "inf".toList
    else
      let value := Binary.ofBits bits
      if value.mantissa = 0 then sign ++ ['0']
      else
        let (digits, scale) := value.shortest
        sign ++ positional digits scale

end FormLetter.Decimal
