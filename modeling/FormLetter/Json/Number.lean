import FormLetter.Decimal.Nearest
import FormLetter.Json

namespace FormLetter.Numeral

/-- The nearest double. -/
def nearest (n : Numeral) : Float :=
  let fraction := n.fraction.getD []
  let exponent : Int := match n.exponent with
    | some (true, ds) => -Decimal.toNat ds
    | some (false, ds) => Decimal.toNat ds
    | none => 0
  Decimal.nearest n.negative (Decimal.toNat (n.whole ++ fraction)) (exponent - fraction.length)

/-- Goes on with a number digit by digit as far as it fits in 64 bits, and returns the digits that
are left. -/
def takeDigits (n : Nat) : List Char → Nat × List Char
  | [] => (n, [])
  | d :: ds =>
    let m := Nat.ofDigitChars 10 [d] n
    if m < UInt64.size then takeDigits m ds else (n, d :: ds)

/-- Multiplies by a power of ten in double arithmetic. A result beyond the finite doubles is
none. -/
def scale? (x : Float) (exponent : Int) : Option Float :=
  if exponent.natAbs ≤ 308 then
    let power := Decimal.nearest false 1 exponent.natAbs
    if 0 ≤ exponent then (if (x * power).isFinite then some (x * power) else none)
    else some (x / power)
  else if x == 0.0 then some x
  else if 0 ≤ exponent then none
  else scale? (x / 1e308) (exponent + 308)
termination_by exponent.natAbs
decreasing_by omega

/-- The double that a number of a document is read as: as much of its digits as fit in 64 bits,
scaled in double arithmetic. This may miss the nearest double by little. -/
def toFloat? (n : Numeral) : Option Float :=
  let (whole, overWhole) := takeDigits 0 n.whole
  let fraction := n.fraction.getD []
  let (digits, overFraction) := takeDigits whole fraction
  let exponent : Int := (overWhole.length : Int) - (fraction.length - overFraction.length : Nat)
  let significand := (UInt64.ofNat digits).toFloat
  let magnitude := match n.exponent with
    | none => scale? significand exponent
    | some (negative, ds) =>
      let m := Decimal.toNat ds
      if (m : Int) ≤ Int32.maxValue.toInt then
        scale? significand (exponent + if negative then -(m : Int) else m)
      else if digits ≠ 0 ∧ !negative then none
      else some 0.0
  magnitude.map fun x => if n.negative then -x else x

end FormLetter.Numeral
