namespace FormLetter.Decimal

/-- The whole number nearest to a quotient. Halfway cases go to the even neighbour. -/
def roundQuotient (num den : Nat) : Nat :=
  let q := num / den
  let twice := 2 * (num % den)
  if twice < den ∨ twice = den ∧ q % 2 = 0 then q else q + 1

/-- Multiplies a quotient by a power of two. -/
def shift (num den : Nat) (e : Int) : Nat × Nat :=
  (num * Nat.pow 2 e.toNat, den * Nat.pow 2 (-e).toNat)

/-- The power of two at or below a positive quotient. -/
def log2Quotient (num den : Nat) : Int :=
  let e : Int := (num.log2 : Int) - den.log2
  let (n, d) := shift num den (-e)
  if d ≤ n then e else e - 1

/-- The bit before the fraction of a normal double, which its pattern leaves out. -/
def leadingBit : Nat := 0x10000000000000

def signBit : Nat := 0x8000000000000000

/-- The bit pattern of infinity. Every smaller pattern is that of a finite double. -/
def infinityBits : Nat := 0x7FF0000000000000

/-- The bit pattern of the double nearest to `num / den`. Both the exponent and the place of a
number below the normal range come out of one sum, because the mantissa carries into the
exponent. -/
def quotientBits (num den : Nat) : Nat :=
  if num = 0 then 0
  else
    let e := max (log2Quotient num den - 52) (-1074)
    let (n, d) := shift num den (-e)
    min infinityBits ((e + 1074).toNat * leadingBit + roundQuotient n d)

/-- The bit pattern of the double nearest to `digits * 10 ^ exponent`. Exponents that leave no
choice are not computed with. -/
def decimalBits (digits : Nat) (exponent : Int) : Nat :=
  if digits = 0 then 0
  else if exponent > 400 then infinityBits
  else if exponent + (digits.log2 + 1) < -1100 then 0
  else quotientBits (digits * Nat.pow 10 exponent.toNat) (Nat.pow 10 (-exponent).toNat)

/-- The nearest double, which is infinite beyond the range. -/
def nearest (negative : Bool) (digits : Nat) (exponent : Int) : Float :=
  Float.ofBits (UInt64.ofNat (decimalBits digits exponent + if negative then signBit else 0))

end FormLetter.Decimal
