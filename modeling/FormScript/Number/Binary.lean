/-!
# Binary numbers by their bit patterns

A 64-bit floating-point number is a sign and a *pattern*, the remaining 63 bits
read as a natural number: an 11-bit exponent field above a 52-bit fraction. Every
finite number is a whole multiple of `2 ^ (-1074)`; `units` says which. Patterns
are ordered like the numbers they stand for, and the patterns from `infinity` on
are not finite.

`ofUnits` is the other direction: the pattern whose number is nearest to a given
fraction of units, where a tie goes to the even pattern and numbers too large for
any finite pattern become infinite.
-/

namespace FormScript.Binary

/-- The size of one step of the exponent field. -/
def fieldSize : Nat := Nat.pow 2 52

/-- The value of the sign bit, which stands above the bits of the pattern. -/
def signBit : Nat := Nat.pow 2 63

/-- The pattern of the infinite number. Greater patterns are not numbers. -/
def infinity : Nat := 2047 * fieldSize

/-- The pattern of what is not a number, where no other is given. -/
def notNumber : Nat := infinity + Nat.pow 2 51

/-- How many units of `2 ^ (-1074)` the number of a finite pattern has. -/
def units (pattern : Nat) : Nat :=
  let exponent := pattern / fieldSize
  let fraction := pattern % fieldSize
  if exponent = 0 then fraction else (fieldSize + fraction) * Nat.pow 2 (exponent - 1)

/-- The whole number nearest to `num / den`; a tie goes to the even one. -/
def roundHalfEven (num den : Nat) : Nat :=
  let quotient := num / den
  let doubled := 2 * (num % den)
  if doubled < den then quotient
  else if den < doubled then quotient + 1
  else quotient + quotient % 2

/-- The pattern nearest to `num / den` units. Once a number has more than 53 binary
digits, each further digit moves the rounding position up by one and with it the
exponent field. A carry out of the rounded digits runs into the exponent field,
which is where it belongs. -/
def ofUnits (num den : Nat) : Nat :=
  let shift := (num / den).log2 - 52
  min (shift * fieldSize + roundHalfEven num (den * Nat.pow 2 shift)) infinity

/-- The number with this sign and pattern. -/
def toFloat (negative : Bool) (pattern : Nat) : Float :=
  Float.ofBits (UInt64.ofNat (if negative then signBit + pattern else pattern))

/-- Whether the sign of a number is set. -/
def isNegative (x : Float) : Bool :=
  signBit ≤ x.toBits.toNat

/-- The pattern of a number. -/
def pattern (x : Float) : Nat :=
  x.toBits.toNat % signBit

end FormScript.Binary
