import FormScript.Number.Decimal

/-!
# The text of a number

Numbers are written with the fewest digits that read back to the same number, in
positional notation whatever their size: no exponent, no point after a whole
number, and a sign for every negative number, zero included.
-/

namespace FormScript

/-- The digits after the point, without zeros at the end. -/
def dropTrailingZeros (digits : List Char) : List Char :=
  (digits.reverse.dropWhile (· == '0')).reverse

/-- A decimal in positional notation, with at least one digit before the point. -/
def Decimal.positional (d : Decimal) : List Char :=
  let digits := Nat.toDigits 10 d.coefficient
  let places := (-d.exponent).toNat
  let padded := List.replicate (places + 1 - digits.length) '0' ++ digits ++
    List.replicate d.exponent.toNat '0'
  let whole := padded.take (padded.length - places)
  let fraction := dropTrailingZeros (padded.drop (padded.length - places))
  if fraction.isEmpty then whole else whole ++ '.' :: fraction

/-- The text of the number of a pattern, without a sign. -/
def patternText (pattern : Nat) : List Char :=
  if pattern < Binary.infinity then (Decimal.shortest pattern).positional
  else "inf".toList

/-- The text of a number. What is not a number has no sign. -/
def numberText (x : Float) : List Char :=
  let pattern := Binary.pattern x
  if Binary.infinity < pattern then "NaN".toList
  else if Binary.isNegative x then '-' :: patternText pattern
  else patternText pattern

end FormScript
