import FormScript.Number.Binary

/-!
# Decimals and the binary numbers they stand for

A decimal is a whole coefficient and a power of ten. `pattern` rounds it to the
nearest binary number. `shortest` goes back: of all decimals that round to a given
binary number it takes one with the fewest digits, and of those the nearest to the
number.

The exact value of a binary number is itself a decimal, because a unit of
`2 ^ (-1074)` is `5 ^ 1074` units of `10 ^ (-1074)`. The search drops digits from
the end of that decimal: for every count of digits kept, only the two neighbours of
the exact value on that grid can be nearest. Keeping every digit always succeeds,
so the result always rounds back to the number it came from.
-/

namespace FormScript

/-- The number `coefficient * 10 ^ exponent`. -/
structure Decimal where
  coefficient : Nat
  exponent : Int
  deriving DecidableEq, Repr

namespace Decimal

/-- The pattern of the binary number nearest to a decimal. -/
def pattern (d : Decimal) : Nat :=
  Binary.ofUnits (d.coefficient * Nat.pow 10 d.exponent.toNat * Nat.pow 2 1074)
    (Nat.pow 10 (-d.exponent).toNat)

/-- The exact value of the number of a finite pattern. -/
def ofPattern (pattern : Nat) : Decimal where
  coefficient := Binary.units pattern * Nat.pow 5 1074
  exponent := -1074

/-- The number of decimal digits of the coefficient. -/
def width (d : Decimal) : Nat :=
  (Nat.toDigits 10 d.coefficient).length

/-- The greatest decimal up to `d` that does not use its last `dropped` digits. -/
def below (d : Decimal) (dropped : Nat) : Decimal where
  coefficient := d.coefficient / Nat.pow 10 dropped
  exponent := d.exponent + dropped

/-- The next decimal after `d.below dropped` on the same grid. -/
def above (d : Decimal) (dropped : Nat) : Decimal where
  coefficient := d.coefficient / Nat.pow 10 dropped + 1
  exponent := d.exponent + dropped

/-- Whether `d` is nearer to `d.below dropped` than to `d.above dropped`. -/
def nearerBelow (d : Decimal) (dropped : Nat) : Bool :=
  2 * (d.coefficient % Nat.pow 10 dropped) < Nat.pow 10 dropped

/-- The two neighbours of `d` that do not use its last `dropped` digits: the nearer one
first, and the upper one first if they are equally near. -/
def neighbours (d : Decimal) (dropped : Nat) : List Decimal :=
  if d.nearerBelow dropped then [d.below dropped, d.above dropped]
  else [d.above dropped, d.below dropped]

/-- The neighbour of `d` without its last `dropped` digits that rounds to `target`:
the nearer one if both do, and the upper one if they are equally near. -/
def shorten? (d : Decimal) (target dropped : Nat) : Option Decimal :=
  (d.neighbours dropped).find? fun short => short.pattern == target

/-- The nearest of the decimals with the fewest digits that round to `target`. -/
def shortest (target : Nat) : Decimal :=
  let exact := ofPattern target
  let width := exact.width
  ((List.range width).findSome? fun more =>
    exact.shorten? target (width - (more + 1))).getD exact

end Decimal

end FormScript
