import FormScript.Number.Decimal

/-!
# Texts of floating-point numbers

A floating-point number is written as an optional sign, digits with at most one point
in or around them, and optionally the letter `e` with an exponent, which may have a
sign of its own. The words `inf`, `infinity` and `nan`, with an optional sign, stand for
floating-point numbers too. Letters may be of either case.
-/

namespace FormScript

/-- A text without the sign in front of it, if it has one. -/
def dropSign : List Char → List Char
  | '+' :: rest | '-' :: rest => rest
  | text => text

/-- The parts of a number in digits, as they are written: the exponent with its sign. A
number without an exponent has nothing there. -/
structure Literal where
  negative : Bool
  whole : List Char
  fraction : List Char
  exponent : List Char
  deriving DecidableEq, Repr

namespace Literal

/-- The size of the exponent that digits spell. Digits that follow an exponent beyond
65535 are not counted: every such number with a short coefficient is zero or infinite
already. -/
def exponentSize (digits : List Char) : Nat :=
  digits.foldl (fun e c => if e < 65536 then 10 * e + (c.toNat - '0'.toNat) else e) 0

/-- The exponent that digits with an optional sign spell. -/
def exponentValue (exponent : List Char) : Int :=
  let size : Int := exponentSize (dropSign exponent)
  if exponent.head? = some '-' then -size else size

/-- The unsigned decimal that a literal spells. -/
def decimal (l : Literal) : Decimal where
  coefficient := Nat.ofDigitChars 10 (l.whole ++ l.fraction) 0
  exponent := exponentValue l.exponent - l.fraction.length

/-- The binary number nearest to a literal. -/
def value (l : Literal) : Float :=
  Binary.toFloat l.negative l.decimal.pattern

/-- Reads the exponent part of a literal: nothing, or `e` and at least one digit, with an
optional sign before the digits. -/
def readExponent? : List Char → Option (List Char)
  | [] => some []
  | 'e' :: exponent =>
    let digits := dropSign exponent
    if !digits.isEmpty && digits.all Char.isDigit then some exponent else none
  | _ => none

/-- Reads the digits after the point, if there is one, and returns what follows. -/
def readFraction : List Char → List Char × List Char
  | '.' :: rest => (rest.takeWhile Char.isDigit, rest.dropWhile Char.isDigit)
  | rest => ([], rest)

/-- Reads a literal after its sign. -/
def readUnsigned? (negative : Bool) (text : List Char) : Option Literal :=
  let whole := text.takeWhile Char.isDigit
  let (fraction, rest) := readFraction (text.dropWhile Char.isDigit)
  if whole.isEmpty && fraction.isEmpty then none
  else (readExponent? rest).map fun exponent =>
    { negative := negative, whole := whole, fraction := fraction, exponent := exponent }

end Literal

/-- What the text of a floating-point number spells. -/
inductive FloatText where
  | infinity (negative : Bool)
  | nan (negative : Bool)
  | decimal (literal : Literal)
  deriving DecidableEq, Repr

namespace FloatText

/-- The floating-point number that is spelled. -/
def value : FloatText → Float
  | .infinity negative => Binary.toFloat negative Binary.infinity
  | .nan negative => Binary.toFloat negative Binary.notNumber
  | .decimal literal => literal.value

/-- Reads a text in lower case after its sign. -/
def readUnsigned? (negative : Bool) (text : List Char) : Option FloatText :=
  if text = "inf".toList ∨ text = "infinity".toList then some (.infinity negative)
  else if text = "nan".toList then some (.nan negative)
  else (Literal.readUnsigned? negative text).map .decimal

/-- Reads a whole text as a floating-point number. -/
def read? (text : List Char) : Option FloatText :=
  let lower := text.map Char.toLower
  readUnsigned? (lower.head? = some '-') (dropSign lower)

end FloatText

end FormScript
