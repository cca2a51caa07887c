import FormScript.Number.Text
import FormScript.Proofs.Readable
import FormScript.Proofs.Rounding

/-!
# Numbers are read as they are written

Positional notation keeps the value of a decimal: its digits are those of the
decimal up to zeros at the end (`Decimal.positional_laidOut`). Text of that form is
a numeral (`isNumeral_plainText`), and what it spells rounds to the number that was
written. So the text of a finite number is read as that number, with its sign
and its last bit (`Expr.ofAtom?_finite`), while an infinite number is read as a
symbol (`Expr.ofAtom?_infinite`).
-/

namespace FormScript

/-! ## Positional notation -/

theorem dropTrailingZeros_append (digits : List Char) :
    ∃ zeros, dropTrailingZeros digits ++ List.replicate zeros '0' = digits := by
  let dropped := digits.reverse.takeWhile (· == '0')
  have split : dropped ++ digits.reverse.dropWhile (· == '0') = digits.reverse :=
    List.takeWhile_append_dropWhile
  have zeros : dropped = List.replicate dropped.length '0' := by
    refine List.eq_replicate_of_mem fun c member => ?_
    have isZero : (c == '0') = true := List.mem_takeWhile_imp (p := (· == '0')) member
    exact beq_iff_eq.mp isZero
  refine ⟨dropped.length, ?_⟩
  rw [dropTrailingZeros, ← List.reverse_replicate, ← zeros, ← List.reverse_append, split,
    List.reverse_reverse]

/-- Digits, and after a point those of the fraction, if it has any. -/
def plainText (whole fraction : List Char) : List Char :=
  if fraction.isEmpty then whole else whole ++ '.' :: fraction

namespace Decimal

/-- Digits before and after the point that spell a decimal, once `zeros` more digits
zero are put at the end. -/
structure LaidOut (d : Decimal) (whole fraction : List Char) (zeros : Nat) : Prop where
  nonempty : whole ≠ []
  digits : ∀ c ∈ whole ++ fraction, c.isDigit = true
  value : Nat.ofDigitChars 10 (whole ++ fraction) 0 * 10 ^ zeros =
    d.coefficient * 10 ^ d.exponent.toNat
  places : fraction.length + zeros = (-d.exponent).toNat

/-- The digits of a decimal, with zeros up to the point on either side of it. -/
def padded (d : Decimal) : List Char :=
  List.replicate ((-d.exponent).toNat + 1 - (Nat.toDigits 10 d.coefficient).length) '0' ++
    Nat.toDigits 10 d.coefficient ++ List.replicate d.exponent.toNat '0'

-- Zeros in front of digits do not count, and each one after them is a factor ten.
theorem ofDigitChars_padded (d : Decimal) :
    Nat.ofDigitChars 10 d.padded 0 = d.coefficient * 10 ^ d.exponent.toNat := by
  rw [padded, Nat.ofDigitChars_append, Nat.ofDigitChars_append, Nat.ofDigitChars_replicate_zero,
    Nat.ofDigitChars_replicate_zero, Nat.mul_zero, Nat.ofDigitChars_ten_toDigits, Nat.mul_comm]

theorem isDigit_padded (d : Decimal) : ∀ c ∈ d.padded, c.isDigit = true := by
  intro c member
  rcases List.mem_append.mp member with front | back
  · rcases List.mem_append.mp front with padding | digit
    · rw [List.eq_of_mem_replicate padding]
      rfl
    · exact Nat.isDigit_of_mem_toDigits (by omega) (by omega) digit
  · rw [List.eq_of_mem_replicate back]
    rfl

theorem lt_length_padded (d : Decimal) : (-d.exponent).toNat < d.padded.length := by
  simp only [padded, List.length_append, List.length_replicate]
  omega

/-- Digits that spell a decimal may be cut where its point is. -/
theorem exists_laidOut (d : Decimal) {padded : List Char}
    (digits : ∀ c ∈ padded, c.isDigit = true)
    (value : Nat.ofDigitChars 10 padded 0 = d.coefficient * 10 ^ d.exponent.toNat)
    (long : (-d.exponent).toNat < padded.length) :
    ∃ zeros, d.LaidOut (padded.take (padded.length - (-d.exponent).toNat))
      (dropTrailingZeros (padded.drop (padded.length - (-d.exponent).toNat))) zeros := by
  have joined := List.take_append_drop (padded.length - (-d.exponent).toNat) padded
  have wholeLength := List.length_take (i := padded.length - (-d.exponent).toNat) (l := padded)
  have restLength := List.length_drop (i := padded.length - (-d.exponent).toNat) (l := padded)
  generalize padded.take (padded.length - (-d.exponent).toNat) = whole at *
  generalize padded.drop (padded.length - (-d.exponent).toNat) = rest at *
  obtain ⟨zeros, restored⟩ := dropTrailingZeros_append rest
  generalize dropTrailingZeros rest = fraction at *
  subst restored
  rw [← List.append_assoc] at joined
  refine ⟨zeros, ?_, ?_, ?_, ?_⟩
  · intro empty
    rw [empty, List.length_nil] at wholeLength
    omega
  · intro c member
    exact digits c (joined ▸ List.mem_append_left _ member)
  · rw [← joined, Nat.ofDigitChars_append, Nat.ofDigitChars_replicate_zero] at value
    rw [Nat.mul_comm, value]
  · rw [List.length_append, List.length_replicate] at restLength
    omega

theorem positional_laidOut (d : Decimal) :
    ∃ whole fraction zeros, d.positional = plainText whole fraction ∧
      d.LaidOut whole fraction zeros := by
  obtain ⟨zeros, laidOut⟩ :=
    d.exists_laidOut d.isDigit_padded d.ofDigitChars_padded d.lt_length_padded
  exact ⟨_, _, zeros, rfl, laidOut⟩

end Decimal

/-! ## Literals -/

/-- A text with a sign in front, if it is negative. -/
def signed (negative : Bool) (text : List Char) : List Char :=
  if negative then '-' :: text else text

theorem head?_signed (negative : Bool) {text : List Char} (bare : ∀ c ∈ text.head?, ¬ IsSign [c]) :
    decide ((signed negative text).head? = some '-') = negative := by
  cases negative with
  | true => rfl
  | false =>
    refine decide_eq_false fun minus => ?_
    exact bare '-' minus (.inr (.inr rfl))

theorem dropSign_signed (negative : Bool) {text : List Char}
    (bare : ∀ c ∈ text.head?, ¬ IsSign [c]) : dropSign (signed negative text) = text := by
  cases negative with
  | true => rfl
  | false => exact dropSign_append (.inl rfl) bare

section Plain

variable {whole fraction : List Char} (nonempty : whole ≠ [])
  (digits : ∀ c ∈ whole ++ fraction, c.isDigit = true)

include nonempty digits

theorem Literal.readUnsigned?_plainText (negative : Bool) :
    readUnsigned? negative (plainText whole fraction) =
      some { negative, whole, fraction, exponent := [] } := by
  obtain ⟨wholeDigits, fractionDigits⟩ := List.forall_mem_append.mp digits
  have isEmpty : whole.isEmpty = false := by simpa using nonempty
  unfold plainText
  split
  · next none =>
    obtain rfl := List.isEmpty_iff.mp none
    obtain ⟨taken, left⟩ := cut_digits wholeDigits [] (by simp)
    rw [List.append_nil] at taken left
    simp [readUnsigned?, taken, left, readFraction, readExponent?, isEmpty]
  · obtain ⟨taken, left⟩ := cut_digits wholeDigits ('.' :: fraction) (by simp)
    obtain ⟨fractionTaken, fractionLeft⟩ := cut_digits fractionDigits [] (by simp)
    rw [List.append_nil] at fractionTaken fractionLeft
    simp [readUnsigned?, taken, left, readFraction, fractionTaken, fractionLeft, readExponent?,
      isEmpty]

theorem isUnsigned_plainText : IsUnsigned (plainText whole fraction) := by
  obtain ⟨wholeDigits, fractionDigits⟩ := List.forall_mem_append.mp digits
  have shape : DigitsWithPoint (plainText whole fraction) := by
    unfold plainText
    split
    · exact .whole nonempty wholeDigits
    · exact .after nonempty wholeDigits fractionDigits
  exact ⟨_, [], (List.append_nil _).symm, shape.isMantissa, .absent⟩

theorem isNumeral_plainText (negative : Bool) :
    IsNumeral (signed negative (plainText whole fraction)) := by
  have unsigned := isUnsigned_plainText nonempty digits
  rw [isNumeral_iff, dropSign_signed negative unsigned.bare]
  refine ⟨unsigned, ?_⟩
  cases negative with
  | true => simp [signed]
  | false =>
    obtain ⟨c, cs, rfl⟩ := List.exists_cons_of_ne_nil nonempty
    have digit : c.isDigit = true := digits c (by simp)
    have other : c ≠ '.' := by
      rintro rfl
      cases digit
    have starts : (plainText (c :: cs) fraction).head? = some c := by
      unfold plainText
      split <;> rfl
    simpa [signed, starts] using other

theorem read?_plainText (negative : Bool) :
    FloatText.read? (signed negative (plainText whole fraction)) =
      some (.decimal { negative, whole, fraction, exponent := [] }) := by
  have bare := (isUnsigned_plainText nonempty digits).bare
  rw [(isNumeral_plainText nonempty digits negative).read?_eq, head?_signed negative bare,
    dropSign_signed negative bare, Literal.readUnsigned?_plainText nonempty digits,
    Option.map_some]

end Plain

namespace Literal

/-- Digits laid out for a decimal spell a literal that rounds as the decimal does. -/
theorem value_laidOut {d : Decimal} {whole fraction : List Char} {zeros : Nat}
    (laidOut : d.LaidOut whole fraction zeros) (negative : Bool) :
    value { negative, whole, fraction, exponent := [] } = Binary.toFloat negative d.pattern := by
  have pattern : (decimal { negative, whole, fraction, exponent := [] }).pattern = d.pattern := by
    have exponent : (decimal { negative, whole, fraction, exponent := [] }).exponent =
        -(fraction.length : Int) := by
      simp [decimal, exponentValue, exponentSize, dropSign]
    have coefficient : (decimal { negative, whole, fraction, exponent := [] }).coefficient =
        Nat.ofDigitChars 10 (whole ++ fraction) 0 := rfl
    refine Decimal.pattern_congr zeros ?_ ?_
    · rw [exponent, coefficient]
      simpa using laidOut.value
    · rw [exponent]
      simpa using laidOut.places
  rw [value, pattern]

end Literal

/-! ## The text of a number -/

section Signed

variable (negative : Bool) {p : Nat}

theorem numberText_toFloat (number : p ≤ Binary.infinity) :
    numberText (Binary.toFloat negative p) = signed negative (patternText p) := by
  have isNumber : ¬Binary.infinity < p := Nat.not_lt.mpr number
  simp only [numberText, signed, Binary.pattern_toFloat negative number,
    Binary.isNegative_toFloat negative number, isNumber, if_false]

/-- A finite number is written as a literal of its value. -/
theorem numberText_finite (finite : p < Binary.infinity) :
    ∃ whole fraction, whole ≠ [] ∧ (∀ c ∈ whole ++ fraction, c.isDigit = true) ∧
      numberText (Binary.toFloat negative p) = signed negative (plainText whole fraction) ∧
      Literal.value { negative, whole, fraction, exponent := [] } =
        Binary.toFloat negative p := by
  obtain ⟨whole, fraction, zeros, layout, laidOut⟩ :=
    (Decimal.shortest p).positional_laidOut
  refine ⟨whole, fraction, laidOut.nonempty, laidOut.digits, ?_, ?_⟩
  · rw [numberText_toFloat negative (Nat.le_of_lt finite), patternText, if_pos finite, layout]
  · rw [Literal.value_laidOut laidOut, Decimal.pattern_shortest finite]

theorem numberText_infinite :
    numberText (Binary.toFloat negative Binary.infinity) = signed negative "inf".toList := by
  rw [numberText_toFloat negative (Nat.le_refl _), patternText, if_neg (Nat.lt_irrefl _)]

end Signed

theorem isDigit_notMem_delimiters {c : Char} (digit : c.isDigit = true) : c ∉ delimiters := by
  intro member
  have free : delimiters.all (!·.isDigit) = true := rfl
  have other := List.all_eq_true.mp free c member
  rw [digit] at other
  cases other

theorem isWord_plainText {whole fraction : List Char} (nonempty : whole ≠ [])
    (digits : ∀ c ∈ whole ++ fraction, c.isDigit = true) :
    IsWord (plainText whole fraction) := by
  obtain ⟨wholeDigits, fractionDigits⟩ := List.forall_mem_append.mp digits
  unfold plainText
  split
  · exact ⟨nonempty, fun c member => isDigit_notMem_delimiters (wholeDigits c member)⟩
  · refine ⟨by simp, fun c member => ?_⟩
    rcases List.mem_append.mp member with before | after
    · exact isDigit_notMem_delimiters (wholeDigits c before)
    · rcases List.mem_cons.mp after with rfl | behind
      · exact Glyph.ofChar_eq_letter.mp rfl
      · exact isDigit_notMem_delimiters (fractionDigits c behind)

theorem IsWord.signed {text : List Char} (isWord : IsWord text) (negative : Bool) :
    IsWord (signed negative text) := by
  cases negative with
  | false => exact isWord
  | true =>
    have minus : '-' ∉ delimiters := Glyph.ofChar_eq_letter.mp rfl
    exact ⟨List.cons_ne_nil _ _, List.forall_mem_cons.mpr ⟨minus, isWord.free⟩⟩

theorem isWord_numberText (negative : Bool) {p : Nat} (number : p ≤ Binary.infinity) :
    IsWord (numberText (Binary.toFloat negative p)) := by
  rcases Nat.lt_or_eq_of_le number with finite | rfl
  · obtain ⟨whole, fraction, nonempty, digits, text, -⟩ := numberText_finite negative finite
    rw [text]
    exact (isWord_plainText nonempty digits).signed negative
  · rw [numberText_infinite]
    exact IsWord.signed (.of_letters rfl) negative

namespace Expr

theorem ofAtom?_finite (negative : Bool) {p : Nat} (finite : p < Binary.infinity) :
    ofAtom? (String.ofList (numberText (Binary.toFloat negative p))) =
      some (.number (Binary.toFloat negative p)) := by
  obtain ⟨whole, fraction, nonempty, digits, text, value⟩ := numberText_finite negative finite
  have numeral := isNumeral_plainText nonempty digits negative
  have read := read?_plainText nonempty digits negative
  rw [← text, ← String.toList_ofList (l := numberText (Binary.toFloat negative p))] at numeral read
  obtain ⟨literal, found, spelled⟩ := ofAtom?_of_isNumeral numeral
  obtain rfl := FloatText.decimal.inj (Option.some.inj (read.symm.trans found))
  rw [spelled, value]

theorem ofAtom?_infinite (negative : Bool) :
    ofAtom? (String.ofList (numberText (Binary.toFloat negative Binary.infinity))) =
      some (.symbol (String.ofList (numberText (Binary.toFloat negative Binary.infinity)))) := by
  rw [numberText_infinite]
  cases negative with
  | true => rfl
  | false => rfl

end Expr

end FormScript
