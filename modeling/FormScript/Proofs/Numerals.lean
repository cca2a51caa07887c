import Mathlib.Data.List.Basic
import FormScript.Expr.Atom
import FormScript.Proofs.Layout

/-!
# The grammar of number literals

`IsNumeral` is the grammar of number literals by what a text contains: an optional sign,
digits with at most one point among them, and an optional exponent, where a point may not
come first. `isNumberLiteral` goes through a text character by character instead. What it
has seen describes what it has passed (`Seen.Describes`): a step that is taken keeps this
up, and a step that is refused leaves no way to a literal. So the texts that it accepts
are the numerals (`isNumberLiteral_iff`).

`IsFloatText` is the wider grammar of texts that stand for floating-point numbers, and
`FloatText.read?` has a result for just these texts (`FloatText.read?_isSome_iff`). Every
numeral is one of them, so the reading of an atom that is a numeral never fails, and the
atoms that spell nothing are the words that begin with a digit and are no numerals
(`Expr.numerals_exact`).
-/

namespace FormScript

/-! ## Two grammars -/

/-- Nothing but digits. -/
def AllDigits (cs : List Char) : Prop :=
  ∀ c ∈ cs, c.isDigit = true

/-- Nothing, a plus or a minus. -/
def IsSign (cs : List Char) : Prop :=
  cs = [] ∨ cs = ['+'] ∨ cs = ['-']

/-- Digits with at most one point among them and at least one digit. -/
structure IsMantissa (cs : List Char) : Prop where
  chars : ∀ c ∈ cs, c.isDigit = true ∨ c = '.'
  points : cs.count '.' ≤ 1
  digit : ∃ c ∈ cs, c.isDigit = true

/-- Nothing, or `e` and at least one digit. -/
inductive IsExponent : List Char → Prop
  | absent : IsExponent []
  | present {digits : List Char} : digits ≠ [] → AllDigits digits → IsExponent ('e' :: digits)

/-- A numeral without its sign. -/
def IsUnsigned (text : List Char) : Prop :=
  ∃ mantissa exponent, text = mantissa ++ exponent ∧ IsMantissa mantissa ∧ IsExponent exponent

/-- The texts that are number literals: a sign, a mantissa and an exponent, with no point at
the very beginning. -/
structure IsNumeral (text : List Char) : Prop where
  parts : ∃ sign body, text = sign ++ body ∧ IsSign sign ∧ IsUnsigned body
  start : text.head? ≠ some '.'

/-- Digits, with or without a point in or around them. -/
inductive DigitsWithPoint : List Char → Prop
  | whole {digits : List Char} : digits ≠ [] → AllDigits digits → DigitsWithPoint digits
  | after {digits more : List Char} : digits ≠ [] → AllDigits digits → AllDigits more →
    DigitsWithPoint (digits ++ '.' :: more)
  | before {digits more : List Char} : AllDigits digits → more ≠ [] → AllDigits more →
    DigitsWithPoint (digits ++ '.' :: more)

/-- An exponent of a floating-point number, which may have a sign of its own. -/
inductive IsFloatExponent : List Char → Prop
  | absent : IsFloatExponent []
  | present {sign digits : List Char} : IsSign sign → digits ≠ [] → AllDigits digits →
    IsFloatExponent ('e' :: (sign ++ digits))

/-- A floating-point number in lower case, without its sign. -/
inductive IsFloatBody : List Char → Prop
  | inf : IsFloatBody "inf".toList
  | infinity : IsFloatBody "infinity".toList
  | nan : IsFloatBody "nan".toList
  | number {mantissa exponent : List Char} : DigitsWithPoint mantissa →
    IsFloatExponent exponent → IsFloatBody (mantissa ++ exponent)

/-- The texts that stand for floating-point numbers, in letters of either case. -/
def IsFloatText (text : List Char) : Prop :=
  ∃ sign body, text.map Char.toLower = sign ++ body ∧ IsSign sign ∧ IsFloatBody body

/-! ## Signs and digits -/

/-- A text begins with a sign or not. -/
theorem exists_sign (text : List Char) : ∃ sign, IsSign sign ∧ text = sign ++ dropSign text := by
  unfold dropSign
  split
  · exact ⟨['+'], .inr (.inl rfl), rfl⟩
  · exact ⟨['-'], .inr (.inr rfl), rfl⟩
  · exact ⟨[], .inl rfl, rfl⟩

/-- A sign is dropped up to what begins without one. -/
theorem dropSign_append {sign body : List Char} (isSign : IsSign sign)
    (bare : ∀ c ∈ body.head?, ¬ IsSign [c]) : dropSign (sign ++ body) = body := by
  rcases isSign with rfl | rfl | rfl
  · unfold dropSign
    split
    · next rest begins => exact absurd (.inr (.inl rfl)) (bare '+' (congrArg List.head? begins))
    · next rest begins => exact absurd (.inr (.inr rfl)) (bare '-' (congrArg List.head? begins))
    · rfl
  · rfl
  · rfl

theorem not_isSign_of_isDigit {c : Char} (digit : c.isDigit = true) : ¬ IsSign [c] := by
  rintro (none | plus | minus)
  · cases none
  · cases plus
    cases digit
  · cases minus
    cases digit

section Digits

variable {digits more : List Char}

theorem AllDigits.bare (all : AllDigits digits) : ∀ c ∈ digits.head?, ¬ IsSign [c] :=
  fun c found => not_isSign_of_isDigit (all c (List.mem_of_mem_head? found))

theorem AllDigits.count_point (all : AllDigits digits) : digits.count '.' = 0 :=
  List.count_eq_zero.mpr fun member => absurd (all '.' member) (by decide)

theorem AllDigits.no_mark (all : AllDigits digits) : 'e' ∉ digits :=
  fun member => absurd (all 'e' member) (by decide)

theorem AllDigits.exists_digit (all : AllDigits digits) (nonempty : digits ≠ []) :
    ∃ c ∈ digits, c.isDigit = true := by
  obtain ⟨c, rest, rfl⟩ := List.exists_cons_of_ne_nil nonempty
  exact ⟨c, List.mem_cons_self, all c List.mem_cons_self⟩

/-- One point among digits makes a mantissa. -/
theorem isMantissa_point (all : AllDigits digits) (later : AllDigits more)
    (digit : ∃ c ∈ digits ++ '.' :: more, c.isDigit = true) :
    IsMantissa (digits ++ '.' :: more) := by
  refine ⟨fun c member => ?_, ?_, digit⟩
  · rcases List.mem_append.mp member with early | late
    · exact .inl (all c early)
    · rcases List.mem_cons.mp late with point | behind
      · exact .inr point
      · exact .inl (later c behind)
  · have count : (digits ++ '.' :: more).count '.' = 1 := by
      rw [List.count_append, List.count_cons_self, all.count_point, later.count_point]
    exact Nat.le_of_eq count

end Digits

theorem DigitsWithPoint.isMantissa {cs : List Char} (shape : DigitsWithPoint cs) :
    IsMantissa cs := by
  cases shape with
  | whole nonempty all =>
    exact ⟨fun c member => .inl (all c member), by rw [all.count_point]; omega,
      all.exists_digit nonempty⟩
  | after nonempty all later =>
    obtain ⟨c, member, digit⟩ := all.exists_digit nonempty
    exact isMantissa_point all later ⟨c, by simp [member], digit⟩
  | before all nonempty later =>
    obtain ⟨c, member, digit⟩ := later.exists_digit nonempty
    exact isMantissa_point all later ⟨c, by simp [member], digit⟩

/-- Up to the point and after it, a mantissa is digits. -/
theorem IsMantissa.digitsWithPoint {cs : List Char} (mantissa : IsMantissa cs) :
    DigitsWithPoint cs := by
  obtain ⟨digits, rest, rfl, all, ends⟩ := Token.exists_longest (·.isDigit = true) cs
  cases rest with
  | nil =>
    obtain ⟨c, member, -⟩ := mantissa.digit
    rw [List.append_nil] at member ⊢
    exact .whole (List.ne_nil_of_mem member) all
  | cons d more =>
    obtain rfl : d = '.' := (mantissa.chars d (by simp)).resolve_left (ends d rfl)
    have single : '.' ∉ more := by
      have points := mantissa.points
      rw [List.count_append, List.count_cons_self] at points
      rw [← List.count_eq_zero]
      omega
    have later : AllDigits more := by
      intro c member
      refine (mantissa.chars c (by simp [member])).resolve_right fun point => ?_
      exact single (point ▸ member)
    by_cases empty : digits = []
    · -- the digit that there must be comes after the point
      obtain ⟨c, member, digit⟩ := mantissa.digit
      have behind : c ∈ more := by
        rw [empty, List.nil_append, List.mem_cons] at member
        refine member.resolve_left fun point => ?_
        rw [point] at digit
        cases digit
      exact .before all (List.ne_nil_of_mem behind) later
    · exact .after empty all later

theorem IsMantissa.no_mark {cs : List Char} (mantissa : IsMantissa cs) : 'e' ∉ cs :=
  fun member => absurd (mantissa.chars 'e' member) (by decide)

theorem IsUnsigned.head {text : List Char} (unsigned : IsUnsigned text) :
    ∃ c rest, text = c :: rest ∧ (c.isDigit = true ∨ c = '.') := by
  obtain ⟨mantissa, exponent, rfl, isMantissa, -⟩ := unsigned
  cases mantissa with
  | nil =>
    obtain ⟨c, member, -⟩ := isMantissa.digit
    cases member
  | cons c rest => exact ⟨c, rest ++ exponent, rfl, isMantissa.chars c List.mem_cons_self⟩

theorem IsUnsigned.bare {text : List Char} (unsigned : IsUnsigned text) :
    ∀ c ∈ text.head?, ¬ IsSign [c] := by
  obtain ⟨d, rest, rfl, first⟩ := unsigned.head
  intro c found
  obtain rfl : d = c := by simpa using found
  rcases first with digit | rfl
  · exact not_isSign_of_isDigit digit
  · simp [IsSign]

/-- A numeral is what it is without its sign. -/
theorem isNumeral_iff (text : List Char) :
    IsNumeral text ↔ IsUnsigned (dropSign text) ∧ text.head? ≠ some '.' := by
  constructor
  · intro ⟨⟨sign, body, split, isSign, unsigned⟩, start⟩
    refine ⟨?_, start⟩
    rwa [split, dropSign_append isSign unsigned.bare]
  · intro ⟨unsigned, start⟩
    obtain ⟨sign, isSign, split⟩ := exists_sign text
    exact ⟨⟨sign, dropSign text, split, isSign, unsigned⟩, start⟩

/-- What can stand at a place of a numeral after its sign, by what stands before it. -/
theorem IsUnsigned.char_cases {front back : List Char} {c : Char}
    (unsigned : IsUnsigned (front ++ c :: back)) :
    c.isDigit = true ∨ (c = '.' ∧ '.' ∉ front ∧ 'e' ∉ front) ∨ (c = 'e' ∧ 'e' ∉ front) := by
  obtain ⟨mantissa, exponent, split, isMantissa, isExponent⟩ := unsigned
  rcases append_eq_append_cons split.symm with ⟨inside, rfl, -⟩ | ⟨more, rfl, rest⟩
  · -- the place is in the mantissa
    have noMark : 'e' ∉ front := fun member => isMantissa.no_mark (List.mem_append_left _ member)
    rcases isMantissa.chars c (by simp) with digit | rfl
    · exact .inl digit
    · have points := isMantissa.points
      rw [List.count_append, List.count_cons_self] at points
      exact .inr (.inl ⟨rfl, List.count_eq_zero.mp (by omega), noMark⟩)
  · cases isExponent with
    | absent => simp at rest
    | present nonempty all =>
      cases more with
      | nil =>
        obtain ⟨rfl, -⟩ := List.cons.inj rest
        exact .inr (.inr ⟨rfl, by simpa using isMantissa.no_mark⟩)
      | cons d more =>
        obtain ⟨-, rfl⟩ := List.cons.inj rest
        exact .inl (all c (by simp))

/-! ## What has been seen -/

namespace Seen

/-- What has been seen of a mantissa. -/
structure OfMantissa (digit point : Bool) (cs : List Char) : Prop where
  chars : ∀ c ∈ cs, c.isDigit = true ∨ c = '.'
  digit : digit = true ↔ ∃ c ∈ cs, c.isDigit = true
  points : cs.count '.' = point.toNat

/-- What has been seen says this about the characters that have been passed: up to the mark
of the exponent they can be a mantissa, and after it they are digits. -/
inductive Describes : Seen → List Char → Prop
  | mantissa {digit point : Bool} {cs : List Char} : OfMantissa digit point cs →
    Describes ⟨digit, false, point, false⟩ cs
  | exponent {digit point : Bool} {cs digits : List Char} : OfMantissa digit point cs →
    AllDigits digits →
    Describes ⟨digit, !digits.isEmpty, point, true⟩ (cs ++ 'e' :: digits)

theorem describes_start : Describes {} [] :=
  .mantissa ⟨by simp, by simp, rfl⟩

variable {seen next : Seen} {passed : List Char} {c : Char}

theorem OfMantissa.no_mark {digit point : Bool} {cs : List Char}
    (seen : OfMantissa digit point cs) : 'e' ∉ cs :=
  fun member => absurd (seen.chars 'e' member) (by decide)

theorem OfMantissa.isMantissa {point : Bool} {cs : List Char} (seen : OfMantissa true point cs) :
    IsMantissa cs where
  chars := seen.chars
  points := by
    rw [seen.points]
    exact Bool.toNat_le point
  digit := seen.digit.mp rfl

theorem OfMantissa.add_digit {digit point : Bool} {cs : List Char}
    (seen : OfMantissa digit point cs) (isDigit : c.isDigit = true) :
    OfMantissa true point (cs ++ [c]) where
  chars := List.forall_mem_append.mpr ⟨seen.chars, List.forall_mem_singleton.mpr (.inl isDigit)⟩
  digit := ⟨fun _ => ⟨c, by simp, isDigit⟩, fun _ => rfl⟩
  points := by
    have all : AllDigits [c] := List.forall_mem_singleton.mpr isDigit
    rw [List.count_append, all.count_point, seen.points, Nat.add_zero]

theorem OfMantissa.add_point {digit : Bool} {cs : List Char} (seen : OfMantissa digit false cs) :
    OfMantissa digit true (cs ++ ['.']) where
  chars := List.forall_mem_append.mpr ⟨seen.chars, List.forall_mem_singleton.mpr (.inr rfl)⟩
  digit := by simp [seen.digit]
  points := by
    rw [List.count_append, seen.points]
    rfl

/-- A step that is taken describes one more character. -/
theorem Describes.step (described : seen.Describes passed) (taken : seen.step? c = some next) :
    next.Describes (passed ++ [c]) := by
  unfold step? at taken
  cases described with
  | mantissa ofMantissa =>
    split at taken
    · next isDigit =>
      cases taken
      exact .mantissa (ofMantissa.add_digit isDigit)
    split at taken
    · next isPoint =>
      obtain ⟨rfl, rfl, -⟩ := isPoint
      cases taken
      exact .mantissa ofMantissa.add_point
    split at taken
    · next isMark =>
      obtain ⟨rfl, -⟩ := isMark
      cases taken
      exact .exponent ofMantissa (List.forall_mem_nil _)
    · cases taken
  | @exponent digit point cs digits ofMantissa all =>
    split at taken
    · next isDigit =>
      cases taken
      have more : AllDigits (digits ++ [c]) :=
        List.forall_mem_append.mpr ⟨all, List.forall_mem_singleton.mpr isDigit⟩
      have nonempty : (!(digits ++ [c]).isEmpty) = true := by cases digits <;> rfl
      have later := Describes.exponent ofMantissa more
      rwa [nonempty, ← List.cons_append, ← List.append_assoc] at later
    split at taken
    · next isPoint => cases isPoint.2.2
    split at taken
    · next isMark => cases isMark.2
    · cases taken

theorem Describes.point_mem (described : seen.Describes passed) (marked : seen.point = true) :
    '.' ∈ passed := by
  cases described with
  | mantissa ofMantissa =>
    cases marked
    exact List.count_pos_iff.mp (by simp [ofMantissa.points])
  | exponent ofMantissa all =>
    cases marked
    exact List.mem_append_left _ (List.count_pos_iff.mp (by simp [ofMantissa.points]))

theorem Describes.mark_mem (described : seen.Describes passed) (marked : seen.mark = true) :
    'e' ∈ passed := by
  cases described with
  | mantissa ofMantissa => cases marked
  | exponent ofMantissa all => simp

/-- After a step that is refused no numeral is possible. -/
theorem Describes.not_isUnsigned (described : seen.Describes passed)
    (refused : seen.step? c = none) (rest : List Char) : ¬ IsUnsigned (passed ++ c :: rest) := by
  intro unsigned
  unfold step? at refused
  split at refused
  · split at refused
    · cases refused
    · cases refused
  · next noDigit =>
    split at refused
    · cases refused
    split at refused
    · cases refused
    · next noPoint noMark =>
      rcases unsigned.char_cases with digit | ⟨point, noPoints, noMarks⟩ | ⟨mark, noMarks⟩
      · exact noDigit digit
      · refine noPoint ⟨point, ?_, ?_⟩
        · exact eq_false_of_ne_true (mt described.point_mem noPoints)
        · exact eq_false_of_ne_true (mt described.mark_mem noMarks)
      · exact noMark ⟨mark, eq_false_of_ne_true (mt described.mark_mem noMarks)⟩

/-- A numeral can end here if what has been passed is one. -/
theorem Describes.isWhole_iff (described : seen.Describes passed) :
    seen.isWhole = true ↔ IsUnsigned passed := by
  cases described with
  | @mantissa digit point cs ofMantissa =>
    constructor
    · intro whole
      obtain rfl : digit = true := by simpa [isWhole] using whole
      exact ⟨passed, [], by simp, ofMantissa.isMantissa, .absent⟩
    · intro ⟨front, tail, split, isMantissa, _⟩
      obtain ⟨c, member, isDigit⟩ := isMantissa.digit
      have seenDigit : digit = true := ofMantissa.digit.mpr ⟨c, by simp [split, member], isDigit⟩
      simp [isWhole, seenDigit]
  | @exponent digit point cs digits ofMantissa all =>
    constructor
    · intro whole
      obtain ⟨rfl, nonempty⟩ : digit = true ∧ digits ≠ [] := by simpa [isWhole] using whole
      exact ⟨cs, 'e' :: digits, rfl, ofMantissa.isMantissa, .present nonempty all⟩
    · intro ⟨front, tail, split, isMantissa, isExponent⟩
      cases isExponent with
      | absent =>
        rw [List.append_nil] at split
        exact absurd (by simp [← split]) isMantissa.no_mark
      | present nonempty _ =>
        obtain ⟨rfl, -, rfl⟩ :=
          (List.append_cons_inj_of_notMem ofMantissa.no_mark all.no_mark).mp split
        have seenDigit : digit = true := ofMantissa.digit.mpr isMantissa.digit
        simp [isWhole, seenDigit, nonempty]

/-- Characters are accepted if with what has been passed they are a numeral. -/
theorem Describes.accepts_iff (described : seen.Describes passed) (rest : List Char) :
    seen.accepts rest = true ↔ IsUnsigned (passed ++ rest) := by
  induction rest generalizing seen passed with
  | nil =>
    rw [List.append_nil]
    exact described.isWhole_iff
  | cons c rest ih =>
    cases stepped : seen.step? c with
    | none =>
      simp only [accepts, steps?, stepped]
      exact ⟨nofun, fun unsigned => absurd unsigned (described.not_isUnsigned stepped rest)⟩
    | some next =>
      have later := ih (described.step stepped)
      rw [List.append_assoc, List.singleton_append] at later
      simpa only [accepts, steps?, stepped] using later

end Seen

/-- The number literals are the numerals. -/
theorem isNumberLiteral_iff (text : String) :
    isNumberLiteral text = true ↔ IsNumeral text.toList := by
  rw [isNumeral_iff]
  unfold isNumberLiteral
  split
  · next rest chars => simp [chars]
  · next rest chars =>
    -- without a sign the text would begin with its mark
    have noUnsigned : ¬ IsUnsigned (dropSign text.toList) := by
      intro unsigned
      obtain ⟨c, _, same, first⟩ := unsigned.head
      rw [chars] at same
      obtain ⟨rfl, -⟩ := List.cons.inj same
      exact absurd first (by decide)
    simp [noUnsigned]
  · next noPoint _ =>
    have start : text.toList.head? ≠ some '.' := by
      intro point
      obtain ⟨rest, chars⟩ := List.head?_eq_some_iff.mp point
      exact noPoint rest chars
    rw [and_iff_left start]
    exact Seen.describes_start.accepts_iff (dropSign text.toList)

/-! ## Reading floating-point numbers -/

theorem IsFloatExponent.head {cs : List Char} (exponent : IsFloatExponent cs) :
    ∀ c ∈ cs.head?, c = 'e' := by
  cases exponent with
  | absent => simp
  | present => simp

namespace Literal

/-- A run of digits is read up to the first character that is no digit. -/
theorem cut_digits {digits : List Char} (all : AllDigits digits) (rest : List Char)
    (ends : ∀ c ∈ rest.head?, ¬ c.isDigit = true) :
    (digits ++ rest).takeWhile Char.isDigit = digits ∧
      (digits ++ rest).dropWhile Char.isDigit = rest := by
  rw [List.takeWhile_append_of_pos all, List.dropWhile_append_of_pos all]
  cases rest with
  | nil => simp
  | cons c rest => simp [ends c rfl]

theorem readExponent?_isSome_iff (cs : List Char) :
    (readExponent? cs).isSome = true ↔ IsFloatExponent cs := by
  constructor
  · intro taken
    unfold readExponent? at taken
    split at taken
    · exact .absent
    · next exponent =>
      dsimp only at taken
      split at taken
      · next conditions =>
        simp only [Bool.and_eq_true, Bool.not_eq_true', List.isEmpty_eq_false_iff,
          List.all_eq_true] at conditions
        obtain ⟨sign, isSign, split⟩ := exists_sign exponent
        rw [split]
        exact .present isSign conditions.1 conditions.2
      · cases taken
    · cases taken
  · intro exponent
    cases exponent with
    | absent => rfl
    | @present sign digits isSign nonempty all =>
      have conditions : (!digits.isEmpty && digits.all Char.isDigit) = true := by
        rw [List.all_eq_true.mpr all]
        simpa using nonempty
      rw [readExponent?, dropSign_append isSign all.bare, if_pos conditions]
      rfl

/-- Without a point, digits are read up to the exponent. -/
theorem readUnsigned?_whole (negative : Bool) {digits rest : List Char} (all : AllDigits digits)
    (ends : ∀ c ∈ rest.head?, ¬ c.isDigit = true) (noPoint : rest.head? ≠ some '.') :
    (readUnsigned? negative (digits ++ rest)).isSome = true ↔
      digits ≠ [] ∧ IsFloatExponent rest := by
  obtain ⟨taken, left⟩ := cut_digits all rest ends
  have fraction : readFraction rest = ([], rest) := by
    unfold readFraction
    split
    · exact absurd rfl noPoint
    · rfl
  rw [← readExponent?_isSome_iff, readUnsigned?, taken, left, fraction]
  cases digits with
  | nil => simp
  | cons c digits => simp

/-- After a point, digits are read up to the exponent. -/
theorem readUnsigned?_point (negative : Bool) {digits more rest : List Char}
    (all : AllDigits digits) (later : AllDigits more)
    (ends : ∀ c ∈ rest.head?, ¬ c.isDigit = true) :
    (readUnsigned? negative (digits ++ '.' :: (more ++ rest))).isSome = true ↔
      (digits ≠ [] ∨ more ≠ []) ∧ IsFloatExponent rest := by
  obtain ⟨taken, left⟩ := cut_digits all ('.' :: (more ++ rest)) (by simp)
  obtain ⟨takenMore, leftMore⟩ := cut_digits later rest ends
  rw [← readExponent?_isSome_iff, readUnsigned?, taken, left, readFraction, takenMore, leftMore]
  cases digits with
  | nil => cases more <;> simp
  | cons c digits => simp

/-- A number in digits is read if it is one. -/
theorem readUnsigned?_isSome_iff (negative : Bool) (text : List Char) :
    (readUnsigned? negative text).isSome = true ↔
      ∃ mantissa exponent, text = mantissa ++ exponent ∧ DigitsWithPoint mantissa ∧
        IsFloatExponent exponent := by
  constructor
  · intro taken
    obtain ⟨digits, rest, rfl, all, ends⟩ := Token.exists_longest (·.isDigit = true) text
    by_cases point : rest.head? = some '.'
    · obtain ⟨behind, rfl⟩ := List.head?_eq_some_iff.mp point
      obtain ⟨more, tail, rfl, later, stops⟩ := Token.exists_longest (·.isDigit = true) behind
      obtain ⟨someDigit, exponent⟩ := (readUnsigned?_point negative all later stops).mp taken
      refine ⟨digits ++ '.' :: more, tail, by simp, ?_, exponent⟩
      rcases someDigit with first | second
      · exact .after first all later
      · exact .before all second later
    · obtain ⟨nonempty, exponent⟩ := (readUnsigned?_whole negative all ends point).mp taken
      exact ⟨digits, rest, rfl, .whole nonempty all, exponent⟩
  · intro ⟨mantissa, exponent, split, digitsWithPoint, isExponent⟩
    subst split
    have ends : ∀ c ∈ exponent.head?, ¬ c.isDigit = true := by
      intro c found
      rw [isExponent.head c found]
      decide
    have noPoint : exponent.head? ≠ some '.' := by
      intro found
      exact absurd (isExponent.head '.' found) (by decide)
    cases digitsWithPoint with
    | whole nonempty all =>
      exact (readUnsigned?_whole negative all ends noPoint).mpr ⟨nonempty, isExponent⟩
    | after nonempty all later =>
      rw [List.append_assoc, List.cons_append]
      exact (readUnsigned?_point negative all later ends).mpr ⟨.inl nonempty, isExponent⟩
    | before all nonempty later =>
      rw [List.append_assoc, List.cons_append]
      exact (readUnsigned?_point negative all later ends).mpr ⟨.inr nonempty, isExponent⟩

end Literal

theorem DigitsWithPoint.head {cs : List Char} (shape : DigitsWithPoint cs) (rest : List Char) :
    ∀ c ∈ (cs ++ rest).head?, c.isDigit = true ∨ c = '.' := by
  have unsigned : IsUnsigned cs := ⟨cs, [], by simp, shape.isMantissa, .absent⟩
  obtain ⟨c, more, rfl, first⟩ := unsigned.head
  simpa using first

theorem IsFloatBody.bare {text : List Char} (body : IsFloatBody text) :
    ∀ c ∈ text.head?, ¬ IsSign [c] := by
  cases body with
  | inf | infinity | nan => simp [IsSign]
  | number digits exponent =>
    intro c found
    rcases digits.head _ c found with digit | rfl
    · exact not_isSign_of_isDigit digit
    · simp [IsSign]

namespace FloatText

theorem readUnsigned?_isSome_iff (negative : Bool) (text : List Char) :
    (readUnsigned? negative text).isSome = true ↔ IsFloatBody text := by
  unfold readUnsigned?
  split
  · next word =>
    refine ⟨fun _ => ?_, fun _ => rfl⟩
    rcases word with rfl | rfl
    · exact .inf
    · exact .infinity
  split
  · next word =>
    subst word
    exact ⟨fun _ => .nan, fun _ => rfl⟩
  · next noInfinity noNan =>
    rw [Option.isSome_map, Literal.readUnsigned?_isSome_iff]
    constructor
    · rintro ⟨mantissa, exponent, rfl, digits, isExponent⟩
      exact .number digits isExponent
    · intro body
      cases body with
      | inf => exact absurd (.inl rfl) noInfinity
      | infinity => exact absurd (.inr rfl) noInfinity
      | nan => exact absurd rfl noNan
      | @number mantissa exponent digits isExponent =>
        exact ⟨mantissa, exponent, rfl, digits, isExponent⟩

/-- What is read is what stands for a floating-point number. -/
theorem read?_isSome_iff (text : List Char) : (read? text).isSome = true ↔ IsFloatText text := by
  rw [read?, readUnsigned?_isSome_iff]
  constructor
  · intro body
    obtain ⟨sign, isSign, split⟩ := exists_sign (text.map Char.toLower)
    exact ⟨sign, _, split, isSign, body⟩
  · intro ⟨sign, body, split, isSign, isBody⟩
    rwa [split, dropSign_append isSign isBody.bare]

end FloatText

/-! ## Numerals among the texts of numbers -/

theorem toLower_of_isDigit {c : Char} (digit : c.isDigit = true) : c.toLower = c := by
  refine dif_neg fun ⟨upper, _⟩ => ?_
  simp only [Char.isDigit, Bool.and_eq_true, decide_eq_true_eq, ge_iff_le,
    UInt32.le_iff_toNat_le] at digit upper
  have apart : '9'.val.toNat < 'A'.val.toNat := by decide
  omega

theorem IsExponent.isFloatExponent {cs : List Char} (exponent : IsExponent cs) :
    IsFloatExponent cs := by
  cases exponent with
  | absent => exact .absent
  | present nonempty all => exact .present (.inl rfl) nonempty all

/-- A numeral has no letters in upper case. -/
theorem IsNumeral.map_toLower {text : List Char} (numeral : IsNumeral text) :
    text.map Char.toLower = text := by
  obtain ⟨⟨sign, body, rfl, isSign, mantissa, exponent, rfl, isMantissa, isExponent⟩, -⟩ := numeral
  have inSign : ∀ c ∈ sign, c.toLower = c := by
    rcases isSign with rfl | rfl | rfl
    · simp
    · exact List.forall_mem_singleton.mpr rfl
    · exact List.forall_mem_singleton.mpr rfl
  have inMantissa : ∀ c ∈ mantissa, c.toLower = c := by
    intro c member
    rcases isMantissa.chars c member with digit | rfl
    · exact toLower_of_isDigit digit
    · decide
  have inExponent : ∀ c ∈ exponent, c.toLower = c := by
    cases isExponent with
    | absent => simp
    | present _ all =>
      exact List.forall_mem_cons.mpr ⟨by decide, fun c member => toLower_of_isDigit (all c member)⟩
  have plain : ∀ c ∈ sign ++ (mantissa ++ exponent), c.toLower = id c :=
    List.forall_mem_append.mpr ⟨inSign, List.forall_mem_append.mpr ⟨inMantissa, inExponent⟩⟩
  rw [List.map_congr_left plain, List.map_id]

/-- Every numeral is the text of a floating-point number. -/
theorem IsNumeral.isFloatText {text : List Char} (numeral : IsNumeral text) :
    IsFloatText text := by
  have lower := numeral.map_toLower
  obtain ⟨⟨sign, body, split, isSign, mantissa, exponent, rfl, isMantissa, isExponent⟩, -⟩ :=
    numeral
  refine ⟨sign, mantissa ++ exponent, lower.trans split, isSign, ?_⟩
  exact .number isMantissa.digitsWithPoint isExponent.isFloatExponent

/-- A numeral is read as a number in digits. -/
theorem IsNumeral.read?_eq {text : List Char} (numeral : IsNumeral text) :
    FloatText.read? text =
      (Literal.readUnsigned? (text.head? = some '-') (dropSign text)).map .decimal := by
  -- a word would begin with a letter
  obtain ⟨c, rest, body, first⟩ := ((isNumeral_iff text).mp numeral).1.head
  have noWord : ∀ {d : Char} {more : List Char}, ¬ (d.isDigit = true ∨ d = '.') →
      c :: rest ≠ d :: more := by
    intro d more other same
    obtain ⟨rfl, -⟩ := List.cons.inj same
    exact other first
  have noInfinity : ¬ (c :: rest = "inf".toList ∨ c :: rest = "infinity".toList) := by
    rintro (same | same)
    · exact noWord (by decide) same
    · exact noWord (by decide) same
  have noNan : c :: rest ≠ "nan".toList := noWord (by decide)
  rw [FloatText.read?, numeral.map_toLower, body, FloatText.readUnsigned?, if_neg noInfinity,
    if_neg noNan]

theorem IsNumeral.exists_read {text : List Char} (numeral : IsNumeral text) :
    ∃ literal, FloatText.read? text = some (.decimal literal) := by
  have read := (FloatText.read?_isSome_iff text).mpr numeral.isFloatText
  rw [numeral.read?_eq, Option.isSome_map] at read
  obtain ⟨literal, found⟩ := Option.isSome_iff_exists.mp read
  exact ⟨literal, by rw [numeral.read?_eq, found, Option.map_some]⟩

/-! ## Atoms -/

namespace Expr

/-- An atom that is a numeral is read as the number that it spells. -/
theorem ofAtom?_of_isNumeral {text : String} (numeral : IsNumeral text.toList) :
    ∃ literal, FloatText.read? text.toList = some (.decimal literal) ∧
      ofAtom? text = some (.number literal.value) := by
  obtain ⟨literal, read⟩ := numeral.exists_read
  have isLiteral := (isNumberLiteral_iff text).mpr numeral
  have other : ∀ word, isNumberLiteral word = false → text ≠ word := by
    rintro word refused rfl
    rw [isLiteral] at refused
    cases refused
  have noFault : ¬ (text = "" ∨ text = "(" ∨ text = ")") := by
    rintro (empty | opening | closing)
    · exact other _ (by decide) empty
    · exact other _ (by decide) opening
    · exact other _ (by decide) closing
  refine ⟨literal, read, ?_⟩
  rw [ofAtom?, if_neg noFault, if_neg (other "True" (by decide)),
    if_neg (other "False" (by decide)), if_neg (other "None" (by decide)), if_pos isLiteral, read]
  rfl

/-- The atoms, by the text that spells them. -/
theorem ofAtom?_eq_some {text : String} {e : Expr} (spelled : ofAtom? text = some e) :
    (text = "True" ∧ e = .truth true) ∨ (text = "False" ∧ e = .truth false) ∨
      (text = "None" ∧ e = .nothing) ∨
      (∃ literal : Literal, IsNumeral text.toList ∧ e = .number literal.value) ∨
      e = .symbol text := by
  by_cases numeral : IsNumeral text.toList
  · obtain ⟨literal, -, read⟩ := ofAtom?_of_isNumeral numeral
    rw [spelled] at read
    exact .inr (.inr (.inr (.inl ⟨literal, numeral, Option.some.inj read⟩)))
  have noLiteral : ¬ isNumberLiteral text = true := mt (isNumberLiteral_iff text).mp numeral
  rw [ofAtom?, if_neg noLiteral] at spelled
  split at spelled
  · cases spelled
  split at spelled
  · next isTrue => exact .inl ⟨isTrue, (Option.some.inj spelled).symm⟩
  split at spelled
  · next isFalse => exact .inr (.inl ⟨isFalse, (Option.some.inj spelled).symm⟩)
  split at spelled
  · next isNone => exact .inr (.inr (.inl ⟨isNone, (Option.some.inj spelled).symm⟩))
  split at spelled
  · cases spelled
  · exact .inr (.inr (.inr (.inr (Option.some.inj spelled).symm)))

/-- A number is read from the numerals and from nothing else. -/
theorem ofAtom?_number_iff (text : String) :
    (∃ x, ofAtom? text = some (.number x)) ↔ IsNumeral text.toList := by
  constructor
  · intro ⟨x, spelled⟩
    rcases ofAtom?_eq_some spelled with ⟨-, h⟩ | ⟨-, h⟩ | ⟨-, h⟩ | ⟨_, numeral, -⟩ | h
    · cases h
    · cases h
    · cases h
    · exact numeral
    · cases h
  · intro numeral
    obtain ⟨literal, -, read⟩ := ofAtom?_of_isNumeral numeral
    exact ⟨literal.value, read⟩

theorem startsWithDigit_iff (text : String) :
    startsWithDigit text = true ↔ ∃ c rest, text.toList = c :: rest ∧ c.isDigit = true := by
  unfold startsWithDigit
  cases text.toList with
  | nil => simp
  | cons c rest => simp

/-- A word that spells nothing begins with a digit and is no numeral. -/
theorem ofAtom?_eq_none_iff {text : String} (isWord : IsWord text.toList) :
    ofAtom? text = none ↔
      (∃ c rest, text.toList = c :: rest ∧ c.isDigit = true) ∧ ¬ IsNumeral text.toList := by
  rw [← startsWithDigit_iff]
  by_cases numeral : IsNumeral text.toList
  · obtain ⟨literal, -, read⟩ := ofAtom?_of_isNumeral numeral
    simp [read, numeral]
  have noLiteral : ¬ isNumberLiteral text = true := mt (isNumberLiteral_iff text).mp numeral
  have noFault : ¬ (text = "" ∨ text = "(" ∨ text = ")") := by
    rintro (rfl | rfl | rfl)
    · exact isWord.nonempty rfl
    · exact isWord.free '(' (by decide) (by decide)
    · exact isWord.free ')' (by decide) (by decide)
  rw [ofAtom?, if_neg noFault, if_neg noLiteral]
  split
  · next isTrue => simp [isTrue, startsWithDigit]
  split
  · next isFalse => simp [isFalse, startsWithDigit]
  split
  · next isNone => simp [isNone, startsWithDigit]
  split
  · next digit => simp [digit, numeral]
  · next noDigit => simp [noDigit]

/-- A text is a number literal if it is an optional sign, digits with at most one point among
them and an optional exponent, and does not begin with a point. Such a text is one that stands
for a floating-point number, and those are the texts whose reading succeeds; so an atom that
is a literal is always read as the number it spells, and no other atom is read as a number. The
atoms of a text that spell nothing are those that begin with a digit and are no literals. -/
theorem numerals_exact :
    (∀ text : String,
      (isNumberLiteral text = true ↔ IsNumeral text.toList) ∧
      (IsNumeral text.toList → IsFloatText text.toList) ∧
      ((FloatText.read? text.toList).isSome = true ↔ IsFloatText text.toList) ∧
      (isNumberLiteral text = true → ∃ spelled, FloatText.read? text.toList = some spelled ∧
        ofAtom? text = some (.number spelled.value)) ∧
      ((∃ x, ofAtom? text = some (.number x)) ↔ IsNumeral text.toList)) ∧
    ∀ source : String, ∀ token ∈ Token.scan source, token.kind = .atom →
      (ofAtom? token.text = none ↔
        (∃ c rest, token.text.toList = c :: rest ∧ c.isDigit = true) ∧
          ¬ IsNumeral token.text.toList) := by
  refine ⟨fun text => ⟨isNumberLiteral_iff text, IsNumeral.isFloatText,
    FloatText.read?_isSome_iff text.toList, fun isLiteral => ?_, ofAtom?_number_iff text⟩,
    fun source token member isAtom => ?_⟩
  · have numeral := (isNumberLiteral_iff text).mp isLiteral
    obtain ⟨literal, read, spelled⟩ := ofAtom?_of_isNumeral numeral
    exact ⟨.decimal literal, read, spelled⟩
  · exact ofAtom?_eq_none_iff (Token.scan_atoms source token member isAtom)

/-- An exponent has no sign, so `1e+2` is no literal and spells nothing, though it stands for a
floating-point number; `-.5e2` is a literal. -/
theorem numerals_exact_signedExponent :
    let token : Token := { kind := .atom, text := "1e+2", line := 1, span := ⟨3, 7⟩ }
    token ∈ Token.scan "(+ 1e+2)" ∧ ofAtom? token.text = none ∧
      ¬ IsNumeral token.text.toList ∧ IsFloatText token.text.toList ∧
      IsNumeral "-.5e2".toList := by
  intro token
  have member : token ∈ Token.scan "(+ 1e+2)" := by decide
  have refused : ofAtom? token.text = none := by decide
  have readable : (FloatText.read? token.text.toList).isSome = true := by decide
  have literal : isNumberLiteral "-.5e2" = true := by decide
  obtain ⟨texts, atoms⟩ := numerals_exact
  obtain ⟨-, noNumeral⟩ := (atoms "(+ 1e+2)" token member rfl).mp refused
  obtain ⟨-, -, floatText, -⟩ := texts token.text
  obtain ⟨numeral, -⟩ := texts "-.5e2"
  exact ⟨member, refused, noNumeral, floatText.mp readable, numeral.mp literal⟩

end Expr

end FormScript
