import FormScript.Number.Decimal
import FormScript.Proofs.FloatBits

/-!
# Decimals round to the numbers they came from

Rounding depends on a fraction only, not on how it is written (`Binary.ofUnits_scale`),
and it leaves every finite number where it is (`Binary.ofUnits_units`). So the exact
decimal of a pattern rounds to that pattern, and so does every shorter decimal that
the search for the shortest one accepts: `Decimal.pattern_shortest`.
-/

namespace FormScript

namespace Binary

/-! ## Rounding depends on the fraction -/

theorem roundHalfEven_scale (num den : Nat) {k : Nat} (positive : 0 < k) :
    roundHalfEven (num * k) (den * k) = roundHalfEven num den := by
  have quotient : num * k / (den * k) = num / den := Nat.mul_div_mul_right num den positive
  have remainder : num * k % (den * k) = num % den * k := Nat.mul_mod_mul_right k num den
  have doubled : 2 * (num % den * k) = 2 * (num % den) * k := (Nat.mul_assoc _ _ _).symm
  unfold roundHalfEven
  simp only [quotient, remainder, doubled, Nat.mul_lt_mul_right positive]

theorem ofUnits_scale (num den : Nat) {k : Nat} (positive : 0 < k) :
    ofUnits (num * k) (den * k) = ofUnits num den := by
  have quotient : num * k / (den * k) = num / den := Nat.mul_div_mul_right num den positive
  unfold ofUnits
  simp only [quotient, Nat.mul_right_comm den k, roundHalfEven_scale _ _ positive]

theorem ofUnits_le_infinity (num den : Nat) : ofUnits num den ≤ infinity :=
  Nat.min_le_right _ _

/-! ## Finite numbers are not rounded -/

theorem roundHalfEven_mul (quotient : Nat) {den : Nat} (positive : 0 < den) :
    roundHalfEven (quotient * den) den = quotient := by
  unfold roundHalfEven
  simp only [Nat.mul_mod_left, Nat.mul_zero, if_pos positive,
    Nat.mul_div_cancel quotient positive]

theorem fieldSize_eq : fieldSize = 2 ^ 52 := by decide

/-- A normal number has 53 binary digits and then as many as its exponent says. -/
theorem log2_normal {fraction : Nat} (bound : fraction < 2 ^ 52) (shift : Nat) :
    ((2 ^ 52 + fraction) * 2 ^ shift).log2 = 52 + shift := by
  have positive : 0 < 2 ^ shift := Nat.two_pow_pos shift
  have nonzero : (2 ^ 52 + fraction) * 2 ^ shift ≠ 0 := by
    have digits : 0 < 2 ^ 52 + fraction := by omega
    exact Nat.ne_of_gt (Nat.mul_pos digits positive)
  rw [Nat.log2_eq_iff nonzero]
  constructor
  · rw [Nat.pow_add]
    exact Nat.mul_le_mul_right _ (by omega)
  · have next : 2 ^ (52 + shift + 1) = 2 ^ 53 * 2 ^ shift := by
      rw [← Nat.pow_add]
      congr 1
      omega
    rw [next]
    exact Nat.mul_lt_mul_of_pos_right (by omega) positive

theorem ofUnits_units {p : Nat} (finite : p < infinity) : ofUnits (units p) 1 = p := by
  have fits : min p infinity = p := Nat.min_eq_left (Nat.le_of_lt finite)
  have bound : p % 2 ^ 52 < 2 ^ 52 := Nat.mod_lt _ (by omega)
  have split : p / 2 ^ 52 * 2 ^ 52 + p % 2 ^ 52 = p := Nat.div_add_mod' p (2 ^ 52)
  unfold ofUnits units
  simp only [fieldSize_eq, Nat.div_one, Nat.one_mul, Nat.pow_eq]
  split
  · next subnormal =>
    have small : p % 2 ^ 52 = p := by omega
    have short : p.log2 ≤ 52 := by
      rcases Nat.eq_zero_or_pos p with rfl | positive
      · decide
      · have below : p < 2 ^ 52 := by omega
        exact Nat.le_of_lt ((Nat.log2_lt (Nat.ne_of_gt positive)).mpr below)
    have noShift : p.log2 - 52 = 0 := by omega
    have whole := roundHalfEven_mul p Nat.one_pos
    rw [Nat.mul_one] at whole
    rw [small, noShift]
    simpa [whole] using fits
  · next normal =>
    obtain ⟨e, exponent⟩ := Nat.exists_eq_succ_of_ne_zero normal
    have shift : 52 + e - 52 = e := Nat.add_sub_cancel_left 52 e
    rw [exponent, Nat.succ_sub_one, log2_normal bound, shift,
      roundHalfEven_mul _ (Nat.two_pow_pos e), ← Nat.add_assoc, ← Nat.succ_mul, ← exponent,
      split, fits]

end Binary

/-! ## Decimals -/

namespace Decimal

/-- Zeros at the end of a coefficient may be dropped together with places after the
point. The unit is a variable, so that it is never computed. -/
theorem ofUnits_dropZeros (coefficient places zeros unit : Nat) :
    Binary.ofUnits (coefficient * 10 ^ zeros * unit) (10 ^ (places + zeros)) =
      Binary.ofUnits (coefficient * unit) (10 ^ places) := by
  have positive : 0 < 10 ^ zeros := Nat.pow_pos (by omega)
  rw [Nat.mul_right_comm, Nat.pow_add]
  exact Binary.ofUnits_scale _ _ positive

/-- Two decimals of one value round alike. -/
theorem pattern_congr {d e : Decimal} (zeros : Nat)
    (digits : e.coefficient * 10 ^ e.exponent.toNat * 10 ^ zeros =
      d.coefficient * 10 ^ d.exponent.toNat)
    (places : (-e.exponent).toNat + zeros = (-d.exponent).toNat) :
    e.pattern = d.pattern := by
  unfold pattern
  simp only [Nat.pow_eq (m := 10)]
  rw [← digits, ← places]
  exact (ofUnits_dropZeros _ _ zeros _).symm

/-- A whole number of units is a decimal with as many places as the unit has. -/
theorem ofUnits_decimal {p : Nat} (finite : p < Binary.infinity) (n : Nat) :
    Binary.ofUnits (Binary.units p * Nat.pow 5 n * Nat.pow 10 0 * Nat.pow 2 n) (Nat.pow 10 n) =
      p := by
  have positive : 0 < 10 ^ n := Nat.pow_pos (by omega)
  calc
    Binary.ofUnits (Binary.units p * Nat.pow 5 n * Nat.pow 10 0 * Nat.pow 2 n) (Nat.pow 10 n)
      = Binary.ofUnits (Binary.units p * 10 ^ n) (1 * 10 ^ n) := by
        simp only [Nat.pow_eq, Nat.pow_zero, Nat.mul_one, Nat.one_mul]
        rw [Nat.mul_assoc, ← Nat.mul_pow]
    _ = Binary.ofUnits (Binary.units p) 1 := Binary.ofUnits_scale _ 1 positive
    _ = p := Binary.ofUnits_units finite

theorem pattern_ofPattern {p : Nat} (finite : p < Binary.infinity) :
    (ofPattern p).pattern = p := by
  have whole : (-1074 : Int).toNat = 0 := rfl
  have places : (-(-1074) : Int).toNat = 1074 := rfl
  unfold pattern ofPattern
  dsimp only
  rw [whole, places]
  generalize 1074 = n
  exact ofUnits_decimal finite n

theorem pattern_shorten? {d short : Decimal} {target dropped : Nat}
    (accepted : d.shorten? target dropped = some short) : short.pattern = target := by
  rw [shorten?] at accepted
  have fits := List.find?_some accepted
  exact beq_iff_eq.mp fits

/-- The shortest decimal of a finite number rounds to that number. -/
theorem pattern_shortest {target : Nat} (finite : target < Binary.infinity) :
    (shortest target).pattern = target := by
  unfold shortest
  dsimp only
  cases found : List.findSome? _ _ with
  | none => exact pattern_ofPattern finite
  | some short =>
    obtain ⟨more, -, accepted⟩ := List.exists_of_findSome?_eq_some found
    exact pattern_shorten? accepted

end Decimal

end FormScript
