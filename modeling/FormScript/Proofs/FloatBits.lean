import Mathlib
import FormScript.Number.Binary

/-!
# Numbers and their bits

A number that is made from a sign and a pattern has that sign and that pattern, as
long as the pattern is at most the infinite one. The floating-point numbers of the
language are packed from a sign, an exponent and a mantissa; `pack_unpack` says that
bits which are not those of a not-a-number survive being taken apart and packed again,
and the rest is arithmetic on the bits read as a natural number.
-/

namespace FormScript.Binary

open Float.Model (Format UnpackedFloat)
open Float.Model.UnpackedFloat

/-! ## Components -/

section Components

variable (bits : BitVec Format.binary64.numBits)

theorem toNat_unpackMantissa : (unpackMantissa bits).toNat = bits.toNat % 2 ^ 52 := by
  rw [unpackMantissa, BitVec.toNat_cast, BitVec.extractLsb_toNat]
  rfl

theorem toNat_unpackExponent : (unpackExponent bits).toNat = bits.toNat / 2 ^ 52 % 2 ^ 11 := by
  rw [unpackExponent, BitVec.toNat_cast, BitVec.extractLsb_toNat, Nat.shiftRight_eq_div_pow]
  rfl

theorem toNat_unpackSign : (unpackSign bits).toNat = bits.toNat / 2 ^ 63 := by
  have bound : bits.toNat < 2 ^ 64 := bits.isLt
  have single : bits.toNat / 2 ^ 63 < 2 := by omega
  rw [unpackSign, BitVec.toNat_cast, BitVec.extractLsb_toNat, Nat.shiftRight_eq_div_pow]
  exact Nat.mod_eq_of_lt single

theorem toNat_packComponents (sign : Sign) (exponent : BitVec 11) (mantissa : BitVec 52) :
    (packComponents .binary64 sign exponent mantissa).toNat =
      sign.toBitVec.toNat * 2 ^ 63 + exponent.toNat * 2 ^ 52 + mantissa.toNat := by
  rw [packComponents, BitVec.toNat_append, BitVec.toNat_append,
    ← Nat.shiftLeft_add_eq_or_of_lt mantissa.isLt,
    ← Nat.shiftLeft_add_eq_or_of_lt exponent.isLt, Nat.shiftLeft_eq, Nat.shiftLeft_eq]
  omega

theorem toBitVec_ofBitVec (b : BitVec 1) : (Sign.ofBitVec b).toBitVec = b := by
  rcases BitVec.eq_zero_or_eq_one b with rfl | rfl <;> rfl

/-- Bits are made of their components. -/
theorem packComponents_components {exponent : BitVec 11} {mantissa : BitVec 52}
    (ofExponent : unpackExponent bits = exponent) (ofMantissa : unpackMantissa bits = mantissa) :
    packComponents .binary64 (Sign.ofBitVec (unpackSign bits)) exponent mantissa = bits := by
  subst ofExponent ofMantissa
  apply BitVec.eq_of_toNat_eq
  rw [toNat_packComponents, toBitVec_ofBitVec, toNat_unpackSign, toNat_unpackExponent,
    toNat_unpackMantissa]
  omega

end Components

/-! ## Packing finite numbers -/

theorem exponentBias_eq : Format.binary64.exponentBias = 1023 := by decide

/-- The exponent field `field` is stored where the unpacked exponent says. -/
theorem biased (field : Nat) :
    ((field : Int) - (Format.binary64.exponentBias + (52 : Nat)) +
      Format.binary64.exponentBias + (52 : Nat)).toNat = field := by
  omega

theorem pack_subnormal (sign : Sign) {mantissa : BitVec 52} (positive : 0 < mantissa.toNat) :
    UnpackedFloat.pack .binary64 (.finite sign mantissa.toNat
      ((0 : Int) - (Format.binary64.exponentBias + (52 : Nat)) + 1) positive) =
      packComponents .binary64 sign 0#11 mantissa := by
  have short : mantissa.toNat.log2 < 52 :=
    (Nat.log2_lt (Nat.ne_of_gt positive)).mpr mantissa.isLt
  rw [UnpackedFloat.pack]
  dsimp only
  rw [if_neg, if_neg]
  · rw [BitVec.ofNat_toNat, BitVec.setWidth_eq]
  · have width : Format.binary64.mantissaBits = 53 := by decide
    omega
  · rw [exponentBias_eq]
    decide

theorem pack_normal (sign : Sign) {exponent : BitVec 11} (mantissa : BitVec 52)
    (finite : exponent.toNat < 2047) (positive : 0 < (1#1 ++ mantissa).toNat) :
    UnpackedFloat.pack .binary64 (.finite sign (1#1 ++ mantissa).toNat
      ((exponent.toNat : Int) - (Format.binary64.exponentBias + (52 : Nat))) positive) =
      packComponents .binary64 sign exponent mantissa := by
  have value : (1#1 ++ mantissa).toNat = 2 ^ 52 + mantissa.toNat := by
    rw [BitVec.toNat_append, ← Nat.shiftLeft_add_eq_or_of_lt mantissa.isLt, Nat.shiftLeft_eq]
    rfl
  have bound : mantissa.toNat < 2 ^ 52 := mantissa.isLt
  have long : (1#1 ++ mantissa).toNat.log2 = 52 := by
    rw [Nat.log2_eq_iff (Nat.ne_of_gt positive), value]
    omega
  have width : Format.binary64.mantissaBits = 53 := by decide
  rw [UnpackedFloat.pack]
  dsimp only
  rw [biased, if_neg, if_pos]
  · congr 1
    · rw [BitVec.ofNat_toNat, BitVec.setWidth_eq]
    · apply BitVec.eq_of_toNat_eq
      rw [value, BitVec.toNat_ofNat]
      omega
  · rw [long, width]
  · omega

/-- Bits that are no not-a-number survive unpacking and packing. -/
theorem pack_unpack {bits : BitVec Format.binary64.numBits}
    (number : unpackExponent bits = -1#11 → unpackMantissa bits = 0#52) :
    UnpackedFloat.pack .binary64 (UnpackedFloat.unpack .binary64 bits) = bits := by
  unfold UnpackedFloat.unpack
  dsimp only
  split
  · next allOnes =>
    rw [if_pos (number allOnes)]
    exact packComponents_components bits allOnes (number allOnes)
  · next notOnes =>
    split
    · next noExponent =>
      split
      · next noMantissa => exact packComponents_components bits noExponent noMantissa
      · next mantissa =>
        have positive : 0 < (unpackMantissa bits).toNat :=
          Nat.pos_of_ne_zero fun zero => mantissa (BitVec.eq_of_toNat_eq zero)
        simp only [noExponent]
        exact (pack_subnormal _ positive).trans (packComponents_components bits noExponent rfl)
    · next exponent =>
      have finite : (unpackExponent bits).toNat < 2047 := by
        have bound : (unpackExponent bits).toNat < 2048 := (unpackExponent bits).isLt
        have differs : (unpackExponent bits).toNat ≠ 2047 := fun same =>
          notOnes (BitVec.eq_of_toNat_eq same)
        omega
      exact (pack_normal _ _ finite _).trans (packComponents_components bits rfl rfl)

/-! ## Signs and patterns -/

theorem signBit_eq : signBit = 2 ^ 63 := by decide

theorem infinity_eq : infinity = 2047 * 2 ^ 52 := by decide

/-- A pattern has all ones in its exponent field from the infinite one on. -/
theorem exponent_eq_allOnes (bits : BitVec Format.binary64.numBits) :
    unpackExponent bits = -1#11 ↔ infinity ≤ bits.toNat % signBit := by
  have field := toNat_unpackExponent bits
  have ones : (-1#11).toNat = 2047 := by decide
  rw [← BitVec.toNat_inj, field, ones, signBit_eq, infinity_eq]
  omega

theorem isFinite_iff (x : Float) : x.isFinite = true ↔ pattern x < infinity := by
  have allOnes := exponent_eq_allOnes x.toBits.toBitVec
  have unpacked : x.isFinite =
      (UnpackedFloat.unpack .binary64 x.toBits.toBitVec).isFinite := rfl
  rw [unpacked, pattern, ← Nat.not_le, ← UInt64.toNat_toBitVec, ← allOnes]
  unfold UnpackedFloat.unpack
  dsimp only
  split
  · next infinite =>
    split
    · exact iff_of_false Bool.false_ne_true (not_not_intro infinite)
    · exact iff_of_false Bool.false_ne_true (not_not_intro infinite)
  · next finite =>
    split
    · split
      · exact iff_of_true rfl finite
      · exact iff_of_true rfl finite
    · exact iff_of_true rfl finite

theorem toBits_ofBits {bits : UInt64} (number : bits.toNat % signBit ≤ infinity) :
    (Float.ofBits bits).toBits = bits := by
  have survives : UnpackedFloat.pack .binary64
      (UnpackedFloat.unpack .binary64 bits.toBitVec) = bits.toBitVec := by
    apply pack_unpack
    intro allOnes
    have atLeast := (exponent_eq_allOnes _).mp allOnes
    apply BitVec.eq_of_toNat_eq
    rw [toNat_unpackMantissa]
    rw [UInt64.toNat_toBitVec] at atLeast ⊢
    rw [signBit_eq, infinity_eq] at number atLeast
    change bits.toNat % 2 ^ 52 = 0
    omega
  calc
    (Float.ofBits bits).toBits
      = UInt64.ofBitVec (UnpackedFloat.pack .binary64
          (UnpackedFloat.unpack .binary64 bits.toBitVec)) := rfl
    _ = bits := by rw [survives]

section Signed

variable (negative : Bool) {p : Nat} (number : p ≤ infinity)

include number

theorem toBits_toFloat :
    (toFloat negative p).toBits.toNat = if negative then signBit + p else p := by
  have range : (if negative then signBit + p else p) < 2 ^ 64 := by
    rw [infinity_eq] at number
    rw [signBit_eq]
    split <;> omega
  have exact : (UInt64.ofNat (if negative then signBit + p else p)).toNat =
      if negative then signBit + p else p := UInt64.toNat_ofNat_of_lt range
  rw [toFloat, toBits_ofBits, exact]
  rw [exact, infinity_eq, signBit_eq]
  rw [infinity_eq] at number
  split <;> omega

@[simp] theorem pattern_toFloat : pattern (toFloat negative p) = p := by
  rw [pattern, toBits_toFloat negative number, signBit_eq]
  rw [infinity_eq] at number
  split <;> omega

@[simp] theorem isNegative_toFloat : isNegative (toFloat negative p) = negative := by
  rw [isNegative, toBits_toFloat negative number, signBit_eq]
  rw [infinity_eq] at number
  cases negative with
  | true => simp
  | false =>
    simp
    omega

end Signed

end FormScript.Binary
