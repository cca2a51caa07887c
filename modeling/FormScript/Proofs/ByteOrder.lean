import Mathlib.Tactic.SplitIfs

/-!
# The order of texts, byte by byte

Texts are ordered by their characters and characters by their code points. The bytes of
the UTF-8 form give the same order, whatever the lengths of the characters in bytes: a
character of more bytes has a greater first byte, and in characters of equally many bytes
the bytes are the digits of the code points, highest first (`utf8EncodeChar_lt`). No
character's bytes begin another's, so what follows two different characters does not
matter (`utf8_lt_of_lt`).
-/

namespace FormScript

/-- The bytes of a text in UTF-8. -/
def utf8 (text : String) : List UInt8 :=
  text.toUTF8.data.toList

theorem utf8_eq (text : String) : utf8 text = text.toList.flatMap String.utf8EncodeChar := by
  have encoded : text.toByteArray = text.toList.utf8Encode := by
    rw [← String.toByteArray_ofList, String.ofList_toList]
  rw [utf8, String.toUTF8_eq_toByteArray, encoded]
  exact List.toList_data_toByteArray

theorem ofNat_cons_lt {a b : Nat} {xs ys : List UInt8} (small : a < 256) (smallToo : b < 256) :
    UInt8.ofNat a :: xs < UInt8.ofNat b :: ys ↔ a < b ∨ a = b ∧ xs < ys := by
  rw [List.cons_lt_cons_iff, UInt8.ofNat_lt_iff_lt small smallToo, ← UInt8.toNat_inj,
    UInt8.toNat_ofNat_of_lt' small, UInt8.toNat_ofNat_of_lt' smallToo]

/-- Of two characters the lesser one has the lesser bytes, whatever follows them. -/
theorem utf8EncodeChar_lt {c d : Char} (below : c < d) (xs ys : List UInt8) :
    String.utf8EncodeChar c ++ xs < String.utf8EncodeChar d ++ ys := by
  have order : c.val.toNat < d.val.toNat := UInt32.lt_iff_toNat_lt.mp (Char.lt_def.mp below)
  have bound : d.val.toNat < 0x110000 := by
    rcases d.valid with low | ⟨_, high⟩ <;> omega
  -- all digits are in base 64, so that they can be compared one after the other
  have third : ∀ n : Nat, n / 4096 = n / 64 / 64 := by omega
  have fourth : ∀ n : Nat, n / 262144 = n / 64 / 64 / 64 := by omega
  simp only [String.utf8EncodeChar, third, fourth]
  generalize c.val.toNat = v at *
  generalize d.val.toNat = w at *
  split_ifs <;>
    simp (disch := omega) only [List.cons_append, List.nil_append, ofNat_cons_lt] <;> omega

theorem flatMap_utf8EncodeChar_lt {cs ds : List Char} (below : cs < ds) :
    cs.flatMap String.utf8EncodeChar < ds.flatMap String.utf8EncodeChar := by
  induction cs generalizing ds with
  | nil =>
    cases ds with
    | nil => cases below
    | cons d ds =>
      obtain ⟨first, others, bytes⟩ :=
        List.exists_cons_of_ne_nil (@String.utf8EncodeChar_ne_nil d)
      rw [List.flatMap_cons, bytes]
      exact List.nil_lt_cons first _
  | cons c cs ih =>
    cases ds with
    | nil => cases below
    | cons d ds =>
      rw [List.flatMap_cons, List.flatMap_cons]
      rcases List.cons_lt_cons_iff.mp below with less | ⟨rfl, later⟩
      · exact utf8EncodeChar_lt less _ _
      · exact List.append_left_lt (ih later)

/-- The lesser one of two texts has the lesser bytes. -/
theorem utf8_lt_of_lt {s t : String} (below : s < t) : utf8 s < utf8 t := by
  rw [utf8_eq, utf8_eq]
  exact flatMap_utf8EncodeChar_lt (String.lt_iff.mp below)

end FormScript
