/-!
# Byte positions in a text

A text is a list of characters, but positions in it are counted in bytes of its
UTF-8 form, so that a position means the same to every reader of the stored
text. `byteLength` is the length in that measure and `takeBytes` cuts a text at
such a position.
-/

namespace FormScript

/-- A stretch of a text between two byte positions; `stop` is the first byte
after it. -/
structure Span where
  start : Nat
  stop : Nat
  deriving DecidableEq, Repr

/-- The number of bytes that characters take in UTF-8. -/
def byteLength : List Char → Nat
  | [] => 0
  | c :: cs => c.utf8Size + byteLength cs

theorem byteLength_append (xs ys : List Char) :
    byteLength (xs ++ ys) = byteLength xs + byteLength ys := by
  induction xs with
  | nil => simp [byteLength]
  | cons c cs ih => simp [byteLength, ih, Nat.add_assoc]

theorem eq_nil_of_byteLength {cs : List Char} (size : byteLength cs = 0) : cs = [] := by
  cases cs with
  | nil => rfl
  | cons c cs =>
    have positive := c.utf8Size_pos
    rw [byteLength] at size
    omega

/-- An element of two joined lists lies in the first or in the second. -/
theorem append_eq_append_cons {α : Type} {xs ys front back : List α} {x : α}
    (same : xs ++ ys = front ++ x :: back) :
    (∃ middle, xs = front ++ x :: middle ∧ back = middle ++ ys) ∨
      ∃ middle, front = xs ++ middle ∧ ys = middle ++ x :: back := by
  rcases List.append_eq_append_iff.mp same with ⟨middle, first, second⟩ | ⟨middle, first, second⟩
  · exact .inr ⟨middle, first, second⟩
  · rcases List.cons_eq_append_iff.mp second with ⟨rfl, rest⟩ | ⟨middle, rfl, rest⟩
    · exact .inr ⟨[], by simpa using first.symm, rest⟩
    · exact .inl ⟨middle, first, rest⟩

/-- Of two beginnings of a text, the one with fewer bytes begins the other. -/
theorem isPrefix_of_byteLength_le {xs ys text : List Char} (first : xs <+: text)
    (second : ys <+: text) (shorter : byteLength xs ≤ byteLength ys) : xs <+: ys := by
  rcases List.prefix_or_prefix_of_prefix first second with below | ⟨more, rfl⟩
  · exact below
  · cases more with
    | nil => simp
    | cons c more =>
      have positive := c.utf8Size_pos
      rw [byteLength_append, byteLength] at shorter
      omega

/-- The longest beginning of a text that fits into `size` bytes. -/
def takeBytes : (size : Nat) → List Char → List Char
  | _, [] => []
  | size, c :: cs =>
    if c.utf8Size ≤ size then c :: takeBytes (size - c.utf8Size) cs else []

/-- Cutting at the end of a beginning gives back that beginning. -/
theorem takeBytes_byteLength_append (xs ys : List Char) :
    takeBytes (byteLength xs) (xs ++ ys) = xs := by
  induction xs with
  | nil =>
    cases ys with
    | nil => rfl
    | cons c cs =>
      have positive := c.utf8Size_pos
      simp only [byteLength, List.nil_append, takeBytes]
      rw [if_neg (by omega)]
  | cons c cs ih => simp [byteLength, takeBytes, ih]

end FormScript
