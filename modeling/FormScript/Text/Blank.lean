import FormScript.Text.Span

/-!
# White space at the ends of a text

The characters with the Unicode property `White_Space`, and the text without
those at its two ends. The same cut is available as a text (`trim`) and as the
byte positions where it falls (`trimmedSpan`).
-/

namespace FormScript

/-- The Unicode property `White_Space`. -/
def isWhiteSpace (c : Char) : Bool :=
  let n := c.toNat
  (0x0009 ≤ n && n ≤ 0x000D) || n == 0x0020 || n == 0x0085 || n == 0x00A0 ||
    n == 0x1680 || (0x2000 ≤ n && n ≤ 0x200A) || n == 0x2028 || n == 0x2029 ||
    n == 0x202F || n == 0x205F || n == 0x3000

/-- A text without the white space at its beginning. -/
def trimStart (text : List Char) : List Char :=
  text.dropWhile isWhiteSpace

/-- A text without the white space at its end. -/
def trimEnd (text : List Char) : List Char :=
  (text.reverse.dropWhile isWhiteSpace).reverse

/-- A text without the white space at its two ends. -/
def trim (text : List Char) : List Char :=
  trimEnd (trimStart text)

/-- Where `trim` cuts a text. A text of white space alone gives the empty
stretch at its end. -/
def trimmedSpan (text : List Char) : Span :=
  let start := byteLength text - byteLength (trimStart text)
  { start := start, stop := max start (byteLength (trimEnd text)) }

theorem exists_trimStart (text : List Char) :
    ∃ front, text = front ++ trimStart text ∧ ∀ c ∈ front, isWhiteSpace c = true :=
  ⟨text.takeWhile isWhiteSpace, List.takeWhile_append_dropWhile.symm,
    List.all_eq_true.mp List.all_takeWhile⟩

theorem exists_trimEnd (text : List Char) :
    ∃ back, text = trimEnd text ++ back ∧ ∀ c ∈ back, isWhiteSpace c = true := by
  obtain ⟨front, split, white⟩ := exists_trimStart text.reverse
  refine ⟨front.reverse, ?_, fun c member => white c (List.mem_reverse.mp member)⟩
  have whole : text = (front ++ trimStart text.reverse).reverse := by
    rw [← split, List.reverse_reverse]
  rwa [List.reverse_append] at whole

/-- Trimming takes white space away and nothing else. -/
theorem exists_trim (text : List Char) :
    ∃ front back, text = front ++ (trim text ++ back) ∧
      (∀ c ∈ front, isWhiteSpace c = true) ∧ ∀ c ∈ back, isWhiteSpace c = true := by
  obtain ⟨front, start, whiteFront⟩ := exists_trimStart text
  obtain ⟨back, stop, whiteBack⟩ := exists_trimEnd (trimStart text)
  refine ⟨front, back, ?_, whiteFront, whiteBack⟩
  rw [trim, ← stop]
  exact start

/-- What is left begins with no white space. -/
theorem head?_trimStart (text : List Char) :
    ∀ c ∈ (trimStart text).head?, isWhiteSpace c = false := by
  intro c found
  have stopped := List.head?_dropWhile_not isWhiteSpace text
  rw [trimStart] at found
  rwa [Option.mem_def.mp found] at stopped

/-- What is left ends with no white space. -/
theorem getLast?_trimEnd (text : List Char) :
    ∀ c ∈ (trimEnd text).getLast?, isWhiteSpace c = false := by
  intro c found
  rw [trimEnd, List.getLast?_reverse] at found
  exact head?_trimStart text.reverse c found

/-- White space at the end of a text does not matter to what is left. -/
theorem trimEnd_append {back : List Char} (white : ∀ c ∈ back, isWhiteSpace c = true)
    (text : List Char) : trimEnd (text ++ back) = trimEnd text := by
  rw [trimEnd, List.reverse_append, List.dropWhile_append_of_pos (by simpa using white), trimEnd]

theorem trimStart_eq_self {text : List Char} (first : ∀ c ∈ text.head?, isWhiteSpace c = false) :
    trimStart text = text := by
  cases text with
  | nil => rfl
  | cons c text => simp [trimStart, first c rfl]

theorem trimEnd_eq_self {text : List Char} (last : ∀ c ∈ text.getLast?, isWhiteSpace c = false) :
    trimEnd text = text := by
  have reversed : trimStart text.reverse = text.reverse :=
    trimStart_eq_self fun c found => last c (by simpa using found)
  exact (congrArg List.reverse reversed).trans text.reverse_reverse

/-- Trimming leaves a text alone that has no white space at its ends. -/
theorem trim_eq_self {text : List Char} (first : ∀ c ∈ text.head?, isWhiteSpace c = false)
    (last : ∀ c ∈ text.getLast?, isWhiteSpace c = false) : trim text = text := by
  rw [trim, trimStart_eq_self first, trimEnd_eq_self last]

end FormScript
