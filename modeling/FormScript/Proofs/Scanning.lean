import FormScript.Token.Scan

/-!
# Atoms and delimiters

Seven characters end an atom: the blanks, the parens and the semicolon. An atom is
made of other characters only, and it has at least one of them (`Token.scan_atoms`).
The other way round, a word that is followed by a delimiter, or by nothing, is
scanned as one atom (`Token.scanFrom_word`).
-/

namespace FormScript

/-- The characters that no atom contains. -/
def delimiters : List Char :=
  [' ', '\t', '\r', '\n', '(', ')', ';']

theorem Glyph.ofChar_eq_letter {c : Char} : Glyph.ofChar c = .letter ↔ c ∉ delimiters := by
  unfold Glyph.ofChar delimiters
  split <;> simp_all

/-- Characters that can make an atom: at least one, and no delimiter. -/
structure IsWord (cs : List Char) : Prop where
  nonempty : cs ≠ []
  free : ∀ c ∈ cs, c ∉ delimiters

/-- The position after several characters. -/
def Cursor.advanceAll (here : Cursor) (cs : List Char) : Cursor :=
  cs.foldl advance here

/-- The position after characters, by what they contain. -/
theorem Cursor.advanceAll_eq (here : Cursor) (cs : List Char) :
    here.advanceAll cs =
      { line := here.line + cs.count '\n', offset := here.offset + byteLength cs } := by
  induction cs generalizing here with
  | nil => rfl
  | cons c cs ih =>
    have rest : here.advanceAll (c :: cs) = (here.advance c).advanceAll cs := rfl
    rw [rest, ih, advance, byteLength, List.count_cons]
    by_cases feed : c = '\n'
    · simp only [feed, if_true, beq_self_eq_true, mk.injEq]
      omega
    · simp only [feed, if_false, beq_iff_eq, mk.injEq]
      omega

/-- Being a word can be computed. -/
theorem IsWord.of_letters {cs : List Char}
    (computed : (!cs.isEmpty && cs.all (Glyph.ofChar · == .letter)) = true) : IsWord cs := by
  obtain ⟨nonempty, letters⟩ := Bool.and_eq_true_iff.mp computed
  refine ⟨by simpa using nonempty, fun c member => Glyph.ofChar_eq_letter.mp ?_⟩
  simpa using List.all_eq_true.mp letters c member

namespace Token

theorem scanFrom_cons (mode : Mode) (here : Cursor) (c : Char) (cs : List Char) :
    scanFrom mode here (c :: cs) =
      (mode.step here c).1 ++ scanFrom (mode.step here c).2 (here.advance c) cs := rfl

/-- A line feed separates what is before it from what is after it. -/
theorem scanFrom_join (mode : Mode) (here : Cursor) (front back : List Char) :
    scanFrom mode here (front ++ '\n' :: back) =
      scanFrom mode here front ++
        scanFrom .between (here.advanceAll (front ++ ['\n'])) back := by
  induction front generalizing mode here with
  | nil => cases mode <;> rfl
  | cons c front ih =>
    rw [List.cons_append, scanFrom_cons, scanFrom_cons, ih, List.append_assoc]
    rfl

/-! ## Atoms are words -/

/-- An unfinished atom is a word already. -/
def Mode.Wordly : Mode → Prop
  | .atom _ seen => IsWord seen
  | _ => True

theorem Mode.flush_word {mode : Mode} (wordly : mode.Wordly) (stop : Nat) :
    ∀ token ∈ mode.flush stop, token.kind = .atom → IsWord token.text.toList := by
  intro token member _
  cases mode with
  | between | comment => cases member
  | atom start seen =>
    obtain rfl := List.mem_singleton.mp member
    have reversed : IsWord seen.reverse :=
      ⟨by simpa using wordly.nonempty, by simpa using wordly.free⟩
    simpa using reversed

theorem Mode.extend_wordly {mode : Mode} (wordly : mode.Wordly) (here : Cursor) {c : Char}
    (letter : Glyph.ofChar c = .letter) : (mode.extend here c).Wordly := by
  have free := Glyph.ofChar_eq_letter.mp letter
  cases mode with
  | between | comment => exact ⟨List.cons_ne_nil _ _, by simpa using free⟩
  | atom start seen =>
    exact ⟨List.cons_ne_nil _ _, List.forall_mem_cons.mpr ⟨free, wordly.free⟩⟩

/-- One character completes only words and leaves the mode with a word, if any. -/
theorem Mode.step_word {mode : Mode} (wordly : mode.Wordly) (here : Cursor) (c : Char) :
    (∀ token ∈ (mode.step here c).1, token.kind = .atom → IsWord token.text.toList) ∧
      (mode.step here c).2.Wordly := by
  have flushed := mode.flush_word wordly here.offset
  have opened : ∀ kind ≠ Kind.atom, ∀ token ∈ mode.flush here.offset ++ [paren kind here c],
      token.kind = .atom → IsWord token.text.toList := by
    intro kind isParen token member isAtom
    rcases List.mem_append.mp member with before | last
    · exact flushed token before isAtom
    · obtain rfl := List.mem_singleton.mp last
      exact absurd isAtom isParen
  unfold step
  split
  · refine ⟨by simp, ?_⟩
    dsimp only
    split <;> trivial
  · split
    · exact ⟨opened .opening (by decide), trivial⟩
    · exact ⟨opened .closing (by decide), trivial⟩
    · exact ⟨flushed, trivial⟩
    · exact ⟨flushed, trivial⟩
    · next letter => exact ⟨by simp, mode.extend_wordly wordly here letter⟩

theorem scanFrom_atoms {mode : Mode} (wordly : mode.Wordly) (here : Cursor) (cs : List Char) :
    ∀ token ∈ scanFrom mode here cs, token.kind = .atom → IsWord token.text.toList := by
  induction cs generalizing mode here with
  | nil => exact mode.flush_word wordly here.offset
  | cons c cs ih =>
    obtain ⟨done, next⟩ := mode.step_word wordly here c
    intro token member isAtom
    rcases List.mem_append.mp member with now | later
    · exact done token now isAtom
    · exact ih next (here.advance c) token later isAtom

/-- The atoms of a text are words. -/
theorem scan_atoms (text : String) :
    ∀ token ∈ scan text, token.kind = .atom → IsWord token.text.toList :=
  @scanFrom_atoms .between trivial .origin text.toList

/-! ## Words are atoms -/

/-- The atom that a word at `here` makes. -/
def atomAt (here : Cursor) (word : List Char) : Token where
  kind := .atom
  text := String.ofList word
  line := here.line
  span := { start := here.offset, stop := (here.advanceAll word).offset }

/-- Letters go into the atom that they continue. -/
theorem scanFrom_letters (start : Cursor) (seen letters rest : List Char) (here : Cursor)
    (free : ∀ c ∈ letters, c ∉ delimiters) :
    scanFrom (.atom start seen) here (letters ++ rest) =
      scanFrom (.atom start (letters.reverse ++ seen)) (here.advanceAll letters) rest := by
  induction letters generalizing seen here with
  | nil => rfl
  | cons c letters ih =>
    obtain ⟨first, others⟩ := List.forall_mem_cons.mp free
    have letter := Glyph.ofChar_eq_letter.mpr first
    simp only [List.cons_append, scanFrom, Mode.step, letter, Mode.extend, List.nil_append]
    rw [ih (c :: seen) (here.advance c) others]
    simp [Cursor.advanceAll]

/-- What is no letter ends an atom and is scanned as if there had been none. -/
theorem scanFrom_flush (start : Cursor) (seen rest : List Char) (here : Cursor)
    (ends : ∀ c ∈ rest.head?, c ∈ delimiters) :
    scanFrom (.atom start seen) here rest =
      Mode.flush here.offset (.atom start seen) ++ scanFrom .between here rest := by
  cases rest with
  | nil => simp [scanFrom, Mode.flush]
  | cons c rest =>
    have delimiter : Glyph.ofChar c ≠ .letter := by
      simpa [Glyph.ofChar_eq_letter] using ends c rfl
    simp only [scanFrom, Mode.step]
    split
    · simp [Mode.flush]
    · simp [Mode.flush]
    · simp [Mode.flush]
    · simp [Mode.flush]
    · next letter => exact absurd letter delimiter

/-- A word before a delimiter, or at the end, is one atom. -/
theorem scanFrom_word {word rest : List Char} (isWord : IsWord word)
    (ends : ∀ c ∈ rest.head?, c ∈ delimiters) (here : Cursor) :
    scanFrom .between here (word ++ rest) =
      atomAt here word :: scanFrom .between (here.advanceAll word) rest := by
  obtain ⟨c, letters, rfl⟩ := List.exists_cons_of_ne_nil isWord.nonempty
  obtain ⟨first, others⟩ := List.forall_mem_cons.mp isWord.free
  have letter := Glyph.ofChar_eq_letter.mpr first
  simp only [List.cons_append, scanFrom, Mode.step, letter, Mode.extend, List.nil_append]
  rw [scanFrom_letters _ _ _ _ _ others, scanFrom_flush _ _ _ _ ends]
  simp [Mode.flush, atomAt, Cursor.advanceAll]

end Token

end FormScript
