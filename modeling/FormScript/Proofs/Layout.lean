import FormScript.Proofs.Scanning

/-!
# The pieces of a text

Blanks, comments, parens and words make up a text. `Token.Layout` is a cut of a text
into such pieces, together with the tokens that the parens and the words give, and
`Token.layout_scan` says that the scanner makes a cut of this kind. What is true of
the tokens of a text follows by induction over its pieces.

Whether a character lies in a comment depends on its line alone: a semicolon stands
there, at the character or before it. It does not matter whether this semicolon is
the one that starts the comment (`inComment_iff_exists_start`).
-/

namespace FormScript

/-- The characters that only separate tokens. -/
def blanks : List Char :=
  [' ', '\t', '\r', '\n']

/-- The last of these characters lies in a comment. -/
def InComment (upTo : List Char) : Prop :=
  ∃ before inside, upTo = before ++ ';' :: inside ∧ '\n' ∉ inside

theorem not_inComment_nil : ¬ InComment [] := by
  rintro ⟨before, inside, split, -⟩
  simp at split

/-- A comment goes on up to the line feed. -/
theorem InComment.append {read more : List Char} (commented : InComment read)
    (noFeed : '\n' ∉ more) : InComment (read ++ more) := by
  obtain ⟨before, inside, rfl, free⟩ := commented
  exact ⟨before, inside ++ more, by simp, by simp [free, noFeed]⟩

/-- Only a semicolon starts a comment. -/
theorem InComment.of_append {read more : List Char} (commented : InComment (read ++ more))
    (noSemicolon : ';' ∉ more) : InComment read := by
  obtain ⟨before, inside, split, free⟩ := commented
  rcases append_eq_append_cons split with ⟨middle, rfl, rfl⟩ | ⟨middle, -, rfl⟩
  · exact ⟨before, middle, rfl, fun member => free (List.mem_append_left _ member)⟩
  · exact absurd (by simp) noSemicolon

/-- A line feed ends every comment. -/
theorem not_inComment_feed (read : List Char) : ¬ InComment (read ++ ['\n']) := by
  rintro ⟨before, inside, split, free⟩
  rcases append_eq_append_cons split with ⟨middle, -, rfl⟩ | ⟨middle, -, single⟩
  · exact free (by simp)
  · rcases List.cons_eq_append_iff.mp single with ⟨-, same⟩ | ⟨middle, -, same⟩
    · cases same
    · simp at same

/-- The first semicolon of a line is the one that starts a comment. -/
theorem InComment.exists_start {upTo : List Char} (commented : InComment upTo) :
    ∃ before inside, upTo = before ++ ';' :: inside ∧ '\n' ∉ inside ∧ ¬ InComment before := by
  obtain ⟨before, inside, rfl, free⟩ := commented
  by_cases earlier : InComment before
  · obtain ⟨start, middle, same, noFeed, outside⟩ := earlier.exists_start
    refine ⟨start, middle ++ ';' :: inside, by simp [same], ?_, outside⟩
    simp [noFeed, free]
  · exact ⟨before, inside, rfl, free, earlier⟩
termination_by upTo.length

/-- A comment goes from a semicolon outside of comments up to the end of the line. -/
theorem inComment_iff_exists_start (upTo : List Char) :
    InComment upTo ↔
      ∃ before inside, upTo = before ++ ';' :: inside ∧ '\n' ∉ inside ∧ ¬ InComment before := by
  constructor
  · exact InComment.exists_start
  · intro ⟨before, inside, split, free, _⟩
    exact ⟨before, inside, split, free⟩

/-- What a character can be outside of comments. -/
theorem char_cases (c : Char) :
    c = '(' ∨ c = ')' ∨ c ∈ blanks ∨ c = ';' ∨ c ∉ delimiters := by
  by_cases delimiter : c ∈ delimiters
  · simp only [delimiters, List.mem_cons, List.not_mem_nil, or_false] at delimiter
    rcases delimiter with rfl | rfl | rfl | rfl | rfl | rfl | rfl <;> simp [blanks]
  · exact .inr (.inr (.inr (.inr delimiter)))

namespace Token

/-- The position after everything that has been read. -/
def placeAfter (read : List Char) : Cursor :=
  Cursor.origin.advanceAll read

theorem placeAfter_append (read more : List Char) :
    placeAfter (read ++ more) = (placeAfter read).advanceAll more :=
  List.foldl_append

@[simp] theorem placeAfter_line (read : List Char) :
    (placeAfter read).line = 1 + read.count '\n' := by
  rw [placeAfter, Cursor.advanceAll_eq]
  rfl

@[simp] theorem placeAfter_offset (read : List Char) :
    (placeAfter read).offset = byteLength read := by
  rw [placeAfter, Cursor.advanceAll_eq]
  exact Nat.zero_add _

/-- The parens, by the kind of their tokens. -/
inductive IsParen : Kind → Char → Prop
  | opening : IsParen .opening '('
  | closing : IsParen .closing ')'

/-- `Layout read rest tokens`: after `read`, the text `rest` is cut into pieces whose
tokens are `tokens`. A comment takes the line feed that ends it, if there is one, and a
word reaches up to a delimiter or the end. -/
inductive Layout : List Char → List Char → List Token → Prop
  | done {read : List Char} : Layout read [] []
  | blank {read rest : List Char} {c : Char} {tokens : List Token} :
    c ∈ blanks → Layout (read ++ [c]) rest tokens → Layout read (c :: rest) tokens
  | comment {read body rest : List Char} {tokens : List Token} :
    '\n' ∉ body → Layout (read ++ (';' :: body ++ ['\n'])) rest tokens →
    Layout read (';' :: body ++ '\n' :: rest) tokens
  | lastComment {read body : List Char} : '\n' ∉ body → Layout read (';' :: body) []
  | paren {read rest : List Char} {kind : Kind} {c : Char} {tokens : List Token} :
    IsParen kind c → Layout (read ++ [c]) rest tokens →
    Layout read (c :: rest) (paren kind (placeAfter read) c :: tokens)
  | word {read word rest : List Char} {tokens : List Token} :
    IsWord word → (∀ c ∈ rest.head?, c ∈ delimiters) → Layout (read ++ word) rest tokens →
    Layout read (word ++ rest) (atomAt (placeAfter read) word :: tokens)

/-- Characters with a property go up to the first one without it. -/
theorem exists_longest (p : Char → Prop) [DecidablePred p] (cs : List Char) :
    ∃ first rest, cs = first ++ rest ∧ (∀ c ∈ first, p c) ∧ ∀ c ∈ rest.head?, ¬ p c := by
  induction cs with
  | nil => exact ⟨[], [], rfl, by simp, by simp⟩
  | cons c cs ih =>
    by_cases holds : p c
    · obtain ⟨first, rest, rfl, all, ends⟩ := ih
      exact ⟨c :: first, rest, rfl, List.forall_mem_cons.mpr ⟨holds, all⟩, ends⟩
    · exact ⟨[], c :: cs, rfl, by simp, by simpa using holds⟩

/-- Without a line feed nothing comes out of a comment. -/
theorem scanFrom_comment {body : List Char} (noFeed : '\n' ∉ body) (here : Cursor) :
    scanFrom .comment here body = [] := by
  induction body generalizing here with
  | nil => rfl
  | cons c body ih =>
    simp only [List.mem_cons, not_or] at noFeed
    obtain ⟨other, noFeed⟩ := noFeed
    rw [scanFrom_cons, Mode.step, if_neg (Ne.symm other), List.nil_append, ih noFeed]

/-- The scanner cuts what it has not read yet into pieces. -/
theorem layout_scanFrom (read rest : List Char) :
    Layout read rest (scanFrom .between (placeAfter read) rest) := by
  -- by induction on the length, since a comment or a word is taken as a whole
  induction size : rest.length using Nat.strongRecOn generalizing read rest with
  | ind _ ih =>
  subst size
  match rest with
  | [] => exact .done
  | c :: rest =>
    have next : rest.length < (c :: rest).length := Nat.lt_succ_self _
    rcases char_cases c with rfl | rfl | blank | rfl | letter
    · have later := ih _ next (read ++ ['(']) rest rfl
      rw [placeAfter_append] at later
      exact .paren .opening later
    · have later := ih _ next (read ++ [')']) rest rfl
      rw [placeAfter_append] at later
      exact .paren .closing later
    · have later := ih _ next (read ++ [c]) rest rfl
      rw [placeAfter_append] at later
      have skipped : scanFrom .between (placeAfter read) (c :: rest) =
          scanFrom .between ((placeAfter read).advance c) rest := by
        simp only [blanks, List.mem_cons, List.not_mem_nil, or_false] at blank
        rcases blank with rfl | rfl | rfl | rfl <;> rfl
      rw [skipped]
      exact .blank blank later
    · obtain ⟨body, after, rfl, inside, ends⟩ := exists_longest (· ≠ '\n') rest
      have noFeed : '\n' ∉ body := fun member => inside _ member rfl
      have entered : scanFrom .between (placeAfter read) (';' :: (body ++ after)) =
          scanFrom .comment ((placeAfter read).advance ';') (body ++ after) := rfl
      rw [entered]
      cases after with
      | nil =>
        rw [List.append_nil, scanFrom_comment noFeed]
        exact .lastComment noFeed
      | cons c after =>
        obtain rfl : c = '\n' := Decidable.not_not.mp (ends c rfl)
        have shorter : after.length < (';' :: (body ++ '\n' :: after)).length := by
          simp only [List.length_cons, List.length_append]
          omega
        have later := ih _ shorter (read ++ (';' :: body ++ ['\n'])) after rfl
        rw [placeAfter_append] at later
        rw [scanFrom_join, scanFrom_comment noFeed, List.nil_append]
        exact .comment noFeed later
    · obtain ⟨word, after, cut, letters, ends⟩ := exists_longest (· ∉ delimiters) (c :: rest)
      have nonempty : word ≠ [] := by
        rintro rfl
        have first : after.head? = some c := congrArg List.head? cut.symm
        exact ends c first letter
      have isWord : IsWord word := ⟨nonempty, letters⟩
      have delimited : ∀ c ∈ after.head?, c ∈ delimiters := fun c first =>
        Decidable.not_not.mp (ends c first)
      have positive := List.length_pos_iff.mpr nonempty
      have shorter : after.length < (c :: rest).length := by
        rw [cut, List.length_append]
        omega
      have later := ih _ shorter (read ++ word) after rfl
      rw [placeAfter_append] at later
      rw [cut, scanFrom_word isWord delimited]
      exact .word isWord delimited later

/-- The scanner cuts a text into pieces. -/
theorem layout_scan (text : String) : Layout [] text.toList (scan text) :=
  layout_scanFrom [] text.toList

end Token

end FormScript
