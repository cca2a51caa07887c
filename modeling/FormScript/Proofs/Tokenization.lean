import Mathlib.Data.List.Pairwise
import Mathlib.Data.List.Sort
import FormScript.Proofs.Layout

/-!
# The tokens of a text

`Token.Tokenization` says what the tokens of a text are, without the scanner: where
they stand, what they are made of and what may be left out between them. There is
one such list of tokens for every text, the one that the scanner gives
(`Token.tokenization_iff_eq_scan`).

That the scanner's tokens are a tokenization is read off the pieces into which it
cuts a text. That no other list is one needs the characters only: a token of one
tokenization begins at a character that the other one has to cover as well, and two
atoms that share a character are equal, since atoms of a tokenization do not touch.
-/

namespace FormScript

/-- A byte position lies in a stretch. -/
def Span.Holds (span : Span) (position : Nat) : Prop :=
  span.start ≤ position ∧ position < span.stop

namespace Token

/-- A token is made of the characters `word`, which stand after `before`. -/
structure Covers (token : Token) (before word : List Char) : Prop where
  nonempty : word ≠ []
  text : token.text = String.ofList word
  line : token.line = 1 + before.count '\n'
  start : token.span.start = byteLength before
  stop : token.span.stop = byteLength before + byteLength word

/-- The kind of a token is that of its text. -/
structure Classified (token : Token) : Prop where
  opening : token.kind = .opening ↔ token.text = "("
  closing : token.kind = .closing ↔ token.text = ")"
  atom : token.kind = .atom → ∀ c ∈ token.text.toList, c ∉ delimiters

/-- A token lies inside a comment: all of its characters do. -/
def Commented (text : List Char) (token : Token) : Prop :=
  ∀ before c after, text = before ++ c :: after → token.span.Holds (byteLength before) →
    InComment (before ++ [c])

/-- The tokens of a text. They are stretches of the text in order, none within
another; atoms do not touch, no token lies inside a comment, and what is in no token
and no comment is blank. -/
structure Tokenization (text : List Char) (tokens : List Token) : Prop where
  placed : ∀ token ∈ tokens, ∃ before word after,
    text = before ++ (word ++ after) ∧ token.Covers before word
  ordered : tokens.Pairwise fun s t => s.span.stop ≤ t.span.start
  classified : ∀ token ∈ tokens, token.Classified
  apart : ∀ s ∈ tokens, ∀ t ∈ tokens, s.kind = .atom → t.kind = .atom →
    s.span.stop ≠ t.span.start
  uncommented : ∀ token ∈ tokens, ¬ token.Commented text
  blank : ∀ before c after, text = before ++ c :: after → ¬ InComment (before ++ [c]) →
    (∀ token ∈ tokens, ¬ token.span.Holds (byteLength before)) → c ∈ blanks

/-! ## Tokens and their characters -/

section Characters

variable {token other : Token} {text before word after : List Char}

theorem Covers.start_lt_stop (covers : token.Covers before word) :
    token.span.start < token.span.stop := by
  obtain ⟨c, rest, rfl⟩ := List.exists_cons_of_ne_nil covers.nonempty
  have positive := c.utf8Size_pos
  rw [covers.start, covers.stop, byteLength]
  omega

theorem Covers.holds {front back : List Char} {c : Char}
    (covers : token.Covers before (front ++ c :: back)) :
    token.span.Holds (byteLength (before ++ front)) := by
  have positive := c.utf8Size_pos
  have start := covers.start
  have stop := covers.stop
  rw [byteLength_append, byteLength] at stop
  rw [byteLength_append]
  constructor <;> omega

/-- A character at a position in a token is one of its characters. -/
theorem Covers.of_holds {front back : List Char} {c : Char}
    (covers : token.Covers before word) (cut : text = before ++ (word ++ after))
    (place : text = front ++ c :: back) (holds : token.span.Holds (byteLength front)) :
    ∃ left right, word = left ++ c :: right ∧ front = before ++ left := by
  obtain ⟨low, high⟩ := holds
  rw [covers.start] at low
  rw [covers.stop] at high
  have first : before <+: front :=
    isPrefix_of_byteLength_le ⟨_, cut.symm⟩ ⟨_, place.symm⟩ low
  obtain ⟨left, rfl⟩ := first
  rw [byteLength_append] at high
  rw [cut, List.append_assoc] at place
  rcases append_eq_append_cons (List.append_cancel_left place) with
    ⟨right, inside, -⟩ | ⟨middle, rfl, -⟩
  · exact ⟨left, right, inside, rfl⟩
  · rw [byteLength_append] at high
    omega

theorem blanks_subset : blanks ⊆ delimiters := by
  decide

theorem IsParen.delimiter {kind : Kind} {c : Char} (isParen : IsParen kind c) :
    c ∈ delimiters ∧ c ∉ blanks := by
  cases isParen <;> decide

theorem IsParen.unique {kind otherKind : Kind} {c : Char} (isParen : IsParen kind c)
    (other : IsParen otherKind c) : kind = otherKind := by
  cases isParen <;> cases other <;> rfl

theorem IsParen.kind_iff {kind : Kind} {c : Char} (isParen : IsParen kind c) :
    (kind = .opening ↔ c = '(') ∧ (kind = .closing ↔ c = ')') ∧ kind ≠ .atom := by
  cases isParen <;> decide

theorem Classified.isWord (classified : token.Classified) (kind : token.kind = .atom)
    (covers : token.Covers before word) : IsWord word := by
  have free := classified.atom kind
  rw [covers.text, String.toList_ofList] at free
  exact ⟨covers.nonempty, free⟩

/-- A token is a paren or a word. -/
theorem Classified.shape (classified : token.Classified) (covers : token.Covers before word) :
    (∃ c, IsParen token.kind c ∧ word = [c]) ∨ token.kind = .atom ∧ IsWord word := by
  cases kind : token.kind with
  | opening =>
    have text := classified.opening.mp kind
    rw [covers.text] at text
    have single : word = ['('] := String.ofList_injective text
    exact .inl ⟨'(', .opening, single⟩
  | closing =>
    have text := classified.closing.mp kind
    rw [covers.text] at text
    have single : word = [')'] := String.ofList_injective text
    exact .inl ⟨')', .closing, single⟩
  | atom => exact .inr ⟨rfl, classified.isWord kind covers⟩

theorem Classified.not_blank {c : Char} (classified : token.Classified)
    (covers : token.Covers before word) (member : c ∈ word) : c ∉ blanks := by
  rcases classified.shape covers with ⟨d, isParen, rfl⟩ | ⟨-, isWord⟩
  · rw [List.mem_singleton.mp member]
    exact isParen.delimiter.2
  · intro isBlank
    exact isWord.free c member (blanks_subset isBlank)

/-- No character of a token starts or ends a comment. -/
theorem Classified.not_comment_edge (classified : token.Classified)
    (covers : token.Covers before word) : ';' ∉ word ∧ '\n' ∉ word := by
  rcases classified.shape covers with ⟨d, isParen, rfl⟩ | ⟨-, isWord⟩
  · generalize token.kind = kind at isParen
    cases isParen <;> decide
  · exact ⟨fun semicolon => isWord.free _ semicolon (by decide),
      fun feed => isWord.free _ feed (by decide)⟩

theorem Classified.atom_of_letter {c : Char} (classified : token.Classified)
    (covers : token.Covers before word) (member : c ∈ word) (letter : c ∉ delimiters) :
    token.kind = .atom ∧ IsWord word := by
  rcases classified.shape covers with ⟨d, isParen, rfl⟩ | shape
  · rw [List.mem_singleton.mp member] at letter
    exact absurd isParen.delimiter.1 letter
  · exact shape

/-- Tokens at one place with the same characters are equal. -/
theorem Covers.eq (covers : token.Covers before word) (classified : token.Classified)
    (coversOther : other.Covers before word) (classifiedOther : other.Classified) :
    token = other := by
  have kinds : token.kind = other.kind := by
    rcases classified.shape covers with ⟨c, isParen, rfl⟩ | ⟨atom, isWord⟩
    · rcases classifiedOther.shape coversOther with ⟨d, isParenOther, same⟩ | ⟨-, isWord⟩
      · obtain ⟨rfl, -⟩ := List.cons.inj same
        exact isParen.unique isParenOther
      · exact absurd isParen.delimiter.1 (isWord.free c List.mem_cons_self)
    · obtain ⟨c, rest, rfl⟩ := List.exists_cons_of_ne_nil isWord.nonempty
      have letter := isWord.free c List.mem_cons_self
      rw [atom, (classifiedOther.atom_of_letter coversOther List.mem_cons_self letter).1]
  have texts := covers.text.trans coversOther.text.symm
  have lines := covers.line.trans coversOther.line.symm
  have starts := covers.start.trans coversOther.start.symm
  have stops := covers.stop.trans coversOther.stop.symm
  cases token
  cases other
  simp only [mk.injEq]
  exact ⟨kinds, texts, lines, congr (congrArg Span.mk starts) stops⟩

end Characters

/-! ## There is at most one tokenization -/

namespace Tokenization

variable {text : List Char} {tokens : List Token}

theorem start_lt_stop {token : Token} (cut : Tokenization text tokens)
    (member : token ∈ tokens) : token.span.start < token.span.stop := by
  obtain ⟨_, _, _, _, covers⟩ := cut.placed token member
  exact covers.start_lt_stop

/-- A character that is neither blank nor in a comment is in a token. -/
theorem exists_token {front back : List Char} {c : Char} (cut : Tokenization text tokens)
    (place : text = front ++ c :: back) (outside : ¬ InComment (front ++ [c]))
    (visible : c ∉ blanks) : ∃ token ∈ tokens, token.span.Holds (byteLength front) := by
  by_contra none
  refine visible (cut.blank front c back place outside fun token member holds => ?_)
  exact none ⟨token, member, holds⟩

/-- Two tokens do not overlap. -/
theorem disjoint {s t : Token} (cut : Tokenization text tokens) (first : s ∈ tokens)
    (second : t ∈ tokens) (different : s ≠ t) :
    s.span.stop ≤ t.span.start ∨ t.span.stop ≤ s.span.start := by
  let separate (s t : Token) : Prop :=
    s.span.stop ≤ t.span.start ∨ t.span.stop ≤ s.span.start
  have symmetric : Std.Symm separate := ⟨fun _ _ => Or.symm⟩
  have pairwise : tokens.Pairwise separate := cut.ordered.imp Or.inl
  exact pairwise.forall first second different

/-- A letter that belongs to no comment is in an atom. -/
theorem exists_atom {front back : List Char} {c : Char} (cut : Tokenization text tokens)
    (place : text = front ++ c :: back) (outside : ¬ InComment (front ++ [c]))
    (letter : c ∉ delimiters) :
    ∃ atom ∈ tokens, atom.kind = .atom ∧ atom.span.Holds (byteLength front) ∧
      byteLength front + c.utf8Size ≤ atom.span.stop := by
  obtain ⟨atom, member, holds⟩ :=
    cut.exists_token place outside fun isBlank => letter (blanks_subset isBlank)
  obtain ⟨before, word, after, split, covers⟩ := cut.placed atom member
  obtain ⟨left, right, rfl, rfl⟩ := covers.of_holds split place holds
  have kind := (cut.classified atom member).atom_of_letter covers (by simp) letter
  refine ⟨atom, member, kind.1, holds, ?_⟩
  rw [covers.stop, byteLength_append, byteLength_append, byteLength]
  omega

section Atoms

variable {token : Token} {before word after : List Char} {c : Char}

/-- No character of a token is in a comment. -/
theorem not_commented (cut : Tokenization text tokens) (member : token ∈ tokens)
    (left right : List Char) (covers : token.Covers before (left ++ c :: right))
    (split : text = before ++ ((left ++ c :: right) ++ after)) :
    ¬ InComment (before ++ (left ++ [c])) := by
  intro commented
  obtain ⟨noSemicolon, noFeed⟩ := (cut.classified token member).not_comment_edge covers
  -- the comment goes on to the end of the token, and it began before the token
  have whole : InComment (before ++ (left ++ c :: right)) := by
    have more : InComment (before ++ (left ++ [c]) ++ right) :=
      commented.append fun feed => noFeed (by simp [feed])
    simpa using more
  refine cut.uncommented token member fun front d back place holds => ?_
  obtain ⟨first, last, word, rfl⟩ := covers.of_holds split place holds
  rw [word] at whole noSemicolon
  have less : InComment (before ++ first ++ [d] ++ last) := by simpa using whole
  exact less.of_append fun semicolon => noSemicolon (by simp [semicolon])

/-- No letter follows an atom. -/
theorem delimiter_after (cut : Tokenization text tokens) (member : token ∈ tokens)
    (kind : token.kind = .atom) (covers : token.Covers before word)
    (split : text = before ++ (word ++ c :: after)) : c ∈ delimiters := by
  by_contra letter
  have outside : ¬ InComment (before ++ word) := by
    rcases List.eq_nil_or_concat' word with rfl | ⟨front, last, rfl⟩
    · exact absurd rfl covers.nonempty
    · exact cut.not_commented member front [] covers split
  have place : text = (before ++ word) ++ c :: after := by simp [split]
  have plain : ¬ InComment (before ++ word ++ [c]) := by
    intro commented
    refine outside (commented.of_append fun semicolon => letter ?_)
    rw [← List.mem_singleton.mp semicolon]
    decide
  obtain ⟨next, nextMember, nextKind, ⟨low, high⟩, -⟩ := cut.exists_atom place plain letter
  have stop : token.span.stop = byteLength (before ++ word) := by
    rw [covers.stop, byteLength_append]
  have nonempty := covers.start_lt_stop
  have different : token ≠ next := by
    intro same
    rw [← same] at high
    omega
  rcases cut.disjoint member nextMember different with later | earlier
  · exact cut.apart token member next nextMember kind nextKind (by omega)
  · omega

/-- No letter comes right before an atom. -/
theorem delimiter_before (cut : Tokenization text tokens) (member : token ∈ tokens)
    (kind : token.kind = .atom) (covers : token.Covers (before ++ [c]) word)
    (split : text = before ++ c :: (word ++ after)) : c ∈ delimiters := by
  by_contra letter
  have plain : ¬ InComment (before ++ [c]) := by
    intro commented
    have isWord := (cut.classified token member).isWord kind covers
    obtain ⟨first, rest, rfl⟩ := List.exists_cons_of_ne_nil isWord.nonempty
    have noFeed : '\n' ∉ [first] := by
      intro feed
      refine isWord.free first List.mem_cons_self ?_
      rw [← List.mem_singleton.mp feed]
      decide
    have whole : text = before ++ [c] ++ (first :: rest ++ after) := by simp [split]
    exact cut.not_commented member [] rest covers whole (commented.append noFeed)
  obtain ⟨previous, previousMember, previousKind, ⟨low, high⟩, reaches⟩ :=
    cut.exists_atom split plain letter
  have start : token.span.start = byteLength before + c.utf8Size := by
    rw [covers.start, byteLength_append]
    rfl
  have positive := c.utf8Size_pos
  have nonempty := covers.start_lt_stop
  have different : previous ≠ token := by
    intro same
    rw [same] at low
    omega
  rcases cut.disjoint previousMember member different with earlier | later
  · exact cut.apart previous previousMember token member previousKind kind (by omega)
  · omega

/-- An atom cannot be continued by letters. -/
theorem eq_nil_of_after {more : List Char} (cut : Tokenization text tokens)
    (member : token ∈ tokens) (kind : token.kind = .atom) (covers : token.Covers before word)
    (split : text = before ++ (word ++ (more ++ after))) (letters : ∀ d ∈ more, d ∉ delimiters) :
    more = [] := by
  cases more with
  | nil => rfl
  | cons d more =>
    have delimiter := cut.delimiter_after member kind covers split
    exact absurd delimiter (letters d List.mem_cons_self)

/-- An atom cannot be begun by further letters. -/
theorem eq_nil_of_before {more : List Char} (cut : Tokenization text tokens)
    (member : token ∈ tokens) (kind : token.kind = .atom)
    (covers : token.Covers (before ++ more) word)
    (split : text = before ++ more ++ (word ++ after)) (letters : ∀ d ∈ more, d ∉ delimiters) :
    more = [] := by
  rcases List.eq_nil_or_concat' more with rfl | ⟨front, d, rfl⟩
  · rfl
  · rw [← List.append_assoc] at covers split
    have place : text = (before ++ front) ++ d :: (word ++ after) := by simp [split]
    have delimiter := cut.delimiter_before member kind covers place
    exact absurd delimiter (letters d (by simp))

end Atoms

/-- Atoms of two tokenizations that share the first character of one are equal. -/
theorem eq_of_atoms {others : List Token} {token other : Token}
    {before word after left right otherAfter : List Char}
    (cut : Tokenization text tokens) (another : Tokenization text others)
    (member : token ∈ tokens) (otherMember : other ∈ others)
    (kind : token.kind = .atom) (otherKind : other.kind = .atom)
    (covers : token.Covers (before ++ left) word) (otherCovers : other.Covers before (left ++ right))
    (split : text = before ++ left ++ (word ++ after))
    (otherSplit : text = before ++ ((left ++ right) ++ otherAfter)) : token = other := by
  have classified := cut.classified token member
  have otherClassified := another.classified other otherMember
  have isWord := classified.isWord kind covers
  have otherIsWord := otherClassified.isWord otherKind otherCovers
  have noLeft : left = [] := cut.eq_nil_of_before member kind covers split fun d inside =>
    otherIsWord.free d (List.mem_append_left _ inside)
  subst noLeft
  rw [List.append_nil] at covers split
  rw [List.nil_append] at otherCovers otherSplit otherIsWord
  have rests : word ++ after = right ++ otherAfter :=
    List.append_cancel_left (split.symm.trans otherSplit)
  have words : word = right := by
    rcases List.append_eq_append_iff.mp rests with ⟨more, rfl, rfl⟩ | ⟨more, rfl, rfl⟩
    · have none := cut.eq_nil_of_after member kind covers split fun d inside =>
        otherIsWord.free d (List.mem_append_right _ inside)
      rw [none, List.append_nil]
    · have none := another.eq_nil_of_after otherMember otherKind otherCovers otherSplit
        fun d inside => isWord.free d (List.mem_append_right _ inside)
      rw [none, List.append_nil]
  subst words
  exact covers.eq classified otherCovers otherClassified

/-- What is a token in one tokenization of a text is a token in every other. -/
theorem mem_of_mem {others : List Token} (cut : Tokenization text tokens)
    (another : Tokenization text others) {token : Token} (member : token ∈ tokens) :
    token ∈ others := by
  obtain ⟨before, word, after, split, covers⟩ := cut.placed token member
  have classified := cut.classified token member
  obtain ⟨c, rest, rfl⟩ := List.exists_cons_of_ne_nil covers.nonempty
  -- the other tokenization has a token for the first character as well
  have place : text = before ++ c :: (rest ++ after) := split
  have outside : ¬ InComment (before ++ [c]) := cut.not_commented member [] rest covers split
  have visible := classified.not_blank covers List.mem_cons_self
  obtain ⟨other, otherMember, holds⟩ := another.exists_token place outside visible
  obtain ⟨otherBefore, otherWord, otherAfter, otherSplit, otherCovers⟩ :=
    another.placed other otherMember
  have otherClassified := another.classified other otherMember
  obtain ⟨left, right, rfl, rfl⟩ := otherCovers.of_holds otherSplit place holds
  suffices same : token = other by rwa [same]
  rcases classified.shape covers with ⟨d, isParen, single⟩ | ⟨kind, isWord⟩
  · obtain ⟨rfl, rfl⟩ := List.cons.inj single
    rcases otherClassified.shape otherCovers with ⟨e, -, otherSingle⟩ | ⟨-, isWord⟩
    · rcases List.append_eq_singleton_iff.mp otherSingle with ⟨rfl, ends⟩ | ⟨-, impossible⟩
      · obtain ⟨rfl, rfl⟩ := List.cons.inj ends
        rw [List.append_nil] at covers
        exact covers.eq classified otherCovers otherClassified
      · cases impossible
    · exact absurd isParen.delimiter.1 (isWord.free c (by simp))
  · have letter := isWord.free c List.mem_cons_self
    have otherKind := (otherClassified.atom_of_letter otherCovers (by simp) letter).1
    exact cut.eq_of_atoms another member otherMember kind otherKind covers otherCovers split
      otherSplit

/-- A text has at most one tokenization. -/
theorem unique {others : List Token} (cut : Tokenization text tokens)
    (another : Tokenization text others) : tokens = others := by
  let earlier (s t : Token) : Prop := s.span.start < t.span.start
  have irreflexive : Std.Irrefl earlier := ⟨fun _ => Nat.lt_irrefl _⟩
  have antisymmetric : Std.Antisymm earlier :=
    ⟨fun _ _ less greater => absurd (Nat.lt_trans less greater) (Nat.lt_irrefl _)⟩
  have increasing : ∀ {ts : List Token}, Tokenization text ts → ts.Pairwise earlier := by
    intro ts tokenized
    refine tokenized.ordered.imp_of_mem ?_
    intro s t member _ le
    exact Nat.lt_of_lt_of_le (tokenized.start_lt_stop member) le
  exact (increasing cut).eq_of_mem_iff (increasing another) fun _ =>
    ⟨cut.mem_of_mem another, another.mem_of_mem cut⟩

end Tokenization

/-! ## The pieces of a text make a tokenization -/

/-- What the scanner knows of a token: its characters are a paren or a whole word, and
they are in no comment. -/
structure Exact (text before word after : List Char) (token : Token) : Prop where
  split : text = before ++ (word ++ after)
  covers : token.Covers before word
  outside : ¬ InComment (before ++ word)
  shape : (∃ c, IsParen token.kind c ∧ word = [c]) ∨
    token.kind = .atom ∧ IsWord word ∧ ∀ c ∈ after.head?, c ∈ delimiters

theorem covers_paren (read : List Char) (kind : Kind) (c : Char) :
    (paren kind (placeAfter read) c).Covers read [c] := by
  refine ⟨by simp, rfl, placeAfter_line read, placeAfter_offset read, ?_⟩
  simp [paren, byteLength]

theorem covers_atomAt (read : List Char) {word : List Char} (nonempty : word ≠ []) :
    (atomAt (placeAfter read) word).Covers read word := by
  refine ⟨nonempty, rfl, placeAfter_line read, placeAfter_offset read, ?_⟩
  simp [atomAt, ← placeAfter_append, byteLength_append]

theorem IsParen.not_inComment {kind : Kind} {c : Char} (isParen : IsParen kind c)
    {read : List Char} (outside : ¬ InComment read) : ¬ InComment (read ++ [c]) := by
  intro commented
  refine outside (commented.of_append ?_)
  cases isParen <;> decide

namespace Layout

variable {read rest : List Char} {tokens : List Token}

/-- The tokens of the pieces are exact, if the pieces begin outside of comments. -/
theorem exact (layout : Layout read rest tokens) (outside : ¬ InComment read) :
    ∀ token ∈ tokens, ∃ before word after, Exact (read ++ rest) before word after token := by
  induction layout with
  | done | lastComment => simp
  | @blank read rest c tokens isBlank _ ih =>
    have next : ¬ InComment (read ++ [c]) := by
      intro commented
      refine outside (commented.of_append fun semicolon => ?_)
      rw [← List.mem_singleton.mp semicolon] at isBlank
      exact absurd isBlank (by decide)
    simpa using ih next
  | @comment read body rest tokens _ _ ih =>
    have next : ¬ InComment (read ++ (';' :: body ++ ['\n'])) := by
      rw [← List.append_assoc]
      exact not_inComment_feed _
    simpa using ih next
  | @paren read rest kind c tokens isParen _ ih =>
    have next := isParen.not_inComment outside
    refine List.forall_mem_cons.mpr ⟨⟨read, [c], rest, rfl, covers_paren read kind c, next, ?_⟩, ?_⟩
    · exact .inl ⟨c, isParen, rfl⟩
    · simpa using ih next
  | @word read word rest tokens isWord ends _ ih =>
    have next : ¬ InComment (read ++ word) := by
      intro commented
      refine outside (commented.of_append fun semicolon => ?_)
      exact isWord.free _ semicolon (by decide)
    have covers := covers_atomAt read isWord.nonempty
    refine List.forall_mem_cons.mpr ⟨⟨read, word, rest, rfl, covers, next, ?_⟩, ?_⟩
    · exact .inr ⟨rfl, isWord, ends⟩
    · simpa using ih next

/-- The tokens of the pieces come after what has been read. -/
theorem le_start (layout : Layout read rest tokens) :
    ∀ token ∈ tokens, byteLength read ≤ token.span.start := by
  have weaken : ∀ {read more : List Char} {tokens : List Token},
      (∀ token ∈ tokens, byteLength (read ++ more) ≤ token.span.start) →
      ∀ token ∈ tokens, byteLength read ≤ token.span.start := by
    intro read more tokens later token member
    have start := later token member
    rw [byteLength_append] at start
    omega
  induction layout with
  | done | lastComment => simp
  | blank _ _ ih => exact weaken ih
  | comment _ _ ih => exact weaken ih
  | @paren read rest kind c tokens _ _ ih =>
    exact List.forall_mem_cons.mpr ⟨(covers_paren read kind c).start.ge, weaken ih⟩
  | @word read word rest tokens isWord _ _ ih =>
    exact List.forall_mem_cons.mpr
      ⟨(covers_atomAt read isWord.nonempty).start.ge, weaken ih⟩

/-- The tokens of the pieces are in order. -/
theorem ordered (layout : Layout read rest tokens) :
    tokens.Pairwise fun s t => s.span.stop ≤ t.span.start := by
  induction layout with
  | done | lastComment => exact .nil
  | blank _ _ ih => exact ih
  | comment _ _ ih => exact ih
  | @paren read rest kind c tokens _ later ih =>
    refine .cons (fun token member => ?_) ih
    rw [(covers_paren read kind c).stop, ← byteLength_append]
    exact later.le_start token member
  | @word read word rest tokens isWord _ later ih =>
    refine .cons (fun token member => ?_) ih
    rw [(covers_atomAt read isWord.nonempty).stop, ← byteLength_append]
    exact later.le_start token member

end Layout

/-- The character `c` after `before` is in a token, in a comment or blank. -/
def Accounted (tokens : List Token) (before : List Char) (c : Char) : Prop :=
  (∃ token ∈ tokens, token.span.Holds (byteLength before)) ∨
    InComment (before ++ [c]) ∨ c ∈ blanks

theorem Accounted.cons {tokens : List Token} {before : List Char} {c : Char}
    (accounted : Accounted tokens before c) (token : Token) :
    Accounted (token :: tokens) before c := by
  rcases accounted with ⟨found, member, holds⟩ | other
  · exact .inl ⟨found, List.mem_cons_of_mem _ member, holds⟩
  · exact .inr other

/-- The characters of a comment are in it. -/
theorem accounted_comment {body front back : List Char} {c : Char} (noFeed : '\n' ∉ body)
    (split : ';' :: body = front ++ c :: back) (tokens : List Token) (read : List Char) :
    Accounted tokens (read ++ front) c := by
  refine .inr (.inl ?_)
  rcases List.cons_eq_append_iff.mp split with ⟨rfl, same⟩ | ⟨inside, rfl, rfl⟩
  · obtain ⟨rfl, rfl⟩ := List.cons.inj same
    exact ⟨read, [], by simp, by simp⟩
  · refine ⟨read, inside ++ [c], by simp, fun feed => noFeed ?_⟩
    rcases List.mem_append.mp feed with early | last
    · exact List.mem_append_left _ early
    · rw [List.mem_singleton.mp last]
      simp

/-- The pieces leave no character out. -/
theorem Layout.accounted {read rest : List Char} {tokens : List Token}
    (layout : Layout read rest tokens) :
    ∀ front c back, rest = front ++ c :: back → Accounted tokens (read ++ front) c := by
  induction layout with
  | done => simp
  | @blank read rest d tokens isBlank _ ih =>
    intro front c back split
    rcases List.cons_eq_append_iff.mp split with ⟨-, same⟩ | ⟨shorter, rfl, remaining⟩
    · obtain ⟨rfl, -⟩ := List.cons.inj same
      exact .inr (.inr isBlank)
    · simpa using ih shorter c back remaining
  | @comment read body rest tokens noFeed _ ih =>
    intro front c back split
    rcases append_eq_append_cons split with ⟨_, inside, -⟩ | ⟨middle, rfl, tail⟩
    · exact accounted_comment noFeed inside tokens read
    · rcases List.cons_eq_append_iff.mp tail with ⟨-, same⟩ | ⟨shorter, rfl, remaining⟩
      · obtain ⟨rfl, -⟩ := List.cons.inj same
        exact .inr (.inr (by decide))
      · simpa using ih shorter c back remaining
  | @lastComment read body noFeed =>
    intro front c back split
    exact accounted_comment noFeed split [] read
  | @paren read rest kind d tokens isParen _ ih =>
    intro front c back split
    rcases List.cons_eq_append_iff.mp split with ⟨rfl, same⟩ | ⟨shorter, rfl, remaining⟩
    · obtain ⟨rfl, -⟩ := List.cons.inj same
      have covers : (Token.paren kind (placeAfter read) c).Covers read ([] ++ [c]) :=
        covers_paren read kind c
      exact .inl ⟨_, List.mem_cons_self, covers.holds⟩
    · have later := ih shorter c back remaining
      rw [List.append_assoc] at later
      exact later.cons _
  | @word read word rest tokens isWord _ _ ih =>
    intro front c back split
    rcases append_eq_append_cons split with ⟨middle, rfl, -⟩ | ⟨shorter, rfl, remaining⟩
    · have covers := covers_atomAt read isWord.nonempty
      exact .inl ⟨_, List.mem_cons_self, covers.holds⟩
    · have later := ih shorter c back remaining
      rw [List.append_assoc] at later
      exact later.cons _

namespace Exact

variable {text before word after : List Char} {token : Token}

theorem classified (exact : Exact text before word after token) : token.Classified := by
  have text := exact.covers.text
  rcases exact.shape with ⟨c, isParen, rfl⟩ | ⟨kind, isWord, -⟩
  · obtain ⟨opening, closing, notAtom⟩ := isParen.kind_iff
    have single : ∀ d, token.text = String.ofList [d] ↔ c = d := by
      intro d
      rw [text, String.ofList_inj, List.cons.injEq]
      simp
    exact ⟨opening.trans (single '(').symm, closing.trans (single ')').symm,
      fun atom => absurd atom notAtom⟩
  · have letters : ∀ c ∈ token.text.toList, c ∉ delimiters := by
      rw [text, String.toList_ofList]
      exact isWord.free
    have notParen : ∀ c ∈ delimiters, token.text ≠ String.ofList [c] := by
      intro c delimiter same
      rw [same, String.toList_ofList] at letters
      exact letters c List.mem_cons_self delimiter
    have notOpening : token.text ≠ "(" := notParen '(' (by decide)
    have notClosing : token.text ≠ ")" := notParen ')' (by decide)
    exact ⟨by simp [kind, notOpening], by simp [kind, notClosing], fun _ => letters⟩

theorem not_commented (exact : Exact text before word after token) :
    ¬ token.Commented text := by
  intro commented
  have covers := exact.covers
  have split := exact.split
  have outside := exact.outside
  rcases List.eq_nil_or_concat' word with rfl | ⟨front, last, rfl⟩
  · exact covers.nonempty rfl
  · have place : text = (before ++ front) ++ last :: after := by simp [split]
    have inside := commented _ _ _ place covers.holds
    rw [List.append_assoc] at inside
    exact outside inside

/-- What follows an atom is no letter, so it is no other atom. -/
theorem stop_ne_start {otherBefore otherWord otherAfter : List Char} {other : Token}
    (exact : Exact text before word after token)
    (otherExact : Exact text otherBefore otherWord otherAfter other)
    (kind : token.kind = .atom) (otherKind : other.kind = .atom) :
    token.span.stop ≠ other.span.start := by
  intro touch
  rw [exact.covers.stop, otherExact.covers.start, ← byteLength_append] at touch
  have place : before ++ word ++ after = text := by simp [exact.split]
  have otherPlace : otherBefore ++ (otherWord ++ otherAfter) = text := otherExact.split.symm
  -- equally long beginnings of a text are equal
  have same : before ++ word = otherBefore := by
    have first := isPrefix_of_byteLength_le ⟨_, place⟩ ⟨_, otherPlace⟩ touch.le
    have second := isPrefix_of_byteLength_le ⟨_, otherPlace⟩ ⟨_, place⟩ touch.ge
    exact first.eq_of_length_le second.length_le
  rw [← same, ← place] at otherPlace
  have next : otherWord ++ otherAfter = after := List.append_cancel_left otherPlace
  rcases otherExact.shape with ⟨c, isParen, -⟩ | ⟨-, isWord, -⟩
  · exact isParen.kind_iff.2.2 otherKind
  · obtain ⟨c, rest, rfl⟩ := List.exists_cons_of_ne_nil isWord.nonempty
    rcases exact.shape with ⟨d, isParen, -⟩ | ⟨-, -, ends⟩
    · exact isParen.kind_iff.2.2 kind
    · have delimiter : c ∈ delimiters := ends c (by rw [← next]; rfl)
      exact isWord.free c List.mem_cons_self delimiter

end Exact

/-- The tokens of the pieces of a text are a tokenization of it. -/
theorem Layout.tokenization {text : List Char} {tokens : List Token}
    (layout : Layout [] text tokens) : Tokenization text tokens := by
  have exact := layout.exact not_inComment_nil
  rw [List.nil_append] at exact
  refine ⟨?_, layout.ordered, ?_, ?_, ?_, ?_⟩
  · intro token member
    obtain ⟨before, word, after, exact⟩ := exact token member
    exact ⟨before, word, after, exact.split, exact.covers⟩
  · intro token member
    obtain ⟨_, _, _, exact⟩ := exact token member
    exact exact.classified
  · intro s first t second kind otherKind
    obtain ⟨_, _, _, left⟩ := exact s first
    obtain ⟨_, _, _, right⟩ := exact t second
    exact left.stop_ne_start right kind otherKind
  · intro token member
    obtain ⟨_, _, _, exact⟩ := exact token member
    exact exact.not_commented
  · intro before c after place outside uncovered
    rcases layout.accounted before c after place with ⟨token, member, holds⟩ | commented | isBlank
    · exact absurd holds (uncovered token member)
    · exact absurd commented outside
    · exact isBlank

/-- The scanner is exact: the tokens that it gives are the one tokenization of a text. -/
theorem tokenization_iff_eq_scan (text : String) (tokens : List Token) :
    Tokenization text.toList tokens ↔ tokens = scan text := by
  have scanned : Tokenization text.toList (scan text) := (layout_scan text).tokenization
  constructor
  · intro cut
    exact cut.unique scanned
  · intro same
    rw [same]
    exact scanned

end Token

end FormScript
