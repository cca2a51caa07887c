import FormScript.Report
import FormScript.Proofs.Acceptance
import FormScript.Proofs.Tokenization

/-!
# What the report of a failed evaluation shows

A failed evaluation is reported at the text without the white space at its ends. This white
space is a wider notion than the scanner's blanks: some of it makes atoms, and some may
stand in a comment. No token is cut off all the same. A program that was accepted begins
and ends with a paren (`Program.accept_edges`), which is no white space, and every token
lies between the first and the last one.

`exists_trims` finds the stretch on the characters of the text, and
`trimmedSpan_covers_program` says what it covers.
-/

namespace FormScript

/-! ## Cutting white space off -/

/-- A text is white space, a part without white space at its ends, and white space again. -/
structure Trims (text front middle back : List Char) : Prop where
  split : text = front ++ (middle ++ back)
  whiteFront : ∀ c ∈ front, isWhiteSpace c = true
  whiteBack : ∀ c ∈ back, isWhiteSpace c = true
  first : ∀ c ∈ middle.head?, isWhiteSpace c = false
  last : ∀ c ∈ middle.getLast?, isWhiteSpace c = false

namespace Trims

variable {text front middle back before after : List Char} {c : Char}

/-- What is left at the end of a text with only one end trimmed stops where the middle does,
unless nothing is left. -/
theorem max_trimEnd (trims : Trims text front middle back) :
    max (byteLength front) (byteLength (trimEnd text)) = byteLength (front ++ middle) := by
  by_cases empty : middle = []
  · have white : ∀ c ∈ front ++ back, isWhiteSpace c = true :=
      List.forall_mem_append.mpr ⟨trims.whiteFront, trims.whiteBack⟩
    have nothing : trimEnd text = [] := by
      rw [trims.split, empty, List.nil_append]
      exact trimEnd_append white []
    rw [nothing, empty, List.append_nil, byteLength]
    omega
  · have ends : ∀ c ∈ (front ++ middle).getLast?, isWhiteSpace c = false := by
      rw [List.getLast?_append_of_ne_nil _ empty]
      exact trims.last
    have kept : trimEnd text = front ++ middle := by
      rw [trims.split, ← List.append_assoc, trimEnd_append trims.whiteBack, trimEnd_eq_self ends]
    rw [kept, byteLength_append]
    omega

/-- A character that is no white space is in the middle. -/
theorem within (trims : Trims text front middle back) (place : text = before ++ c :: after)
    (visible : isWhiteSpace c = false) :
    byteLength front ≤ byteLength before ∧
      byteLength before + c.utf8Size ≤ byteLength (front ++ middle) := by
  have hidden : ¬ isWhiteSpace c = true := by simp [visible]
  have split := trims.split.symm.trans place
  constructor
  · rcases append_eq_append_cons split with ⟨inside, inFront, -⟩ | ⟨more, rfl, -⟩
    · exact absurd (trims.whiteFront c (by simp [inFront])) hidden
    · rw [byteLength_append]
      omega
  · rw [← List.append_assoc] at split
    rcases append_eq_append_cons split with ⟨inside, kept, -⟩ | ⟨more, -, inBack⟩
    · rw [kept, byteLength_append, byteLength]
      omega
    · exact absurd (trims.whiteBack c (by simp [inBack])) hidden

end Trims

/-- The stretch without white space at the ends of a text is where the trimmed text stands. -/
theorem exists_trims (text : List Char) :
    ∃ front back, Trims text front (trim text) back ∧
      trimmedSpan text = { start := byteLength front, stop := byteLength (front ++ trim text) } := by
  obtain ⟨front, start, whiteFront⟩ := exists_trimStart text
  obtain ⟨back, stop, whiteBack⟩ := exists_trimEnd (trimStart text)
  have split : text = front ++ (trim text ++ back) := by
    rw [trim, ← stop]
    exact start
  have first : ∀ c ∈ (trim text).head?, isWhiteSpace c = false := by
    intro c found
    have begins : (trim text ++ back).head? = some c := by
      rw [List.head?_append, Option.mem_def.mp found]
      rfl
    rw [trim, ← stop] at begins
    exact head?_trimStart text c begins
  have trims : Trims text front (trim text) back :=
    ⟨split, whiteFront, whiteBack, first, getLast?_trimEnd (trimStart text)⟩
  have cut : byteLength text - byteLength (trimStart text) = byteLength front := by
    have size := congrArg byteLength start
    rw [byteLength_append] at size
    omega
  refine ⟨front, back, trims, ?_⟩
  rw [trimmedSpan, cut, trims.max_trimEnd]

/-! ## Tokens within the stretch -/

namespace Token

theorem IsParen.not_white {kind : Kind} {c : Char} (isParen : IsParen kind c) :
    isWhiteSpace c = false := by
  cases isParen <;> rfl

namespace Tokenization

variable {text : List Char} {tokens : List Token}

/-- Every token lies between the first and the last one. -/
theorem between {opener closer : Token} {front rest : List Token}
    (cut : Tokenization text tokens) (begins : tokens = opener :: rest)
    (ends : tokens = front ++ [closer]) :
    ∀ token ∈ tokens,
      opener.span.start ≤ token.span.start ∧ token.span.stop ≤ closer.span.stop := by
  intro token member
  constructor
  · have nonempty : opener.span.start < opener.span.stop := cut.start_lt_stop (by simp [begins])
    have ordered := cut.ordered
    rw [begins] at ordered member
    rcases List.mem_cons.mp member with rfl | later
    · exact Nat.le_refl _
    · have apart := (List.pairwise_cons.mp ordered).1 token later
      omega
  · have nonempty : closer.span.start < closer.span.stop := cut.start_lt_stop (by simp [ends])
    have ordered := cut.ordered
    rw [ends] at ordered member
    rcases List.mem_append.mp member with earlier | last
    · have apart := (List.pairwise_append.mp ordered).2.2 token earlier closer List.mem_cons_self
      omega
    · rw [List.mem_singleton.mp last]

/-- A paren is not cut off with the white space. -/
theorem paren_within {token : Token} {front middle back : List Char}
    (cut : Tokenization text tokens) (member : token ∈ tokens) (isParen : token.kind ≠ .atom)
    (trims : Trims text front middle back) :
    byteLength front ≤ token.span.start ∧ token.span.stop ≤ byteLength (front ++ middle) := by
  obtain ⟨before, word, after, split, covers⟩ := cut.placed token member
  rcases (cut.classified token member).shape covers with ⟨c, paren, rfl⟩ | ⟨atom, -⟩
  · rw [covers.start, covers.stop]
    exact trims.within split paren.not_white
  · exact absurd atom isParen

end Tokenization

end Token

/-- The parens at its ends hold a program that may be run together: trimming its text takes
no token away. -/
theorem Program.tokens_within {text : String} {p : Program} {front middle back : List Char}
    (accepted : accept (Token.scan text) = .ok p) (trims : Trims text.toList front middle back) :
    byteLength front < byteLength (front ++ middle) ∧
      ∀ token ∈ Token.scan text,
        byteLength front ≤ token.span.start ∧ token.span.stop ≤ byteLength (front ++ middle) := by
  obtain ⟨⟨opener, others, begins, openKind⟩, before, closer, ends, closeKind⟩ :=
    accept_edges accepted
  have cut := (Token.layout_scan text).tokenization
  have first : opener ∈ Token.scan text := by simp [begins]
  have last : closer ∈ Token.scan text := by simp [ends]
  obtain ⟨low, _⟩ := cut.paren_within first (by simp [openKind]) trims
  obtain ⟨_, high⟩ := cut.paren_within last (by simp [closeKind]) trims
  have inside : ∀ token ∈ Token.scan text,
      byteLength front ≤ token.span.start ∧ token.span.stop ≤ byteLength (front ++ middle) := by
    intro token member
    have between := cut.between begins ends token member
    omega
  refine ⟨?_, inside⟩
  have nonempty := cut.start_lt_stop first
  have opens := inside opener first
  omega

/-- A failed evaluation is reported at a stretch that lies in the text and consists of the text
without the white space at its ends. For a text that a session accepts, this stretch is not
empty, and it contains every token. -/
theorem trimmedSpan_covers_program (text : String) :
    let span := trimmedSpan text.toList
    (∀ e : SessionError, (e.report text).span = span) ∧
    byteLength (trimStart text.toList) ≤ byteLength text.toList ∧
    span.start ≤ span.stop ∧ span.stop ≤ byteLength text.toList ∧
    (∃ front back, Trims text.toList front (trim text.toList) back ∧
      span.start = byteLength front ∧ span.stop = byteLength (front ++ trim text.toList)) ∧
    ∀ s : Session, (s.load (.text text)).answer = .ok () →
      span.start < span.stop ∧
      ∀ token ∈ Token.scan text,
        span.start ≤ token.span.start ∧ token.span.stop ≤ span.stop := by
  intro span
  obtain ⟨front, back, trims, found⟩ := exists_trims text.toList
  have start : span.start = byteLength front := congrArg Span.start found
  have stop : span.stop = byteLength (front ++ trim text.toList) := congrArg Span.stop found
  have rest : byteLength (trimStart text.toList) ≤ byteLength text.toList := by
    obtain ⟨_, split, -⟩ := exists_trimStart text.toList
    have size := congrArg byteLength split
    rw [byteLength_append] at size
    omega
  have whole := congrArg byteLength trims.split
  rw [byteLength_append, byteLength_append] at whole
  have kept := byteLength_append front (trim text.toList)
  refine ⟨fun _ => rfl, rest, by omega, by omega, ⟨front, back, trims, start, stop⟩,
    fun s loaded => ?_⟩
  obtain ⟨p, accepted⟩ := Session.accept_of_load loaded
  rw [start, stop]
  exact Program.tokens_within accepted trims

/-- An ideographic space at the end of a comment is cut off, and the rest of the comment is
kept. -/
theorem trimmedSpan_covers_program_endComment :
    let text := "\n(é) ; ü\u3000"
    let closer : Token := { kind := .closing, text := ")", line := 2, span := ⟨4, 5⟩ }
    trimmedSpan text.toList = { start := 1, stop := 10 } ∧
      (Session.fresh.load (.text text)).answer = .ok () ∧ closer ∈ Token.scan text ∧
      1 ≤ closer.span.start ∧ closer.span.stop ≤ 10 := by
  intro text closer
  have found : trimmedSpan text.toList = { start := 1, stop := 10 } := by decide
  have loaded : (Session.fresh.load (.text text)).answer = .ok () := by decide
  have member : closer ∈ Token.scan text := by decide
  obtain ⟨-, -, -, -, -, covers⟩ := trimmedSpan_covers_program text
  obtain ⟨-, inside⟩ := covers .fresh loaded
  rw [found] at inside
  exact ⟨found, loaded, member, inside closer member⟩

end FormScript
