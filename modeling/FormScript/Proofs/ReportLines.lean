import Mathlib.Data.List.DropRight
import FormScript.Report
import FormScript.Proofs.Acceptance
import FormScript.Proofs.Tokenization

/-!
# The line in a message and the line in a report

A rejected program is described twice. Its message names the line of the token at fault,
as the scanner counts it, by line feeds alone. Its report is placed by a walk over the
text that ends lines at further terminators too. The walk therefore never falls behind
the scanner, and it gets ahead at the first terminator that is neither a line feed nor a
carriage return before one (`lineEnds_eq_count_iff`).

As long as the two lines agree, both begin after the last line feed, so the column of the
report counts the characters from there to the token. `ParseError.report_line_agrees` puts
this together for a text that a session rejects.
-/

namespace FormScript

/-! ## Line terminators -/

/-- The characters that can end a line of a report. -/
def terminators : List Char :=
  ['\n', '\r', '\x0b', '\x0c', '\u0085', '\u2028', '\u2029']

/-- All lines end with a line feed or with a carriage return and a line feed. -/
def OnlyFeeds (text : List Char) : Prop :=
  ∀ front c back, text = front ++ c :: back → c ∈ terminators →
    c = '\n' ∨ c = '\r' ∧ back.head? = some '\n'

theorem endsLine_iff {c : Char} {rest : List Char} :
    endsLine c rest = true ↔ c ∈ terminators ∧ ¬ (c = '\r' ∧ rest.head? = some '\n') := by
  unfold endsLine terminators
  split <;> simp_all

theorem endsLine_feed (rest : List Char) : endsLine '\n' rest = true := rfl

theorem OnlyFeeds.of_append {front back : List Char} (only : OnlyFeeds (front ++ back)) :
    OnlyFeeds back := by
  intro inner c rest split
  exact only (front ++ inner) c rest (by rw [split, List.append_assoc])

theorem onlyFeeds_cons {c : Char} {rest : List Char} :
    OnlyFeeds (c :: rest) ↔ (endsLine c rest = true → c = '\n') ∧ OnlyFeeds rest := by
  rw [endsLine_iff]
  constructor
  · intro only
    have joined : OnlyFeeds ([c] ++ rest) := only
    refine ⟨fun ⟨member, unpaired⟩ => ?_, joined.of_append⟩
    rcases only [] c rest rfl member with feed | paired
    · exact feed
    · exact absurd paired unpaired
  · rintro ⟨first, others⟩ front d back split member
    rcases List.cons_eq_append_iff.mp split with ⟨rfl, same⟩ | ⟨inner, rfl, remaining⟩
    · obtain ⟨rfl, rfl⟩ := List.cons.inj same
      by_cases paired : d = '\r' ∧ back.head? = some '\n'
      · exact .inr paired
      · exact .inl (first ⟨member, paired⟩)
    · exact others inner d back remaining member

/-- How many lines end within a text that no line feed follows. -/
def lineEnds : List Char → Nat
  | [] => 0
  | c :: rest => (if endsLine c rest then 1 else 0) + lineEnds rest

theorem count_le_lineEnds (text : List Char) : text.count '\n' ≤ lineEnds text := by
  induction text with
  | nil => rfl
  | cons c rest ih =>
    rw [lineEnds]
    by_cases feed : c = '\n'
    · subst feed
      rw [List.count_cons_self, if_pos (endsLine_feed rest)]
      omega
    · rw [List.count_cons_of_ne feed]
      omega

/-- As many lines end as there are line feeds, if there is no other terminator. -/
theorem lineEnds_eq_count_iff (text : List Char) :
    lineEnds text = text.count '\n' ↔ OnlyFeeds text := by
  induction text with
  | nil => exact ⟨fun _ front c back split => by simp at split, fun _ => rfl⟩
  | cons c rest ih =>
    have least := count_le_lineEnds rest
    rw [lineEnds, onlyFeeds_cons, ← ih]
    by_cases feed : c = '\n'
    · subst feed
      rw [List.count_cons_self, if_pos (endsLine_feed rest)]
      exact ⟨fun same => ⟨fun _ => rfl, by omega⟩, fun ⟨_, same⟩ => by omega⟩
    · rw [List.count_cons_of_ne feed]
      cases endsLine c rest with
      | false => simp
      | true =>
        -- what ends here is ahead of the line feeds from now on
        constructor
        · intro same
          rw [if_pos rfl] at same
          omega
        · intro ⟨isFeed, _⟩
          exact absurd (isFeed rfl) feed

/-! ## Walking over a text -/

/-- A text that goes on, and not with a line feed. -/
structure GoesOn (rest : List Char) : Prop where
  nonempty : rest ≠ []
  noFeed : rest.head? ≠ some '\n'

/-- What follows a text does not matter to its lines, unless it is a line feed. -/
theorem GoesOn.endsLine_append {rest : List Char} (goesOn : GoesOn rest) (c : Char)
    (passed : List Char) : endsLine c (passed ++ rest) = endsLine c passed := by
  rw [Bool.eq_iff_iff, endsLine_iff, endsLine_iff]
  cases passed with
  | nil => simp [goesOn.noFeed]
  | cons d passed => simp

/-- What is left of a line before the rest does not begin with a line feed either. -/
theorem GoesOn.after_line {line rest : List Char} (goesOn : GoesOn rest) (noFeed : '\n' ∉ line) :
    GoesOn (line ++ rest) := by
  cases line with
  | nil => exact goesOn
  | cons c line =>
    have other : c ≠ '\n' := fun feed => noFeed (by simp [feed])
    exact ⟨by simp, by simpa using other⟩

namespace Place

section GoesOn

variable {rest : List Char} (goesOn : GoesOn rest)

include goesOn

/-- One line further after a terminator, and one column further after anything else. -/
theorem after_eq (here : Place) (c : Char) (passed : List Char) :
    here.after c (passed ++ rest) =
      if endsLine c passed then { line := here.line + 1, column := 1 }
      else { here with column := here.column + 1 } := by
  have more : (passed ++ rest).isEmpty = false := by simp [goesOn.nonempty]
  rw [after, goesOn.endsLine_append, more]
  simp

/-- A walk passes as many lines as end on its way. -/
theorem walk_line (here : Place) (passed : List Char) :
    (here.walk (byteLength passed) (passed ++ rest)).line = here.line + lineEnds passed := by
  induction passed generalizing here with
  | nil => exact congrArg line (walk_zero here rest)
  | cons c passed ih =>
    rw [List.cons_append, walk_cons, ih, after_eq goesOn, lineEnds]
    split <;> dsimp only <;> omega

/-- Within a line, a walk passes as many columns as characters. -/
theorem walk_column (here : Place) {passed : List Char} (within : lineEnds passed = 0) :
    (here.walk (byteLength passed) (passed ++ rest)).column = here.column + passed.length := by
  induction passed generalizing here with
  | nil => exact congrArg column (walk_zero here rest)
  | cons c passed ih =>
    rw [lineEnds] at within
    have stays : ¬ endsLine c passed = true := by
      intro ends
      rw [if_pos ends] at within
      omega
    rw [List.cons_append, walk_cons, ih _ (by omega), after_eq goesOn, if_neg stays,
      List.length_cons]
    dsimp only
    omega

/-- After a line feed a walk is at the first column. -/
theorem walk_feed (here : Place) (passed : List Char) :
    (here.walk (byteLength (passed ++ ['\n'])) (passed ++ (['\n'] ++ rest))).column = 1 := by
  have last := (here.walk (byteLength passed) (passed ++ (['\n'] ++ rest))).walk_cons '\n' [] rest
  have ends := after_eq goesOn (here.walk (byteLength passed) (passed ++ (['\n'] ++ rest))) '\n' []
  rw [walk_append]
  refine (congrArg column last).trans ?_
  rw [byteLength, walk_zero, ends]
  rfl

end GoesOn

/-- Where only line feeds end lines, the column counts from the last of them. -/
theorem find_column {before rest : List Char} (goesOn : GoesOn rest) (only : OnlyFeeds before) :
    (find (before ++ rest) (byteLength before)).column =
      1 + (before.rtakeWhile (· ≠ '\n')).length := by
  have split : before.rdropWhile (· ≠ '\n') ++ before.rtakeWhile (· ≠ '\n') = before :=
    List.rdropWhile_append_rtakeWhile
  have last := List.rdropWhile_last_not (fun c : Char => decide (c ≠ '\n')) before
  have noFeed : '\n' ∉ before.rtakeWhile (· ≠ '\n') := fun member => by
    simpa using List.mem_rtakeWhile_imp member
  generalize before.rdropWhile (· ≠ '\n') = front at split last
  generalize before.rtakeWhile (· ≠ '\n') = line at split noFeed ⊢
  subst split
  have within : lineEnds line = 0 := by
    rw [(lineEnds_eq_count_iff line).mpr only.of_append, List.count_eq_zero.mpr noFeed]
  have begins : (first.walk (byteLength front) (front ++ (line ++ rest))).column = 1 := by
    rcases List.eq_nil_or_concat' front with rfl | ⟨passed, c, rfl⟩
    · exact congrArg column (walk_zero first _)
    · obtain rfl : c = '\n' := by simpa using last
      rw [List.append_assoc]
      exact walk_feed (goesOn.after_line noFeed) first passed
  rw [List.append_assoc, find, walk_append, walk_column goesOn _ within, begins]

end Place

/-! ## Rejected texts -/

/-- A message mentions its token, and at most that it is outside of a list after it. -/
theorem ParseError.message_describe {e : ParseError} {token : Token}
    (carried : e.token? = some token) :
    ∃ front back, e.message = front ++ token.describe ++ back ∧
      (back = "" ∨ back = " outside of a list") := by
  cases e with
  | invalidToken found =>
    cases carried
    exact ⟨"invalid token: ", "", String.append_empty.symm, .inl rfl⟩
  | unclosed opener =>
    cases carried
    exact ⟨"unclosed ", "", String.append_empty.symm, .inl rfl⟩
  | unmatchedClose found =>
    cases carried
    exact ⟨"unexpected ", "", String.append_empty.symm, .inl rfl⟩
  | emptyList opener =>
    cases carried
    exact ⟨"empty list starting at ", "", String.append_empty.symm, .inl rfl⟩
  | bareAtom found =>
    cases carried
    exact ⟨"bare ", " outside of a list", rfl, .inr rfl⟩
  | emptyProgram | unreadable _ => cases carried

/-- A message names the line of its token. -/
theorem ParseError.message_line {e : ParseError} {token : Token}
    (carried : e.token? = some token) :
    ∃ front back, e.message = front ++ "' on line " ++ toString token.line ++ back ∧
      (back = "" ∨ back = " outside of a list") := by
  obtain ⟨front, back, message, ends⟩ := message_describe carried
  refine ⟨front ++ (token.kind.name ++ " '" ++ token.text), back, ?_, ends⟩
  rw [message, Token.describe]
  simp only [String.append_assoc]

/-- Before a token, the text goes on with the token. -/
theorem Token.exists_before {text : String} {token : Token} (member : token ∈ scan text) :
    ∃ before rest, text.toList = before ++ rest ∧ GoesOn rest ∧
      token.span.start = byteLength before ∧ token.line = 1 + before.count '\n' := by
  have cut := (layout_scan text).tokenization
  obtain ⟨before, word, after, split, covers⟩ := cut.placed token member
  obtain ⟨-, noFeed⟩ := (cut.classified token member).not_comment_edge covers
  obtain ⟨c, letters, rfl⟩ := List.exists_cons_of_ne_nil covers.nonempty
  have other : c ≠ '\n' := fun feed => noFeed (by simp [feed])
  exact ⟨before, c :: letters ++ after, split, ⟨by simp, by simpa using other⟩, covers.start,
    covers.line⟩

namespace ParseError

/-- The message of a rejection names the line of a token, and its report shows the place where
this token starts. The line of the report is not before the one in the message. They are the
same if and only if all lines before the token end with line feeds, with or without a carriage
return; the column then counts the characters from the last line feed, or from the start of
the text, to the token. -/
theorem report_line_agrees (s : Session) (text name : String) {e : ParseError} {token : Token}
    (rejected : (s.load (.text text)).answer = .error e) (carried : e.token? = some token) :
    let place := Place.find text.toList (e.report text).span.start
    (∃ front back, e.message = front ++ "' on line " ++ toString token.line ++ back ∧
      (back = "" ∨ back = " outside of a list")) ∧
    (e.report text).location name text =
      name ++ ":" ++ toString place.line ++ ":" ++ toString place.column ∧
    ∃ before rest, text.toList = before ++ rest ∧ byteLength before = token.span.start ∧
      token.line ≤ place.line ∧
      (token.line = place.line ↔ OnlyFeeds before) ∧
      (OnlyFeeds before → place.column = 1 + (before.rtakeWhile (· ≠ '\n')).length) := by
  intro place
  have member := Program.mem_of_reject (Session.reject_of_load rejected) carried
  obtain ⟨before, rest, split, goesOn, start, line⟩ := Token.exists_before member
  have found : place = Place.find (before ++ rest) (byteLength before) := by
    rw [← split, ← start, ← report_start carried text]
  have passed : place.line = 1 + lineEnds before := by
    rw [found]
    exact Place.walk_line goesOn .first before
  have least := count_le_lineEnds before
  refine ⟨message_line carried, rfl, before, rest, split, start.symm, by omega, ?_, fun only => ?_⟩
  · rw [← lineEnds_eq_count_iff]
    omega
  · rw [found]
    exact Place.find_column goesOn only

/-- A comment with a paren, a carriage return before the line feed and characters of two bytes
leave the message and the report at one line. -/
theorem report_line_agrees_afterComment :
    let text := "(é) ; (\r\n π)"
    let closer : Token := { kind := .closing, text := ")", line := 2, span := ⟨13, 14⟩ }
    (Session.fresh.load (.text text)).answer = .error (.unmatchedClose closer) ∧
      ((ParseError.unmatchedClose closer).report text).location "area" text = "area:2:3" := by
  intro text closer
  have rejected : (Session.fresh.load (.text text)).answer = .error (.unmatchedClose closer) := by
    decide
  refine ⟨rejected, ?_⟩
  obtain ⟨-, location, before, rest, split, start, -, agrees, column⟩ :=
    report_line_agrees .fresh text "area" rejected rfl
  have known : takeBytes 13 text.toList = before := by
    have cut := takeBytes_byteLength_append before rest
    rwa [start, ← split] at cut
  have only : OnlyFeeds before := by
    rw [← lineEnds_eq_count_iff, ← known]
    decide
  rw [location, ← agrees.mpr only, column only, ← known]
  decide

end ParseError

end FormScript
