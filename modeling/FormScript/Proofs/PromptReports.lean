import FormScript.Prompt.Erasure
import FormScript.Proofs.Messages
import FormScript.Proofs.OpenLists

/-!
# What the prompt reports

If the line reader submits only what is complete, then every entry that the prompt reads is
complete, and none is rejected for an open list. That is a fact about the session behind
the prompt; `Prompt.run_reportsNoneOpen` makes it one about the lines that are written.
Lines are told apart by how they begin: the report of an open list begins like no other
line, whether that is another report, the message of a failed evaluation or a complaint
about the input or the history.

`Prompt.never_unclosed` puts this together with what the count of parens says about any
text.
-/

namespace FormScript

/-! ## Lines about open lists -/

/-- How the line begins that reports an open list. -/
def unclosedStart : List Char := "Error: Parse error: unclosed ".toList

namespace ParseError

theorem begins_title_iff (e : ParseError) (text : String) :
    Begins unclosedStart (e.report text).title ↔ Begins "unclosed ".toList e.message := by
  have split : unclosedStart = "Error: Parse error: ".toList ++ "unclosed ".toList := by decide
  rw [split]
  exact Begins.after_iff

/-- Only the report of an open list begins as it does. -/
theorem begins_message_iff (e : ParseError) :
    Begins "unclosed ".toList e.message ↔ ∃ opener, e = .unclosed opener := by
  constructor
  · intro begins
    cases e with
    | unclosed opener => exact ⟨opener, rfl⟩
    | invalidToken token =>
      exact absurd begins (((Begins.self "invalid token: ").append _).not_of_differ (by decide))
    | unmatchedClose token =>
      exact absurd begins (((Begins.self "unexpected ").append _).not_of_differ (by decide))
    | emptyList opener =>
      exact absurd begins
        (((Begins.self "empty list starting at ").append _).not_of_differ (by decide))
    | emptyProgram => exact absurd begins (by decide)
    | bareAtom token =>
      exact absurd begins ((((Begins.self "bare ").append _).append _).not_of_differ (by decide))
    | unreadable reason =>
      exact absurd begins
        (((Begins.self "failed to read program: ").append _).not_of_differ (by decide))
  · rintro ⟨opener, rfl⟩
    exact (Begins.self "unclosed ").append _

end ParseError

theorem EvalError.message_closed (e : EvalError) :
    ¬ Begins "Parse error: unclosed ".toList e.message := by
  refine e.begins_message.not_of_differ ?_
  cases e <;> dsimp only [firstWords] <;> decide

/-- The message of a failed evaluation does not look like the report of an open list. -/
theorem SessionError.line_closed (e : SessionError) :
    ¬ Begins unclosedStart ("Error: " ++ e.message) := by
  cases e with
  | noProgram => decide
  | evaluation reason =>
    have split : unclosedStart = "Error: ".toList ++ "Parse error: unclosed ".toList := by decide
    rw [split, Begins.after_iff]
    exact reason.message_closed

/-! ## Conversations -/

namespace Prompt

/-- No line on the error channel reports an open list. -/
def ReportsNoneOpen (outputs : List Output) : Prop :=
  ∀ line, .err line ∈ outputs → ¬ Begins unclosedStart line

theorem ReportsNoneOpen.append {front back : List Output} (first : ReportsNoneOpen front)
    (second : ReportsNoneOpen back) : ReportsNoneOpen (front ++ back) := by
  intro line member
  rcases List.mem_append.mp member with before | after
  · exact first line before
  · exact second line after

theorem submit_reportsNoneOpen {s next : Session} {text : String} {outputs : List Output}
    (closed : ∀ opener, (s.load (.text text)).answer ≠ .error (.unclosed opener))
    (stayed : submit s text = .stay next outputs) : ReportsNoneOpen outputs := by
  unfold submit at stayed
  dsimp only at stayed
  split at stayed
  · next e rejected =>
    cases stayed
    have title : ¬ Begins unclosedStart (e.report text).title := by
      rw [e.begins_title_iff, e.begins_message_iff]
      rintro ⟨opener, rfl⟩
      exact closed opener rejected
    have place : ¬ Begins unclosedStart
        ("  at " ++ (e.report text).location "REPL" text ++ ": " ++ (e.report text).label) :=
      ((((Begins.self "  at ").append _).append _).append _).not_of_differ (by decide)
    simp only [ReportsNoneOpen, Report.lines, List.map_cons, List.map_nil, List.mem_cons,
      Output.err.injEq, List.not_mem_nil, or_false]
    rintro line (rfl | rfl | rfl)
    · decide
    · exact title
    · exact place
  · split at stayed
    · cases stayed
      simp [ReportsNoneOpen]
    · next e _ =>
      cases stayed
      simp only [ReportsNoneOpen, List.mem_singleton, Output.err.injEq]
      rintro line rfl
      exact e.line_closed

theorem respond_reportsNoneOpen {s next : Session} {entry : List Char} {outputs : List Output}
    (complete : Entry.isIncomplete entry = false)
    (stayed : respond s entry = .stay next outputs) : ReportsNoneOpen outputs := by
  unfold respond at stayed
  dsimp only at stayed
  split at stayed
  · cases stayed
    simp [ReportsNoneOpen]
  · split at stayed
    · cases stayed
    · exact submit_reportsNoneOpen (s.load_ne_unclosed complete) stayed

/-- A conversation about complete entries reports no open list. -/
theorem converse_reportsNoneOpen {s : Session} {entries : List (List Char)}
    (complete : ∀ entry ∈ entries, Entry.isIncomplete entry = false) :
    ReportsNoneOpen (converse s entries).outputs := by
  induction entries generalizing s with
  | nil => simp [converse, ReportsNoneOpen]
  | cons entry entries ih =>
    obtain ⟨first, others⟩ := List.forall_mem_cons.mp complete
    rw [converse]
    split
    · simp [ReportsNoneOpen]
    · next stayed => exact (respond_reportsNoneOpen first stayed).append (ih others)

/-- A complaint about the input or the history is no report. -/
theorem reportsNoneOpen_complaint {front : String}
    (differ : ¬ front.toList <+: unclosedStart ∧ ¬ unclosedStart <+: front.toList)
    (details rest : String) : ReportsNoneOpen [.err (front ++ details ++ rest)] := by
  intro line member
  obtain rfl := Output.err.inj (List.mem_singleton.mp member)
  exact (((Begins.self front).append details).append rest).not_of_differ differ

theorem farewell_reportsNoneOpen (reason : Option Entry.Close) :
    ReportsNoneOpen (farewell reason) := by
  cases reason with
  | none => simp [farewell, ReportsNoneOpen]
  | some close =>
    cases close with
    | endOfInput | broken => simp [farewell, closing, ReportsNoneOpen]
    | malformedLine => exact reportsNoneOpen_complaint (by decide) _ _

theorem greeting_reportsNoneOpen (historyFound : Bool) :
    ReportsNoneOpen (greeting historyFound) := by
  cases historyFound <;> simp [greeting, ReportsNoneOpen]

theorem conclude_reportsNoneOpen (writable : Except PathFault Unit)
    (entries : List (List Char)) (reason : Option Entry.Close) :
    ReportsNoneOpen (conclude writable entries reason).outputs := by
  unfold conclude
  split
  · simp [ReportsNoneOpen]
  · split
    · exact reportsNoneOpen_complaint (by decide) _ _
    · simp [ReportsNoneOpen]

/-- Whatever is typed at the prompt, no open list is reported. -/
theorem run_reportsNoneOpen {reader : LineReader} (submits : reader.SubmitsComplete)
    (historyFound : Bool) (writable : Except PathFault Unit) (input : Input) :
    ReportsNoneOpen (run reader historyFound writable input).outputs := by
  have answered : ReportsNoneOpen (converse .fresh (Entry.read reader input).entries).outputs :=
    converse_reportsNoneOpen fun _ member => Entry.complete_of_mem_ofLines submits member
  exact (((greeting_reportsNoneOpen historyFound).append answered).append
    (farewell_reportsNoneOpen _)).append (conclude_reportsNoneOpen _ _ _)

/-- A text whose fault is an open list is taken for incomplete, and an incomplete text has
an open list, an invalid token or an empty list for its fault. A complete text is not
rejected for an open list once it is trimmed. So no entry is that a reader submits because
it is complete, and with such a reader the prompt never writes the report of an open
list. -/
theorem never_unclosed (text : String) :
    (∀ opener, Program.ofText text = .error (.unclosed opener) →
      Entry.isIncomplete text.toList = true) ∧
    (Entry.isIncomplete text.toList = true → ∃ token e, Program.ofText text = .error e ∧
      (e = .unclosed token ∨ e = .invalidToken token ∨ e = .emptyList token)) ∧
    (Entry.isIncomplete text.toList = false → ∀ (s : Session) (opener : Token),
      (s.load (.text (String.ofList (trim text.toList)))).answer ≠ .error (.unclosed opener)) ∧
    (∀ reader : LineReader, reader.SubmitsComplete → ∀ stdin : ByteArray,
      (∀ entry ∈ (Entry.read reader (.ofBytes stdin)).entries,
        Entry.isIncomplete entry = false ∧ ∀ (s : Session) (opener : Token),
          (s.load (.text (String.ofList (trim entry)))).answer ≠ .error (.unclosed opener)) ∧
      ∀ historyFound writable opener shown,
        .err ((ParseError.unclosed opener).report shown).title ∉
          (run reader historyFound writable (.ofBytes stdin)).outputs) := by
  refine ⟨fun opener unclosed => Entry.staysOpen_of_unclosed unclosed,
    fun goesOn => Entry.fault_of_staysOpen goesOn,
    fun complete s => s.load_ne_unclosed complete,
    fun reader submits stdin => ⟨fun entry member => ?_, ?_⟩⟩
  · have complete := Entry.complete_of_mem_ofLines submits member
    exact ⟨complete, fun s => s.load_ne_unclosed complete⟩
  · intro historyFound writable opener shown written
    refine run_reportsNoneOpen submits _ _ _ _ written ?_
    rw [ParseError.begins_title_iff, ParseError.begins_message_iff]
    exact ⟨opener, rfl⟩

/-- The reader of the command, which carries out backspaces, is such a reader. -/
theorem never_unclosed_erasing :
    Erasure.reader.SubmitsComplete ∧ ∀ stdin : ByteArray,
      (∀ entry ∈ (Entry.read Erasure.reader (.ofBytes stdin)).entries,
        Entry.isIncomplete entry = false ∧ ∀ (s : Session) (opener : Token),
          (s.load (.text (String.ofList (trim entry)))).answer ≠ .error (.unclosed opener)) ∧
      ∀ historyFound writable opener shown,
        .err ((ParseError.unclosed opener).report shown).title ∉
          (run Erasure.reader historyFound writable (.ofBytes stdin)).outputs := by
  obtain ⟨-, -, -, general⟩ := never_unclosed ""
  exact ⟨Erasure.reader_submitsComplete, general _ Erasure.reader_submitsComplete⟩

end Prompt

end FormScript
