import FormScript.Prompt

/-!
# Answering line by line

`Prompt.run` first reads all entries of an input and then answers them. A program cannot
wait for the end of its input: it hears one line after the other (`Prompt.Talk.hear`) and
answers an entry as soon as it is complete. `Prompt.run_eq_hearAll` says that this makes no
difference, so that what holds of `Prompt.run` holds of the lines that are written on the
way.

The induction is on the lines that are still to come. What a conversation under way will
have recorded at its end is determined by its session, by what is pending and by the
entries so far (`Prompt.Talk.foresee`).
-/

namespace FormScript.Prompt

namespace Talk

/-- The record of a conversation under way, when the entries that are still to come are
known. -/
def foresee (talk : Talk) (reading : Entry.Reading) : Record :=
  let transcript := converse talk.session reading.entries
  { entries := talk.entries.reverse ++ transcript.entries
    outputs := transcript.outputs
    reason := transcript.reason reading.close }

/-- No entry is to come. -/
theorem foresee_nil (talk : Talk) (close : Entry.Close) :
    talk.foresee { entries := [], close := close } =
      { entries := talk.entries.reverse, outputs := [], reason := some close } := by
  simp [foresee, converse, Transcript.reason]

/-- An entry that asks to leave is the last one, whatever could be read after it. -/
theorem foresee_leave {talk : Talk} {entry : List Char}
    (leaves : respond talk.session entry = .leave) (reading : Entry.Reading) :
    talk.foresee { reading with entries := entry :: reading.entries } =
      { entries := (entry :: talk.entries).reverse, outputs := [], reason := none } := by
  simp [foresee, converse, leaves, Transcript.reason]

/-- Any other entry is answered, and the conversation goes on with the entries after it. -/
theorem foresee_stay {talk : Talk} {entry : List Char} {next : Session}
    {outputs : List Output} (stays : respond talk.session entry = .stay next outputs)
    (reading : Entry.Reading) :
    talk.foresee { reading with entries := entry :: reading.entries } =
      let later : Talk := { session := next, pending := [], entries := entry :: talk.entries }
      { later.foresee reading with outputs := outputs ++ (later.foresee reading).outputs } := by
  simp [foresee, converse, stays, Transcript.reason]

/-- One line: what is to be expected does not change by hearing it. -/
theorem foresee_ofLines (reader : LineReader) (talk : Talk) (close : Entry.Close)
    (line : List Char) (lines : List (List Char)) :
    talk.foresee (Entry.ofLines reader close talk.pending (line :: lines)) =
      match talk.hearLine reader line with
      | .stop entries reason => { entries := entries.reverse, outputs := [], reason := reason }
      | .goOn next outputs =>
        let rest := next.foresee (Entry.ofLines reader close next.pending lines)
        { rest with outputs := outputs ++ rest.outputs } := by
  rw [Entry.ofLines, hearLine]
  cases reader.addLine Entry.isIncomplete talk.pending line with
  | broken => exact talk.foresee_nil .broken
  | incomplete pending => rfl
  | complete entry =>
    cases answer : respond talk.session entry with
    | leave => simp only [foresee_leave answer, answer]
    | stay next outputs => simp only [foresee_stay answer, answer]

/-- Hearing lines records what is to be expected of their entries. -/
theorem hearAll_eq (reader : LineReader) (talk : Talk) (pieces : List (List UInt8)) :
    talk.hearAll reader pieces =
      talk.foresee (Entry.ofLines reader (Entry.closeOf (.ofPieces pieces)) talk.pending
        (Input.ofPieces pieces).lines) := by
  induction pieces generalizing talk with
  | nil => exact (talk.foresee_nil .endOfInput).symm
  | cons piece pieces ih =>
    rw [hearAll, hear, Input.ofPieces]
    cases String.fromUTF8? ⟨piece.toArray⟩ with
    | none => exact (talk.foresee_nil .malformedLine).symm
    | some line =>
      simp only [foresee_ofLines, ih]
      rfl

end Talk

/-- A conversation that is answered line by line is the one about the whole input. -/
theorem run_eq_hearAll (reader : LineReader) (historyFound : Bool)
    (writable : Except PathFault Unit) (stdin : ByteArray) :
    let heard := Talk.start.hearAll reader (pieces stdin)
    run reader historyFound writable (.ofBytes stdin) =
      (conclude writable heard.entries heard.reason).after
        (greeting historyFound ++ heard.outputs ++ farewell heard.reason) := by
  intro heard
  have expected : heard = Talk.start.foresee (Entry.read reader (.ofBytes stdin)) :=
    Talk.start.hearAll_eq reader (pieces stdin)
  rw [expected]
  rfl

end FormScript.Prompt
