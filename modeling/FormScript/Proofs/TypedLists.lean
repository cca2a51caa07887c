import FormScript.Command
import FormScript.Proofs.Acceptance
import FormScript.Proofs.ByteOrder
import FormScript.Proofs.OpenLists
import FormScript.Proofs.Recovery
import FormScript.Proofs.Tokenization

/-!
# Lists typed over several lines

A list can be typed at the prompt line by line. `OneList` is a text that is one list from
its first character to its last. At each of its line feeds the list is still open, and it
is closed at its end. So a reader that takes this text as it is typed makes one entry of
its lines, which is the text (`Prompt.run_oneList`). Nothing is trimmed from it, and the
prompt answers what the command says about the text when it is given as an argument.

Lines are cut in the bytes of an input and the text of a list is cut in its characters,
which comes to the same because no character but the line feed has the byte of the line
feed in its UTF-8 form (`Input.ofBytes_toUTF8`).
-/

namespace FormScript

/-! ## Lines of a text -/

/-- Puts items before the first piece. -/
def putBefore {α : Type} (front : List α) : List (List α) → List (List α)
  | [] => [front]
  | piece :: pieces => (front ++ piece) :: pieces

theorem map_putBefore {α β : Type} (f : α → List β) (front : List α) (pieces : List (List α)) :
    (putBefore front pieces).map (List.flatMap f) =
      putBefore (front.flatMap f) (pieces.map (List.flatMap f)) := by
  cases pieces with
  | nil => rfl
  | cons piece pieces => simp only [putBefore, List.map_cons, List.flatMap_append]

theorem splitAfter_cons {α : Type} {ends : α → Bool} {a : α} (inside : ends a = false)
    (as : List α) : splitAfter ends (a :: as) = putBefore [a] (splitAfter ends as) := by
  rw [splitAfter, inside]
  cases splitAfter ends as <;> rfl

/-- What has no end of a piece in it goes into the first piece. -/
theorem splitAfter_append {α : Type} {ends : α → Bool} {front : List α} (nonempty : front ≠ [])
    (inside : ∀ a ∈ front, ends a = false) (back : List α) :
    splitAfter ends (front ++ back) = putBefore front (splitAfter ends back) := by
  induction front with
  | nil => exact absurd rfl nonempty
  | cons a front ih =>
    obtain ⟨first, others⟩ := List.forall_mem_cons.mp inside
    rw [List.cons_append, splitAfter_cons first]
    cases front with
    | nil => rfl
    | cons b front =>
      rw [ih (List.cons_ne_nil b front) others]
      cases splitAfter ends back <;> rfl

theorem splitAfter_line {line : List Char} (noFeed : '\n' ∉ line) (rest : List Char) :
    splitAfter (· == '\n') (line ++ '\n' :: rest) =
      (line ++ ['\n']) :: splitAfter (· == '\n') rest := by
  cases line with
  | nil => rfl
  | cons c line =>
    refine splitAfter_append (List.cons_ne_nil c line) (fun a member => ?_) ('\n' :: rest)
    simpa using ne_of_mem_of_not_mem member noFeed

/-- The byte of the line feed is part of no other character. -/
theorem ne_feed_of_mem_utf8EncodeChar {c : Char} (other : c ≠ '\n') {byte : UInt8}
    (member : byte ∈ String.utf8EncodeChar c) : byte ≠ 10 := by
  have code : c.val.toNat ≠ 10 := fun same => other (Char.ext (UInt32.toNat_inj.mp same))
  have bound : c.val.toNat < 0x110000 := by
    rcases c.valid with low | ⟨_, high⟩ <;> omega
  rintro rfl
  simp only [String.utf8EncodeChar] at member
  split_ifs at member <;>
    simp only [List.mem_cons, List.not_mem_nil, or_false, ← UInt8.toNat_inj,
      UInt8.toNat_ofNat', UInt8.toNat_ofNat] at member <;>
    omega

/-- The bytes of a text are cut where its characters are. -/
theorem splitAfter_flatMap (text : List Char) :
    splitAfter (· == 10) (text.flatMap String.utf8EncodeChar) =
      (splitAfter (· == '\n') text).map (List.flatMap String.utf8EncodeChar) := by
  induction text with
  | nil => rfl
  | cons c text ih =>
    rw [List.flatMap_cons]
    by_cases feed : c = '\n'
    · subst feed
      exact congrArg _ ih
    · have bytes : ∀ byte ∈ String.utf8EncodeChar c, (byte == 10) = false := by
        intro byte member
        simpa using ne_feed_of_mem_utf8EncodeChar feed member
      rw [splitAfter_append String.utf8EncodeChar_ne_nil bytes, ih,
        splitAfter_cons (by simpa using feed), map_putBefore, List.flatMap_singleton]

theorem fromUTF8?_flatMap (text : List Char) :
    String.fromUTF8? ⟨(text.flatMap String.utf8EncodeChar).toArray⟩ =
      some (String.ofList text) := by
  have bytes : (⟨(text.flatMap String.utf8EncodeChar).toArray⟩ : ByteArray) =
      (String.ofList text).toUTF8 := by
    have encoded := utf8_eq (String.ofList text)
    rw [String.toList_ofList] at encoded
    exact ByteArray.ext (Array.ext' encoded.symm)
  rw [bytes]
  exact dif_pos (String.ofList text).isValidUTF8

namespace Input

theorem ofPieces_map (lines : List (List Char)) :
    ofPieces (lines.map (List.flatMap String.utf8EncodeChar)) =
      { lines := lines, malformed := false } := by
  induction lines with
  | nil => rfl
  | cons line lines ih =>
    simp only [List.map_cons, ofPieces, fromUTF8?_flatMap, ih, String.toList_ofList]

/-- The lines of a text in UTF-8 are those of the text. -/
theorem ofBytes_toUTF8 (text : String) :
    ofBytes text.toUTF8 =
      { lines := splitAfter (· == '\n') text.toList, malformed := false } := by
  have encoded : text.toUTF8.data.toList = text.toList.flatMap String.utf8EncodeChar :=
    utf8_eq text
  rw [ofBytes, pieces, encoded, splitAfter_flatMap, ofPieces_map]

end Input

/-! ## Lines of an entry -/

namespace Entry

theorem dropEnding_eq {line kept tail : List Char} (ends : ending line = tail)
    (split : line = kept ++ tail) : dropEnding line = kept := by
  rw [dropEnding, ends, split]
  simp

/-- A line feed takes one carriage return before it to the end of the line. -/
theorem exists_ending (line : List Char) :
    ∃ kept before, line = kept ++ before ∧ (before = [] ∨ before = ['\r']) ∧
      dropEnding (line ++ ['\n']) = kept ∧ ending (line ++ ['\n']) = before ++ ['\n'] := by
  rcases List.eq_nil_or_concat' line with rfl | ⟨body, c, rfl⟩
  · exact ⟨[], [], rfl, .inl rfl, rfl, rfl⟩
  · by_cases isReturn : c = '\r'
    · have ends : ending (body ++ [c] ++ ['\n']) = ['\r', '\n'] := by
        simp [ending, isReturn]
      exact ⟨body, ['\r'], by rw [isReturn], .inr rfl,
        dropEnding_eq ends (by simp [isReturn]), ends⟩
    · have ends : ending (body ++ [c] ++ ['\n']) = ['\n'] := by
        simp [ending, isReturn]
      exact ⟨body ++ [c], [], by simp, .inl rfl, dropEnding_eq ends rfl, ends⟩

/-- A line after which a list is open is kept with its end. -/
theorem addLine_of_open {pending line : List Char}
    (goesOn : isIncomplete (pending ++ line) = true) :
    LineReader.plain.addLine isIncomplete pending (line ++ ['\n']) =
      .incomplete (pending ++ (line ++ ['\n'])) := by
  obtain ⟨kept, before, rfl, isReturn, dropped, ends⟩ := exists_ending line
  have white : ∀ c ∈ before, isWhiteSpace c = true := by
    rcases isReturn with rfl | rfl
    · exact List.forall_mem_nil _
    · exact List.forall_mem_singleton.mpr rfl
  rw [← List.append_assoc, isIncomplete_back white] at goesOn
  simp only [LineReader.plain, dropped, ends, goesOn, if_true]
  simp

/-- A line after which no list is open is the last one of an entry. -/
theorem addLine_of_closed {pending line : List Char} (last : line.getLast? ≠ some '\r')
    (closed : isIncomplete (pending ++ line) = false) :
    LineReader.plain.addLine isIncomplete pending (line ++ ['\n']) =
      .complete (pending ++ line) := by
  obtain ⟨kept, before, rfl, isReturn, dropped, ends⟩ := exists_ending line
  rcases isReturn with rfl | rfl
  · rw [List.append_nil] at *
    simp [LineReader.plain, dropped, closed]
  · simp at last

/-- What is typed as one entry: at each of its line feeds a list is open, and at its end
none is. -/
structure Typed (text : List Char) : Prop where
  last : text.getLast? ≠ some '\r'
  goesOn : ∀ front back, text = front ++ '\n' :: back → isIncomplete front = true
  closed : isIncomplete text = false

/-- The lines that are left complete the entry at the last of them. -/
theorem Typed.ofLines {pending rest : List Char} (typed : Typed (pending ++ rest))
    {reader : LineReader} (takes : reader.TakesAsTyped (pending ++ (rest ++ ['\n'])))
    (close : Close) :
    ofLines reader close pending (splitAfter (· == '\n') (rest ++ ['\n'])) =
      { entries := [pending ++ rest], close := close } := by
  -- by induction on the length, since a line is taken as a whole
  induction size : rest.length using Nat.strongRecOn generalizing pending rest with
  | ind _ ih =>
  subst size
  obtain ⟨line, after, rfl, inside, ends⟩ := Token.exists_longest (· ≠ '\n') rest
  have noFeed : '\n' ∉ line := fun member => inside _ member rfl
  cases after with
  | nil =>
    rw [List.append_nil] at typed takes ⊢
    have last : line.getLast? ≠ some '\r' := by
      intro isReturn
      exact typed.last (by simp [List.getLast?_append, isReturn])
    have added := takes isIncomplete pending (line ++ ['\n']) (List.prefix_refl _)
    rw [splitAfter_line noFeed, Entry.ofLines, added, addLine_of_closed last typed.closed]
    rfl
  | cons c after =>
    obtain rfl : c = '\n' := Decidable.not_not.mp (ends c rfl)
    have shorter : after.length < (line ++ '\n' :: after).length := by
      simp only [List.length_append, List.length_cons]
      omega
    have split : pending ++ (line ++ '\n' :: after) = pending ++ (line ++ ['\n']) ++ after := by
      simp
    have goesOn : isIncomplete (pending ++ line) = true :=
      typed.goesOn _ after (by simp)
    rw [List.append_assoc, List.cons_append] at takes ⊢
    have added := takes isIncomplete pending (line ++ ['\n'])
      (by simp [List.prefix_append_right_inj])
    rw [split] at typed ⊢
    rw [splitAfter_line noFeed, Entry.ofLines, added, addLine_of_open goesOn]
    exact ih _ shorter typed (by simpa using takes) rfl

end Entry

/-! ## One list -/

namespace Program

theorem forms_ne_nil {tokens : List Token} {p : Program} (read : ofTokens tokens = .ok p)
    (nonempty : tokens ≠ []) : p.forms ≠ [] := by
  obtain ⟨trees, rfl, derived⟩ := derived_of_ofTokens read
  intro empty
  rw [derived.eq_nil_iff.mpr empty] at nonempty
  exact nonempty rfl

/-- Between the first and the last token of a form a list is open. -/
theorem unclosed_of_single {front back : List Token} {form : Expr}
    (read : ofTokens (front ++ back) = .ok { forms := [form] }) (begun : front ≠ [])
    (more : back ≠ []) : ∃ opener, ofTokens front = .error (.unclosed opener) := by
  refine unclosed_of_continuation read fun p readFront => ?_
  -- otherwise there would be a form before the cut and another one after it
  rw [ofTokens_append readFront] at read
  cases readBack : ofTokens back with
  | error e =>
    rw [readBack] at read
    cases read
  | ok q =>
    rw [readBack] at read
    have both : p.forms ++ q.forms = [form] := congrArg forms (Except.ok.inj read)
    have first := List.length_pos_iff.mpr (forms_ne_nil readFront begun)
    have second := List.length_pos_iff.mpr (forms_ne_nil readBack more)
    have total := congrArg List.length both
    rw [List.length_append, List.length_singleton] at total
    omega

end Program

/-- No token of a text reaches beyond its end. -/
theorem Token.stop_le {text : List Char} {token : Token}
    (member : token ∈ scanFrom .between .origin text) : token.span.stop ≤ byteLength text := by
  have layout : Layout [] text (scanFrom .between .origin text) := layout_scanFrom [] text
  obtain ⟨before, word, after, rfl, covers⟩ := layout.tokenization.placed token member
  rw [covers.stop, byteLength_append, byteLength_append]
  omega

/-- A text that is accepted and is one list, from its first character to its last: the last
token, which closes the list, stops where the text does. -/
structure OneList (text : String) : Prop where
  accepted : (Session.fresh.load (.text text)).answer = .ok ()
  single : ∃ form, Program.ofText text = .ok { forms := [form] }
  starts : text.toList.head? = some '('
  ends : ∃ closer, (Token.scan text).getLast? = some closer ∧
    closer.span.stop = byteLength text.toList

namespace OneList

variable {text : String}

theorem of_accept {form : Expr} (accepted : Program.accept (Token.scan text) = .ok ⟨[form]⟩)
    (starts : text.toList.head? = some '(')
    (ends : ∃ closer, (Token.scan text).getLast? = some closer ∧
      closer.span.stop = byteLength text.toList) : OneList text :=
  ⟨by rw [Session.load_of_accept accepted],
    ⟨form, (Program.accept_iff_lists.mp accepted).1⟩, starts, ends⟩

theorem exists_form (one : OneList text) :
    ∃ form, Program.accept (Token.scan text) = .ok { forms := [form] } ∧ form.kind = .list := by
  obtain ⟨p, accepted⟩ := Session.accept_of_load one.accepted
  obtain ⟨read, -, lists⟩ := Program.accept_iff_lists.mp accepted
  obtain ⟨form, single⟩ := one.single
  obtain rfl : p = { forms := [form] } := Except.ok.inj (read.symm.trans single)
  exact ⟨form, accepted, lists form List.mem_cons_self⟩

/-- The last character closes the list. -/
theorem last_eq (one : OneList text) : text.toList.getLast? = some ')' := by
  obtain ⟨form, accepted, -⟩ := one.exists_form
  obtain ⟨closer, last, stop⟩ := one.ends
  obtain ⟨-, front, final, tokens, kind⟩ := Program.accept_edges accepted
  obtain rfl : final = closer := by simpa [tokens] using last
  have cut := (Token.layout_scan text).tokenization
  have member := List.mem_of_getLast? last
  obtain ⟨before, word, after, split, covers⟩ := cut.placed final member
  have spelled := (cut.classified final member).closing.mp kind
  rw [covers.text] at spelled
  obtain rfl : word = [')'] := String.ofList_injective spelled
  cases after with
  | nil => simp [split]
  | cons c after =>
    have positive := c.utf8Size_pos
    simp only [covers.stop, split, byteLength_append, byteLength] at stop
    omega

/-- At a line feed the list is open: its first paren stands before and its last one after. -/
theorem goesOn (one : OneList text) {front back : List Char}
    (split : text.toList = front ++ '\n' :: back) : Entry.isIncomplete front = true := by
  obtain ⟨form, single⟩ := one.single
  have tokens : Token.scan text = Token.scanFrom .between .origin front ++
      Token.scanFrom .between (Token.placeAfter (front ++ ['\n'])) back := by
    rw [Token.scan, split, Token.scanFrom_join]
    rfl
  have begun : Token.scanFrom .between .origin front ≠ [] := by
    have starts := one.starts
    rw [split] at starts
    cases front with
    | nil => simp at starts
    | cons c front =>
      obtain rfl : c = '(' := by simpa using starts
      exact List.cons_ne_nil _ _
  have more : Token.scanFrom .between (Token.placeAfter (front ++ ['\n'])) back ≠ [] := by
    intro none
    obtain ⟨closer, last, stop⟩ := one.ends
    rw [tokens, none, List.append_nil] at last
    have early := Token.stop_le (List.mem_of_getLast? last)
    have positive := ('\n').utf8Size_pos
    rw [stop, split, byteLength_append, byteLength] at early
    omega
  rw [Program.ofText, tokens] at single
  obtain ⟨opener, unclosed⟩ := Program.unclosed_of_single single begun more
  exact Entry.staysOpen_of_unclosed unclosed

theorem closed (one : OneList text) : Entry.isIncomplete text.toList = false := by
  cases goesOn : Entry.isIncomplete text.toList with
  | false => rfl
  | true =>
    obtain ⟨form, single⟩ := one.single
    obtain ⟨_, e, fault, -⟩ := Entry.fault_of_staysOpen goesOn
    cases single.symm.trans fault

/-- The list is typed as one entry. -/
theorem typed (one : OneList text) : Entry.Typed text.toList where
  last := by simp [one.last_eq]
  goesOn := fun _ _ split => one.goesOn split
  closed := one.closed

/-- There is nothing to trim. -/
theorem trim_eq (one : OneList text) : trim text.toList = text.toList := by
  refine trim_eq_self (fun c found => ?_) fun c found => ?_
  · rw [one.starts] at found
    cases found
    rfl
  · rw [one.last_eq] at found
    cases found
    rfl

theorem textOf_eq (one : OneList text) : Prompt.textOf text.toList = text := by
  rw [Prompt.textOf, one.trim_eq, String.ofList_toList]

theorem not_isExit (one : OneList text) : Prompt.isExit (trim text.toList) = false := by
  have starts := one.starts
  rw [one.trim_eq]
  cases chars : text.toList with
  | nil => rfl
  | cons c rest =>
    obtain rfl : c = '(' := by simpa [chars] using starts
    rfl

/-- The lines of the list make one entry. -/
theorem read_eq (one : OneList text) {reader : LineReader}
    (takes : reader.TakesAsTyped (text ++ "\n").toList) :
    Entry.read reader (.ofBytes (text ++ "\n").toUTF8) =
      { entries := [text.toList], close := .endOfInput } := by
  have typed : Entry.Typed ([] ++ text.toList) := one.typed
  rw [Input.ofBytes_toUTF8]
  rw [String.toList_append] at takes ⊢
  exact typed.ofLines takes .endOfInput

end OneList

namespace Prompt

/-- A conversation about one entry that the input ends after. -/
def runOne (historyFound : Bool) (writable : Except PathFault Unit) (entry : List Char)
    (answer : Output) : Outcome :=
  (conclude writable [entry] (some .endOfInput)).after
    (greeting historyFound ++ [answer] ++ closing .endOfInput)

/-- The prompt answers the one entry that an input makes. -/
theorem run_of_accept {reader : LineReader} {input : Input} {entry : List Char} {p : Program}
    (read : Entry.read reader input = { entries := [entry], close := .endOfInput })
    (stays : isExit (trim entry) = false)
    (accepted : Program.accept (Token.scan (textOf entry)) = .ok p) (historyFound : Bool)
    (writable : Except PathFault Unit) :
    run reader historyFound writable input =
      runOne historyFound writable entry (runAt .initial p).2 := by
  have talk : converse .fresh [entry] =
      { entries := [entry], outputs := [(runAt .initial p).2], left := false } := by
    simp only [converse, respond_of_accept stays accepted]
    rfl
  simp only [run, read, talk]
  rfl

/-- A list typed over several lines, into a reader that takes it as it is typed. Its lines
make one entry, which is the text of the list. The prompt prints the value of the list if
the command does that when the text is its argument, and otherwise it reports the error
that the command reports. -/
theorem run_oneList (reader : LineReader) (text : String)
    (takes : reader.TakesAsTyped (text ++ "\n").toList) (one : OneList text) :
    let input := Input.ofBytes (text ++ "\n").toUTF8
    let evaluated := (Session.fresh.load (.text text)).session.eval.answer
    Entry.read reader input = { entries := [text.toList], close := .endOfInput } ∧
    ∀ historyFound writable, ∃ answer,
      run reader historyFound writable input =
        runOne historyFound writable text.toList answer ∧
      ((∃ value, evaluated = .ok value ∧ answer = .out ("(" ++ value.text ++ ")") ∧
          Command.runText "-e" text = { outputs := [answer], status := 0 }) ∨
        ∃ e, evaluated = .error e ∧ answer = .err ("Error: " ++ e.message) ∧
          Command.runText "-e" text = Command.failure (e.report text) "-e" text) := by
  intro input evaluated
  refine ⟨one.read_eq takes, fun historyFound writable => ?_⟩
  obtain ⟨form, accepted, -⟩ := one.exists_form
  have answered := run_of_accept (one.read_eq takes) one.not_isExit
    (by rwa [one.textOf_eq]) historyFound writable
  refine ⟨_, answered, ?_⟩
  simp only [evaluated, Command.runText, Session.load_of_accept accepted, Session.eval,
    Session.fresh, runAt]
  cases ((Program.mk [form]).expr.eval .initial).result with
  | ok value => exact .inl ⟨value, rfl, rfl, rfl⟩
  | error e => exact .inr ⟨.evaluation e, rfl, rfl, rfl⟩

/-- A list over three lines, with both kinds of line end, a paren in a comment and a name
that is not ASCII. -/
def threeLines : String := "(begin ; note)\r\n (define é True)\n (not é))"

/-- The prompt prints its value, with the reader of the command. -/
theorem run_oneList_threeLines :
    let input := Input.ofBytes (threeLines ++ "\n").toUTF8
    Erasure.reader.TakesAsTyped (threeLines ++ "\n").toList ∧ OneList threeLines ∧
    Entry.read Erasure.reader input =
      { entries := [threeLines.toList], close := .endOfInput } ∧
    run Erasure.reader true (.ok ()) input =
      runOne true (.ok ()) threeLines.toList (.out "(False)") ∧
    Command.runText "-e" threeLines = { outputs := [.out "(False)"], status := 0 } := by
  intro input
  have accepted : Program.accept (Token.scan threeLines) =
      .ok ⟨[.list [.symbol "begin", .list [.symbol "define", .symbol "é", .truth true],
        .list [.symbol "not", .symbol "é"]]]⟩ := rfl
  have one : OneList threeLines := .of_accept accepted rfl ⟨_, rfl, rfl⟩
  have takes : Erasure.reader.TakesAsTyped (threeLines ++ "\n").toList :=
    Erasure.reader_takesAsTyped (by decide)
  have evaluated : (Session.fresh.load (.text threeLines)).session.eval.answer =
      .ok (.truth false) := by
    rw [Session.load_of_accept accepted]
    rfl
  obtain ⟨reading, answers⟩ := run_oneList Erasure.reader threeLines takes one
  obtain ⟨answer, printed, ⟨value, returned, rfl, told⟩ | ⟨e, failed, -⟩⟩ :=
    answers true (.ok ())
  · obtain rfl : Expr.truth false = value := Except.ok.inj (evaluated.symm.trans returned)
    exact ⟨takes, one, reading, printed, told⟩
  · cases evaluated.symm.trans failed

end Prompt

end FormScript
