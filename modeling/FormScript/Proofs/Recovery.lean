import FormScript.Prompt

/-!
# Recovery at the prompt

An entry that is blank or rejected leaves the session as it was. An accepted one replaces
the program before anything is evaluated, so what it answers depends on the environment
alone, never on the program that was stored before (`Prompt.respond_cases`). If its
evaluation fails, the environment is the initial one again, and the conversation goes on as
one that has just begun.

`Prompt.answers` are the lines written for each entry. `Prompt.answers_restart` says what
follows a failure, `Prompt.answers_select` that entries which are dismissed can be left out,
and `Prompt.recovery` puts both together.
-/

namespace FormScript

/-- The items of a list at the positions to keep. -/
def select {α : Type} (keep : Nat → Bool) : List α → List α
  | [] => []
  | a :: as =>
    if keep 0 then a :: select (fun i => keep (i + 1)) as
    else select (fun i => keep (i + 1)) as

namespace Prompt

/-! ## One entry -/

/-- The program text of an entry. -/
def textOf (entry : List Char) : String :=
  String.ofList (trim entry)

/-- The lines written about a program that is rejected. -/
def complaint (text : String) (e : ParseError) : List Output :=
  .err "Error: Invalid Expression. Could not parse." :: ((e.report text).lines "REPL" text).map .err

/-- The environment that running a program leaves at the prompt, and the line written for
it. A failure gives up everything that was bound. -/
def runAt (env : Env) (p : Program) : Env × Output :=
  match (p.expr.eval env).result with
  | .ok value => ((p.expr.eval env).env, .out ("(" ++ value.text ++ ")"))
  | .error e => (.initial, .err ("Error: " ++ e.message))

theorem scan_textOf (entry : List Char) :
    Token.scan (textOf entry) = Token.scanFrom .between .origin (trim entry) := by
  rw [Token.scan, textOf, String.toList_ofList]

theorem respond_of_blank {entry : List Char} (blank : trim entry = []) (s : Session) :
    respond s entry = .stay s [] := by
  simp [respond, blank]

theorem respond_of_reject {entry : List Char} {e : ParseError}
    (stays : isExit (trim entry) = false) (visible : trim entry ≠ [])
    (rejected : Program.accept (Token.scan (textOf entry)) = .error e) (s : Session) :
    respond s entry = .stay s (complaint (textOf entry) e) := by
  have submitted : respond s entry = submit s (textOf entry) := by
    simp [respond, visible, stays, textOf]
  rw [submitted, submit, Session.load_of_reject rejected]
  rfl

theorem respond_of_accept {entry : List Char} {p : Program}
    (stays : isExit (trim entry) = false)
    (accepted : Program.accept (Token.scan (textOf entry)) = .ok p) (s : Session) :
    respond s entry =
      .stay { program := some p, env := (runAt s.env p).1 } [(runAt s.env p).2] := by
  have visible : trim entry ≠ [] := by
    intro blank
    rw [scan_textOf, blank] at accepted
    cases accepted
  have submitted : respond s entry = submit s (textOf entry) := by
    simp [respond, visible, stays, textOf]
  rw [submitted]
  simp only [submit, Session.load_of_accept accepted, Session.eval, runAt]
  cases (p.expr.eval s.env).result <;> rfl

/-- What becomes of an entry that does not ask to leave. Which of the three cases it is does
not depend on the session. -/
theorem respond_cases {entry : List Char} (stays : isExit (trim entry) = false) :
    (trim entry = [] ∧ ∀ s, respond s entry = .stay s []) ∨
    (∃ e, Program.accept (Token.scan (textOf entry)) = .error e ∧
      ∀ s, respond s entry = .stay s (complaint (textOf entry) e)) ∨
    (∃ p, Program.accept (Token.scan (textOf entry)) = .ok p ∧
      ∀ s, respond s entry =
        .stay { program := some p, env := (runAt s.env p).1 } [(runAt s.env p).2]) := by
  by_cases blank : trim entry = []
  · exact .inl ⟨blank, respond_of_blank blank⟩
  · cases read : Program.accept (Token.scan (textOf entry)) with
    | error e => exact .inr (.inl ⟨e, rfl, respond_of_reject stays blank read⟩)
    | ok p => exact .inr (.inr ⟨p, rfl, respond_of_accept stays read⟩)

/-- An entry that is blank or rejected. -/
def Dismissed (entry : List Char) : Prop :=
  trim entry = [] ∨ ∃ e, (Session.fresh.load (.text (textOf entry))).answer = .error e

/-- A dismissed entry changes nothing, and only errors are written about it. -/
theorem respond_dismissed {entry : List Char} (stays : isExit (trim entry) = false)
    (dismissed : Dismissed entry) (s : Session) :
    ∃ lines : List String, respond s entry = .stay s (lines.map .err) := by
  rcases respond_cases stays with ⟨-, silent⟩ | ⟨e, -, rejected⟩ | ⟨p, accepted, -⟩
  · exact ⟨[], silent s⟩
  · exact ⟨_ :: (e.report (textOf entry)).lines "REPL" (textOf entry), rejected s⟩
  · rcases dismissed with blank | ⟨e, failed⟩
    · exact ⟨[], respond_of_blank blank s⟩
    · rw [Session.load_of_accept accepted] at failed
      cases failed

/-- An entry that is accepted and fails when it is evaluated. -/
def Fails (s : Session) (entry : List Char) : Prop :=
  (s.load (.text (textOf entry))).answer = .ok () ∧
    ∃ e, (s.load (.text (textOf entry))).session.eval.answer = .error e

/-- After a failure only the initial bindings are left. -/
theorem respond_fails {s : Session} {entry : List Char} (stays : isExit (trim entry) = false)
    (fails : Fails s entry) :
    ∃ next outputs, respond s entry = .stay next outputs ∧ next.env = .initial := by
  obtain ⟨loaded, e, failed⟩ := fails
  obtain ⟨p, accepted⟩ := Session.accept_of_load loaded
  refine ⟨_, _, respond_of_accept stays accepted s, ?_⟩
  rw [Session.load_of_accept accepted] at failed
  obtain ⟨reason, result, -⟩ := Session.exists_reason rfl failed
  simp only [runAt, result]

/-- Sessions with the same environment answer an entry alike. -/
theorem respond_congr {s t : Session} (same : s.env = t.env) {entry : List Char}
    (stays : isExit (trim entry) = false) :
    ∃ afterS afterT outputs, respond s entry = .stay afterS outputs ∧
      respond t entry = .stay afterT outputs ∧ afterS.env = afterT.env := by
  rcases respond_cases stays with ⟨-, silent⟩ | ⟨e, -, rejected⟩ | ⟨p, -, told⟩
  · exact ⟨s, t, [], silent s, silent t, same⟩
  · exact ⟨s, t, _, rejected s, rejected t, same⟩
  · refine ⟨_, _, _, told s, ?_, rfl⟩
    rw [told t, same]

/-! ## Conversations -/

/-- The lines written for each entry. -/
def answers (s : Session) : List (List Char) → List (List Output)
  | [] => []
  | entry :: entries =>
    match respond s entry with
    | .leave => []
    | .stay next outputs => outputs :: answers next entries

/-- The session after some entries. -/
def sessionAfter (s : Session) : List (List Char) → Session
  | [] => s
  | entry :: entries =>
    match respond s entry with
    | .leave => s
    | .stay next _ => sessionAfter next entries

/-- None of the entries asks to leave. -/
def Stays (entries : List (List Char)) : Prop :=
  ∀ entry ∈ entries, isExit (trim entry) = false

theorem exists_stay (s : Session) {entry : List Char} (stays : isExit (trim entry) = false) :
    ∃ next outputs, respond s entry = .stay next outputs := by
  obtain ⟨next, -, outputs, told, -⟩ := respond_congr (s := s) rfl stays
  exact ⟨next, outputs, told⟩

/-- A conversation writes the lines for its entries one after the other. -/
theorem converse_eq (s : Session) {entries : List (List Char)} (stays : Stays entries) :
    converse s entries =
      { entries := entries, outputs := (answers s entries).flatten, left := false } := by
  induction entries generalizing s with
  | nil => rfl
  | cons entry entries ih =>
    obtain ⟨first, others⟩ := List.forall_mem_cons.mp stays
    obtain ⟨next, outputs, told⟩ := exists_stay s first
    simp only [converse, answers, told, ih next others, List.flatten_cons]

theorem answers_append (s : Session) {front : List (List Char)} (stays : Stays front)
    (back : List (List Char)) :
    answers s (front ++ back) = answers s front ++ answers (sessionAfter s front) back := by
  induction front generalizing s with
  | nil => rfl
  | cons entry front ih =>
    obtain ⟨first, others⟩ := List.forall_mem_cons.mp stays
    obtain ⟨next, outputs, told⟩ := exists_stay s first
    simp only [List.cons_append, answers, sessionAfter, told, ih next others]

theorem sessionAfter_append (s : Session) {front : List (List Char)} (stays : Stays front)
    (back : List (List Char)) :
    sessionAfter s (front ++ back) = sessionAfter (sessionAfter s front) back := by
  induction front generalizing s with
  | nil => rfl
  | cons entry front ih =>
    obtain ⟨first, others⟩ := List.forall_mem_cons.mp stays
    obtain ⟨next, outputs, told⟩ := exists_stay s first
    simp only [List.cons_append, sessionAfter, told, ih next others]

/-- Only the environment has an influence on the answers. -/
theorem answers_congr {s t : Session} (same : s.env = t.env) {entries : List (List Char)}
    (stays : Stays entries) : answers s entries = answers t entries := by
  induction entries generalizing s t with
  | nil => rfl
  | cons entry entries ih =>
    obtain ⟨first, others⟩ := List.forall_mem_cons.mp stays
    obtain ⟨afterS, afterT, outputs, toldS, toldT, sameAfter⟩ := respond_congr same first
    simp only [answers, toldS, toldT, ih sameAfter others]

/-- After a failure the conversation goes on as if it had just begun. -/
theorem answers_restart {s : Session} {front : List (List Char)} {last : List Char}
    (stays : Stays (front ++ [last])) (fails : Fails (sessionAfter s front) last)
    {back : List (List Char)} (staysBack : Stays back) :
    answers s (front ++ [last] ++ back) = answers s (front ++ [last]) ++ answers .fresh back := by
  obtain ⟨staysFront, staysLast⟩ := List.forall_mem_append.mp stays
  obtain ⟨next, outputs, told, forgotten⟩ :=
    respond_fails (staysLast last List.mem_cons_self) fails
  have reached : sessionAfter s (front ++ [last]) = next := by
    rw [sessionAfter_append s staysFront]
    simp only [sessionAfter, told]
  rw [answers_append s stays, reached]
  exact congrArg _ (answers_congr forgotten staysBack)

/-! ## Entries left out -/

/-- Every item at a position that is not kept has the property. -/
def EachDropped {α : Type} (keep : Nat → Bool) (p : α → Prop) (items : List α) : Prop :=
  ∀ i item, items[i]? = some item → keep i = false → p item

theorem EachDropped.cons {α : Type} {keep : Nat → Bool} {p : α → Prop} {item : α}
    {items : List α} (first : keep 0 = false → p item)
    (others : EachDropped (fun i => keep (i + 1)) p items) : EachDropped keep p (item :: items) := by
  intro i other found dropped
  cases i with
  | zero =>
    cases found
    exact first dropped
  | succ i => exact others i other found dropped

theorem EachDropped.tail {α : Type} {keep : Nat → Bool} {p : α → Prop} {item : α}
    {items : List α} (each : EachDropped keep p (item :: items)) :
    EachDropped (fun i => keep (i + 1)) p items :=
  fun i other found => each (i + 1) other found

/-- Leaving out dismissed entries leaves out what was written about them, which is errors
only, and nothing else. -/
theorem answers_select (s : Session) {entries : List (List Char)} (stays : Stays entries)
    {keep : Nat → Bool} (dismissed : EachDropped keep Dismissed entries) :
    answers s (select keep entries) = select keep (answers s entries) ∧
      EachDropped keep (fun outputs => ∃ lines : List String, outputs = lines.map .err)
        (answers s entries) := by
  induction entries generalizing s keep with
  | nil => exact ⟨rfl, fun i item found => by simp [answers] at found⟩
  | cons entry entries ih =>
    obtain ⟨first, others⟩ := List.forall_mem_cons.mp stays
    cases kept : keep 0 with
    | true =>
      obtain ⟨next, outputs, told⟩ := exists_stay s first
      obtain ⟨same, errors⟩ := ih next others dismissed.tail
      simp only [select, answers, told, kept, if_true, same, true_and]
      exact .cons (fun dropped => by simp [kept] at dropped) errors
    | false =>
      obtain ⟨lines, told⟩ := respond_dismissed first (dismissed 0 entry rfl kept) s
      obtain ⟨same, errors⟩ := ih s others dismissed.tail
      simp only [select, answers, told, kept, Bool.false_eq_true, if_false, same, true_and]
      exact .cons (fun _ => ⟨lines, rfl⟩) errors

/-- A conversation writes the answers to its entries, none of which asks to leave, one after
the other. After an entry that fails, the answers to all that follows are those of a
conversation that has just begun. Entries that are blank or rejected can be left out, in
any number and at any place: what was written about them were errors only, and the other
answers stay the same. -/
theorem recovery (s : Session) (xs ys : List (List Char)) (stays : Stays (xs ++ ys)) :
    converse s (xs ++ ys) =
      { entries := xs ++ ys, outputs := (answers s (xs ++ ys)).flatten, left := false } ∧
    (∀ front last, xs = front ++ [last] → Fails (sessionAfter s front) last →
      answers s (xs ++ ys) = answers s xs ++ answers .fresh ys) ∧
    (∀ keep : Nat → Bool, EachDropped keep Dismissed (xs ++ ys) →
      answers s (select keep (xs ++ ys)) = select keep (answers s (xs ++ ys)) ∧
      EachDropped keep (fun outputs => ∃ lines : List String, outputs = lines.map .err)
        (answers s (xs ++ ys))) := by
  obtain ⟨staysX, staysY⟩ := List.forall_mem_append.mp stays
  refine ⟨converse_eq s stays, ?_, fun keep dismissed => answers_select s stays dismissed⟩
  rintro front last rfl fails
  exact answers_restart staysX fails staysY

/-- An entry that binds a name before it fails. -/
def failingEntry : List Char := "(begin (define x True) (y))".toList

/-- The program of that entry. -/
def failingProgram : Program :=
  ⟨[.list [.symbol "begin", .list [.symbol "define", .symbol "x", .truth true],
    .list [.symbol "y"]]]⟩

/-- The name is unknown again in the next entry; the paren before and the blank after can be
left out. -/
theorem recovery_failingEntry :
    let xs := [")".toList, failingEntry]
    let ys := ["(x)".toList, " ".toList]
    let keep : Nat → Bool := fun i => i == 1 || i == 2
    Stays (xs ++ ys) ∧ Fails (sessionAfter .fresh [")".toList]) failingEntry ∧
    EachDropped keep Dismissed (xs ++ ys) ∧
    answers .fresh (xs ++ ys) = answers .fresh xs ++ [[.err "Error: unbound symbol 'x'"], []] ∧
    answers .fresh (select keep (xs ++ ys)) = select keep (answers .fresh (xs ++ ys)) := by
  intro xs ys keep
  have stays : Stays (xs ++ ys) := by
    unfold Stays
    decide
  have rejected : Program.accept (Token.scan (textOf ")".toList)) =
      .error (.unmatchedClose (Token.paren .closing .origin ')')) := by
    rw [scan_textOf]
    rfl
  have dismissed : Dismissed ")".toList :=
    .inr ⟨_, by rw [Session.load_of_reject rejected]⟩
  have accepted : Program.accept (Token.scan (textOf failingEntry)) = .ok failingProgram := by
    rw [scan_textOf]
    rfl
  have unchanged : sessionAfter .fresh [")".toList] = .fresh := by
    obtain ⟨lines, told⟩ := respond_dismissed (by decide) dismissed .fresh
    simp only [sessionAfter, told]
  have fails : Fails (sessionAfter .fresh [")".toList]) failingEntry := by
    rw [unchanged, Fails, Session.load_of_accept accepted]
    exact ⟨rfl, .evaluation (.unbound "y"), rfl⟩
  have each : EachDropped keep Dismissed (xs ++ ys) := by
    refine .cons (fun _ => dismissed) (.cons (fun kept => nomatch kept)
      (.cons (fun kept => nomatch kept) (.cons (fun _ => .inl rfl) ?_)))
    intro i item found
    cases found
  have acceptedX : Program.accept (Token.scan (textOf "(x)".toList)) =
      .ok ⟨[.list [.symbol "x"]]⟩ := by
    rw [scan_textOf]
    rfl
  have answered : answers .fresh ys = [[.err "Error: unbound symbol 'x'"], []] := by
    have blank : trim " ".toList = [] := rfl
    simp only [ys, answers, respond_of_accept (by decide) acceptedX, respond_of_blank blank]
    rfl
  obtain ⟨-, restart, thinned⟩ := recovery .fresh xs ys stays
  refine ⟨stays, fails, each, ?_, (thinned keep each).1⟩
  rw [restart [")".toList] failingEntry rfl fails, answered]

end Prompt

end FormScript
