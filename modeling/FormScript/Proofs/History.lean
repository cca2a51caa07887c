import FormScript.Proofs.Acceptance
import FormScript.Proofs.Failure
import FormScript.Proofs.Messages
import FormScript.Proofs.Values

/-!
# What a session remembers

A session is determined by two things of its past: the program accepted last and the
programs evaluated since the last reset. `Session.recalled` is the session with such a
past, and `Session.perform_recalled` says that every operation leads from the session of
one past to that of the next. So rejected programs leave nothing behind, and neither
evaluations nor resets touch the program (`Session.fresh_performAll`).

A program that is stored has at least one form, every form is a list, and no list in it is
empty (`Program.Runnable`). An empty list is therefore never evaluated.
`Session.fresh_performAll_lastAccepted` puts this together.
-/

namespace FormScript

/-! ## Stored programs -/

/-- A program as a session stores it. -/
structure Program.Runnable (p : Program) : Prop where
  nonempty : p.forms ≠ []
  lists : ∀ form ∈ p.forms, form.kind = .list
  noEmptyList : .list [] ∉ p.expr.parts

theorem Source.runnable {source : Source} {p : Program}
    (accepted : source.tokens.bind Program.accept = .ok p) : p.Runnable := by
  obtain ⟨text, acceptedText⟩ := accept_scan accepted
  obtain ⟨-, nonempty, lists⟩ := Program.accept_iff_lists.mp acceptedText
  refine ⟨nonempty, lists, fun occurs => ?_⟩
  obtain ⟨someItem, -⟩ := ((readable accepted).part occurs).items
  exact someItem rfl

/-- Without an empty list in it, no expression is reported for one. -/
theorem Expr.eval_ne_emptyList {e : Expr} (noEmptyList : .list [] ∉ e.parts) (env : Env) :
    (e.eval env).result ≠ .error .emptyList := by
  intro failed
  have justified := (e.eval_justified env).of_error failed
  exact noEmptyList justified

/-- The environment that programs leave, evaluated one after the other. -/
def Env.afterPrograms (programs : List Program) : Env :=
  programs.foldl (fun env p => (p.expr.eval env).env) .initial

namespace Session

/-! ## The past of a session -/

/-- The program that an operation makes the one to evaluate. -/
def Operation.accepted? : Operation → Option Program
  | .load source => (source.tokens.bind Program.accept).toOption
  | .eval | .reset => none

/-- The program accepted last, where the operations are given latest first. -/
def lastAccepted? (past : List Operation) : Option Program :=
  past.findSome? Operation.accepted?

/-- The programs evaluated since the last reset, in order, where the operations are given
latest first. -/
def evaluated : (past : List Operation) → List Program
  | [] => []
  | .load _ :: past => evaluated past
  | .eval :: past => evaluated past ++ (lastAccepted? past).toList
  | .reset :: _ => []

/-- The session with this past, where the operations are given latest first. -/
def recalled (past : List Operation) : Session where
  program := lastAccepted? past
  env := Env.afterPrograms (evaluated past)

/-- An operation leads from the session of a past to the session of the longer one. -/
theorem perform_recalled (past : List Operation) (op : Operation) :
    ((recalled past).perform op).session = recalled (op :: past) := by
  cases op with
  | load source =>
    simp only [perform, load, recalled, lastAccepted?, evaluated, List.findSome?_cons,
      Operation.accepted?]
    cases source.tokens.bind Program.accept <;> rfl
  | eval =>
    simp only [perform, eval, recalled, evaluated]
    have same : lastAccepted? (.eval :: past) = lastAccepted? past := rfl
    rw [same]
    cases stored : lastAccepted? past with
    | none => simp
    | some p => simp [Env.afterPrograms]
  | reset => rfl

theorem performAll_recalled (past ops : List Operation) :
    ((recalled past).performAll ops).session = recalled (ops.reverse ++ past) := by
  induction ops generalizing past with
  | nil => rfl
  | cons op ops ih =>
    rw [performAll, perform_recalled, ih, List.reverse_cons, List.append_assoc]
    rfl

/-- A session is the one with its past. -/
theorem fresh_performAll (ops : List Operation) :
    (fresh.performAll ops).session = recalled ops.reverse := by
  have run := performAll_recalled [] ops
  rwa [List.append_nil] at run

/-! ## Answers -/

/-- Whether a program is accepted does not depend on the session. -/
theorem perform_loaded_iff (s : Session) (op : Operation) :
    (s.perform op).answer = .loaded (.ok ()) ↔ op.accepted? ≠ none := by
  cases op with
  | load source =>
    simp only [perform, load, Operation.accepted?]
    cases source.tokens.bind Program.accept <;> simp [Except.toOption]
  | eval | reset => simp [perform, Operation.accepted?]

theorem loaded_mem_iff (s : Session) (ops : List Operation) :
    .loaded (.ok ()) ∈ (s.performAll ops).answer ↔ ∃ op ∈ ops, op.accepted? ≠ none := by
  induction ops generalizing s with
  | nil => simp [performAll]
  | cons op ops ih =>
    rw [performAll, List.mem_cons, eq_comm, perform_loaded_iff, ih]
    simp

theorem lastAccepted?_eq_none_iff {s : Session} {ops : List Operation} :
    lastAccepted? ops.reverse = none ↔ .loaded (.ok ()) ∉ (s.performAll ops).answer := by
  rw [loaded_mem_iff, lastAccepted?, List.findSome?_eq_none_iff]
  simp

/-- The program accepted last comes from a source after which none is accepted. -/
theorem exists_source {ops : List Operation} {p : Program}
    (stored : lastAccepted? ops.reverse = some p) :
    ∃ before source after, ops = before ++ .load source :: after ∧
      source.tokens.bind Program.accept = .ok p ∧ ∀ op ∈ after, op.accepted? = none := by
  obtain ⟨after, op, before, split, accepted, rejected⟩ := List.findSome?_eq_some_iff.mp stored
  have inOrder : ops = before.reverse ++ op :: after.reverse := by
    have reversed := congrArg List.reverse split
    simpa using reversed
  cases op with
  | load source =>
    refine ⟨before.reverse, source, after.reverse, inOrder, ?_, fun op member => ?_⟩
    · simp only [Operation.accepted?] at accepted
      cases result : source.tokens.bind Program.accept with
      | error e =>
        rw [result] at accepted
        cases accepted
      | ok q =>
        rw [result] at accepted
        cases accepted
        rfl
    · exact rejected op (List.mem_reverse.mp member)
  | eval | reset => cases accepted

/-- Every answer of an evaluation is given by the session at that point. -/
theorem exists_eval {s : Session} {ops : List Operation} {result : Except SessionError Expr}
    (answered : .evaluated result ∈ (s.performAll ops).answer) :
    ∃ before, (s.performAll before).session.eval.answer = result := by
  induction ops generalizing s with
  | nil => cases answered
  | cons op ops ih =>
    rcases List.mem_cons.mp answered with now | later
    · refine ⟨[], ?_⟩
      cases op with
      | eval =>
        cases now
        rfl
      | load source | reset => cases now
    · obtain ⟨before, evaluatedThere⟩ := ih later
      exact ⟨op :: before, evaluatedThere⟩

theorem recalled_runnable {past : List Operation} {p : Program}
    (stored : (recalled past).program = some p) : p.Runnable := by
  have last : lastAccepted? past.reverse.reverse = some p := by rwa [List.reverse_reverse]
  obtain ⟨_, source, _, -, accepted, -⟩ := exists_source last
  exact Source.runnable accepted

/-! ## Evaluation -/

/-- An evaluation fails for the want of a program if and only if there is none. -/
theorem eval_message_noProgram_iff (s : Session) :
    (∃ e, s.eval.answer = .error e ∧ e.message = SessionError.noProgram.message) ↔
      s.program = none := by
  constructor
  · rintro ⟨e, failed, message⟩
    obtain rfl := e.message_eq_noProgram_iff.mp message
    cases stored : s.program with
    | none => rfl
    | some p =>
      obtain ⟨_, -, impossible⟩ := exists_reason stored failed
      cases impossible
  · intro absent
    exact ⟨.noProgram, by rw [eval_noProgram absent], rfl⟩

/-- A session with a past never finds an empty list to evaluate. -/
theorem recalled_eval_message {past : List Operation} {e : SessionError}
    (failed : (recalled past).eval.answer = .error e) :
    e.message ≠ EvalError.emptyList.message := by
  cases stored : (recalled past).program with
  | none =>
    rw [eval_noProgram stored] at failed
    cases failed
    decide
  | some p =>
    obtain ⟨reason, result, rfl⟩ := exists_reason stored failed
    intro message
    obtain rfl := reason.message_eq_emptyList_iff.mp message
    exact Expr.eval_ne_emptyList (recalled_runnable stored).noEmptyList _ result

/-- After any operations in a fresh session, an evaluation fails for the want of a program
if and only if none was accepted. Otherwise it evaluates the program accepted last,
whatever came after it, in the environment that the evaluations since the last reset have
left. The stored program is a `begin` of at least one form, each of them a list, without
an empty list in it, and so no evaluation has failed because of one. -/
theorem fresh_performAll_lastAccepted (ops : List Operation) :
    let reply := fresh.performAll ops
    let s := reply.session
    let env := Env.afterPrograms (evaluated ops.reverse)
    ((∃ e, s.eval.answer = .error e ∧ e.message = "no program has been parsed") ↔
      .loaded (.ok ()) ∉ reply.answer) ∧
    (.loaded (.ok ()) ∈ reply.answer → ∃ before source after p,
      ops = before ++ .load source :: after ∧
      source.tokens.bind Program.accept = .ok p ∧
      ((fresh.performAll before).session.load source).answer = .ok () ∧
      .loaded (.ok ()) ∉
        (((fresh.performAll before).session.load source).session.performAll after).answer ∧
      s.eval =
        { answer := (p.expr.eval env).result.mapError .evaluation,
          session := { program := some p, env := (p.expr.eval env).env },
          events := (p.expr.eval env).events }) ∧
    s.env = env ∧
    (∀ p, s.program = some p →
      p.expr = .list (.symbol "begin" :: p.forms) ∧ p.Runnable) ∧
    (∀ e, .evaluated (.error e) ∈ reply.answer →
      e.message ≠ "invalid expression: cannot evaluate an empty list") := by
  intro reply s env
  have past : s = recalled ops.reverse := fresh_performAll ops
  refine ⟨?_, fun accepted => ?_, by rw [past]; rfl, fun p stored => ⟨rfl, ?_⟩, fun e failed => ?_⟩
  · have program : s.program = lastAccepted? ops.reverse := by rw [past]; rfl
    rw [← lastAccepted?_eq_none_iff, ← program]
    exact s.eval_message_noProgram_iff
  · cases stored : lastAccepted? ops.reverse with
    | none => exact absurd accepted (lastAccepted?_eq_none_iff.mp stored)
    | some p =>
      obtain ⟨before, source, after, split, taken, rejected⟩ := exists_source stored
      refine ⟨before, source, after, p, split, taken, ?_, ?_, ?_⟩
      · rw [load, taken]
      · rw [loaded_mem_iff]
        rintro ⟨op, member, later⟩
        exact later (rejected op member)
      · rw [past]
        exact eval_stored stored
  · rw [past] at stored
    exact recalled_runnable stored
  · obtain ⟨before, answered⟩ := exists_eval failed
    rw [fresh_performAll] at answered
    exact recalled_eval_message answered

end Session

end FormScript
