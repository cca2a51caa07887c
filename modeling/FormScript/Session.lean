import FormScript.Eval
import FormScript.Program

/-!
# Sessions

A session holds the program that was accepted last and the environment in which it
is evaluated. A rejected program leaves both as they were, and so does a failed
evaluation except for the names that it bound before it failed.
-/

namespace FormScript

/-- Where a program comes from: a text, or a stream that gives all its bytes or fails
before. -/
inductive Source where
  | text (content : String)
  | bytes (content : ByteArray)
  | failing (reason : String)

/-- The tokens of a source, which must be a UTF-8 text. -/
def Source.tokens : Source → Except ParseError (List Token)
  | .text content => .ok (Token.scan content)
  | .bytes content =>
    match String.fromUTF8? content with
    | some decoded => .ok (Token.scan decoded)
    | none => .error (.unreadable notUtf8Text)
  | .failing reason => .error (.unreadable reason)

/-- Why a session cannot evaluate. -/
inductive SessionError where
  | noProgram
  | evaluation (reason : EvalError)

/-- The message of a failed evaluation. -/
def SessionError.message : SessionError → String
  | .noProgram => "no program has been parsed"
  | .evaluation reason => reason.message

/-- The program accepted last, if any, and the bindings made so far. -/
structure Session where
  program : Option Program
  env : Env

namespace Session

/-- A session in which nothing has happened yet. -/
def fresh : Session := { program := none, env := .initial }

/-- What an operation answers, the session after it and what it logs. -/
structure Reply (α : Type) where
  answer : α
  session : Session
  events : List Event

/-- Takes over a program, if it is accepted. -/
def load (s : Session) (source : Source) : Reply (Except ParseError Unit) :=
  match source.tokens.bind Program.accept with
  | .ok program =>
    { answer := .ok (), session := { s with program := some program }, events := [] }
  | .error e => { answer := .error e, session := s, events := [.rejected e] }

theorem load_of_accept {text : String} {p : Program}
    (accepted : Program.accept (Token.scan text) = .ok p) (s : Session) :
    s.load (.text text) =
      { answer := .ok (), session := { s with program := some p }, events := [] } := by
  have source : (Source.text text).tokens.bind Program.accept = .ok p := accepted
  rw [load, source]

theorem load_of_reject {text : String} {e : ParseError}
    (rejected : Program.accept (Token.scan text) = .error e) (s : Session) :
    s.load (.text text) = { answer := .error e, session := s, events := [.rejected e] } := by
  have source : (Source.text text).tokens.bind Program.accept = .error e := rejected
  rw [load, source]

theorem accept_of_load {text : String} {s : Session}
    (loaded : (s.load (.text text)).answer = .ok ()) :
    ∃ p, Program.accept (Token.scan text) = .ok p := by
  cases accepted : Program.accept (Token.scan text) with
  | ok p => exact ⟨p, rfl⟩
  | error e =>
    rw [load_of_reject accepted] at loaded
    cases loaded

theorem reject_of_load {text : String} {e : ParseError} {s : Session}
    (failed : (s.load (.text text)).answer = .error e) :
    Program.accept (Token.scan text) = .error e := by
  cases accepted : Program.accept (Token.scan text) with
  | ok p =>
    rw [load_of_accept accepted] at failed
    cases failed
  | error found =>
    rw [load_of_reject accepted] at failed
    cases failed
    rfl

/-- Evaluates the program accepted last. -/
def eval (s : Session) : Reply (Except SessionError Expr) :=
  match s.program with
  | none => { answer := .error .noProgram, session := s, events := [] }
  | some program =>
    let run := program.expr.eval s.env
    { answer := run.result.mapError .evaluation, session := { s with env := run.env },
      events := run.events }

theorem eval_noProgram {s : Session} (absent : s.program = none) :
    s.eval = { answer := .error .noProgram, session := s, events := [] } := by
  rw [eval, absent]

theorem eval_stored {s : Session} {p : Program} (stored : s.program = some p) :
    s.eval =
      { answer := (p.expr.eval s.env).result.mapError .evaluation,
        session := { program := some p, env := (p.expr.eval s.env).env },
        events := (p.expr.eval s.env).events } := by
  rw [eval, stored]

/-- With a program, only its evaluation can fail. -/
theorem exists_reason {s : Session} {p : Program} {e : SessionError}
    (stored : s.program = some p) (failed : s.eval.answer = .error e) :
    ∃ reason, (p.expr.eval s.env).result = .error reason ∧ e = .evaluation reason := by
  rw [eval_stored stored] at failed
  cases result : (p.expr.eval s.env).result with
  | ok value =>
    rw [result] at failed
    cases failed
  | error reason =>
    rw [result] at failed
    cases failed
    exact ⟨reason, rfl, rfl⟩

/-- Drops all bindings. -/
def reset (s : Session) : Reply Unit :=
  { answer := (), session := { s with env := .initial }, events := [.reset] }

/-! ## Sequences of operations -/

/-- What can be asked of a session. -/
inductive Operation where
  | load (source : Source)
  | eval
  | reset

/-- The answer to an operation. -/
inductive Answer where
  | loaded (result : Except ParseError Unit)
  | evaluated (result : Except SessionError Expr)
  | done

/-- Performs one operation. -/
def perform (s : Session) : Operation → Reply Answer
  | .load source =>
    let reply := s.load source
    { answer := .loaded reply.answer, session := reply.session, events := reply.events }
  | .eval =>
    let reply := s.eval
    { answer := .evaluated reply.answer, session := reply.session, events := reply.events }
  | .reset =>
    let reply := s.reset
    { answer := .done, session := reply.session, events := reply.events }

/-- Performs operations in order and collects their answers and events. -/
def performAll (s : Session) : List Operation → Reply (List Answer)
  | [] => { answer := [], session := s, events := [] }
  | op :: ops =>
    let first := s.perform op
    let rest := first.session.performAll ops
    { answer := first.answer :: rest.answer, session := rest.session,
      events := first.events ++ rest.events }

end Session

end FormScript
