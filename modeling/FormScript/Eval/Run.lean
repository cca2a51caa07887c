import FormScript.Env
import FormScript.Event
import FormScript.Eval.Error

/-!
# Runs

A run is what an evaluation leaves behind: a value or an error, the environment
afterwards and the events on the way. A failed run leaves an environment too, since
names that were bound before the failure stay bound.
-/

namespace FormScript

/-- The result of an evaluation, with the environment and the log it leaves. -/
structure Run (α : Type) where
  result : Except EvalError α
  env : Env
  events : List Event

namespace Run

variable {α β : Type}

/-- A run that only returns a value. -/
def value (env : Env) (a : α) : Run α :=
  { result := .ok a, env := env, events := [] }

/-- A run that fails at once. -/
def fail (env : Env) (e : EvalError) : Run α :=
  { result := .error e, env := env, events := [] }

/-- A run that ends with this result. -/
def ofResult (env : Env) (result : Except EvalError α) : Run α :=
  { result := result, env := env, events := [] }

/-- The same run after one more event. -/
def after (event : Event) (run : Run α) : Run α :=
  { run with events := event :: run.events }

/-- Goes on with the value and the environment of a run, unless it failed. -/
def andThen (run : Run α) (next : α → Env → Run β) : Run β :=
  match run.result with
  | .error e => { result := .error e, env := run.env, events := run.events }
  | .ok a =>
    let rest := next a run.env
    { rest with events := run.events ++ rest.events }

end Run

end FormScript
