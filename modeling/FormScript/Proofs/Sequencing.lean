import FormScript.Proofs.Application
import FormScript.Proofs.Evaluation

/-!
# Operands in sequence

Operators collect the values of their operands and `begin` keeps the latest one, but both
go through all of them from left to right and stop at the first that fails
(`Expr.evalLast_eq`). By the time an operator looks at the values, nothing is left that
could bind a name or be logged. So it leaves the environment that `begin` leaves, and only
its own complaint about the values can come on top (`Expr.eval_operator_like_begin`). In
particular `and` and `or` never leave out an operand.

What `begin` does composes along `++`, whether or not one of the parts is empty. A `begin`
among the operands of another can therefore be replaced by its own operands
(`Expr.eval_begin_splice`).
-/

namespace FormScript

/-- A step that only computes changes neither the environment nor the log. -/
theorem Run.andThen_ofResult {α β : Type} (run : Run α) (compute : α → Except EvalError β) :
    (run.andThen fun a env => .ofResult env (compute a)) =
      { result := run.result.bind compute, env := run.env, events := run.events } := by
  unfold Run.andThen
  cases result : run.result with
  | error e => rfl
  | ok a => simp [ofResult, Except.bind]

/-! ## Operators -/

namespace Operator

variable {op : Operator}

/-- No operator goes without operands. -/
theorem ne_nil_of_admits {operands : List Expr}
    (admitted : op.arity.admits operands.length = true) : operands ≠ [] := by
  intro empty
  subst empty
  cases op <;> cases admitted

theorem isReserved_name (op : Operator) : isReserved op.name = true := by
  have known : Keyword.ofName? op.name = some (.operator op) := Keyword.ofName?_name (.operator op)
  rw [isReserved, known]
  rfl

/-- With an admitted count, an operator has an answer or complains about a kind. -/
theorem apply_ok_or_badType {args : List Expr}
    (admitted : op.arity.admits args.length = true) :
    (∃ answer, op.apply args = .ok answer) ∨
      ∃ position wanted given,
        op.apply args = .error (.badType op.name position wanted given) := by
  cases applied : op.apply args with
  | ok answer => exact .inl ⟨answer, rfl⟩
  | error err =>
    obtain ⟨before, misfit, -, rfl⟩ := misfit_of_apply admitted applied
    exact .inr ⟨_, _, _, rfl⟩

end Operator

namespace Expr

/-- The environment after expressions are evaluated one after the other, each of them in the
environment that the one before it leaves. -/
def envAfter (env : Env) (es : List Expr) : Env :=
  es.foldl (fun env e => (eval env e).env) env

/-- A sequence with a value for each expression has evaluated them all. -/
theorem env_of_evalAll {env : Env} {es values : List Expr}
    (returned : (evalAll env es).result = .ok values) :
    (evalAll env es).env = envAfter env es := by
  induction es generalizing env values with
  | nil =>
    rw [evalAll_nil]
    rfl
  | cons e es ih =>
    rw [evalAll_cons] at returned ⊢
    cases first : (eval env e).result with
    | error err =>
      rw [(Run.sameEnd_andThen_of_error first _).result] at returned
      cases returned
    | ok value =>
      have here := Run.sameEnd_andThen_of_ok first fun value env =>
        (evalAll env es).andThen fun values env => Run.value env (value :: values)
      rw [here.result] at returned
      rw [here.env]
      cases others : (evalAll (eval env e).env es).result with
      | error err =>
        rw [(Run.sameEnd_andThen_of_error others _).result] at returned
        cases returned
      | ok rest =>
        rw [(Run.sameEnd_andThen_of_ok others _).env]
        exact ih others

/-- With an admitted count of operands, an operator leaves the environment that `begin`
leaves, has logged the same for the operands, and fails as `begin` fails. Where `begin`
returns, every operand has been evaluated in the environment that the one before it left, and
then the operator has an answer or complains about the kind of an operand. With any other
count nothing is evaluated: the environment is as it was, and only the form itself is
logged. -/
theorem eval_operator_like_begin (op : Operator) (operands : List Expr) (env : Env) :
    let operation := eval env (.list (.symbol op.name :: operands))
    let sequence := eval env (.list (.symbol "begin" :: operands))
    (op.arity.admits operands.length = true →
      operation.env = sequence.env ∧
      (∃ log, operation.events = .form op.name operands.length :: log ∧
        sequence.events = .form "begin" operands.length :: log) ∧
      (∀ err, sequence.result = .error err → operation.result = .error err) ∧
      (∀ value, sequence.result = .ok value →
        operation.env = envAfter env operands ∧
        ((∃ answer, operation.result = .ok answer) ∨
          ∃ position wanted given,
            operation.result = .error (.badType op.name position wanted given)))) ∧
    (op.arity.admits operands.length = false →
      operation.env = env ∧
      (operands ≠ [] →
        operation = .after (.form op.name operands.length)
          (.fail env (op.badCount operands.length)))) := by
  intro operation sequence
  refine ⟨fun admitted => ?_, fun refused => ?_⟩
  · have nonempty := Operator.ne_nil_of_admits admitted
    have operated : operation = .after (.form op.name operands.length) _ :=
      (eval_operator env nonempty admitted).trans
        (congrArg _ (Run.andThen_ofResult (evalAll env operands) op.apply))
    have sequenced : sequence = .after (.form "begin" operands.length) _ :=
      (eval_begin env nonempty).trans
        (congrArg _ (Run.andThen_ofResult (evalAll env operands) _))
    rw [operated, sequenced]
    refine ⟨rfl, ⟨(evalAll env operands).events, rfl, rfl⟩, ?_⟩
    dsimp only [Run.after]
    cases ended : (evalAll env operands).result with
    | error err => exact ⟨fun _ => id, fun _ => nofun⟩
    | ok values =>
      have sameCount : values.length = operands.length := length_of_evalAll ended
      refine ⟨fun _ => nofun, fun _ _ => ⟨env_of_evalAll ended, ?_⟩⟩
      exact Operator.apply_ok_or_badType (sameCount ▸ admitted)
  · have unevaluated : operands ≠ [] → operation =
        .after (.form op.name operands.length) (.fail env (op.badCount operands.length)) :=
      fun nonempty => eval_miscounted env (k := .operator op) (by simp) nonempty refused
    refine ⟨?_, unevaluated⟩
    by_cases empty : operands = []
    · simp only [operation, empty, eval_single, eval_reserved env op.isReserved_name]
      rfl
    · rw [unevaluated empty]
      rfl

/-! ## The last value -/

theorem evalLast_append (latest : Expr) (env : Env) (front back : List Expr) :
    evalLast latest env (front ++ back) =
      (evalLast latest env front).andThen fun value env => evalLast value env back := by
  induction front generalizing latest env with
  | nil => simp [Run.value_andThen]
  | cons e front ih => simp only [List.cons_append, evalLast_cons, ih, Run.andThen_assoc]

/-- The operands of a `begin` among those of another can stand in its place. -/
theorem eval_begin_splice {operands : List Expr} (nonempty : operands ≠ [])
    (before after : List Expr) (env : Env) :
    (eval env (.list (.symbol "begin" ::
      (before ++ .list (.symbol "begin" :: operands) :: after)))).SameEnd
      (eval env (.list (.symbol "begin" :: (before ++ operands ++ after)))) := by
  have spliced : before ++ operands ++ after ≠ [] := by simp [nonempty]
  rw [eval_begin_last env (by simp) .nothing, eval_begin_last env spliced .nothing,
    List.append_assoc, evalLast_append, evalLast_append]
  refine ((Run.SameEnd.refl _).andThen fun value _ => ?_).after _ _
  rw [evalLast_append, evalLast_cons]
  refine Run.SameEnd.andThen ?_ fun _ _ => .refl _
  -- the inner `begin` starts anew, its operands from the value before them; as there are
  -- operands, neither start is what they end with
  rw [eval_begin_last _ nonempty value]
  exact Run.sameEnd_after _ _

end Expr

end FormScript
