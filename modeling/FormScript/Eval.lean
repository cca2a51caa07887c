import FormScript.Eval.Run
import FormScript.Keyword

/-!
# Evaluation

Literals and reserved names stand for themselves, any other symbol for its value. A
list of one expression is that expression. A longer list is a form: its head must
be a reserved name, which is not evaluated, and says what happens to the operands.

* `(define name value)` binds the value of `value` and returns it;
* `(begin e₁ … eₙ)` evaluates its operands in order and returns the last value;
* `(if test yes no)` evaluates `test` and then one of the other two;
* an operator evaluates all operands in order and is then applied to their values.

Every form logs its head and its operand count before anything else happens, and
checks the operand count before it evaluates an operand.
-/

namespace FormScript

/-- The name that `define` is asked to bind. -/
def defineTarget (target : Expr) : Except EvalError String :=
  match target with
  | .symbol name =>
    if isProtected name then
      .error (.badType "define" 1 .unreservedSymbol (.reservedSymbol name))
    else .ok name
  | other => .error (.badType "define" 1 (.ofKind .symbol) (.ofKind other.kind))

/-- Binds the name of a `define` form and returns its value. -/
def bindName (name : String) (value : Expr) (env : Env) : Run Expr :=
  { result := .ok value, env := env.set name value, events := [.define name value] }

namespace Expr

mutual

/-- Evaluates an expression. -/
def eval (env : Env) : Expr → Run Expr
  | .symbol name =>
    if isReserved name then .value env (.symbol name)
    else
      match env.get? name with
      | some value => .value env value
      | none => .fail env (.unbound name)
  | .list items => evalList env items
  | literal => .value env literal

/-- Evaluates a list with these items. -/
def evalList (env : Env) : List Expr → Run Expr
  | [] => .fail env .emptyList
  | [only] => eval env only
  | .symbol head :: operands =>
    .after (.form head operands.length) <|
      match Keyword.ofName? head with
      | none => .fail env (.unknownProcedure head)
      | some .define =>
        match operands with
        | [target, value] =>
          match defineTarget target with
          | .error e => .fail env e
          | .ok name => (eval env value).andThen (bindName name)
        | _ => .fail env (.badCount head (.exactly 2) operands.length)
      | some .begin =>
        match (Arity.atLeast 1).check head operands.length with
        | .error e => .fail env e
        | .ok () => evalLast .nothing env operands
      | some .choose =>
        match operands with
        | [test, yes, no] =>
          (eval env test).andThen fun value env =>
            match value with
            | .truth true => eval env yes
            | .truth false => eval env no
            | other => .fail env (.badType head 1 (.ofKind .truth) (.ofKind other.kind))
        | _ => .fail env (.badCount head (.exactly 3) operands.length)
      | some (.operator op) =>
        if op.arity.admits operands.length then
          (evalAll env operands).andThen fun values env => .ofResult env (op.apply values)
        else .fail env (op.badCount operands.length)
  | head :: _ => .fail env (.headNotSymbol head)

/-- Evaluates expressions from left to right, up to the first that fails. -/
def evalAll (env : Env) : List Expr → Run (List Expr)
  | [] => .value env []
  | e :: es =>
    (eval env e).andThen fun value env =>
      (evalAll env es).andThen fun values env => .value env (value :: values)

/-- Evaluates expressions from left to right, up to the first that fails, and keeps the
latest value, which is `latest` before the first of them. -/
def evalLast (latest : Expr) (env : Env) : List Expr → Run Expr
  | [] => .value env latest
  | e :: es => (eval env e).andThen fun value env => evalLast value env es

end

end Expr

end FormScript
