import FormScript.Proofs.Dependence
import FormScript.Proofs.Frame

/-!
# Expressions in either order

Which of two expressions is evaluated first makes no difference if neither can bind a
name that occurs in the other: both have the results that they have on their own, and
the environment is the same in the end (`Expr.eval_comm`). Names that both only look up
do not matter, and neither does a failure of one of them, since what it has bound before
it failed stays bound in either order.

The argument joins the two sides of an evaluation. By its frame, the first expression
leaves the names alone that occur in the second, so the second depends on nothing that
the first has done; and what the first has bound is left alone by the second.
-/

namespace FormScript.Expr

variable {first second : Expr}

/-- A name that can be bound occurs in the expression. -/
theorem Defines.mentions {e : Expr} {name : String} (defines : e.Defines name) :
    e.Mentions name := by
  obtain ⟨⟨value, occurs⟩, allowed⟩ := defines
  exact ⟨mem_parts_trans (by simp) occurs, (Bool.or_eq_false_iff.mp allowed).1⟩

/-- No `define` form of the first expression binds a name that occurs in the second. Forms
with a target that is refused bind nothing and do not count. -/
def Spares (first second : Expr) : Prop :=
  ∀ name, first.Defines name → .symbol name ∉ second.parts

/-- An expression is evaluated after one that spares it as it is before. -/
theorem Spares.inStep (spares : first.Spares second) (env : Env) :
    Run.InStep (Env.Agree second.Mentions env (first.eval env).env) (second.eval env)
      (second.eval (first.eval env).env) := by
  have unchanged : ∀ name, second.Mentions name →
      (first.eval env).env.get? name = env.get? name := fun name mentioned =>
    (eval_framed first env).kept name fun defines => spares name defines mentioned.occurs
  have start : Env.Agree second.Mentions env (first.eval env).env env (first.eval env).env :=
    ⟨fun name mentioned => (unchanged name mentioned).symm, fun _ _ => rfl, fun _ _ => rfl⟩
  rcases eval_follows (Env.coupling_agree _ _ _) second (fun _ => id) _ _ start
    with ⟨_, _, impossible⟩ | inStep
  · exact impossible.elim
  · exact inStep

/-- A name that the first expression can bind is bound in either order as the first
expression binds it on its own. -/
theorem Spares.get?_of_defines (spares : first.Spares second) (spared : second.Spares first)
    (env : Env) {name : String} (defines : first.Defines name) :
    (second.eval (first.eval env).env).env.get? name =
      (first.eval (second.eval env).env).env.get? name :=
  calc (second.eval (first.eval env).env).env.get? name
    _ = (first.eval env).env.get? name :=
      (eval_framed second _).kept name fun again => spares name defines again.mentions.occurs
    _ = (first.eval (second.eval env).env).env.get? name :=
      (spared.inStep env).env.same name defines.mentions

/-- Two expressions of which neither can bind a name that occurs in the other may be
evaluated in either order. Each of them has the same result and the same log, whether it
returns or fails, and the environment in the end is the same. -/
theorem eval_comm (first second : Expr) (env : Env) (spares : first.Spares second)
    (spared : second.Spares first) :
    (first.eval (second.eval env).env).result = (first.eval env).result ∧
    (first.eval (second.eval env).env).events = (first.eval env).events ∧
    (second.eval (first.eval env).env).result = (second.eval env).result ∧
    (second.eval (first.eval env).env).events = (second.eval env).events ∧
    (second.eval (first.eval env).env).env = (first.eval (second.eval env).env).env := by
  have ofFirst := spared.inStep env
  have ofSecond := spares.inStep env
  refine ⟨ofFirst.result, ofFirst.events, ofSecond.result, ofSecond.events, ?_⟩
  refine Env.ext_get? fun name => ?_
  by_cases byFirst : first.Defines name
  · exact spares.get?_of_defines spared env byFirst
  by_cases bySecond : second.Defines name
  · exact (spared.get?_of_defines spares env bySecond).symm
  rw [(eval_framed second _).kept name bySecond, (eval_framed first _).kept name byFirst,
    (eval_framed first _).kept name byFirst, (eval_framed second _).kept name bySecond]

/-- Binds a name to what `flag` is and then takes it for a number. -/
def flagSum : Expr :=
  .list [.symbol "begin", .list [.symbol "define", .symbol "x", .symbol "flag"],
    .list [.symbol "+", .symbol "x", .symbol "x"]]

/-- Binds another name to what `flag` is not. -/
def flagNegation : Expr :=
  .list [.symbol "define", .symbol "y", .list [.symbol "not", .symbol "flag"]]

theorem eval_comm_flags :
    let env := Env.empty.set "flag" (.truth true)
    flagSum.Spares flagNegation ∧ flagNegation.Spares flagSum ∧
    (flagSum.eval (flagNegation.eval env).env).result =
      .error (.badType "+" 1 (.ofKind .number) (.ofKind .truth)) ∧
    (flagNegation.eval (flagSum.eval env).env).result = .ok (.truth false) ∧
    (flagNegation.eval (flagSum.eval env).env).env.get? "x" = some (.truth true) ∧
    (flagNegation.eval (flagSum.eval env).env).env =
      (flagSum.eval (flagNegation.eval env).env).env := by
  intro env
  have spares : flagSum.Spares flagNegation := by
    rintro name ⟨⟨value, occurs⟩, -⟩
    obtain ⟨rfl, -⟩ : name = "x" ∧ value = .symbol "flag" := by simpa [flagSum] using occurs
    simp [flagNegation]
  have spared : flagNegation.Spares flagSum := by
    rintro name ⟨⟨value, occurs⟩, -⟩
    obtain ⟨rfl, -⟩ : name = "y" ∧ value = .list [.symbol "not", .symbol "flag"] := by
      simpa [flagNegation] using occurs
    simp [flagSum]
  obtain ⟨sum, -, negation, -, same⟩ := eval_comm flagSum flagNegation env spares spared
  exact ⟨spares, spared, sum.trans rfl, negation.trans rfl, rfl, same⟩

end FormScript.Expr
