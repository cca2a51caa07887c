import FormScript.Proofs.Application
import FormScript.Proofs.Evaluation

/-!
# Expressions that cannot fail

Some expressions can be told to have a value without evaluating them. An expression is
well-kinded when it is built from literals and bound names by forms that are given as
many operands as they take, each of the kind they want; `Expr.WellKinded` spells this out
for numbers and truth values. A well-kinded expression has a value of its kind, and
evaluating it binds nothing (`Expr.eval_wellKinded`).

The induction is on how the expression is built. Since no form on the way changes the
environment, the names are bound to the same values wherever they occur.
-/

namespace FormScript

/-- `Signature name kind count result`: with `count` operands of the kind `kind`, the
operator of that name gives a value of the kind `result`. -/
inductive Signature : String → Expr.Kind → Nat → Expr.Kind → Prop
  | fold {name : String} {count : Nat} :
    name ∈ ["+", "*"] → 2 ≤ count → Signature name .number count .number
  | negation : Signature "-" .number 1 .number
  | pair {name : String} : name ∈ ["-", "/"] → Signature name .number 2 .number
  | comparison {name : String} :
    name ∈ ["<", "<=", ">", ">=", "="] → Signature name .number 2 .truth
  | not : Signature "not" .truth 1 .truth
  | junction {name : String} {count : Nat} :
    name ∈ ["and", "or"] → 2 ≤ count → Signature name .truth count .truth

/-- Every signature is that of an operator. -/
theorem Signature.exists_operator {name : String} {kind result : Expr.Kind} {count : Nat}
    (signature : Signature name kind count result) :
    ∃ op : Operator, op.name = name ∧ op.arity.admits count = true ∧
      op.operandKind = kind ∧ op.resultKind = result := by
  cases signature with
  | fold named enough =>
    simp only [List.mem_cons, List.not_mem_nil, or_false] at named
    rcases named with rfl | rfl
    · exact ⟨.add, rfl, decide_eq_true enough, rfl, rfl⟩
    · exact ⟨.mul, rfl, decide_eq_true enough, rfl, rfl⟩
  | negation => exact ⟨.sub, rfl, rfl, rfl, rfl⟩
  | pair named =>
    simp only [List.mem_cons, List.not_mem_nil, or_false] at named
    rcases named with rfl | rfl
    · exact ⟨.sub, rfl, rfl, rfl, rfl⟩
    · exact ⟨.div, rfl, rfl, rfl, rfl⟩
  | comparison named =>
    simp only [List.mem_cons, List.not_mem_nil, or_false] at named
    rcases named with rfl | rfl | rfl | rfl | rfl
    · exact ⟨.less, rfl, rfl, rfl, rfl⟩
    · exact ⟨.lessEqual, rfl, rfl, rfl, rfl⟩
    · exact ⟨.greater, rfl, rfl, rfl, rfl⟩
    · exact ⟨.greaterEqual, rfl, rfl, rfl, rfl⟩
    · exact ⟨.equal, rfl, rfl, rfl, rfl⟩
  | not => exact ⟨.not, rfl, rfl, rfl, rfl⟩
  | junction named enough =>
    simp only [List.mem_cons, List.not_mem_nil, or_false] at named
    rcases named with rfl | rfl
    · exact ⟨.and, rfl, decide_eq_true enough, rfl, rfl⟩
    · exact ⟨.or, rfl, decide_eq_true enough, rfl, rfl⟩

theorem Signature.count_pos {name : String} {kind result : Expr.Kind} {count : Nat}
    (signature : Signature name kind count result) : 0 < count := by
  cases signature <;> omega

/-! ## Runs that only return -/

namespace Run

variable {α β : Type}

/-- The run returns something good and leaves the environment as it found it. -/
def Returns (env : Env) (good : α → Prop) (run : Run α) : Prop :=
  run.Satisfies (fun a after => after = env ∧ good a) fun _ _ => False

variable {env : Env} {good : α → Prop} {run : Run α}

theorem returns_value {a : α} (isGood : good a) : (value env a).Returns env good :=
  ⟨rfl, isGood⟩

theorem Returns.exists_result (returns : run.Returns env good) :
    ∃ a, run.result = .ok a ∧ good a ∧ run.env = env := by
  cases result : run.result with
  | error e => exact (returns.of_error result).elim
  | ok a =>
    obtain ⟨same, isGood⟩ := returns.of_ok result
    exact ⟨a, rfl, isGood, same⟩

theorem Returns.andThen {best : β → Prop} {next : α → Env → Run β}
    (returns : run.Returns env good) (continued : ∀ a, good a → (next a env).Returns env best) :
    (run.andThen next).Returns env best := by
  refine Satisfies.andThen returns fun a after ⟨same, isGood⟩ => ?_
  subst same
  exact continued a isGood

end Run

/-- Expressions that only return do so in sequence. -/
theorem Expr.evalAll_returns {env : Env} {es : List Expr} {good : Expr → Prop}
    (each : ∀ e ∈ es, (eval env e).Returns env good) :
    (evalAll env es).Returns env fun values =>
      (∀ v ∈ values, good v) ∧ values.length = es.length := by
  refine evalAll_satisfies (· = env) good (fun e member here same => ?_) rfl
  subst same
  exact each e member

/-! ## Well-kinded expressions -/

namespace Expr

theorem eq_number_of_kind {e : Expr} (isNumber : e.kind = .number) : ∃ x, e = .number x := by
  cases e with
  | number x => exact ⟨x, rfl⟩
  | _ => cases isNumber

theorem eq_truth_of_kind {e : Expr} (isTruth : e.kind = .truth) : ∃ b, e = .truth b := by
  cases e with
  | truth b => exact ⟨b, rfl⟩
  | _ => cases isTruth

/-- Expressions that have a value of a kind, a number or a truth value, whenever the names
are bound as in `env`. The operands of `begin` before the last may be of either kind. -/
inductive WellKinded (env : Env) : Kind → Expr → Prop
  | number (x : Float) : WellKinded env .number (.number x)
  | truth (b : Bool) : WellKinded env .truth (.truth b)
  | numberName {name : String} {x : Float} :
    isReserved name = false → env.get? name = some (.number x) →
    WellKinded env .number (.symbol name)
  | truthName {name : String} {b : Bool} :
    isReserved name = false → env.get? name = some (.truth b) →
    WellKinded env .truth (.symbol name)
  | operator {name : String} {kind result : Kind} {operands : List Expr} :
    Signature name kind operands.length result →
    (∀ operand ∈ operands, WellKinded env kind operand) →
    WellKinded env result (.list (.symbol name :: operands))
  | choose {kind : Kind} {test yes no : Expr} :
    WellKinded env .truth test → WellKinded env kind yes → WellKinded env kind no →
    WellKinded env kind (.list [.symbol "if", test, yes, no])
  | single {kind : Kind} {e : Expr} : WellKinded env kind e → WellKinded env kind (.list [e])
  | begin {kind : Kind} {front : List Expr} {last : Expr} (kinds : Expr → Kind) :
    (∀ e ∈ front, WellKinded env (kinds e) e) → WellKinded env kind last →
    WellKinded env kind (.list (.symbol "begin" :: (front ++ [last])))

theorem eval_operator_returns {env : Env} {op : Operator} {operands : List Expr}
    (nonempty : operands ≠ []) (admitted : op.arity.admits operands.length = true)
    (each : ∀ e ∈ operands, (eval env e).Returns env fun value => value.kind = op.operandKind) :
    (eval env (.list (.symbol op.name :: operands))).Returns env
      fun value => value.kind = op.resultKind := by
  rw [eval_operator env nonempty admitted]
  refine Run.Returns.andThen (evalAll_returns each) fun values ⟨kinds, count⟩ => ?_
  obtain ⟨value, applied, isKind⟩ := Operator.apply_of_kinds (count ▸ admitted) kinds
  rw [applied]
  exact Run.returns_value isKind

theorem eval_choose_returns {env : Env} {test yes no : Expr} {good : Expr → Prop}
    (tested : (eval env test).Returns env fun value => value.kind = .truth)
    (first : (eval env yes).Returns env good) (second : (eval env no).Returns env good) :
    (eval env (.list [.symbol "if", test, yes, no])).Returns env good := by
  rw [eval_choose]
  refine Run.Returns.andThen tested fun value isTruth => ?_
  obtain ⟨b, rfl⟩ := eq_truth_of_kind isTruth
  cases b with
  | true => exact first
  | false => exact second

/-- If all of a sequence only return, the last value is that of the last expression. -/
theorem evalAll_concat_returns {env : Env} {front : List Expr} {last : Expr} {good : Expr → Prop}
    (others : ∀ e ∈ front, (eval env e).Returns env fun _ => True)
    (final : (eval env last).Returns env good) :
    (evalAll env (front ++ [last])).Returns env
      fun values => ∃ value, values.getLast? = some value ∧ good value := by
  rw [evalAll_append]
  refine Run.Returns.andThen (evalAll_returns others) fun values _ => ?_
  simp only [evalAll_cons, evalAll_nil, Run.value_andThen, Run.andThen_assoc]
  refine Run.Returns.andThen final fun value isGood => ?_
  exact Run.returns_value ⟨value, List.getLast?_concat, isGood⟩

theorem eval_begin_returns {env : Env} {front : List Expr} {last : Expr} {good : Expr → Prop}
    (others : ∀ e ∈ front, (eval env e).Returns env fun _ => True)
    (final : (eval env last).Returns env good) :
    (eval env (.list (.symbol "begin" :: (front ++ [last])))).Returns env good := by
  have nonempty : front ++ [last] ≠ [] := by simp
  rw [eval_begin env nonempty]
  refine (evalAll_concat_returns others final).andThen fun values ⟨value, isLast, isGood⟩ => ?_
  rw [isLast]
  exact Run.returns_value isGood

theorem WellKinded.returns {env : Env} {kind : Kind} {e : Expr} (formed : WellKinded env kind e) :
    (eval env e).Returns env fun value => value.kind = kind := by
  induction formed with
  | number x =>
    rw [eval_number]
    exact Run.returns_value rfl
  | truth b =>
    rw [eval_truth]
    exact Run.returns_value rfl
  | numberName unreserved bound | truthName unreserved bound =>
    rw [eval_bound env unreserved bound]
    exact Run.returns_value rfl
  | operator signature _ ih =>
    have nonempty := List.length_pos_iff.mp signature.count_pos
    obtain ⟨op, rfl, admitted, rfl, rfl⟩ := signature.exists_operator
    exact eval_operator_returns nonempty admitted ih
  | choose _ _ _ tested first second => exact eval_choose_returns tested first second
  | single _ ih =>
    rw [eval_single]
    exact ih
  | begin kinds _ _ others final =>
    -- of the operands before the last it matters only that they return
    refine eval_begin_returns (fun e member => ?_) final
    exact (others e member).mono (fun _ _ after => ⟨after.1, trivial⟩) fun _ _ => id

/-- Well-kinded expressions do not fail: their value is a number or a truth value, as their
kind says, and evaluating them leaves the environment as it was. -/
theorem eval_wellKinded (env : Env) (e : Expr) :
    (WellKinded env .number e →
      ∃ x, (e.eval env).result = .ok (.number x) ∧ (e.eval env).env = env) ∧
    (WellKinded env .truth e →
      ∃ b, (e.eval env).result = .ok (.truth b) ∧ (e.eval env).env = env) := by
  constructor
  · intro formed
    obtain ⟨value, result, isNumber, kept⟩ := formed.returns.exists_result
    obtain ⟨x, rfl⟩ := eq_number_of_kind isNumber
    exact ⟨x, result, kept⟩
  · intro formed
    obtain ⟨value, result, isTruth, kept⟩ := formed.returns.exists_result
    obtain ⟨b, rfl⟩ := eq_truth_of_kind isTruth
    exact ⟨b, result, kept⟩

/-- Tests a flag and a number and then computes one of two numbers. -/
def guardedSum : Expr :=
  .list [.symbol "begin", .symbol "flag",
    .list [.symbol "if", .list [.symbol "and", .symbol "flag",
        .list [.symbol "<", .symbol "x", .symbol "pi"]],
      .list [.list [.symbol "+", .symbol "x", .list [.symbol "-", .symbol "x"], .symbol "pi"]],
      .list [.symbol "/", .symbol "x", .symbol "x"]]]

theorem eval_wellKinded_guardedSum :
    let env := (Env.initial.set "flag" (.truth true)).set "x" (.number 2)
    WellKinded env .number guardedSum ∧
      ∃ x, (guardedSum.eval env).result = .ok (.number x) ∧ (guardedSum.eval env).env = env := by
  intro env
  have flag : WellKinded env .truth (.symbol "flag") := .truthName rfl rfl
  have x : WellKinded env .number (.symbol "x") := .numberName rfl rfl
  have pi : WellKinded env .number (.symbol "pi") := .numberName rfl rfl
  have below : WellKinded env .truth (.list [.symbol "<", .symbol "x", .symbol "pi"]) :=
    .operator (.comparison (by simp)) (by simp [x, pi])
  have test : WellKinded env .truth (.list [.symbol "and", .symbol "flag",
      .list [.symbol "<", .symbol "x", .symbol "pi"]]) :=
    .operator (.junction (by simp) (by simp)) (by simp [flag, below])
  have negated : WellKinded env .number (.list [.symbol "-", .symbol "x"]) :=
    .operator .negation (by simp [x])
  have sum : WellKinded env .number
      (.list [.symbol "+", .symbol "x", .list [.symbol "-", .symbol "x"], .symbol "pi"]) :=
    .operator (.fold (by simp) (by simp)) (by simp [x, negated, pi])
  have quotient : WellKinded env .number (.list [.symbol "/", .symbol "x", .symbol "x"]) :=
    .operator (.pair (by simp)) (by simp [x])
  have formed : WellKinded env .number guardedSum :=
    @WellKinded.begin env .number [.symbol "flag"] _ (fun _ => .truth) (by simp [flag])
      (.choose test (.single sum) quotient)
  exact ⟨formed, (eval_wellKinded env guardedSum).1 formed⟩

end Expr

end FormScript
