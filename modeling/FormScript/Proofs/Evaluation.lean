import Mathlib.Data.List.Basic
import FormScript.Eval
import FormScript.Proofs.Parts

/-!
# How expressions are evaluated

The evaluator goes through a list by one of nine rules. `Form` names them as shapes
of the items of a list, `Form.of_items` says that every list has one of the shapes,
and one equation for each shape says what the evaluator does with it. Properties of
evaluation are proved by induction on expressions, a case split on the shape of a
list and these equations; no proof opens the evaluator itself.

`Run.Satisfies` states what holds at the end of a run, whether it returns or fails.
It composes along `Run.andThen`, and `Expr.evalAll_satisfies` carries it from the
operands of a form to their sequence.
-/

namespace FormScript

/-! ## Reserved names -/

namespace Keyword

/-- The operand counts of a form. -/
def arity : Keyword → Arity
  | .define => .exactly 2
  | .begin => .atLeast 1
  | .choose => .exactly 3
  | .operator op => op.arity

@[simp] theorem ofName?_name (k : Keyword) : ofName? k.name = some k := by
  cases k with
  | operator op => cases op <;> decide
  | _ => decide

theorem name_of_ofName? {name : String} {k : Keyword} (found : ofName? name = some k) :
    k.name = name := by
  unfold ofName? at found
  simpa using List.find?_some found

/-- `begin` takes any operands, if there are some. -/
theorem ne_begin_of_refused {k : Keyword} {operands : List Expr} (nonempty : operands ≠ [])
    (refused : k.arity.admits operands.length = false) : k ≠ .begin := by
  rintro rfl
  have positive := List.length_pos_iff.mpr nonempty
  simp only [arity, Arity.admits, decide_eq_false_iff_not] at refused
  omega

end Keyword

/-- A reserved name is the name of a keyword. -/
theorem exists_keyword {name : String} (reserved : isReserved name = true) :
    ∃ k : Keyword, k.name = name := by
  obtain ⟨k, found⟩ := Option.isSome_iff_exists.mp reserved
  exact ⟨k, Keyword.name_of_ofName? found⟩

theorem Keyword.ofName?_eq_none {name : String} (unreserved : isReserved name = false) :
    ofName? name = none := by
  simpa [isReserved] using unreserved

theorem Operator.name_ne_define (op : Operator) : op.name ≠ "define" := by
  cases op <;> decide

/-- The target that `define` accepts is a symbol with an unprotected name. -/
theorem defineTarget_ok {target : Expr} {name : String}
    (accepted : defineTarget target = .ok name) :
    target = .symbol name ∧ isProtected name = false := by
  unfold defineTarget at accepted
  split at accepted
  · split at accepted
    · cases accepted
    · next allowed =>
      cases accepted
      exact ⟨rfl, by simpa using allowed⟩
  · cases accepted

/-! ## The ends of runs -/

namespace Run

variable {α β γ : Type}

theorem value_andThen (env : Env) (a : α) (next : α → Env → Run β) :
    (value env a).andThen next = next a env := rfl

theorem andThen_value (run : Run α) : (run.andThen fun a env => value env a) = run := by
  cases run with
  | mk result env events => cases result <;> simp [andThen, value]

theorem andThen_assoc (run : Run α) (next : α → Env → Run β) (last : β → Env → Run γ) :
    (run.andThen next).andThen last = run.andThen fun a env => (next a env).andThen last := by
  cases first : run.result with
  | error e => simp [andThen, first]
  | ok a =>
    cases second : (next a run.env).result with
    | error e => simp [andThen, first, second]
    | ok b => simp [andThen, first, second]

/-- What holds at the end of a run: `post` of the value and the environment if it
returns, `fault` of the error and the environment if it fails. -/
def Satisfies (post : α → Env → Prop) (fault : EvalError → Env → Prop) (run : Run α) : Prop :=
  match run.result with
  | .ok a => post a run.env
  | .error e => fault e run.env

variable {post : α → Env → Prop} {fault : EvalError → Env → Prop}

@[simp] theorem satisfies_value {env : Env} {a : α} :
    (value env a).Satisfies post fault ↔ post a env := Iff.rfl

@[simp] theorem satisfies_fail {env : Env} {e : EvalError} :
    (fail env e : Run α).Satisfies post fault ↔ fault e env := Iff.rfl

@[simp] theorem satisfies_after {event : Event} {run : Run α} :
    (run.after event).Satisfies post fault ↔ run.Satisfies post fault := Iff.rfl

theorem Satisfies.of_ok {run : Run α} {a : α} (satisfied : run.Satisfies post fault)
    (returned : run.result = .ok a) : post a run.env := by
  simpa [Satisfies, returned] using satisfied

theorem Satisfies.of_error {run : Run α} {e : EvalError}
    (satisfied : run.Satisfies post fault) (failed : run.result = .error e) :
    fault e run.env := by
  simpa [Satisfies, failed] using satisfied

theorem Satisfies.mono {post' : α → Env → Prop} {fault' : EvalError → Env → Prop}
    {run : Run α} (satisfied : run.Satisfies post fault)
    (ok : ∀ a env, post a env → post' a env) (bad : ∀ e env, fault e env → fault' e env) :
    run.Satisfies post' fault' := by
  unfold Satisfies at satisfied ⊢
  split
  · next returned =>
    rw [returned] at satisfied
    exact ok _ _ satisfied
  · next failed =>
    rw [failed] at satisfied
    exact bad _ _ satisfied

/-- A run that fails is not continued; one that returns is continued from its value
and its environment. -/
theorem Satisfies.andThen {post' : β → Env → Prop} {run : Run α} {next : α → Env → Run β}
    (satisfied : run.Satisfies post fault)
    (continued : ∀ a env, post a env → (next a env).Satisfies post' fault) :
    (run.andThen next).Satisfies post' fault := by
  cases result : run.result with
  | error e =>
    have failed := satisfied.of_error result
    simpa [Satisfies, Run.andThen, result] using failed
  | ok a =>
    have rest := continued a run.env (satisfied.of_ok result)
    simpa [Satisfies, Run.andThen, result] using rest

end Run

namespace Run

variable {α β : Type}

/-- Two runs that end alike; their logs may differ. -/
structure SameEnd (run other : Run α) : Prop where
  result : run.result = other.result
  env : run.env = other.env

theorem SameEnd.refl (run : Run α) : run.SameEnd run :=
  ⟨rfl, rfl⟩

theorem SameEnd.symm {run other : Run α} (same : run.SameEnd other) : other.SameEnd run :=
  ⟨same.result.symm, same.env.symm⟩

theorem SameEnd.trans {run other third : Run α} (left : run.SameEnd other)
    (right : other.SameEnd third) : run.SameEnd third :=
  ⟨left.result.trans right.result, left.env.trans right.env⟩

theorem sameEnd_after (event : Event) (run : Run α) : (run.after event).SameEnd run :=
  ⟨rfl, rfl⟩

theorem SameEnd.after {run other : Run α} (same : run.SameEnd other) (event second : Event) :
    (run.after event).SameEnd (other.after second) :=
  ⟨same.result, same.env⟩

/-- Runs that end alike can be continued alike. -/
theorem SameEnd.andThen {run other : Run α} {next otherNext : α → Env → Run β}
    (same : run.SameEnd other)
    (continued : ∀ a, run.result = .ok a → (next a run.env).SameEnd (otherNext a run.env)) :
    (run.andThen next).SameEnd (other.andThen otherNext) := by
  obtain ⟨sameResult, sameEnv⟩ := same
  unfold Run.andThen
  rw [← sameResult, ← sameEnv]
  cases result : run.result with
  | error e => exact ⟨rfl, rfl⟩
  | ok a =>
    obtain ⟨restResult, restEnv⟩ := continued a result
    exact ⟨restResult, restEnv⟩

theorem sameEnd_andThen_of_error {run : Run α} {e : EvalError} (failed : run.result = .error e)
    (next : α → Env → Run β) : (run.andThen next).SameEnd (.fail run.env e) := by
  simp only [Run.andThen, failed]
  exact ⟨rfl, rfl⟩

theorem sameEnd_andThen_of_ok {run : Run α} {a : α} (returned : run.result = .ok a)
    (next : α → Env → Run β) : (run.andThen next).SameEnd (next a run.env) := by
  simp only [Run.andThen, returned]
  exact ⟨rfl, rfl⟩

end Run

/-! ## The shapes of a list -/

namespace Expr

/-- What a list is to the evaluator, by its items. -/
inductive Form : List Expr → Prop
  | empty : Form []
  | single (e : Expr) : Form [e]
  | headless {head : Expr} {operands : List Expr} :
    head.symbol? = none → operands ≠ [] → Form (head :: operands)
  | unknown {name : String} {operands : List Expr} :
    isReserved name = false → operands ≠ [] → Form (.symbol name :: operands)
  | miscounted {k : Keyword} {operands : List Expr} :
    k ≠ .begin → operands ≠ [] → k.arity.admits operands.length = false →
    Form (.symbol k.name :: operands)
  | define (target value : Expr) : Form [.symbol "define", target, value]
  | begin {operands : List Expr} : operands ≠ [] → Form (.symbol "begin" :: operands)
  | choose (test yes no : Expr) : Form [.symbol "if", test, yes, no]
  | operator {op : Operator} {operands : List Expr} :
    operands ≠ [] → op.arity.admits operands.length = true →
    Form (.symbol op.name :: operands)

/-- A form with the right number of operands has one of the last four shapes. -/
theorem Form.of_keyword {k : Keyword} {operands : List Expr} (nonempty : operands ≠ []) :
    Form (.symbol k.name :: operands) := by
  cases admitted : k.arity.admits operands.length with
  | false => exact .miscounted (Keyword.ne_begin_of_refused nonempty admitted) nonempty admitted
  | true =>
    cases k with
    | begin => exact .begin nonempty
    | operator op => exact .operator nonempty admitted
    | define =>
      have two : operands.length = 2 := by simpa [Keyword.arity, Arity.admits] using admitted
      obtain ⟨target, value, rfl⟩ := List.length_eq_two.mp two
      exact .define target value
    | choose =>
      have three : operands.length = 3 := by
        simpa [Keyword.arity, Arity.admits] using admitted
      obtain ⟨test, yes, no, rfl⟩ := List.length_eq_three.mp three
      exact .choose test yes no

theorem Form.of_items (items : List Expr) : Form items := by
  match items with
  | [] => exact .empty
  | [e] => exact .single e
  | head :: operand :: operands =>
    have nonempty : operand :: operands ≠ [] := List.cons_ne_nil _ _
    cases symbolic : head.symbol? with
    | none => exact .headless symbolic nonempty
    | some name =>
      have isSymbol : head = .symbol name := by
        cases head <;> simp_all [symbol?]
      subst isSymbol
      cases reserved : isReserved name with
      | false => exact .unknown reserved nonempty
      | true =>
        obtain ⟨k, rfl⟩ := exists_keyword reserved
        exact .of_keyword nonempty

/-! ## One equation for each shape -/

variable (env : Env)

attribute [local simp] eval evalList evalAll

@[simp] theorem eval_nothing : eval env .nothing = .value env .nothing := by
  simp

@[simp] theorem eval_truth (b : Bool) : eval env (.truth b) = .value env (.truth b) := by
  simp

@[simp] theorem eval_number (x : Float) : eval env (.number x) = .value env (.number x) := by
  simp

theorem eval_reserved {name : String} (reserved : isReserved name = true) :
    eval env (.symbol name) = .value env (.symbol name) := by
  rw [eval, if_pos reserved]

theorem eval_bound {name : String} {value : Expr} (unreserved : isReserved name = false)
    (bound : env.get? name = some value) : eval env (.symbol name) = .value env value := by
  rw [eval, if_neg (by simp [unreserved]), bound]

theorem eval_unbound {name : String} (unreserved : isReserved name = false)
    (unbound : env.get? name = none) :
    eval env (.symbol name) = .fail env (.unbound name) := by
  rw [eval, if_neg (by simp [unreserved]), unbound]

/-- Only lists have effects: any other expression just has a value, or none. -/
theorem eval_atom {e : Expr} (atomic : e.kind ≠ .list) :
    eval env e = .ofResult env (eval env e).result := by
  cases e with
  | nothing | truth b | number x => simp [Run.value, Run.ofResult]
  | symbol name =>
    cases reserved : isReserved name with
    | true =>
      rw [eval_reserved env reserved]
      rfl
    | false =>
      cases bound : env.get? name with
      | some value =>
        rw [eval_bound env reserved bound]
        rfl
      | none =>
        rw [eval_unbound env reserved bound]
        rfl
  | list items => exact absurd rfl atomic

@[simp] theorem eval_empty : eval env (.list []) = .fail env .emptyList := by
  simp

@[simp] theorem eval_single (e : Expr) : eval env (.list [e]) = eval env e := by
  simp

theorem eval_headless {head : Expr} {operands : List Expr} (symbolic : head.symbol? = none)
    (nonempty : operands ≠ []) :
    eval env (.list (head :: operands)) = .fail env (.headNotSymbol head) := by
  rw [eval, evalList]
  · exact nonempty
  · rintro name rfl
    cases symbolic

theorem eval_unknown {name : String} {operands : List Expr}
    (unreserved : isReserved name = false) (nonempty : operands ≠ []) :
    eval env (.list (.symbol name :: operands)) =
      .after (.form name operands.length) (.fail env (.unknownProcedure name)) := by
  obtain ⟨operand, rest, rfl⟩ := List.exists_cons_of_ne_nil nonempty
  rw [eval, evalList.eq_def]
  dsimp only
  rw [Keyword.ofName?_eq_none unreserved]

theorem eval_define (target value : Expr) :
    eval env (.list [.symbol "define", target, value]) =
      .after (.form "define" 2)
        (match defineTarget target with
        | .error e => .fail env e
        | .ok name => (eval env value).andThen (bindName name)) := by
  have keyword : Keyword.ofName? "define" = some .define := Keyword.ofName?_name .define
  rw [eval, evalList, keyword]
  rfl

@[simp] theorem evalLast_nil (latest : Expr) : evalLast latest env [] = .value env latest := by
  rw [evalLast]

theorem evalLast_cons (latest e : Expr) (es : List Expr) :
    evalLast latest env (e :: es) =
      (eval env e).andThen fun value env => evalLast value env es := by
  rw [evalLast]

/-- A sequence that is not empty has a last value of its own, so a `begin` may keep
anything before its first operand. -/
theorem eval_begin_last {operands : List Expr} (nonempty : operands ≠ []) (latest : Expr) :
    eval env (.list (.symbol "begin" :: operands)) =
      .after (.form "begin" operands.length) (evalLast latest env operands) := by
  have keyword : Keyword.ofName? "begin" = some .begin := Keyword.ofName?_name .begin
  obtain ⟨operand, rest, rfl⟩ := List.exists_cons_of_ne_nil nonempty
  have admitted : (Arity.atLeast 1).admits (operand :: rest).length = true := by
    simp [Arity.admits]
  rw [eval, evalList.eq_def]
  dsimp only
  rw [keyword]
  dsimp only
  rw [Arity.check_of_admits admitted, evalLast_cons, evalLast_cons]

theorem eval_choose (test yes no : Expr) :
    eval env (.list [.symbol "if", test, yes, no]) =
      .after (.form "if" 3)
        ((eval env test).andThen fun value env =>
          match value with
          | .truth true => eval env yes
          | .truth false => eval env no
          | other => .fail env (.badType "if" 1 (.ofKind .truth) (.ofKind other.kind))) := by
  have keyword : Keyword.ofName? "if" = some .choose := Keyword.ofName?_name .choose
  rw [eval, evalList, keyword]
  rfl

theorem eval_operator {op : Operator} {operands : List Expr} (nonempty : operands ≠ [])
    (admitted : op.arity.admits operands.length = true) :
    eval env (.list (.symbol op.name :: operands)) =
      .after (.form op.name operands.length)
        ((evalAll env operands).andThen fun values env => .ofResult env (op.apply values)) := by
  have keyword : Keyword.ofName? op.name = some (.operator op) :=
    Keyword.ofName?_name (.operator op)
  obtain ⟨operand, rest, rfl⟩ := List.exists_cons_of_ne_nil nonempty
  rw [eval, evalList.eq_def]
  dsimp only
  rw [keyword]
  dsimp only
  rw [if_pos admitted]

theorem eval_miscounted {k : Keyword} {operands : List Expr} (notBegin : k ≠ .begin)
    (nonempty : operands ≠ []) (refused : k.arity.admits operands.length = false) :
    eval env (.list (.symbol k.name :: operands)) =
      .after (.form k.name operands.length)
        (.fail env (.badCount k.name k.arity operands.length)) := by
  obtain ⟨operand, rest, rfl⟩ := List.exists_cons_of_ne_nil nonempty
  rw [eval, evalList.eq_def]
  dsimp only
  rw [Keyword.ofName?_name]
  cases k with
  | begin => exact absurd rfl notBegin
  | operator op =>
    have refusedOp : op.arity.admits (operand :: rest).length = false := refused
    dsimp only
    rw [if_neg (ne_true_of_eq_false refusedOp)]
    rfl
  | define =>
    dsimp only
    split
    · next two =>
      rw [two] at refused
      cases refused
    · rfl
  | choose =>
    dsimp only
    split
    · next three =>
      rw [three] at refused
      cases refused
    · rfl

@[simp] theorem evalAll_nil : evalAll env [] = .value env [] := by
  simp

theorem evalAll_cons (e : Expr) (es : List Expr) :
    evalAll env (e :: es) =
      (eval env e).andThen fun value env =>
        (evalAll env es).andThen fun values env => .value env (value :: values) := by
  rw [evalAll]

/-- A sequence is evaluated by evaluating a first part and then the rest. -/
theorem evalAll_append (front back : List Expr) :
    evalAll env (front ++ back) =
      (evalAll env front).andThen fun values env =>
        (evalAll env back).andThen fun more env => .value env (values ++ more) := by
  induction front generalizing env with
  | nil =>
    rw [List.nil_append, evalAll_nil, Run.value_andThen]
    exact (Run.andThen_value _).symm
  | cons e front ih =>
    simp only [List.cons_append, evalAll_cons, ih, Run.andThen_assoc, Run.value_andThen]

/-- Keeping the latest value only is keeping all values and taking the last of them. -/
theorem evalLast_eq (latest : Expr) (es : List Expr) :
    evalLast latest env es =
      (evalAll env es).andThen fun values env => .value env (values.getLast?.getD latest) := by
  induction es generalizing latest env with
  | nil => simp [Run.value_andThen]
  | cons e es ih =>
    simp only [evalLast_cons, ih, evalAll_cons, Run.andThen_assoc, Run.value_andThen,
      List.getLast?_cons, Option.getD_some]

theorem eval_begin {operands : List Expr} (nonempty : operands ≠ []) :
    eval env (.list (.symbol "begin" :: operands)) =
      .after (.form "begin" operands.length)
        ((evalAll env operands).andThen fun values env =>
          .value env (values.getLast?.getD .nothing)) := by
  rw [eval_begin_last env nonempty .nothing, evalLast_eq]

/-- An invariant of the environment, a property of values and what holds at a failure
carry over from every expression of a sequence to the whole sequence. -/
theorem evalAll_satisfies (inv : Env → Prop) (good : Expr → Prop)
    {fault : EvalError → Env → Prop} {es : List Expr}
    (each : ∀ e ∈ es, ∀ env, inv env →
      (eval env e).Satisfies (fun value env => inv env ∧ good value) fault)
    {env : Env} (before : inv env) :
    (evalAll env es).Satisfies
      (fun values env => inv env ∧ (∀ v ∈ values, good v) ∧ values.length = es.length)
      fault := by
  induction es generalizing env with
  | nil => simpa using before
  | cons e es ih =>
    rw [evalAll_cons]
    refine (each e List.mem_cons_self env before).andThen fun value env after => ?_
    have rest := ih (fun x member => each x (List.mem_cons_of_mem _ member)) after.1
    refine rest.andThen fun values env ⟨kept, all, count⟩ => ?_
    have allGood : ∀ v ∈ value :: values, good v :=
      List.forall_mem_cons.mpr ⟨after.2, all⟩
    exact ⟨kept, allGood, congrArg (· + 1) count⟩

/-- A sequence fails as one of its expressions fails; otherwise it has as many values
as expressions. -/
theorem evalAll_faults {fault : EvalError → Env → Prop} {es : List Expr}
    (each : ∀ e ∈ es, ∀ env, (eval env e).Satisfies (fun _ _ => True) fault) (env : Env) :
    (evalAll env es).Satisfies (fun values _ => values.length = es.length) fault := by
  have plain : ∀ e ∈ es, ∀ env, True →
      (eval env e).Satisfies (fun _ _ => True ∧ True) fault := fun e member env _ =>
    (each e member env).mono (fun _ _ _ => ⟨trivial, trivial⟩) fun _ _ => id
  have all : (evalAll env es).Satisfies _ fault :=
    evalAll_satisfies (fun _ => True) (fun _ => True) plain trivial
  exact all.mono (fun _ _ after => after.2.2) fun _ _ => id

theorem length_of_evalAll {es values : List Expr} {env : Env}
    (returned : (evalAll env es).result = .ok values) : values.length = es.length := by
  have all : (evalAll env es).Satisfies (fun values _ => values.length = es.length)
      fun _ _ => True := by
    refine evalAll_faults (fun e _ env => ?_) env
    unfold Run.Satisfies
    split <;> trivial
  exact all.of_ok returned

end Expr

end FormScript
