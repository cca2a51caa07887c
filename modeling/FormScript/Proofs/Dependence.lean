import FormScript.Proofs.Evaluation

/-!
# What an evaluation depends on

An evaluation reads and binds the unreserved names that occur in its expression and
no others. So it goes the same way in two environments that agree on these names
(`Expr.eval_noninterference`), and further bindings do not disturb an evaluation that
found every name it looked up (`Expr.eval_weakening`).

Both compare two evaluations of one expression. `Env.Coupling` is what a relation
between the two environments has to satisfy: looking up a name gives the same in both,
or else an error that is excused, and binding a name in both keeps them related.
`Expr.eval_follows` carries any such relation through every expression, and the two
results are the relations `Env.Agree` and `Env.Extends`. Both relations also say what
has become of the environments since the beginning, so that the names which an
evaluation leaves alone need no induction of their own.
-/

namespace FormScript

/-! ## Two runs side by side -/

namespace Run

variable {α β : Type}

/-- Two runs that end alike and log the same, in related environments. -/
structure InStep (related : Env → Env → Prop) (run other : Run α) : Prop where
  result : other.result = run.result
  events : other.events = run.events
  env : related run.env other.env

/-- The second run is in step with the first, unless that fails with an excused
error. -/
def Follows (related : Env → Env → Prop) (excused : EvalError → Prop) (run other : Run α) :
    Prop :=
  (∃ err, run.result = .error err ∧ excused err) ∨ InStep related run other

variable {related : Env → Env → Prop} {excused : EvalError → Prop} {env other : Env}

theorem follows_ofResult (both : related env other) (result : Except EvalError α) :
    Follows related excused (ofResult env result) (ofResult other result) :=
  .inr ⟨rfl, rfl, both⟩

theorem follows_value (both : related env other) (a : α) :
    Follows related excused (value env a) (value other a) :=
  follows_ofResult both (.ok a)

theorem follows_fail (both : related env other) (err : EvalError) :
    Follows related excused (fail env err : Run α) (fail other err) :=
  follows_ofResult both (.error err)

theorem Follows.after {run second : Run α} (follows : Follows related excused run second)
    (event : Event) : Follows related excused (run.after event) (second.after event) := by
  rcases follows with failed | ⟨result, events, both⟩
  · exact .inl failed
  · exact .inr ⟨result, congrArg (event :: ·) events, both⟩

/-- Runs in step are continued in step, from related environments. -/
theorem Follows.andThen {run second : Run α} {next : α → Env → Run β}
    (follows : Follows related excused run second)
    (continued : ∀ a env other, related env other →
      Follows related excused (next a env) (next a other)) :
    Follows related excused (run.andThen next) (second.andThen next) := by
  unfold Run.andThen
  rcases follows with ⟨err, failed, allowed⟩ | ⟨result, events, both⟩
  · rw [failed]
    exact .inl ⟨err, rfl, allowed⟩
  · rw [result, events]
    cases run.result with
    | error err => exact .inr ⟨rfl, rfl, both⟩
    | ok a =>
      rcases continued a run.env second.env both with failed | ⟨result, events, after⟩
      · exact .inl failed
      · exact .inr ⟨result, congrArg (run.events ++ ·) events, after⟩

end Run

/-! ## Names that matter -/

/-- A name that can be looked up or bound occurs in an expression. -/
structure Expr.Mentions (e : Expr) (name : String) : Prop where
  occurs : .symbol name ∈ e.parts
  unreserved : isReserved name = false

theorem Expr.Mentions.of_item {item : Expr} {items : List Expr} {name : String}
    (mentioned : item.Mentions name) (member : item ∈ items) :
    (Expr.list items).Mentions name :=
  ⟨mem_parts_of_item member mentioned.occurs, mentioned.unreserved⟩

/-- A relation between two environments that evaluation over these names keeps. Only
excused errors may come of a name that is bound in the second environment alone. -/
structure Env.Coupling (names : String → Prop) (related : Env → Env → Prop)
    (excused : EvalError → Prop) : Prop where
  lookup : ∀ env other name, related env other → names name →
    env.get? name = other.get? name ∨ env.get? name = none ∧ excused (.unbound name)
  bind : ∀ env other name value, related env other → names name →
    related (env.set name value) (other.set name value)

/-! ## Evaluation in step -/

namespace Expr

variable {names : String → Prop} {related : Env → Env → Prop} {excused : EvalError → Prop}

theorem evalAll_follows {es : List Expr}
    (each : ∀ e ∈ es, ∀ env other, related env other →
      (e.eval env).Follows related excused (e.eval other))
    {env other : Env} (both : related env other) :
    (evalAll env es).Follows related excused (evalAll other es) := by
  induction es generalizing env other with
  | nil =>
    rw [evalAll_nil, evalAll_nil]
    exact Run.follows_value both []
  | cons e es ih =>
    obtain ⟨first, others⟩ := List.forall_mem_cons.mp each
    rw [evalAll_cons, evalAll_cons]
    refine (first env other both).andThen fun value env other both => ?_
    refine (ih others both).andThen fun values env other both => ?_
    exact Run.follows_value both (value :: values)

theorem eval_symbol_follows (coupling : Env.Coupling names related excused) {name : String}
    (within : isReserved name = false → names name) {env other : Env}
    (both : related env other) :
    (eval env (.symbol name)).Follows related excused (eval other (.symbol name)) := by
  cases reserved : isReserved name with
  | true =>
    rw [eval_reserved env reserved, eval_reserved other reserved]
    exact Run.follows_value both _
  | false =>
    rcases coupling.lookup env other name both (within reserved) with same | ⟨unbound, allowed⟩
    · cases bound : env.get? name with
      | some value =>
        rw [eval_bound env reserved bound, eval_bound other reserved (same ▸ bound)]
        exact Run.follows_value both value
      | none =>
        rw [eval_unbound env reserved bound, eval_unbound other reserved (same ▸ bound)]
        exact Run.follows_fail both _
    · rw [eval_unbound env reserved unbound]
      exact .inl ⟨.unbound name, rfl, allowed⟩

/-- An expression is evaluated in step from environments that are related. -/
theorem eval_follows (coupling : Env.Coupling names related excused) (e : Expr)
    (within : ∀ name, e.Mentions name → names name) :
    ∀ env other, related env other →
      (e.eval env).Follows related excused (e.eval other) := by
  induction e with
  | nothing | truth b | number x =>
    intro env other both
    simpa using Run.follows_value both _
  | symbol name =>
    intro env other both
    exact eval_symbol_follows coupling (fun free => within name ⟨self_mem_parts _, free⟩) both
  | list items ih =>
    intro env other both
    have item : ∀ x ∈ items, ∀ env other, related env other →
        (x.eval env).Follows related excused (x.eval other) := fun x member =>
      ih x member fun name mentioned => within name (mentioned.of_item member)
    cases Form.of_items items with
    | empty =>
      rw [eval_empty, eval_empty]
      exact Run.follows_fail both _
    | single only =>
      rw [eval_single, eval_single]
      exact item only List.mem_cons_self env other both
    | headless symbolic nonempty =>
      rw [eval_headless env symbolic nonempty, eval_headless other symbolic nonempty]
      exact Run.follows_fail both _
    | unknown unreserved nonempty =>
      rw [eval_unknown env unreserved nonempty, eval_unknown other unreserved nonempty]
      exact (Run.follows_fail both _).after _
    | miscounted notBegin nonempty refused =>
      rw [eval_miscounted env notBegin nonempty refused,
        eval_miscounted other notBegin nonempty refused]
      exact (Run.follows_fail both _).after _
    | define target value =>
      rw [eval_define, eval_define]
      refine Run.Follows.after ?_ _
      cases chosen : defineTarget target with
      | error err => exact Run.follows_fail both err
      | ok name =>
        obtain ⟨rfl, allowed⟩ := defineTarget_ok chosen
        have unreserved : isReserved name = false := (Bool.or_eq_false_iff.mp allowed).1
        have named : names name := within name ⟨by simp, unreserved⟩
        refine (item value (by simp) env other both).andThen fun value env other both => ?_
        exact .inr ⟨rfl, rfl, coupling.bind env other name value both named⟩
    | @begin operands nonempty =>
      rw [eval_begin env nonempty, eval_begin other nonempty]
      have all : (evalAll env operands).Follows related excused (evalAll other operands) :=
        evalAll_follows (fun x member => item x (List.mem_cons_of_mem _ member)) both
      refine (all.andThen fun values env other both => ?_).after _
      exact Run.follows_value both _
    | choose test yes no =>
      rw [eval_choose, eval_choose]
      refine Run.Follows.after ?_ _
      refine (item test (by simp) env other both).andThen fun value env other both => ?_
      split
      · exact item yes (by simp) env other both
      · exact item no (by simp) env other both
      · exact Run.follows_fail both _
    | @operator op operands nonempty admitted =>
      rw [eval_operator env nonempty admitted, eval_operator other nonempty admitted]
      have all : (evalAll env operands).Follows related excused (evalAll other operands) :=
        evalAll_follows (fun x member => item x (List.mem_cons_of_mem _ member)) both
      refine (all.andThen fun values env other both => ?_).after _
      exact Run.follows_ofResult both _

end Expr

/-! ## Environments that agree on the names -/

namespace Env

/-- Two environments agree on the names, and each of them is as it was in the beginning
on all others. -/
structure Agree (names : String → Prop) (start startOther env other : Env) : Prop where
  same : ∀ name, names name → env.get? name = other.get? name
  kept : ∀ name, ¬ names name → env.get? name = start.get? name
  keptOther : ∀ name, ¬ names name → other.get? name = startOther.get? name

theorem coupling_agree (names : String → Prop) (start startOther : Env) :
    Coupling names (Agree names start startOther) fun _ => False where
  lookup _ _ name agree named := .inl (agree.same name named)
  bind env other name value agree named := by
    have different : ∀ second, ¬ names second → name ≠ second := by
      rintro _ unnamed rfl
      exact unnamed named
    refine ⟨fun second secondNamed => ?_, fun second unnamed => ?_, fun second unnamed => ?_⟩
    · rw [get?_set, get?_set, agree.same second secondNamed]
    · rw [get?_set_of_ne (different second unnamed), agree.kept second unnamed]
    · rw [get?_set_of_ne (different second unnamed), agree.keptOther second unnamed]

end Env

namespace Expr

/-- In environments that agree on the unreserved names of an expression, its evaluation
has the same result and the same log. The environments agree on these names afterwards,
and each of them keeps its own bindings of all other names. -/
theorem eval_noninterference (e : Expr) (env other : Env)
    (agree : ∀ name, e.Mentions name → env.get? name = other.get? name) :
    (e.eval env).result = (e.eval other).result ∧
    (e.eval env).events = (e.eval other).events ∧
    (∀ name, e.Mentions name → (e.eval env).env.get? name = (e.eval other).env.get? name) ∧
    (∀ name, ¬ e.Mentions name →
      (e.eval env).env.get? name = env.get? name ∧
        (e.eval other).env.get? name = other.get? name) := by
  have start : Env.Agree e.Mentions env other env other :=
    ⟨agree, fun _ _ => rfl, fun _ _ => rfl⟩
  rcases eval_follows (Env.coupling_agree e.Mentions env other) e (fun _ => id) env other start
    with ⟨_, _, impossible⟩ | ⟨result, events, ended⟩
  · exact impossible.elim
  · exact ⟨result.symm, events.symm, ended.same, fun name unmentioned =>
      ⟨ended.kept name unmentioned, ended.keptOther name unmentioned⟩⟩

/-- Binds the negation of a name and then takes it for a number. -/
def negatedSum : Expr :=
  .list [.symbol "begin",
    .list [.symbol "define", .symbol "x", .list [.symbol "not", .symbol "flag"]],
    .list [.symbol "+", .symbol "x", .symbol "x"]]

/-- A binding of the operator's name and one of an absent name make no difference. -/
theorem eval_noninterference_negatedSum :
    let env := Env.empty.set "flag" (.truth true)
    let other := (env.set "not" .nothing).set "y" .nothing
    (∀ name, negatedSum.Mentions name → env.get? name = other.get? name) ∧
    (negatedSum.eval env).result =
      .error (.badType "+" 1 (.ofKind .number) (.ofKind .truth)) ∧
    (negatedSum.eval other).result = (negatedSum.eval env).result ∧
    (negatedSum.eval other).events = (negatedSum.eval env).events ∧
    (negatedSum.eval other).env.get? "x" = some (.truth false) ∧
    (negatedSum.eval other).env.get? "not" = some .nothing ∧
    (negatedSum.eval env).env.get? "not" = none := by
  intro env other
  have agree : ∀ name, negatedSum.Mentions name → env.get? name = other.get? name := by
    rintro name ⟨occurs, unreserved⟩
    have absent : "y" ≠ name := by
      rintro rfl
      simp [negatedSum] at occurs
    have operator : "not" ≠ name := by
      rintro rfl
      cases unreserved
    rw [Env.get?_set_of_ne absent, Env.get?_set_of_ne operator]
  obtain ⟨result, events, same, kept⟩ := eval_noninterference negatedSum env other agree
  have unmentioned : ¬ negatedSum.Mentions "not" := fun mentioned => nomatch mentioned.unreserved
  have failed : (negatedSum.eval env).result =
      .error (.badType "+" 1 (.ofKind .number) (.ofKind .truth)) := rfl
  have bound : (negatedSum.eval env).env.get? "x" = some (.truth false) := rfl
  refine ⟨agree, failed, result.symm, events.symm, ?_, (kept _ unmentioned).2,
    (kept _ unmentioned).1⟩
  rw [← same "x" ⟨by simp [negatedSum], rfl⟩, bound]

end Expr

/-! ## Environments with further bindings -/

/-- The second environment has all bindings of the first, and is as it was in the
beginning on the names that the first does not bind. -/
structure Env.Extends (startOther env other : Env) : Prop where
  included : ∀ name value, env.get? name = some value → other.get? name = some value
  kept : ∀ name, env.get? name = none → other.get? name = startOther.get? name

/-- A name was looked up and not found. -/
def EvalError.IsUnbound (err : EvalError) : Prop :=
  ∃ name, err = .unbound name

theorem Env.coupling_extends (startOther : Env) :
    Coupling (fun _ => True) (Extends startOther) EvalError.IsUnbound where
  lookup env other name extended _ := by
    cases bound : env.get? name with
    | none => exact .inr ⟨rfl, name, rfl⟩
    | some value => exact .inl (extended.included name value bound).symm
  bind env other name value extended _ := by
    refine ⟨fun second found bound => ?_, fun second unbound => ?_⟩
    · rw [get?_set] at bound
      split at bound
      · next same => rw [get?_set, if_pos same, bound]
      · next different =>
        rw [get?_set_of_ne different]
        exact extended.included second found bound
    · rw [get?_set] at unbound
      split at unbound
      · cases unbound
      · next different => rw [get?_set_of_ne different, extended.kept second unbound]

namespace Expr

/-- An evaluation that does not fail at an unbound name goes the same way in an
environment with further bindings. What it leaves bound is bound there too, and all
other names are as they were. -/
theorem eval_weakening (e : Expr) (env larger : Env)
    (included : ∀ name value, env.get? name = some value → larger.get? name = some value)
    (found : ∀ name, (e.eval env).result ≠ .error (.unbound name)) :
    (e.eval larger).result = (e.eval env).result ∧
    (e.eval larger).events = (e.eval env).events ∧
    (∀ name value, (e.eval env).env.get? name = some value →
      (e.eval larger).env.get? name = some value) ∧
    (∀ name, (e.eval env).env.get? name = none →
      (e.eval larger).env.get? name = larger.get? name) := by
  have start : Env.Extends larger env larger := ⟨included, fun _ _ => rfl⟩
  rcases eval_follows (Env.coupling_extends larger) e (fun _ _ => trivial) env larger start
    with ⟨_, failed, name, rfl⟩ | ⟨result, events, ended⟩
  · exact absurd failed (found name)
  · exact ⟨result, events, ended.included, ended.kept⟩

/-- Binds a name and then tests it without saying what to do. -/
def bareTest : Expr :=
  .list [.symbol "begin", .list [.symbol "define", .symbol "x", .truth true],
    .list [.symbol "if", .symbol "x", .symbol "y"]]

/-- A name that is bound on the way may have another value before. -/
theorem eval_weakening_bareTest :
    let larger := (Env.empty.set "x" (.truth false)).set "y" .nothing
    (∀ name, (bareTest.eval .empty).result ≠ .error (.unbound name)) ∧
    (bareTest.eval larger).result = .error (.badCount "if" (.exactly 3) 2) ∧
    (bareTest.eval larger).env.get? "x" = some (.truth true) ∧
    (bareTest.eval larger).env.get? "y" = some .nothing := by
  intro larger
  have failed : (bareTest.eval .empty).result = .error (.badCount "if" (.exactly 3) 2) := rfl
  have included : ∀ name value, Env.empty.get? name = some value →
      larger.get? name = some value := by
    intro name value bound
    simp [Env.empty, Env.get?] at bound
  have found : ∀ name, (bareTest.eval .empty).result ≠ .error (.unbound name) := by
    intro name missed
    rw [failed] at missed
    cases missed
  obtain ⟨result, -, bound, kept⟩ := eval_weakening bareTest .empty larger included found
  exact ⟨found, result.trans failed, bound "x" (.truth true) rfl, kept "y" rfl⟩

end Expr

end FormScript
