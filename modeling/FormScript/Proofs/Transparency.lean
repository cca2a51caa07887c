import Mathlib.Data.List.Forall2
import Mathlib.Logic.Relation
import FormScript.Proofs.Sequencing

/-!
# Parentheses and sequences that make no difference

Two expressions are interchangeable when they have the same result and leave the same
environment wherever they are evaluated. An expression and the list of it alone are
interchangeable, and so are a `begin` that has another `begin` among its operands and the
one in which the operands of the inner one stand in its place.

What is interchangeable on its own is interchangeable at every place that is evaluated
(`Expr.Context.fill_interchangeable`). The head of a form, the target of a `define` and
the items of a list that is no form are not such places: they are never evaluated, and an
error may quote them. `Expr.Loosens` is one of the two changes at one place, and any
number of changes is a chain of such steps (`Expr.eval_loosened`).
-/

namespace FormScript.Expr

/-! ## Interchangeable expressions -/

/-- In every environment the two expressions have the same result and leave the same
environment. -/
def Interchangeable (e other : Expr) : Prop :=
  ∀ env, (e.eval env).SameEnd (other.eval env)

theorem Interchangeable.refl (e : Expr) : e.Interchangeable e :=
  fun env => .refl (e.eval env)

theorem Interchangeable.trans {e second third : Expr} (left : e.Interchangeable second)
    (right : second.Interchangeable third) : e.Interchangeable third :=
  fun env => (left env).trans (right env)

theorem evalAll_sameEnd {es others : List Expr} (alike : List.Forall₂ Interchangeable es others)
    (env : Env) : (evalAll env es).SameEnd (evalAll env others) := by
  induction alike generalizing env with
  | nil => exact .refl _
  | cons first _ ih =>
    rw [evalAll_cons, evalAll_cons]
    refine (first env).andThen fun value _ => ?_
    exact (ih _).andThen fun values _ => .refl _

/-- The only item of a list may be exchanged. -/
theorem Interchangeable.single {e other : Expr} (same : e.Interchangeable other) :
    (Expr.list [e]).Interchangeable (.list [other]) := by
  intro env
  rw [eval_single, eval_single]
  exact same env

/-- The value of a `define` form may be exchanged, whatever its target is. -/
theorem Interchangeable.define {e other : Expr} (same : e.Interchangeable other)
    (target : Expr) :
    (Expr.list [.symbol "define", target, e]).Interchangeable
      (.list [.symbol "define", target, other]) := by
  intro env
  rw [eval_define, eval_define]
  refine Run.SameEnd.after ?_ _ _
  cases defineTarget target with
  | error err => exact .refl _
  | ok name => exact (same env).andThen fun _ _ => .refl _

/-- The parts of a conditional may be exchanged. -/
theorem Interchangeable.choose {test yes no test' yes' no' : Expr}
    (tested : test.Interchangeable test') (first : yes.Interchangeable yes')
    (second : no.Interchangeable no') :
    (Expr.list [.symbol "if", test, yes, no]).Interchangeable
      (.list [.symbol "if", test', yes', no']) := by
  intro env
  rw [eval_choose, eval_choose]
  refine ((tested env).andThen fun value _ => ?_).after _ _
  split
  · exact first _
  · exact second _
  · exact .refl _

/-- The operands of a form other than `define` may be exchanged, also where there are too
many or too few of them. -/
theorem Interchangeable.operands {k : Keyword} (notDefine : k ≠ .define)
    {operands others : List Expr} (alike : List.Forall₂ Interchangeable operands others) :
    (Expr.list (.symbol k.name :: operands)).Interchangeable
      (.list (.symbol k.name :: others)) := by
  intro env
  by_cases empty : operands = []
  · subst empty
    cases alike
    exact .refl _
  have sameCount : others.length = operands.length := alike.length_eq.symm
  have nonempty : others ≠ [] := by
    intro gone
    subst gone
    exact empty (List.forall₂_nil_right_iff.mp alike)
  -- both lists are of one length, so the form takes both or refuses both
  cases admitted : k.arity.admits operands.length with
  | false =>
    have notBegin := Keyword.ne_begin_of_refused empty admitted
    rw [eval_miscounted env notBegin empty admitted,
      eval_miscounted env notBegin nonempty (sameCount ▸ admitted), sameCount]
    exact .refl _
  | true =>
    have all := evalAll_sameEnd alike env
    cases k with
    | define => exact absurd rfl notDefine
    | begin =>
      rw [Keyword.name, eval_begin env empty, eval_begin env nonempty]
      exact (all.andThen fun _ _ => .refl _).after _ _
    | choose =>
      have three : operands.length = 3 := by
        simpa [Keyword.arity, Arity.admits] using admitted
      obtain ⟨test, yes, no, rfl⟩ := List.length_eq_three.mp three
      obtain ⟨test', yes', no', rfl⟩ := List.length_eq_three.mp (sameCount.trans three)
      simp only [List.forall₂_cons, List.forall₂_nil_left_iff, and_true] at alike
      obtain ⟨tested, first, second⟩ := alike
      exact tested.choose first second env
    | operator op =>
      rw [Keyword.name, eval_operator env empty admitted,
        eval_operator env nonempty (sameCount ▸ admitted)]
      exact (all.andThen fun _ _ => .refl _).after _ _

/-! ## Contexts -/

/-- An expression with one place left open, such that what is put there is evaluated: the
whole expression, the only item of a list, an operand of a form other than `define`, or
the value of a `define`. The list around the place stands at such a place itself, the one
that `outer` leaves open. -/
inductive Context where
  | root
  | only (outer : Context)
  | operand (outer : Context) (k : Keyword) (notDefine : k ≠ .define) (before after : List Expr)
  | value (outer : Context) (target : Expr)

namespace Context

/-- The expression with `e` at the open place. -/
def fill : Context → Expr → Expr
  | .root, e => e
  | .only outer, e => outer.fill (.list [e])
  | .operand outer k _ before after, e =>
    outer.fill (.list (.symbol k.name :: (before ++ e :: after)))
  | .value outer target, e => outer.fill (.list [.symbol "define", target, e])

/-- Interchangeable expressions can be exchanged at any place that is evaluated. -/
theorem fill_interchangeable (context : Context) {e other : Expr}
    (same : e.Interchangeable other) :
    (context.fill e).Interchangeable (context.fill other) := by
  -- from the innermost list outwards: each list is what is exchanged in the next one
  induction context generalizing e other with
  | root => exact same
  | only outer ih => exact ih same.single
  | operand outer k notDefine before after ih =>
    have kept (es : List Expr) : List.Forall₂ Interchangeable es es :=
      List.forall₂_same.mpr fun e _ => .refl e
    have alike := List.rel_append (kept before) (.cons same (kept after))
    exact ih (.operands notDefine alike)
  | value outer target ih => exact ih (same.define target)

end Context

/-! ## Loosening -/

/-- One change at one place that is evaluated: parentheses around what stands there, or the
operands of a `begin` in the place of that `begin`, where it is an operand of another. -/
inductive Loosens : Expr → Expr → Prop
  | wrap (context : Context) (e : Expr) : Loosens (context.fill e) (context.fill (.list [e]))
  | splice (context : Context) (before operands after : List Expr) : operands ≠ [] →
    Loosens
      (context.fill (.list (.symbol "begin" ::
        (before ++ .list (.symbol "begin" :: operands) :: after))))
      (context.fill (.list (.symbol "begin" :: (before ++ operands ++ after))))

theorem Loosens.interchangeable {e other : Expr} (loosens : Loosens e other) :
    e.Interchangeable other := by
  cases loosens with
  | wrap context e =>
    refine context.fill_interchangeable fun env => ?_
    rw [eval_single]
    exact .refl _
  | splice context before operands after nonempty =>
    exact context.fill_interchangeable fun env => eval_begin_splice nonempty before after env

/-- Any number of such changes, one after the other, leaves the result and the environment
of an evaluation as they are. Changes at several places of one expression are made one by
one as well, from the inside out. -/
theorem eval_loosened {e other : Expr} (changes : Relation.ReflTransGen Loosens e other)
    (env : Env) :
    (other.eval env).result = (e.eval env).result ∧ (other.eval env).env = (e.eval env).env := by
  have same : e.Interchangeable other := by
    induction changes with
    | refl => exact .refl e
    | tail _ step ih => exact ih.trans step.interchangeable
  exact ⟨(same env).result.symm, (same env).env.symm⟩

/-- A sequence in a sequence, which fails before the outer one goes on. -/
def nestedFailure : Expr :=
  .list [.symbol "begin",
    .list [.symbol "begin", .list [.symbol "define", .symbol "x", .truth true], .symbol "y"],
    .list [.symbol "define", .symbol "x", .truth false]]

/-- The same sequence without the inner one, with parentheses around two of its parts. -/
def flatFailure : Expr :=
  .list [.symbol "begin", .list [.symbol "define", .symbol "x", .list [.truth true]],
    .list [.symbol "y"], .list [.symbol "define", .symbol "x", .truth false]]

theorem eval_loosened_failure :
    Relation.ReflTransGen Loosens nestedFailure flatFailure ∧
    (flatFailure.eval .initial).result = .error (.unbound "y") ∧
    (flatFailure.eval .initial).env.get? "x" = some (.truth true) := by
  let rebound : Expr := .list [.symbol "define", .symbol "x", .truth false]
  let outer : Context := .operand .root .begin (by decide) [] [rebound]
  let wrapped : Expr := .list [.symbol "define", .symbol "x", .list [.truth true]]
  have changes : Relation.ReflTransGen Loosens nestedFailure flatFailure :=
    .head (.wrap (.value (.operand outer .begin (by decide) [] [.symbol "y"]) (.symbol "x"))
      (.truth true)) <|
    .head (.wrap (.operand outer .begin (by decide) [wrapped] []) (.symbol "y")) <|
    .single (.splice .root [] [wrapped, .list [.symbol "y"]] [rebound] (by simp))
  obtain ⟨result, env⟩ := eval_loosened changes .initial
  refine ⟨changes, result.trans rfl, ?_⟩
  rw [env]
  rfl

end FormScript.Expr
