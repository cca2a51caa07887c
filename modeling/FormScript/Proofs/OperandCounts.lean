import FormScript.Proofs.Application
import FormScript.Proofs.Evaluation

/-!
# The counts that operators take

How many operands an operator takes is stated by its arity and again by what applies
it. The two agree: `Operator.apply` has an answer or complains about a kind for every
count that the arity admits, and for any other count it complains just as the arity
does, unless it looks at the kinds first and one of them is wrong
(`Operator.apply_agrees_with_arity`).

Evaluation asks the arity before it evaluates an operand, and operands have as many
values as there are of them. So the counts that an operator states for itself are never
what fails in an evaluation.
-/

namespace FormScript

namespace Arity

variable {counts : Arity} {form : String} {found : Nat}

theorem admits_of_check (accepted : counts.check form found = .ok ()) :
    counts.admits found = true := by
  cases admitted : counts.admits found with
  | true => rfl
  | false =>
    rw [check_of_refused admitted] at accepted
    cases accepted

theorem refused_of_check {e : EvalError} (rejected : counts.check form found = .error e) :
    counts.admits found = false ∧ e = .badCount form counts found := by
  cases admitted : counts.admits found with
  | true =>
    rw [check_of_admits admitted] at rejected
    cases rejected
  | false =>
    rw [check_of_refused admitted] at rejected
    cases rejected
    exact ⟨rfl, rfl⟩

end Arity

namespace Operator

/-- The operators that look at the count of their operands before the kinds. -/
def countsFirst : Operator → Bool
  | .not | .and | .or | .add | .mul => true
  | _ => false

/-! ## Refused counts, by how an operator is applied -/

section Families

variable {form : String} {args : List Expr}

theorem negate_of_refused (notOne : args.length ≠ 1) :
    negate args = .error (.badCount "not" (.exactly 1) args.length) := by
  rcases args with _ | ⟨x, _ | ⟨y, args⟩⟩
  · rfl
  · exact absurd rfl notOne
  · rfl

theorem fold_of_refused {α : Type} (kind : Expr.Kind) (read? : Expr → Option α)
    (give : α → Expr) (start : α) (combine : α → α → α)
    (refused : (Arity.atLeast 2).admits args.length = false) :
    fold form kind read? give start combine args =
      .error (.badCount form (.atLeast 2) args.length) := by
  rw [fold, Arity.check_of_refused refused]
  rfl

theorem onPair_of_refused (combine : Float → Float → Expr)
    (all : ∀ arg ∈ args, arg.kind = .number) (notTwo : args.length ≠ 2) :
    onPair form combine args = .error (.badCount form (.exactly 2) args.length) := by
  obtain ⟨values, read, count⟩ := numbers_of_kinds form all
  rw [← count] at notTwo ⊢
  rw [onPair, read]
  rcases values with _ | ⟨x, _ | ⟨y, _ | ⟨z, values⟩⟩⟩
  · rfl
  · rfl
  · exact absurd rfl notTwo
  · rfl

theorem subtract_of_refused (all : ∀ arg ∈ args, arg.kind = .number)
    (notOne : args.length ≠ 1) (notTwo : args.length ≠ 2) :
    subtract args = .error (.badCount "-" (.between 1 2) args.length) := by
  obtain ⟨values, read, count⟩ := numbers_of_kinds "-" all
  rw [← count] at notOne notTwo ⊢
  rw [subtract, read]
  rcases values with _ | ⟨x, _ | ⟨y, _ | ⟨z, values⟩⟩⟩
  · rfl
  · exact absurd rfl notOne
  · exact absurd rfl notTwo
  · rfl

end Families

/-! ## Refused counts -/

variable {op : Operator} {args before : List Expr} {misfit : Expr}

theorem apply_of_countsFirst (first : op.countsFirst = true)
    (refused : op.arity.admits args.length = false) :
    op.apply args = .error (op.badCount args.length) := by
  cases op with
  | not =>
    have notOne : args.length ≠ 1 := by simpa [arity, Arity.admits] using refused
    exact negate_of_refused notOne
  | and | or | add | mul => exact fold_of_refused _ _ _ _ _ refused
  | _ => cases first

/-- An operator that looks at the kinds first complains about them at any count. -/
theorem apply_of_kindsFirst (later : op.countsFirst = false)
    (found : FirstMisfit op.operandKind args before misfit) :
    op.apply args = .error (op.misfitError before misfit) := by
  cases op with
  | less | lessEqual | greater | greaterEqual | equal | div => exact onPair_of_misfit _ found
  | sub => exact subtract_of_misfit found
  | _ => cases later

/-- Operands of the wanted kind, in a count that is not admitted, are refused as the
arity refuses them. -/
theorem apply_of_refused (refused : op.arity.admits args.length = false)
    (all : ∀ arg ∈ args, arg.kind = op.operandKind) :
    op.apply args = .error (op.badCount args.length) := by
  cases op with
  | not | and | or | add | mul => exact apply_of_countsFirst rfl refused
  | less | lessEqual | greater | greaterEqual | equal | div =>
    have notTwo : args.length ≠ 2 := by simpa [arity, Arity.admits] using refused
    exact onPair_of_refused _ all notTwo
  | sub =>
    have outside : 1 ≤ args.length → 2 < args.length := by
      simpa [arity, Arity.admits] using refused
    exact subtract_of_refused all (by omega) (by omega)

/-! ## Admitted counts -/

theorem exists_firstMisfit {kind : Expr.Kind} (mixed : ¬ ∀ arg ∈ args, arg.kind = kind) :
    ∃ before misfit, FirstMisfit kind args before misfit :=
  (kinds_or_misfit kind args).resolve_left mixed

/-- In an admitted count, only operands of the wanted kind have an answer. -/
theorem kinds_of_apply {value : Expr} (admitted : op.arity.admits args.length = true)
    (returned : op.apply args = .ok value) : ∀ arg ∈ args, arg.kind = op.operandKind := by
  rcases kinds_or_misfit op.operandKind args with all | ⟨before, misfit, found⟩
  · exact all
  · rw [apply_of_misfit admitted found] at returned
    cases returned

/-- In an admitted count, an operator never complains about a count. -/
theorem apply_ne_badCount (admitted : op.arity.admits args.length = true) (form : String)
    (counts : Arity) (found : Nat) : op.apply args ≠ .error (.badCount form counts found) := by
  intro failed
  obtain ⟨_, _, _, complaint⟩ := misfit_of_apply admitted failed
  cases complaint

/-! ## Operators in an evaluation -/

/-- What the arity refuses is refused before an operand is evaluated. -/
theorem eval_of_check_error {e : EvalError} (env : Env) {operands : List Expr}
    (nonempty : operands ≠ []) (rejected : op.arity.check op.name operands.length = .error e) :
    Expr.eval env (.list (.symbol op.name :: operands)) =
      .after (.form op.name operands.length) (.fail env e) := by
  obtain ⟨refused, rfl⟩ := Arity.refused_of_check rejected
  exact Expr.eval_miscounted env (k := .operator op) (by simp) nonempty refused

/-- What the arity accepts is left to the operator, once the operands have values, and the
operator finds nothing wrong with their number. -/
theorem eval_of_check_ok {env : Env} {operands values : List Expr} (nonempty : operands ≠ [])
    (accepted : op.arity.check op.name operands.length = .ok ())
    (returned : (Expr.evalAll env operands).result = .ok values) :
    (Expr.eval env (.list (.symbol op.name :: operands))).result = op.apply values ∧
      ∀ form counts found, op.apply values ≠ .error (.badCount form counts found) := by
  have admitted := Arity.admits_of_check accepted
  have sameCount : values.length = operands.length := Expr.length_of_evalAll returned
  have applied := Run.sameEnd_andThen_of_ok returned fun values env =>
    Run.ofResult env (op.apply values)
  rw [Expr.eval_operator env nonempty admitted]
  exact ⟨applied.result, apply_ne_badCount (sameCount ▸ admitted)⟩

/-- Arity and application agree. For an admitted count, operands of the wanted kind are
what it takes to have a value of the operator's kind, and otherwise the first operand of
another kind is reported. For any other count, operands of the wanted kind bring the
complaint of the arity, and if a kind is wrong as well, the operator reports what it looks
at first. In an evaluation the arity speaks before the operands are evaluated, and the
operator never complains about the number of their values. -/
theorem apply_agrees_with_arity (op : Operator) (args : List Expr) :
    (op.arity.check op.name args.length = .ok () →
      ((∃ value, op.apply args = .ok value) ↔ ∀ arg ∈ args, arg.kind = op.operandKind) ∧
      (∀ value, op.apply args = .ok value → value.kind = op.resultKind) ∧
      ((¬ ∀ arg ∈ args, arg.kind = op.operandKind) →
        ∃ before misfit, FirstMisfit op.operandKind args before misfit ∧
          op.apply args = .error (.badType op.name (before.length + 1)
            (.ofKind op.operandKind) (.ofKind misfit.kind)))) ∧
    (∀ e, op.arity.check op.name args.length = .error e →
      ((∀ arg ∈ args, arg.kind = op.operandKind) → op.apply args = .error e) ∧
      ((¬ ∀ arg ∈ args, arg.kind = op.operandKind) →
        ∃ before misfit, FirstMisfit op.operandKind args before misfit ∧
          op.apply args = .error (if op.countsFirst then e else
            .badType op.name (before.length + 1)
              (.ofKind op.operandKind) (.ofKind misfit.kind)))) ∧
    (∀ env operands, operands ≠ [] →
      (∀ e, op.arity.check op.name operands.length = .error e →
        Expr.eval env (.list (.symbol op.name :: operands)) =
          .after (.form op.name operands.length) (.fail env e)) ∧
      (op.arity.check op.name operands.length = .ok () →
        ∀ values, (Expr.evalAll env operands).result = .ok values →
          (Expr.eval env (.list (.symbol op.name :: operands))).result = op.apply values ∧
            ∀ form counts found, op.apply values ≠ .error (.badCount form counts found))) := by
  refine ⟨fun accepted => ?_, fun e rejected => ⟨fun all => ?_, fun mixed => ?_⟩,
    fun env operands nonempty => ⟨fun e => eval_of_check_error env nonempty,
      fun accepted values => eval_of_check_ok nonempty accepted⟩⟩
  · have admitted := Arity.admits_of_check accepted
    refine ⟨⟨fun ⟨value, returned⟩ => kinds_of_apply admitted returned, fun all => ?_⟩,
      fun value => kind_of_apply admitted, fun mixed => ?_⟩
    · obtain ⟨value, returned, _⟩ := apply_of_kinds admitted all
      exact ⟨value, returned⟩
    · obtain ⟨before, misfit, found⟩ := exists_firstMisfit mixed
      exact ⟨before, misfit, found, apply_of_misfit admitted found⟩
  · obtain ⟨refused, rfl⟩ := Arity.refused_of_check rejected
    exact apply_of_refused refused all
  · obtain ⟨refused, rfl⟩ := Arity.refused_of_check rejected
    obtain ⟨before, misfit, found⟩ := exists_firstMisfit mixed
    refine ⟨before, misfit, found, ?_⟩
    cases order : op.countsFirst with
    | true => exact apply_of_countsFirst order refused
    | false => exact apply_of_kindsFirst order found

end Operator

end FormScript
