import Mathlib.Data.List.Basic
import FormScript.Operator

/-!
# What operators do to their operands

An operator wants all of its operands to be of one kind and answers with one kind of
value. With a count of operands that its arity admits, `Operator.apply_of_kinds` says
that operands of the wanted kind are enough for an answer, and
`Operator.apply_of_misfit` that otherwise the first operand of another kind is
reported, with its position and its kind.
-/

namespace FormScript

namespace Expr

theorem truth?_eq_none {e : Expr} : e.truth? = none ↔ e.kind ≠ .truth := by
  cases e <;> simp [truth?, kind]

theorem number?_eq_none {e : Expr} : e.number? = none ↔ e.kind ≠ .number := by
  cases e <;> simp [number?, kind]

end Expr

namespace Operator

/-- The kind that an operator wants its operands to have. -/
def operandKind : Operator → Expr.Kind
  | .not | .and | .or => .truth
  | _ => .number

/-- The kind of the values that an operator gives. -/
def resultKind : Operator → Expr.Kind
  | .add | .sub | .mul | .div => .number
  | _ => .truth

/-- The operand `misfit` is the first that is not of the wanted kind. -/
structure FirstMisfit (kind : Expr.Kind) (args before : List Expr) (misfit : Expr) : Prop where
  split : ∃ rest, args = before ++ misfit :: rest
  fits : ∀ arg ∈ before, arg.kind = kind
  differs : misfit.kind ≠ kind

/-- Operands are all of a kind, or there is a first one that is not. -/
theorem kinds_or_misfit (kind : Expr.Kind) (args : List Expr) :
    (∀ arg ∈ args, arg.kind = kind) ∨ ∃ before misfit, FirstMisfit kind args before misfit := by
  induction args with
  | nil => exact .inl (by simp)
  | cons arg args ih =>
    by_cases first : arg.kind = kind
    · rcases ih with all | ⟨before, misfit, ⟨rest, split⟩, fits, differs⟩
      · exact .inl (List.forall_mem_cons.mpr ⟨first, all⟩)
      · refine .inr ⟨arg :: before, misfit, ⟨rest, by simp [split]⟩, ?_, differs⟩
        exact List.forall_mem_cons.mpr ⟨first, fits⟩
    · exact .inr ⟨[], arg, ⟨args, rfl⟩, by simp, first⟩

theorem FirstMisfit.position_le {kind : Expr.Kind} {args before : List Expr} {misfit : Expr}
    (found : FirstMisfit kind args before misfit) : before.length + 1 ≤ args.length := by
  obtain ⟨rest, rfl⟩ := found.split
  simp only [List.length_append, List.length_cons]
  omega

/-! ## Reading operands -/

section Reading

variable {α : Type} {kind : Expr.Kind} {read? : Expr → Option α} (form : String)

theorem operand_of_kind (reads : ∀ e, read? e = none ↔ e.kind ≠ kind) {arg : Expr}
    (fits : arg.kind = kind) (position : Nat) :
    ∃ value, operand form kind read? position arg = .ok value := by
  cases taken : read? arg with
  | none => exact absurd fits ((reads arg).mp taken)
  | some value => exact ⟨value, by rw [operand, taken]⟩

theorem operand_of_misfit (reads : ∀ e, read? e = none ↔ e.kind ≠ kind) {arg : Expr}
    (differs : arg.kind ≠ kind) (position : Nat) :
    operand form kind read? position arg =
      .error (.badType form position (.ofKind kind) (.ofKind arg.kind)) := by
  rw [operand, (reads arg).mpr differs]

theorem operands_of_kinds (reads : ∀ e, read? e = none ↔ e.kind ≠ kind) {args : List Expr}
    (all : ∀ arg ∈ args, arg.kind = kind) (position : Nat) :
    ∃ values, operands form kind read? position args = .ok values ∧
      values.length = args.length := by
  induction args generalizing position with
  | nil => exact ⟨[], rfl, rfl⟩
  | cons arg args ih =>
    obtain ⟨first, others⟩ := List.forall_mem_cons.mp all
    obtain ⟨value, taken⟩ := operand_of_kind form reads first position
    obtain ⟨values, read, count⟩ := ih others (position + 1)
    refine ⟨value :: values, ?_, congrArg (· + 1) count⟩
    rw [operands, taken, read]
    rfl

theorem operands_of_misfit (reads : ∀ e, read? e = none ↔ e.kind ≠ kind)
    {args before : List Expr} {misfit : Expr} (found : FirstMisfit kind args before misfit)
    (position : Nat) :
    operands form kind read? position args =
      .error (.badType form (position + before.length) (.ofKind kind) (.ofKind misfit.kind)) := by
  obtain ⟨⟨rest, rfl⟩, fits, differs⟩ := found
  induction before generalizing position with
  | nil =>
    rw [List.nil_append, operands, operand_of_misfit form reads differs]
    rfl
  | cons arg before ih =>
    obtain ⟨first, others⟩ := List.forall_mem_cons.mp fits
    obtain ⟨value, taken⟩ := operand_of_kind form reads first position
    have later := ih (position + 1) others
    have shifted : position + 1 + before.length = position + (arg :: before).length := by
      simp only [List.length_cons]
      omega
    rw [List.cons_append, operands, taken, later, shifted]
    rfl

end Reading

section Numbers

variable (form : String) {args before : List Expr} {misfit : Expr}

theorem numbers_of_kinds (all : ∀ arg ∈ args, arg.kind = .number) :
    ∃ values, numbers form args = .ok values ∧ values.length = args.length :=
  operands_of_kinds form (fun _ => Expr.number?_eq_none) all 1

theorem numbers_of_misfit (found : FirstMisfit .number args before misfit) :
    numbers form args =
      .error (.badType form (before.length + 1) (.ofKind .number) (.ofKind misfit.kind)) := by
  rw [Nat.add_comm]
  exact operands_of_misfit form (fun _ => Expr.number?_eq_none) found 1

end Numbers

/-- The complaint about the first operand of a wrong kind. -/
def misfitError (op : Operator) (before : List Expr) (misfit : Expr) : EvalError :=
  .badType op.name (before.length + 1) (.ofKind op.operandKind) (.ofKind misfit.kind)

/-! ## Application -/

section Families

variable {form : String} {args before : List Expr} {misfit : Expr}

theorem negate_of_kinds (one : args.length = 1) (all : ∀ arg ∈ args, arg.kind = .truth) :
    ∃ value, negate args = .ok value ∧ value.kind = .truth := by
  obtain ⟨arg, rfl⟩ := List.length_eq_one_iff.mp one
  obtain ⟨value, taken⟩ := operand_of_kind "not" (fun _ => Expr.truth?_eq_none)
    (all arg List.mem_cons_self) 1
  refine ⟨.truth (!value), ?_, rfl⟩
  rw [negate, truth, taken]
  rfl

theorem negate_of_misfit (one : args.length = 1)
    (found : FirstMisfit .truth args before misfit) :
    negate args =
      .error (.badType "not" (before.length + 1) (.ofKind .truth) (.ofKind misfit.kind)) := by
  obtain ⟨arg, rfl⟩ := List.length_eq_one_iff.mp one
  obtain ⟨⟨rest, split⟩, -, differs⟩ := found
  obtain ⟨rfl, single⟩ := List.append_eq_singleton_iff.mp split.symm |>.resolve_right (by simp)
  obtain ⟨rfl, -⟩ := List.cons.inj single
  rw [negate, truth, operand_of_misfit "not" (fun _ => Expr.truth?_eq_none) differs]
  rfl

theorem fold_of_kinds {α : Type} {kind : Expr.Kind} {read? : Expr → Option α} {give : α → Expr}
    (reads : ∀ e, read? e = none ↔ e.kind ≠ kind) (gives : ∀ value, (give value).kind = kind)
    (start : α) (combine : α → α → α) (admitted : (Arity.atLeast 2).admits args.length = true)
    (all : ∀ arg ∈ args, arg.kind = kind) :
    ∃ value, fold form kind read? give start combine args = .ok value ∧ value.kind = kind := by
  obtain ⟨values, read, -⟩ := operands_of_kinds form reads all 1
  refine ⟨give (values.foldl combine start), ?_, gives _⟩
  rw [fold, Arity.check_of_admits admitted, read]
  rfl

theorem fold_of_misfit {α : Type} {kind : Expr.Kind} {read? : Expr → Option α} (give : α → Expr)
    (reads : ∀ e, read? e = none ↔ e.kind ≠ kind) (start : α) (combine : α → α → α)
    (admitted : (Arity.atLeast 2).admits args.length = true)
    (found : FirstMisfit kind args before misfit) :
    fold form kind read? give start combine args =
      .error (.badType form (before.length + 1) (.ofKind kind) (.ofKind misfit.kind)) := by
  rw [fold, Arity.check_of_admits admitted, operands_of_misfit form reads found, Nat.add_comm]
  rfl

theorem onPair_of_kinds {kind : Expr.Kind} (combine : Float → Float → Expr)
    (gives : ∀ x y, (combine x y).kind = kind) (two : args.length = 2)
    (all : ∀ arg ∈ args, arg.kind = .number) :
    ∃ value, onPair form combine args = .ok value ∧ value.kind = kind := by
  obtain ⟨values, read, count⟩ := numbers_of_kinds form all
  obtain ⟨x, y, rfl⟩ := List.length_eq_two.mp (count.trans two)
  refine ⟨combine x y, ?_, gives x y⟩
  rw [onPair, read]
  rfl

theorem onPair_of_misfit (combine : Float → Float → Expr)
    (found : FirstMisfit .number args before misfit) :
    onPair form combine args =
      .error (.badType form (before.length + 1) (.ofKind .number) (.ofKind misfit.kind)) := by
  rw [onPair, numbers_of_misfit form found]
  rfl

theorem subtract_of_kinds (oneOrTwo : args.length = 1 ∨ args.length = 2)
    (all : ∀ arg ∈ args, arg.kind = .number) :
    ∃ value, subtract args = .ok value ∧ value.kind = .number := by
  obtain ⟨values, read, count⟩ := numbers_of_kinds "-" all
  rcases oneOrTwo with one | two
  · obtain ⟨x, rfl⟩ := List.length_eq_one_iff.mp (count.trans one)
    refine ⟨.number (-x), ?_, rfl⟩
    rw [subtract, read]
    rfl
  · obtain ⟨x, y, rfl⟩ := List.length_eq_two.mp (count.trans two)
    refine ⟨.number (x - y), ?_, rfl⟩
    rw [subtract, read]
    rfl

theorem subtract_of_misfit (found : FirstMisfit .number args before misfit) :
    subtract args =
      .error (.badType "-" (before.length + 1) (.ofKind .number) (.ofKind misfit.kind)) := by
  rw [subtract, numbers_of_misfit "-" found]
  rfl

end Families

/-- Operands of the wanted kind, in an admitted count, have an answer. -/
theorem apply_of_kinds {op : Operator} {args : List Expr}
    (admitted : op.arity.admits args.length = true)
    (all : ∀ arg ∈ args, arg.kind = op.operandKind) :
    ∃ value, op.apply args = .ok value ∧ value.kind = op.resultKind := by
  cases op with
  | not =>
    have one : args.length = 1 := by simpa [arity, Arity.admits] using admitted
    exact negate_of_kinds one all
  | and | or =>
    exact fold_of_kinds (fun _ => Expr.truth?_eq_none) (fun _ => rfl) _ _ admitted all
  | less | lessEqual | greater | greaterEqual | equal | div =>
    have two : args.length = 2 := by simpa [arity, Arity.admits] using admitted
    exact onPair_of_kinds _ (fun _ _ => rfl) two all
  | add | mul =>
    exact fold_of_kinds (fun _ => Expr.number?_eq_none) (fun _ => rfl) _ _ admitted all
  | sub =>
    have bounds : 1 ≤ args.length ∧ args.length ≤ 2 := by
      simpa [arity, Arity.admits] using admitted
    exact subtract_of_kinds (by omega) all

/-- In an admitted count, the first operand of another kind is reported. -/
theorem apply_of_misfit {op : Operator} {args before : List Expr} {misfit : Expr}
    (admitted : op.arity.admits args.length = true)
    (found : FirstMisfit op.operandKind args before misfit) :
    op.apply args = .error (op.misfitError before misfit) := by
  cases op with
  | not =>
    have one : args.length = 1 := by simpa [arity, Arity.admits] using admitted
    exact negate_of_misfit one found
  | and | or =>
    exact fold_of_misfit _ (fun _ => Expr.truth?_eq_none) _ _ admitted found
  | less | lessEqual | greater | greaterEqual | equal | div => exact onPair_of_misfit _ found
  | add | mul =>
    exact fold_of_misfit _ (fun _ => Expr.number?_eq_none) _ _ admitted found
  | sub => exact subtract_of_misfit found

/-- The value of an operator is of its kind. -/
theorem kind_of_apply {op : Operator} {args : List Expr} {value : Expr}
    (admitted : op.arity.admits args.length = true) (returned : op.apply args = .ok value) :
    value.kind = op.resultKind := by
  rcases kinds_or_misfit op.operandKind args with all | ⟨before, misfit, found⟩
  · obtain ⟨answer, answered, kind⟩ := apply_of_kinds admitted all
    rw [returned] at answered
    cases answered
    exact kind
  · rw [apply_of_misfit admitted found] at returned
    cases returned

/-- With an admitted count, an operator only ever complains about a kind. -/
theorem misfit_of_apply {op : Operator} {args : List Expr} {e : EvalError}
    (admitted : op.arity.admits args.length = true) (failed : op.apply args = .error e) :
    ∃ before misfit, FirstMisfit op.operandKind args before misfit ∧
      e = op.misfitError before misfit := by
  rcases kinds_or_misfit op.operandKind args with all | ⟨before, misfit, found⟩
  · obtain ⟨answer, answered, -⟩ := apply_of_kinds admitted all
    rw [failed] at answered
    cases answered
  · rw [apply_of_misfit admitted found] at failed
    cases failed
    exact ⟨before, misfit, found, rfl⟩

end Operator

end FormScript
