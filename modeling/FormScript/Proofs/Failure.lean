import FormScript.Proofs.Application
import FormScript.Proofs.Evaluation

/-!
# Errors tell the truth

An evaluation that fails names a fault, and the fault is there: it lies in some part
of the expression that was evaluated, and what the error says about that part is
true of it. `EvalError.Justified` states this for each kind of error. An unbound name
is moreover unbound in the environment that the failed evaluation leaves behind,
names bound on the way included.

`Expr.error_justified` is the result, for every expression and environment. The
induction carries `Run.Satisfies` with `Justified` as the condition on failures;
`EvalError.Justified.mono` lifts the fault of an operand to the form around it.
-/

namespace FormScript

/-- Why `define` refuses a target: it is no symbol, or its name is protected. -/
def RefusedTarget (target : Expr) : Prop :=
  ∀ name, target = .symbol name → isReserved name = true ∨ name = "pi"

namespace EvalError

/-- What an error says about the expression `e` and the environment after its
evaluation. A form in question is a part of `e`; its operands follow its head. -/
def Justified (e : Expr) (after : Env) : EvalError → Prop
  | .unbound name =>
    isReserved name = false ∧ .symbol name ∈ e.parts ∧ after.contains name = false
  | .emptyList => .list [] ∈ e.parts
  | .unknownProcedure name =>
    ∃ operands, .list (.symbol name :: operands) ∈ e.parts ∧ operands ≠ [] ∧
      isReserved name = false
  | .headNotSymbol head =>
    ∃ operands, .list (head :: operands) ∈ e.parts ∧ operands ≠ [] ∧ head.kind ≠ .symbol
  | .badCount form expected found =>
    ∃ (k : Keyword) (operands : List Expr), .list (.symbol form :: operands) ∈ e.parts ∧
      form = k.name ∧ k ≠ .begin ∧ expected = k.arity ∧ found = operands.length ∧
      1 ≤ found ∧ expected.admits found = false
  | .badType form position expected found =>
    ∃ (k : Keyword) (operands : List Expr), .list (.symbol form :: operands) ∈ e.parts ∧
      form = k.name ∧ k.arity.admits operands.length = true ∧
      1 ≤ position ∧ position ≤ operands.length ∧ expected.text ≠ found.text ∧
      (form = "define" → position = 1 ∧ ∃ target ∈ operands.head?, RefusedTarget target)

/-- What is true of a part is true of the whole. -/
theorem Justified.mono {part e : Expr} {after : Env} {err : EvalError}
    (within : part.parts ⊆ e.parts) (justified : err.Justified part after) :
    err.Justified e after := by
  cases err with
  | unbound name =>
    obtain ⟨unreserved, occurs, unbound⟩ := justified
    exact ⟨unreserved, within occurs, unbound⟩
  | emptyList => exact within justified
  | unknownProcedure name =>
    obtain ⟨operands, occurs, rest⟩ := justified
    exact ⟨operands, within occurs, rest⟩
  | headNotSymbol head =>
    obtain ⟨operands, occurs, rest⟩ := justified
    exact ⟨operands, within occurs, rest⟩
  | badCount form expected found =>
    obtain ⟨k, operands, occurs, rest⟩ := justified
    exact ⟨k, operands, within occurs, rest⟩
  | badType form position expected found =>
    obtain ⟨k, operands, occurs, rest⟩ := justified
    exact ⟨k, operands, within occurs, rest⟩

theorem Justified.of_item {item : Expr} {items : List Expr} {after : Env} {err : EvalError}
    (member : item ∈ items) (justified : err.Justified item after) :
    err.Justified (.list items) after :=
  justified.mono fun _ inner => Expr.mem_parts_of_item member inner

end EvalError

theorem Expr.Kind.name_injective {a b : Kind} (same : a.name = b.name) : a = b := by
  cases a <;> cases b <;> first | rfl | exact absurd same (by decide)

/-- The words for two kinds differ when the kinds do. -/
theorem Wanted.text_ne_given {wanted given : Expr.Kind} (differ : given ≠ wanted) :
    (Wanted.ofKind wanted).text ≠ (Given.ofKind given).text :=
  fun same => differ (Expr.Kind.name_injective same).symm

theorem Wanted.unreserved_ne_reserved (name : String) :
    Wanted.unreservedSymbol.text ≠ (Given.reservedSymbol name).text := by
  have wanted : Wanted.unreservedSymbol.text.toList.head? = some 'a' := by decide
  have opening : "reserved symbol '".toList.head? = some 'r' := by decide
  have words : (Given.reservedSymbol name).text = "reserved symbol '" ++ name ++ "'" := rfl
  intro same
  rw [same, words, String.toList_append, String.toList_append, List.append_assoc,
    List.head?_append, opening] at wanted
  cases wanted

/-! ## The faults that forms find themselves -/

/-- A refused target is what the complaint of `define` says it is. -/
theorem defineTarget_error {target value : Expr} {err : EvalError} (after : Env)
    (refused : defineTarget target = .error err) :
    err.Justified (.list [.symbol "define", target, value]) after := by
  have arity : (Keyword.arity .define).admits [target, value].length = true := rfl
  unfold defineTarget at refused
  split at refused
  · next name =>
    split at refused
    · next guarded =>
      cases refused
      have protectedName : isReserved name = true ∨ name = "pi" := by
        simpa [isProtected] using guarded
      refine ⟨.define, [.symbol name, value], Expr.self_mem_parts _, rfl, arity,
        Nat.le_refl 1, by simp, Wanted.unreserved_ne_reserved name,
        fun _ => ⟨rfl, .symbol name, rfl, ?_⟩⟩
      rintro _ ⟨⟩
      exact protectedName
    · cases refused
  · next noSymbol =>
    cases refused
    have differs : target.kind ≠ .symbol := by
      cases target with
      | symbol name => exact absurd rfl (noSymbol name)
      | _ => simp [Expr.kind]
    refine ⟨.define, [target, value], Expr.self_mem_parts _, rfl, arity, Nat.le_refl 1,
      by simp, Wanted.text_ne_given differs, fun _ => ⟨rfl, target, rfl, ?_⟩⟩
    exact fun name isSymbol => absurd isSymbol (noSymbol name)

/-- A misfit among the values of the operands is reported as such. -/
theorem misfit_justified {op : Operator} {operands values before : List Expr}
    {misfit : Expr} (after : Env) (admitted : op.arity.admits operands.length = true)
    (count : values.length = operands.length)
    (found : Operator.FirstMisfit op.operandKind values before misfit) :
    (op.misfitError before misfit).Justified (.list (.symbol op.name :: operands)) after := by
  refine ⟨.operator op, operands, Expr.self_mem_parts _, rfl, admitted, Nat.le_add_left 1 _,
    count ▸ found.position_le, Wanted.text_ne_given found.differs, ?_⟩
  exact fun isDefine => absurd isDefine op.name_ne_define

/-- A test without a truth value is reported as such. -/
theorem test_justified {test yes no value : Expr} (after : Env)
    (differs : value.kind ≠ .truth) :
    (EvalError.badType "if" 1 (.ofKind .truth) (.ofKind value.kind)).Justified
      (.list [.symbol "if", test, yes, no]) after := by
  refine ⟨.choose, [test, yes, no], Expr.self_mem_parts _, rfl, rfl, Nat.le_refl 1, by simp,
    Wanted.text_ne_given differs, ?_⟩
  intro isDefine
  exact absurd isDefine (by decide)

/-! ## Every error is justified -/

namespace Expr

/-- An evaluation that fails has a justified error. -/
theorem eval_justified (e : Expr) : ∀ env : Env,
    (e.eval env).Satisfies (fun _ _ => True) (fun err after => err.Justified e after) := by
  induction e with
  | nothing | truth value | number value =>
    intro env
    simp
  | symbol name =>
    intro env
    cases reserved : isReserved name with
    | true =>
      rw [eval_reserved env reserved]
      exact True.intro
    | false =>
      cases bound : env.get? name with
      | some value =>
        rw [eval_bound env reserved bound]
        exact True.intro
      | none =>
        rw [eval_unbound env reserved bound, Run.satisfies_fail]
        exact ⟨reserved, self_mem_parts _, by simp [Env.contains, bound]⟩
  | list items ih =>
    intro env
    -- The fault of an operand is a fault of the list.
    have item : ∀ x ∈ items, ∀ env : Env,
        (x.eval env).Satisfies (fun _ _ => True)
          (fun err after => err.Justified (.list items) after) := fun x member env =>
      (ih x member env).mono (fun _ _ => id) (fun _ _ justified => justified.of_item member)
    cases Form.of_items items with
    | empty => simp [EvalError.Justified]
    | single only =>
      rw [eval_single]
      exact item only List.mem_cons_self env
    | @headless head operands symbolic nonempty =>
      rw [eval_headless env symbolic nonempty]
      refine ⟨operands, self_mem_parts _, nonempty, ?_⟩
      cases head <;> simp_all [symbol?, kind]
    | @unknown name operands unreserved nonempty =>
      rw [eval_unknown env unreserved nonempty]
      exact ⟨operands, self_mem_parts _, nonempty, unreserved⟩
    | @miscounted k operands notBegin nonempty refused =>
      rw [eval_miscounted env notBegin nonempty refused]
      exact ⟨k, operands, self_mem_parts _, rfl, notBegin, rfl, rfl,
        List.length_pos_iff.mpr nonempty, refused⟩
    | define target value =>
      rw [eval_define, Run.satisfies_after]
      cases chosen : defineTarget target with
      | error err => exact defineTarget_error env chosen
      | ok name =>
        exact (item value (by simp) env).andThen fun _ _ _ => trivial
    | @begin operands nonempty =>
      rw [eval_begin env nonempty, Run.satisfies_after]
      have all := evalAll_faults (fun x member => item x (List.mem_cons_of_mem _ member)) env
      exact all.andThen fun _ _ _ => trivial
    | choose test yes no =>
      rw [eval_choose, Run.satisfies_after]
      refine (item test (by simp) env).andThen fun value env _ => ?_
      split
      · exact item yes (by simp) env
      · exact item no (by simp) env
      · next notTrue notFalse =>
        refine test_justified env ?_
        cases value with
        | truth b => cases b <;> simp_all
        | _ => simp [kind]
    | @operator op operands nonempty admitted =>
      rw [eval_operator env nonempty admitted, Run.satisfies_after]
      have all := evalAll_faults (fun x member => item x (List.mem_cons_of_mem _ member)) env
      refine all.andThen fun values env count => ?_
      cases applied : op.apply values with
      | ok value => exact trivial
      | error err =>
        obtain ⟨before, misfit, found, rfl⟩ :=
          Operator.misfit_of_apply (count ▸ admitted) applied
        exact misfit_justified env admitted count found

/-- An error is true of the expression that was evaluated and of the environment that
its evaluation leaves. -/
theorem error_justified (env : Env) (e : Expr) (err : EvalError)
    (failed : (e.eval env).result = .error err) : err.Justified e (e.eval env).env :=
  (eval_justified e env).of_error failed

/-- A sum over a name that was bound just before it and one that was not. -/
def halfBoundSum : Expr :=
  .list [.symbol "begin", .list [.symbol "define", .symbol "x", .truth true],
    .list [.symbol "+", .symbol "x", .symbol "y"]]

theorem error_justified_halfBoundSum :
    (halfBoundSum.eval .initial).result = .error (.unbound "y") ∧
      EvalError.Justified halfBoundSum (halfBoundSum.eval .initial).env (.unbound "y") :=
  ⟨rfl, error_justified .initial halfBoundSum (.unbound "y") rfl⟩

end Expr

end FormScript
