import FormScript.Proofs.Evaluation

/-!
# The order in which forms are entered

An evaluation logs every form when it enters it. Forms are entered at most once and in
the order in which they are written, an outer form before the forms inside it: what a
log says about the forms is a sublist of what `Expr.parts` lists, with the forms left
out that are never reached (`Expr.eval_in_order`). This holds however the evaluation
ends. When it returns, every `define` form that was entered has bound its name.

`Run.Enters` states both of a single run, against a listing of the forms that it may
enter. The listing of a continued run is that of its first part followed by that of
the continuation.
-/

namespace FormScript

/-! ## Forms in logs and in expressions -/

/-- The head and the operand count of the form that an event reports. -/
def Event.entry? : Event → Option (String × Nat)
  | .form head operands => some (head, operands)
  | _ => none

/-- Whether an event reports a binding. -/
def Event.isDefine : Event → Bool
  | .define _ _ => true
  | _ => false

/-- The head and the operand count of an expression that is a form: a list of two or more
items, the first of which is a symbol. -/
def Expr.entry? : Expr → Option (String × Nat)
  | .list (.symbol head :: operand :: operands) => some (head, (operand :: operands).length)
  | _ => none

/-- The forms in an expression, outermost first and from left to right. -/
def Expr.entries (e : Expr) : List (String × Nat) :=
  e.parts.filterMap entry?

/-- The forms that a run enters, in order. -/
def Run.entries {α : Type} (run : Run α) : List (String × Nat) :=
  run.events.filterMap Event.entry?

/-- How many names a run binds. -/
def Run.bound {α : Type} (run : Run α) : Nat :=
  run.events.countP Event.isDefine

/-- How many `define` forms a run enters. -/
def Run.defines {α : Type} (run : Run α) : Nat :=
  run.entries.countP (·.1 == "define")

namespace Expr

theorem filterMap_partsAll (es : List Expr) :
    (partsAll es).filterMap entry? = es.flatMap entries := by
  induction es with
  | nil => rfl
  | cons e es ih => rw [partsAll, List.filterMap_append, ih, List.flatMap_cons, entries]

theorem entries_single (e : Expr) : (Expr.list [e]).entries = e.entries := by
  have plain : entry? (.list [e]) = none := by cases e <;> rfl
  rw [entries, parts, List.filterMap_cons_none plain, filterMap_partsAll, List.flatMap_singleton]

theorem entries_form (head : String) {operands : List Expr} (nonempty : operands ≠ []) :
    (Expr.list (.symbol head :: operands)).entries =
      (head, operands.length) :: operands.flatMap entries := by
  obtain ⟨operand, rest, rfl⟩ := List.exists_cons_of_ne_nil nonempty
  have isForm : entry? (.list (.symbol head :: operand :: rest)) =
      some (head, (operand :: rest).length) := rfl
  rw [entries, parts, List.filterMap_cons_some isForm, filterMap_partsAll]
  rfl

end Expr

/-! ## Runs and the forms they may enter -/

namespace Run

variable {α β : Type} {listing : List (String × Nat)}

/-- The run enters forms of the listing, in its order, and has bound as many names as it
has entered `define` forms if it returns. -/
structure Enters (listing : List (String × Nat)) (run : Run α) : Prop where
  inOrder : run.entries.Sublist listing
  settled : ∀ a, run.result = .ok a → run.bound = run.defines

theorem enters_ofResult (env : Env) (result : Except EvalError α) :
    (ofResult env result).Enters listing :=
  ⟨List.nil_sublist _, fun _ _ => rfl⟩

theorem enters_value (env : Env) (a : α) : (value env a).Enters listing :=
  enters_ofResult env (.ok a)

theorem enters_fail (env : Env) (e : EvalError) : (fail env e : Run α).Enters listing :=
  enters_ofResult env (.error e)

theorem Enters.mono {larger : List (String × Nat)} {run : Run α} (enters : run.Enters listing)
    (within : listing.Sublist larger) : run.Enters larger :=
  ⟨enters.inOrder.trans within, enters.settled⟩

/-- A continued run enters the forms of its first part and then those of the
continuation. -/
theorem Enters.andThen {front back : List (String × Nat)} {run : Run α}
    {next : α → Env → Run β} (enters : run.Enters front)
    (continued : ∀ a env, (next a env).Enters back) :
    (run.andThen next).Enters (front ++ back) := by
  unfold Run.andThen
  cases result : run.result with
  | error e =>
    refine ⟨enters.inOrder.trans (List.sublist_append_left front back), fun _ returned => ?_⟩
    cases returned
  | ok a =>
    have first := enters.settled a result
    obtain ⟨inOrder, settled⟩ := continued a run.env
    refine ⟨?_, fun b returned => ?_⟩
    · simp only [entries, List.filterMap_append]
      exact enters.inOrder.append inOrder
    · have second := settled b returned
      simp only [bound, defines, entries, List.filterMap_append, List.countP_append]
        at first second ⊢
      rw [first, second]

/-- What comes of the values adds nothing to the log. -/
theorem Enters.andThen_ofResult {run : Run α} (enters : run.Enters listing)
    (finish : α → Except EvalError β) :
    (run.andThen fun a env => .ofResult env (finish a)).Enters listing := by
  have all : (run.andThen fun a env => .ofResult env (finish a)).Enters (listing ++ []) :=
    enters.andThen fun a env => enters_ofResult env (finish a)
  rwa [List.append_nil] at all

/-- A form that fails at once is entered. -/
theorem enters_refused (env : Env) (e : EvalError) (head : String) (operands : Nat) :
    ((fail env e : Run α).after (.form head operands)).Enters ((head, operands) :: listing) := by
  refine ⟨(List.nil_sublist listing).cons_cons _, fun _ returned => ?_⟩
  cases returned

/-- A form other than `define` is entered before the forms that its run enters. -/
theorem Enters.after_form {run : Run α} {head : String} (enters : run.Enters listing)
    (other : head ≠ "define") (operands : Nat) :
    (run.after (.form head operands)).Enters ((head, operands) :: listing) := by
  refine ⟨enters.inOrder.cons_cons _, fun a returned => ?_⟩
  have count : (run.after (.form head operands)).defines = run.defines :=
    List.countP_cons_of_neg (by simpa using other)
  rw [count]
  exact enters.settled a returned

/-- Binding a name enters no form. -/
theorem entries_bindName (run : Run Expr) (name : String) :
    (run.andThen (bindName name)).entries = run.entries := by
  unfold Run.andThen
  cases run.result with
  | error e => rfl
  | ok value => simp [entries, bindName, Event.entry?]

theorem bound_bindName {run : Run Expr} {value : Expr} (returned : run.result = .ok value)
    (name : String) : (run.andThen (bindName name)).bound = run.bound + 1 := by
  simp [Run.andThen, returned, bound, bindName, Event.isDefine]

/-- A `define` form is entered, then the forms of its value, and at last a name is
bound. -/
theorem Enters.define {run : Run Expr} (enters : run.Enters listing) (name : String) :
    ((run.andThen (bindName name)).after (.form "define" 2)).Enters
      (("define", 2) :: listing) := by
  have entered : ((run.andThen (bindName name)).after (.form "define" 2)).entries =
      ("define", 2) :: run.entries := congrArg (("define", 2) :: ·) (entries_bindName run name)
  refine ⟨entered ▸ enters.inOrder.cons_cons _, fun a returned => ?_⟩
  cases result : run.result with
  | error e => simp [after, Run.andThen, result] at returned
  | ok value =>
    -- the binding makes up for the form, which the log of the value knows nothing of
    calc (run.andThen (bindName name)).bound
      _ = run.bound + 1 := bound_bindName result name
      _ = run.defines + 1 := congrArg (· + 1) (enters.settled value result)
      _ = ((run.andThen (bindName name)).after (.form "define" 2)).defines := by
        rw [defines, defines, entered, List.countP_cons_of_pos rfl]

end Run

/-! ## Evaluation -/

namespace Expr

theorem evalAll_enters {es : List Expr}
    (each : ∀ e ∈ es, ∀ env, (e.eval env).Enters e.entries) (env : Env) :
    (evalAll env es).Enters (es.flatMap entries) := by
  induction es generalizing env with
  | nil =>
    rw [evalAll_nil]
    exact Run.enters_value env []
  | cons e es ih =>
    obtain ⟨first, others⟩ := List.forall_mem_cons.mp each
    rw [evalAll_cons, List.flatMap_cons]
    refine (first env).andThen fun value after => ?_
    exact (ih others after).andThen_ofResult fun values => .ok (value :: values)

theorem eval_enters (e : Expr) : ∀ env, (e.eval env).Enters e.entries := by
  induction e with
  | nothing | truth b | number x | symbol name =>
    intro env
    rw [eval_atom]
    · exact Run.enters_ofResult env _
    · simp [kind]
  | list items ih =>
    intro env
    cases Form.of_items items with
    | empty =>
      rw [eval_empty]
      exact Run.enters_fail env _
    | single only =>
      rw [eval_single, entries_single]
      exact ih only List.mem_cons_self env
    | headless symbolic nonempty =>
      rw [eval_headless env symbolic nonempty]
      exact Run.enters_fail env _
    | unknown unreserved nonempty =>
      rw [eval_unknown env unreserved nonempty, entries_form _ nonempty]
      exact Run.enters_refused env _ _ _
    | miscounted notBegin nonempty refused =>
      rw [eval_miscounted env notBegin nonempty refused, entries_form _ nonempty]
      exact Run.enters_refused env _ _ _
    | define target value =>
      rw [eval_define, entries_form "define" (by simp)]
      have valued : (value.eval env).Enters ([target, value].flatMap entries) :=
        (ih value (by simp) env).mono (by simp)
      cases defineTarget target with
      | error err => exact Run.enters_refused env err _ _
      | ok name => exact valued.define name
    | @begin operands nonempty =>
      rw [eval_begin env nonempty, entries_form "begin" nonempty]
      have all : (evalAll env operands).Enters (operands.flatMap entries) :=
        evalAll_enters (fun x member => ih x (List.mem_cons_of_mem _ member)) env
      exact (all.andThen_ofResult fun values => .ok (values.getLast?.getD .nothing)).after_form
        (by decide) _
    | choose test yes no =>
      rw [eval_choose, entries_form "if" (by simp)]
      refine Run.Enters.after_form ?_ (by decide) 3
      have listed : [test, yes, no].flatMap entries =
          test.entries ++ (yes.entries ++ no.entries) := by simp
      rw [listed]
      refine (ih test (by simp) env).andThen fun value after => ?_
      split
      · exact (ih yes (by simp) after).mono (List.sublist_append_left _ _)
      · exact (ih no (by simp) after).mono (List.sublist_append_right _ _)
      · exact Run.enters_fail after _
    | @operator op operands nonempty admitted =>
      rw [eval_operator env nonempty admitted, entries_form op.name nonempty]
      have all : (evalAll env operands).Enters (operands.flatMap entries) :=
        evalAll_enters (fun x member => ih x (List.mem_cons_of_mem _ member)) env
      exact (all.andThen_ofResult op.apply).after_form op.name_ne_define _

/-- However an evaluation ends, it enters the forms of its expression in the order in
which they are written, each at most once. If it returns, it has bound as many names as
it has entered `define` forms. -/
theorem eval_in_order (e : Expr) (env : Env) :
    (e.eval env).entries.Sublist e.entries ∧
    ∀ value, (e.eval env).result = .ok value → (e.eval env).bound = (e.eval env).defines :=
  ⟨(eval_enters e env).inOrder, (eval_enters e env).settled⟩

end Expr

end FormScript
