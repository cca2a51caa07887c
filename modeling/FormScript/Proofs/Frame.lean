import FormScript.Proofs.Evaluation

/-!
# What an evaluation can change

An evaluation changes the environment by the `define` forms in its expression and by
nothing else: it never unbinds a name, and the names that it rebinds are names which a
`define` form of the expression spells out and is allowed to bind. This holds however
the evaluation ends, and for environments that no session can reach, such as one in
which a reserved name is bound.

`Expr.eval_keeps` is the induction: a property of environments that these bindings keep
is kept by the whole evaluation. `Env.Framed` is such a property, and
`Expr.eval_frame` reads the result off it.
-/

namespace FormScript

/-- Somewhere in the expression a `define` form binds this name. -/
structure Expr.Defines (e : Expr) (name : String) : Prop where
  occurs : ∃ value, .list [.symbol "define", .symbol name, value] ∈ e.parts
  allowed : isProtected name = false

theorem Expr.Defines.of_item {item : Expr} {items : List Expr} {name : String}
    (defines : item.Defines name) (member : item ∈ items) : (Expr.list items).Defines name := by
  obtain ⟨⟨value, occurs⟩, allowed⟩ := defines
  exact ⟨⟨value, mem_parts_of_item member occurs⟩, allowed⟩

/-! ## Invariants of the environment -/

variable {inv : Env → Prop}

theorem Run.andThen_keeps {α β : Type} {run : Run α} {next : α → Env → Run β}
    (kept : inv run.env) (continued : ∀ a env, inv env → inv (next a env).env) :
    inv (run.andThen next).env := by
  unfold Run.andThen
  split
  · exact kept
  · next a _ => exact continued a run.env kept

namespace Expr

theorem evalAll_keeps {es : List Expr} (each : ∀ e ∈ es, ∀ env, inv env → inv (e.eval env).env)
    {env : Env} (before : inv env) : inv (evalAll env es).env := by
  induction es generalizing env with
  | nil => rwa [evalAll_nil]
  | cons e es ih =>
    obtain ⟨first, others⟩ := List.forall_mem_cons.mp each
    rw [evalAll_cons]
    refine Run.andThen_keeps (first env before) fun _ _ held => ?_
    exact Run.andThen_keeps (ih others held) fun _ _ kept => kept

/-- What the bindings of the `define` forms in an expression keep true of an environment
is kept true by evaluating the expression, whether it returns or fails. -/
theorem eval_keeps (e : Expr)
    (binds : ∀ env name value, inv env → e.Defines name → inv (env.set name value)) :
    ∀ env, inv env → inv (e.eval env).env := by
  induction e with
  | nothing | truth b | number x | symbol name =>
    intro env before
    rw [eval_atom]
    · exact before
    · simp [kind]
  | list items ih =>
    intro env before
    -- what an item defines is defined by the list, so the bindings of the items are kept too
    have item : ∀ x ∈ items, ∀ env, inv env → inv (x.eval env).env := fun x member =>
      ih x member fun env name value held defines =>
        binds env name value held (defines.of_item member)
    cases Form.of_items items with
    | empty => rwa [eval_empty]
    | single only =>
      rw [eval_single]
      exact item only List.mem_cons_self env before
    | headless symbolic nonempty => rwa [eval_headless env symbolic nonempty]
    | unknown unreserved nonempty => rwa [eval_unknown env unreserved nonempty]
    | miscounted notBegin nonempty refused => rwa [eval_miscounted env notBegin nonempty refused]
    | define target value =>
      rw [eval_define]
      cases chosen : defineTarget target with
      | error err => exact before
      | ok name =>
        obtain ⟨rfl, allowed⟩ := defineTarget_ok chosen
        have defines : Defines (.list [.symbol "define", .symbol name, value]) name :=
          ⟨⟨value, self_mem_parts _⟩, allowed⟩
        have valued : inv (value.eval env).env := item value (by simp) env before
        exact Run.andThen_keeps valued fun bound after held => binds after name bound held defines
    | @begin operands nonempty =>
      rw [eval_begin env nonempty]
      have all : inv (evalAll env operands).env :=
        evalAll_keeps (fun x member => item x (List.mem_cons_of_mem _ member)) before
      exact Run.andThen_keeps all fun _ _ held => held
    | choose test yes no =>
      rw [eval_choose]
      have tested : inv (test.eval env).env := item test (by simp) env before
      refine Run.andThen_keeps tested fun value after held => ?_
      split
      · exact item yes (by simp) after held
      · exact item no (by simp) after held
      · exact held
    | @operator op operands nonempty admitted =>
      rw [eval_operator env nonempty admitted]
      have all : inv (evalAll env operands).env :=
        evalAll_keeps (fun x member => item x (List.mem_cons_of_mem _ member)) before
      exact Run.andThen_keeps all fun _ _ held => held

end Expr

/-! ## The frame -/

namespace Env

/-- Since `before`, nothing was unbound and only these names were bound. -/
structure Framed (names : String → Prop) (before after : Env) : Prop where
  bound : ∀ name, before.contains name = true → after.contains name = true
  kept : ∀ name, ¬ names name → after.get? name = before.get? name

theorem Framed.refl (names : String → Prop) (env : Env) : Framed names env env :=
  ⟨fun _ => id, fun _ _ => rfl⟩

theorem Framed.set {names : String → Prop} {before after : Env}
    (framed : Framed names before after) {name : String} (named : names name) (value : Expr) :
    Framed names before (after.set name value) := by
  refine ⟨fun other held => ?_, fun other unnamed => ?_⟩
  · rw [contains_set, framed.bound other held, Bool.or_true]
  · have different : name ≠ other := by
      rintro rfl
      exact unnamed named
    rw [get?_set_of_ne different, framed.kept other unnamed]

end Env

namespace Expr

theorem eval_framed (e : Expr) (env : Env) : Env.Framed e.Defines env (e.eval env).env :=
  eval_keeps e (fun _ _ value framed defines => framed.set defines value) env (.refl e.Defines env)

/-- However an evaluation ends, every name that was bound still is, and a name whose
binding has changed is neither reserved nor `pi` and is the target of a `define` form of
the expression. Without such a form the environment is as it was. -/
theorem eval_frame (e : Expr) (env : Env) :
    (∀ name, env.contains name = true → (e.eval env).env.contains name = true) ∧
    (∀ name, (e.eval env).env.get? name ≠ env.get? name →
      isReserved name = false ∧ name ≠ "pi" ∧
        ∃ value, .list [.symbol "define", .symbol name, value] ∈ e.parts) ∧
    ((∀ name value, .list [.symbol "define", .symbol name, value] ∉ e.parts) →
      (e.eval env).env = env) := by
  have framed := eval_framed e env
  refine ⟨framed.bound, fun name changed => ?_, fun without => ?_⟩
  · -- a name that no form defines would have kept its binding
    have defines : e.Defines name := Classical.not_not.mp (mt (framed.kept name) changed)
    obtain ⟨unreserved, notPi⟩ := Bool.or_eq_false_iff.mp defines.allowed
    exact ⟨unreserved, by simpa using notPi, defines.occurs⟩
  · refine Env.ext_get? fun name => framed.kept name fun defines => ?_
    obtain ⟨value, occurs⟩ := defines.occurs
    exact without name value occurs

end Expr

end FormScript
