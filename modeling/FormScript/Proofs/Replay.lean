import FormScript.Session
import FormScript.Proofs.Evaluation

/-!
# The log tells what is bound

Every change of an environment is logged: a `define` when it binds, a reset when all
bindings are dropped. `Env.afterAll` makes the logged changes again, and a run or a
session leaves the environment that its log leads to (`Expr.eval_logged`,
`Session.performAll_logged`). This holds for failed evaluations too: what was bound
before the failure was logged before it, and nothing else was.

A reader of the log sees texts, not values. `Change` is what such a reader learns
from an event, `replay` collects the changes of a whole log into names with texts,
and `Session.fresh_performAll_replay` says that these are the names and texts of the
session's environment.
-/

namespace FormScript

/-! ## Making the logged changes again -/

namespace Env

/-- The environment after what an event reports. -/
def after (env : Env) : Event → Env
  | .define name value => env.set name value
  | .reset => .initial
  | .form _ _ | .rejected _ => env

/-- The environment after what several events report, in order. -/
def afterAll (env : Env) (events : List Event) : Env :=
  events.foldl after env

@[simp] theorem afterAll_nil (env : Env) : env.afterAll [] = env := rfl

@[simp] theorem afterAll_cons (env : Env) (event : Event) (events : List Event) :
    env.afterAll (event :: events) = (env.after event).afterAll events := rfl

@[simp] theorem afterAll_append (env : Env) (front back : List Event) :
    env.afterAll (front ++ back) = (env.afterAll front).afterAll back :=
  List.foldl_append

end Env

namespace Run

variable {α β : Type} {env : Env}

/-- The events of a run from `env` account for the environment that it leaves. -/
def Logged (env : Env) (run : Run α) : Prop :=
  run.env = env.afterAll run.events

theorem logged_value (a : α) : Logged env (value env a) := rfl

theorem logged_fail (e : EvalError) : Logged env (fail env e : Run α) := rfl

theorem logged_ofResult (result : Except EvalError α) : Logged env (ofResult env result) := rfl

theorem logged_bindName (name : String) (v : Expr) : Logged env (bindName name v env) := rfl

theorem Logged.after_form {run : Run α} (logged : Logged env run) (head : String)
    (operands : Nat) : Logged env (run.after (.form head operands)) :=
  logged

/-- The log of a continued run is the log of its first part and then that of its
continuation, which begins where the first part ends. -/
theorem Logged.andThen {run : Run α} {next : α → Env → Run β} (logged : Logged env run)
    (continued : ∀ a, Logged run.env (next a run.env)) : Logged env (run.andThen next) := by
  unfold Logged Run.andThen
  cases result : run.result with
  | error e => exact logged
  | ok a =>
    have rest : (next a run.env).env = run.env.afterAll (next a run.env).events := continued a
    dsimp only
    rw [rest, Env.afterAll_append, ← logged]

end Run

/-! ## Evaluation -/

namespace Expr

theorem evalAll_logged {es : List Expr} (each : ∀ e ∈ es, ∀ env, Run.Logged env (e.eval env))
    (env : Env) : Run.Logged env (evalAll env es) := by
  induction es generalizing env with
  | nil =>
    rw [evalAll_nil]
    exact Run.logged_value []
  | cons e es ih =>
    obtain ⟨first, others⟩ := List.forall_mem_cons.mp each
    rw [evalAll_cons]
    refine (first env).andThen fun value => ?_
    exact (ih others _).andThen fun values => Run.logged_value _

/-- An evaluation leaves the environment that its events lead to, whether it returns
or fails. -/
theorem eval_logged (e : Expr) : ∀ env, Run.Logged env (e.eval env) := by
  induction e with
  | nothing | truth b | number x | symbol name =>
    intro env
    rw [eval_atom]
    · exact Run.logged_ofResult _
    · simp [kind]
  | list items ih =>
    intro env
    cases Form.of_items items with
    | empty =>
      rw [eval_empty]
      exact Run.logged_fail _
    | single only =>
      rw [eval_single]
      exact ih only List.mem_cons_self env
    | headless symbolic nonempty =>
      rw [eval_headless env symbolic nonempty]
      exact Run.logged_fail _
    | unknown unreserved nonempty =>
      rw [eval_unknown env unreserved nonempty]
      exact (Run.logged_fail _).after_form _ _
    | miscounted notBegin nonempty refused =>
      rw [eval_miscounted env notBegin nonempty refused]
      exact (Run.logged_fail _).after_form _ _
    | define target value =>
      rw [eval_define]
      refine Run.Logged.after_form ?_ _ _
      split
      · exact Run.logged_fail _
      · next name _ =>
        exact (ih value (by simp) env).andThen fun v => Run.logged_bindName name v
    | @begin operands nonempty =>
      rw [eval_begin env nonempty]
      have all := evalAll_logged (fun x member => ih x (List.mem_cons_of_mem _ member)) env
      refine (all.andThen fun values => ?_).after_form _ _
      exact Run.logged_value (values.getLast?.getD .nothing)
    | choose test yes no =>
      rw [eval_choose]
      refine ((ih test (by simp) env).andThen fun value => ?_).after_form _ _
      split
      · exact ih yes (by simp) _
      · exact ih no (by simp) _
      · exact Run.logged_fail _
    | @operator op operands nonempty admitted =>
      rw [eval_operator env nonempty admitted]
      have all := evalAll_logged (fun x member => ih x (List.mem_cons_of_mem _ member)) env
      exact (all.andThen fun _ => Run.logged_ofResult _).after_form _ _

end Expr

/-! ## Sessions -/

namespace Session

/-- An operation leaves the environment that its events lead to. -/
theorem perform_logged (s : Session) (op : Operation) :
    (s.perform op).session.env = s.env.afterAll (s.perform op).events := by
  cases op with
  | load source =>
    simp only [perform, load]
    split <;> rfl
  | eval =>
    simp only [perform, eval]
    split
    · rfl
    · next p _ => exact p.expr.eval_logged s.env
  | reset => rfl

/-- A session is in the environment that its whole log leads to. -/
theorem performAll_logged (s : Session) (ops : List Operation) :
    (s.performAll ops).session.env = s.env.afterAll (s.performAll ops).events := by
  induction ops generalizing s with
  | nil => rfl
  | cons op ops ih =>
    simp only [performAll]
    rw [ih, perform_logged, Env.afterAll_append]

end Session

/-! ## Texts -/

/-- What a reader of the log learns about the bindings from one event. -/
inductive Change where
  | bind (name text : String)
  | clear
  deriving DecidableEq, Repr

/-- The change that an event reports, if it reports one. -/
def Event.change? : Event → Option Change
  | .define name value => some (.bind name value.text)
  | .reset => some .clear
  | .form _ _ | .rejected _ => none

/-- The texts of bound values, by name. -/
structure Listing where
  texts : Std.ExtTreeMap String String

namespace Listing

/-- Only `pi` is bound. -/
def initial : Listing := ⟨(∅ : Std.ExtTreeMap String String).insert "pi" (Expr.number Env.pi).text⟩

/-- Makes a change. -/
def change (l : Listing) : Change → Listing
  | .bind name text => ⟨l.texts.insert name text⟩
  | .clear => initial

/-- The names with their texts, ordered by name. -/
def toList (l : Listing) : List (String × String) :=
  l.texts.toList

/-- What a log says about the bindings of a session that began with it. -/
def replay (changes : List Change) : Listing :=
  changes.foldl change initial

/-- The listing of an environment. -/
def ofEnv (env : Env) : Listing :=
  ⟨env.bindings.map fun _ value => value.text⟩

theorem toList_ofEnv (env : Env) : (ofEnv env).toList = env.dump :=
  Std.ExtTreeMap.toList_map

theorem ofEnv_set (env : Env) (name : String) (value : Expr) :
    ofEnv (env.set name value) = ⟨(ofEnv env).texts.insert name value.text⟩ := by
  refine congrArg Listing.mk (Std.ExtTreeMap.ext_getElem? fun other => ?_)
  simp only [ofEnv, Env.set, Std.ExtTreeMap.getElem?_map, Std.ExtTreeMap.getElem?_insert]
  split <;> rfl

theorem ofEnv_initial : ofEnv .initial = initial := by
  rw [Env.initial, ofEnv_set]
  rfl

/-- A reader's listing follows the environment through an event. -/
theorem ofEnv_after (env : Env) (event : Event) :
    ofEnv (env.after event) =
      match event.change? with
      | some made => (ofEnv env).change made
      | none => ofEnv env := by
  cases event with
  | define name value => exact ofEnv_set env name value
  | reset => exact ofEnv_initial
  | form head operands | rejected reason => rfl

theorem ofEnv_afterAll (env : Env) (events : List Event) :
    ofEnv (env.afterAll events) = (events.filterMap Event.change?).foldl change (ofEnv env) := by
  induction events generalizing env with
  | nil => rfl
  | cons event events ih =>
    rw [Env.afterAll_cons, ih, ofEnv_after, List.filterMap_cons]
    cases event.change? with
    | none => rfl
    | some made => rfl

end Listing

/-- After any operations in a fresh session, the names and texts that the log of its
`define`s and resets leads to are those of its environment. -/
theorem Session.fresh_performAll_replay (ops : List Operation) :
    (Listing.replay ((fresh.performAll ops).events.filterMap Event.change?)).toList =
      (fresh.performAll ops).session.env.dump := by
  rw [performAll_logged, ← Listing.toList_ofEnv, Listing.ofEnv_afterAll]
  have start : Listing.ofEnv fresh.env = Listing.initial := Listing.ofEnv_initial
  rw [start, Listing.replay]

end FormScript
