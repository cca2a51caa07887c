import Std.Data.ExtTreeMap
import FormScript.Expr

/-!
# Environments

An environment binds names to values. There is one flat namespace: binding a name
again replaces its value. Names are kept in the order of their characters, so an
environment has one listing.
-/

namespace FormScript

/-- Bindings of names to values. -/
structure Env where
  bindings : Std.ExtTreeMap String Expr

namespace Env

/-- No name is bound. -/
def empty : Env := ⟨∅⟩

/-- The value of a name. -/
def get? (env : Env) (name : String) : Option Expr :=
  env.bindings[name]?

/-- Binds a name, in place of any earlier binding. -/
def set (env : Env) (name : String) (value : Expr) : Env :=
  ⟨env.bindings.insert name value⟩

/-- Whether a name is bound. -/
def contains (env : Env) (name : String) : Bool :=
  (env.get? name).isSome

/-- The bindings, ordered by name. -/
def toList (env : Env) : List (String × Expr) :=
  env.bindings.toList

/-- The bound names in order. -/
def names (env : Env) : List String :=
  env.bindings.keys

/-- The number closest to the ratio of a circle's circumference to its diameter. -/
def pi : Float := Float.ofBits 0x400921fb54442d18

/-- What every session starts with: the constant `pi`. -/
def initial : Env := empty.set "pi" (.number pi)

/-- Whether two environments bind the same names to equal values. -/
def same (a b : Env) : Bool :=
  a.toList == b.toList

/-- The names and texts of all bindings, ordered by name. -/
def dump (env : Env) : List (String × String) :=
  env.toList.map fun (name, value) => (name, value.text)

theorem get?_set (env : Env) (name other : String) (value : Expr) :
    (env.set name value).get? other = if name = other then some value else env.get? other := by
  simp [get?, set, Std.ExtTreeMap.getElem?_insert]

theorem get?_set_of_ne {name other : String} (different : name ≠ other) (env : Env)
    (value : Expr) : (env.set name value).get? other = env.get? other := by
  rw [get?_set, if_neg different]

theorem contains_set (env : Env) (name other : String) (value : Expr) :
    (env.set name value).contains other = (name == other || env.contains other) := by
  rw [contains, get?_set]
  by_cases same : name = other <;> simp [same, contains]

/-- Environments are determined by the values of the names. -/
theorem ext_get? {a b : Env} (h : ∀ name, a.get? name = b.get? name) : a = b := by
  cases a with
  | mk as =>
    cases b with
    | mk bs => exact congrArg Env.mk (Std.ExtTreeMap.ext_getElem? fun name => h name)

end Env

end FormScript
