import FormScript.Expr

/-!
# The parts of an expression

`Expr.parts` lists an expression and everything inside it, an expression before its
parts and the items of a list from left to right. Statements about what occurs in an
expression are membership in this list; `Expr.mem_parts_list`,
`Expr.mem_parts_of_item` and `Expr.mem_parts_trans` are all that proofs need of it.

`Expr.induction` is the induction on expressions in which the items of a list are
reached through membership.
-/

namespace FormScript.Expr

/-- Induction on expressions; for a list, the items are given as its members. -/
@[elab_as_elim, induction_eliminator]
theorem induction {motive : Expr → Prop} (nothing : motive .nothing)
    (truth : ∀ value, motive (.truth value)) (number : ∀ value, motive (.number value))
    (symbol : ∀ name, motive (.symbol name))
    (list : ∀ items, (∀ item ∈ items, motive item) → motive (.list items))
    (e : Expr) : motive e := by
  refine @Expr.rec motive (fun items => ∀ item ∈ items, motive item)
    nothing truth number symbol list ?_ ?_ e
  · intro item member
    cases member
  · intro head tail ofHead ofTail item member
    rcases List.mem_cons.mp member with rfl | inTail
    · exact ofHead
    · exact ofTail item inTail

mutual

/-- An expression and everything that occurs in it, outermost first. -/
def parts : Expr → List Expr
  | .list items => .list items :: partsAll items
  | e => [e]

/-- Everything that occurs in several expressions. -/
def partsAll : List Expr → List Expr
  | [] => []
  | e :: es => parts e ++ partsAll es

end

theorem mem_partsAll {x : Expr} {es : List Expr} :
    x ∈ partsAll es ↔ ∃ e ∈ es, x ∈ e.parts := by
  induction es with
  | nil => simp [partsAll]
  | cons e es ih => simp [partsAll, ih]

@[simp] theorem mem_parts_list {x : Expr} {items : List Expr} :
    x ∈ (Expr.list items).parts ↔ x = .list items ∨ ∃ item ∈ items, x ∈ item.parts := by
  rw [parts, List.mem_cons, mem_partsAll]

@[simp] theorem mem_parts_nothing {x : Expr} : x ∈ Expr.nothing.parts ↔ x = .nothing := by
  simp [parts]

@[simp] theorem mem_parts_truth {x : Expr} {value : Bool} :
    x ∈ (Expr.truth value).parts ↔ x = .truth value := by
  simp [parts]

@[simp] theorem mem_parts_number {x : Expr} {value : Float} :
    x ∈ (Expr.number value).parts ↔ x = .number value := by
  simp [parts]

@[simp] theorem mem_parts_symbol {x : Expr} {name : String} :
    x ∈ (Expr.symbol name).parts ↔ x = .symbol name := by
  simp [parts]

@[simp] theorem self_mem_parts (e : Expr) : e ∈ e.parts := by
  cases e <;> simp

/-- The parts of an item are parts of the list. -/
theorem mem_parts_of_item {x item : Expr} {items : List Expr} (member : item ∈ items)
    (part : x ∈ item.parts) : x ∈ (Expr.list items).parts :=
  mem_parts_list.mpr (.inr ⟨item, member, part⟩)

/-- The parts of a part are parts of the whole. -/
theorem mem_parts_trans {x part e : Expr} (inner : x ∈ part.parts) (outer : part ∈ e.parts) :
    x ∈ e.parts := by
  induction e with
  | nothing | truth b | number value | symbol name =>
    simp only [mem_parts_nothing, mem_parts_truth, mem_parts_number, mem_parts_symbol] at outer
    exact outer ▸ inner
  | list items ih =>
    rcases mem_parts_list.mp outer with rfl | ⟨item, member, within⟩
    · exact inner
    · exact mem_parts_of_item member (ih item member within)

end FormScript.Expr
