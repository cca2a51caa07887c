import FormScript.Proofs.Grammar
import FormScript.Proofs.Numerals
import FormScript.Proofs.Parts
import FormScript.Proofs.Reading
import FormScript.Proofs.Scanning

/-!
# What programs can contain

The expressions that are read from texts are those built from atoms that words
spell, with no empty list among them. `Expr.Readable` states this, and
`Program.readable_of_scan` says that every program read from a text, its `begin`
included, is of this form. What is readable has readable parts only, so the symbols
in a program are names that a text can spell (`Expr.Readable.isName`).
-/

namespace FormScript

namespace Expr

theorem ofAtom?_ne_list {text : String} {items : List Expr} :
    ofAtom? text ≠ some (.list items) := by
  intro spelled
  rcases ofAtom?_eq_some spelled with ⟨-, h⟩ | ⟨-, h⟩ | ⟨-, h⟩ | ⟨_, -, h⟩ | h <;> cases h

theorem ofAtom?_kind {text : String} {e : Expr} (spelled : ofAtom? text = some e) :
    e.kind ≠ .list := by
  cases e with
  | list items => exact absurd spelled ofAtom?_ne_list
  | _ => simp [kind]

/-- A symbol is spelled by its name. -/
theorem ofAtom?_symbol {text name : String} (spelled : ofAtom? text = some (.symbol name)) :
    text = name := by
  rcases ofAtom?_eq_some spelled with ⟨-, h⟩ | ⟨-, h⟩ | ⟨-, h⟩ | ⟨_, -, h⟩ | h <;> cases h
  rfl

/-- Expressions that a text can spell. -/
inductive Readable : Expr → Prop
  | atom {text : String} {e : Expr} :
    IsWord text.toList → ofAtom? text = some e → Readable e
  | list {items : List Expr} :
    items ≠ [] → (∀ item ∈ items, Readable item) → Readable (.list items)

theorem Readable.items {items : List Expr} (readable : Readable (.list items)) :
    items ≠ [] ∧ ∀ item ∈ items, Readable item := by
  cases readable with
  | atom _ spelled => exact absurd spelled ofAtom?_ne_list
  | list nonempty all => exact ⟨nonempty, all⟩

theorem Readable.part {e x : Expr} (readable : Readable e) (part : x ∈ e.parts) :
    Readable x := by
  induction e with
  | nothing | truth value | number value | symbol name =>
    simp only [mem_parts_nothing, mem_parts_truth, mem_parts_number, mem_parts_symbol] at part
    exact part ▸ readable
  | list items ih =>
    rcases mem_parts_list.mp part with rfl | ⟨item, member, inner⟩
    · exact readable
    · exact ih item member (readable.items.2 item member) inner

/-- A text that is read as the symbol of that name. -/
structure IsName (name : String) : Prop where
  word : IsWord name.toList
  spells : ofAtom? name = some (.symbol name)

/-- The symbols of a readable expression are names. -/
theorem Readable.isName {e : Expr} {name : String} (readable : Readable e)
    (occurs : .symbol name ∈ e.parts) : IsName name := by
  cases readable.part occurs with
  | atom word spelled =>
    have spells := ofAtom?_symbol spelled
    subst spells
    exact ⟨word, spelled⟩

end Expr

mutual

/-- Derivations whose atoms are words derive readable expressions. -/
theorem Tree.Derives.readable {tree : Tree} {e : Expr} (derived : tree.Derives e)
    (words : ∀ token ∈ tree.tokens, token.kind = .atom → IsWord token.text.toList) :
    e.Readable := by
  cases derived with
  | @atom token _ kind spelled =>
    have word := words token (by simp [Tree.tokens]) kind
    exact .atom word spelled
  | @list opener closer items es _ _ _ _ nonempty inner =>
    refine .list (mt inner.eq_nil_iff.mpr nonempty) ?_
    refine Tree.DerivesAll.readable inner fun token member => ?_
    exact words token (by simp [Tree.tokens, member])

theorem Tree.DerivesAll.readable {trees : List Tree} {es : List Expr}
    (derived : Tree.DerivesAll trees es)
    (words : ∀ token ∈ Tree.tokensAll trees,
      token.kind = .atom → IsWord token.text.toList) :
    ∀ e ∈ es, e.Readable := by
  cases derived with
  | nil => simp
  | cons first others =>
    simp only [Tree.tokensAll, List.mem_append] at words
    refine List.forall_mem_cons.mpr ⟨?_, ?_⟩
    · exact Tree.Derives.readable first fun token member => words token (.inl member)
    · exact Tree.DerivesAll.readable others fun token member => words token (.inr member)

end

namespace Program

/-- The forms that are read from scanned tokens are readable. -/
theorem readable_of_scan {text : String} {program : Program}
    (accepted : ofTokens (Token.scan text) = .ok program) : program.expr.Readable := by
  obtain ⟨trees, same, derived⟩ := derived_of_ofTokens accepted
  have words := Token.scan_atoms text
  rw [← same] at words
  have spelled : Expr.ofAtom? "begin" = some (.symbol "begin") := rfl
  have begins : Expr.Readable (.symbol "begin") := .atom (.of_letters rfl) spelled
  exact .list (List.cons_ne_nil _ _) (List.forall_mem_cons.mpr ⟨begins, derived.readable words⟩)

theorem ofTokens_of_accept {tokens : List Token} {program : Program}
    (accepted : accept tokens = .ok program) : ofTokens tokens = .ok program :=
  (accept_eq_ok_iff.mp accepted).1

end Program

end FormScript
