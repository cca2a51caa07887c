import FormScript.Proofs.NumberText

/-!
# Programs are read as they are written

The text of an expression that was read is read again as one form. What comes back
is `Expr.reread`: the expression itself, except that a number which is not finite
has become the symbol it is written as. So an expression comes back if and only if
all of its numbers are finite (`Program.ofText_text_iff`).

`Spells` says when characters are the text of an expression in every context: the
scanner takes them for the tokens of a derivation, whatever delimiter follows. Atoms
are so by their words, and lists by what their items spell; the induction over
nested lists is `Expr.Readable.spells`.
-/

namespace FormScript

/-! ## What the text of an expression is read as -/

namespace Expr

mutual

/-- An expression with the numbers that are not finite replaced by symbols. -/
def reread : Expr → Expr
  | .number value =>
    if value.isFinite then .number value else .symbol (String.ofList (numberText value))
  | .list items => .list (rereadAll items)
  | e => e

/-- The items of a list, with the same replacements. -/
def rereadAll : List Expr → List Expr
  | [] => []
  | item :: items => reread item :: rereadAll items

end

theorem rereadAll_eq_nil {items : List Expr} : rereadAll items = [] ↔ items = [] := by
  cases items with
  | nil => simp [rereadAll]
  | cons item items => simp [rereadAll]

theorem rereadAll_eq_self_iff {items : List Expr} :
    rereadAll items = items ↔ ∀ item ∈ items, item.reread = item := by
  induction items with
  | nil => simp [rereadAll]
  | cons item items ih => simp [rereadAll, ih]

/-- Nothing is replaced where all numbers are finite, and only there. -/
theorem reread_eq_self_iff {e : Expr} :
    e.reread = e ↔ ∀ x, .number x ∈ e.parts → x.isFinite = true := by
  induction e with
  | nothing | truth value | symbol name => simp [reread]
  | number value =>
    constructor
    · intro same x occurs
      obtain rfl := Expr.number.inj (mem_parts_number.mp occurs)
      by_contra infinite
      rw [reread, if_neg infinite] at same
      cases same
    · intro finite
      rw [reread, if_pos (finite value (self_mem_parts _))]
  | list items ih =>
    rw [reread, Expr.list.injEq, rereadAll_eq_self_iff]
    constructor
    · intro same x occurs
      rcases mem_parts_list.mp occurs with impossible | ⟨item, member, inner⟩
      · cases impossible
      · exact (ih item member).mp (same item member) x inner
    · intro finite item member
      exact (ih item member).mpr fun x inner => finite x (mem_parts_of_item member inner)

end Expr

/-! ## Scanning what was written -/

open Token (scanFrom)

/-- Characters that are scanned as a derivation of `e`, before every delimiter and at
the end of a text. -/
def Spells (cs : List Char) (e : Expr) : Prop :=
  ∀ (here : Cursor) (rest : List Char), (∀ c ∈ rest.head?, c ∈ delimiters) →
    ∃ (tree : Tree) (next : Cursor), tree.Derives e ∧
      scanFrom .between here (cs ++ rest) = tree.tokens ++ scanFrom .between next rest

/-- Characters that are scanned as derivations of all of `es`. -/
def SpellsAll (cs : List Char) (es : List Expr) : Prop :=
  ∀ (here : Cursor) (rest : List Char), (∀ c ∈ rest.head?, c ∈ delimiters) →
    ∃ (trees : List Tree) (next : Cursor), Tree.DerivesAll trees es ∧
      scanFrom .between here (cs ++ rest) = Tree.tokensAll trees ++ scanFrom .between next rest

theorem Spells.atom {word : List Char} {e : Expr} (isWord : IsWord word)
    (spelled : Expr.ofAtom? (String.ofList word) = some e) : Spells word e := by
  intro here rest ends
  refine ⟨.atom (Token.atomAt here word), here.advanceAll word, .atom rfl spelled, ?_⟩
  rw [Token.scanFrom_word isWord ends]
  rfl

theorem SpellsAll.single {cs : List Char} {e : Expr} (first : Spells cs e) :
    SpellsAll cs [e] := by
  intro here rest ends
  obtain ⟨tree, next, derived, scanned⟩ := first here rest ends
  refine ⟨[tree], next, .single derived, ?_⟩
  rw [scanned, Tree.tokensAll, Tree.tokensAll, List.append_nil]

/-- One space between two items is enough. -/
theorem SpellsAll.cons {cs ds : List Char} {e : Expr} {es : List Expr} (first : Spells cs e)
    (others : SpellsAll ds es) : SpellsAll (cs ++ ' ' :: ds) (e :: es) := by
  intro here rest ends
  have space : ∀ c ∈ (' ' :: (ds ++ rest)).head?, c ∈ delimiters := by
    simp [delimiters]
  obtain ⟨tree, between, derived, scanned⟩ := first here (' ' :: (ds ++ rest)) space
  obtain ⟨trees, next, derivedAll, scannedAll⟩ := others (between.advance ' ') rest ends
  have skipped : scanFrom .between between (' ' :: (ds ++ rest)) =
      scanFrom .between (between.advance ' ') (ds ++ rest) := rfl
  refine ⟨tree :: trees, next, .cons derived derivedAll, ?_⟩
  rw [List.append_assoc, List.cons_append, scanned, skipped, scannedAll, Tree.tokensAll,
    List.append_assoc]

/-- Parens around items that are spelled spell their list. -/
theorem SpellsAll.list {cs : List Char} {es : List Expr} (inner : SpellsAll cs es)
    (nonempty : es ≠ []) : Spells ('(' :: cs ++ [')']) (.list es) := by
  intro here rest _
  have paren : ∀ c ∈ (')' :: rest).head?, c ∈ delimiters := by
    simp [delimiters]
  obtain ⟨trees, before, derived, scanned⟩ := inner (here.advance '(') (')' :: rest) paren
  have opened : scanFrom .between here ('(' :: (cs ++ ')' :: rest)) =
      Token.paren .opening here '(' :: scanFrom .between (here.advance '(') (cs ++ ')' :: rest) :=
    rfl
  have closed : scanFrom .between before (')' :: rest) =
      Token.paren .closing before ')' :: scanFrom .between (before.advance ')') rest := rfl
  refine ⟨.list (Token.paren .opening here '(') trees (Token.paren .closing before ')'),
    before.advance ')', ?_, ?_⟩
  · exact .list rfl rfl rfl rfl (mt derived.eq_nil_iff.mp nonempty) derived
  · rw [List.cons_append, List.cons_append, List.append_assoc, List.singleton_append, opened,
      scanned, closed, Tree.tokens]
    simp

namespace Expr

/-- Items with one space between two of them spell what each of them spells. -/
theorem spells_itemChars {items : List Expr} (nonempty : items ≠ [])
    (spelled : ∀ item ∈ items, Spells item.chars item.reread) :
    SpellsAll (itemChars items) (rereadAll items) := by
  induction items with
  | nil => exact absurd rfl nonempty
  | cons item items ih =>
    obtain ⟨first, others⟩ := List.forall_mem_cons.mp spelled
    cases items with
    | nil => exact .single first
    | cons second items => exact .cons first (ih (List.cons_ne_nil _ _) others)

/-- The text of a literal's value is the number again, or a symbol. -/
theorem spells_number (negative : Bool) {p : Nat} (number : p ≤ Binary.infinity) :
    Spells (numberText (Binary.toFloat negative p))
      (reread (.number (Binary.toFloat negative p))) := by
  refine .atom (isWord_numberText negative number) ?_
  have finiteIff := Binary.isFinite_iff (Binary.toFloat negative p)
  rw [Binary.pattern_toFloat negative number] at finiteIff
  rcases Nat.lt_or_eq_of_le number with finite | rfl
  · rw [reread, if_pos (finiteIff.mpr finite), ofAtom?_finite negative finite]
  · rw [reread, if_neg (mt finiteIff.mp (Nat.lt_irrefl _)), ofAtom?_infinite]

/-- The text of an expression spells it, with symbols for infinite numbers. -/
theorem Readable.spells {e : Expr} (readable : e.Readable) : Spells e.chars e.reread := by
  induction readable with
  | @atom text e isWord spelled =>
    rcases ofAtom?_eq_some spelled with
      ⟨-, rfl⟩ | ⟨-, rfl⟩ | ⟨-, rfl⟩ | ⟨literal, -, rfl⟩ | rfl
    · exact .atom (.of_letters rfl) rfl
    · exact .atom (.of_letters rfl) rfl
    · exact .atom (.of_letters rfl) rfl
    · exact spells_number literal.negative (Binary.ofUnits_le_infinity _ _)
    · refine .atom isWord ?_
      rw [chars, String.ofList_toList]
      exact spelled
  | @list items nonempty _ ih =>
    exact (spells_itemChars nonempty ih).list (mt rereadAll_eq_nil.mp nonempty)

end Expr

namespace Program

theorem ofText_text {e : Expr} (readable : e.Readable) :
    ofText e.text = .ok { forms := [e.reread] } := by
  obtain ⟨tree, next, derived, scanned⟩ := readable.spells .origin [] (by simp)
  have tokens : Token.scan e.text = Tree.tokensAll [tree] := by
    rw [Token.scan, Expr.text, String.toList_ofList, ← List.append_nil e.chars, scanned]
    rfl
  rw [ofText, tokens]
  exact ofTokens_of_derived (.single derived)

/-- Any part of a program that was read is read back from its text, as the only form,
if and only if all numbers in it are finite. -/
theorem ofText_text_iff {source : String} {program : Program} {e : Expr}
    (accepted : ofText source = .ok program) (part : e ∈ program.expr.parts) :
    (ofText e.text).map expr = .ok (.list [.symbol "begin", e]) ↔
      ∀ x, .number x ∈ e.parts → x.isFinite = true := by
  have readable : e.Readable := (readable_of_scan accepted).part part
  rw [ofText_text readable, ← Expr.reread_eq_self_iff]
  constructor
  · intro same
    have forms : [Expr.symbol "begin", e.reread] = [.symbol "begin", e] :=
      Expr.list.inj (Except.ok.inj same)
    exact (List.cons.inj (List.cons.inj forms).2).1
  · intro same
    rw [same]
    rfl

/-- In `(f (g -0.5) 1e400)` the inner list is read back from its text, and the outer
one is not: it holds a literal that overflows. -/
theorem ofText_text_iff_overflow :
    let inner := Expr.list [.symbol "g", .number (Literal.value ⟨true, ['0'], ['5'], []⟩)]
    let outer := Expr.list [.symbol "f", inner,
      .number (Literal.value ⟨false, ['1'], [], ['4', '0', '0']⟩)]
    ofText "(f (g -0.5) 1e400)" = .ok { forms := [outer] } ∧
      (ofText inner.text).map expr = .ok (.list [.symbol "begin", inner]) ∧
      (ofText outer.text).map expr ≠ .ok (.list [.symbol "begin", outer]) := by
  intro inner outer
  have accepted : ofText "(f (g -0.5) 1e400)" = .ok { forms := [outer] } := rfl
  have outerPart : outer ∈ (Program.mk [outer]).expr.parts := by simp [expr]
  have innerPart : inner ∈ (Program.mk [outer]).expr.parts := by simp [expr, outer]
  refine ⟨accepted, (ofText_text_iff accepted innerPart).mpr ?_, ?_⟩
  · intro x occurs
    have half : x = Literal.value ⟨true, ['0'], ['5'], []⟩ := by
      simpa [inner] using occurs
    have finite : (Literal.decimal ⟨true, ['0'], ['5'], []⟩).pattern < Binary.infinity := by
      decide +kernel
    rw [half, Binary.isFinite_iff, Literal.value,
      Binary.pattern_toFloat _ (Nat.le_of_lt finite)]
    exact finite
  · intro same
    have finite := (ofText_text_iff accepted outerPart).mp same
      (Literal.value ⟨false, ['1'], [], ['4', '0', '0']⟩) (by simp [outer])
    have infinite : (Literal.decimal ⟨false, ['1'], [], ['4', '0', '0']⟩).pattern =
        Binary.infinity := by
      decide +kernel
    rw [Binary.isFinite_iff, Literal.value, infinite,
      Binary.pattern_toFloat _ (Nat.le_refl _)] at finite
    exact absurd finite (Nat.lt_irrefl _)

end Program

end FormScript
