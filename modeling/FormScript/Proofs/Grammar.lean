import FormScript.Program

/-!
# The grammar of programs

The grammar is stated without the reader. A `Tree` is a derivation: it keeps every
token it was built from, and `Tree.Derives` says which expression it derives. An
atom token derives the expression it spells; a list is an opening paren, one or
more derivations and a closing paren.

`Program.ofTokens_iff_derives` says that the reader accepts exactly the token
sequences that have a derivation, with the derived forms as its result, and that no
token sequence has two derivations. The two halves of the equivalence are

* `Reader.steps_derived`: reading the tokens of a derivation adds what it derives;
* `Reader.Spine.step`: what has been read is a sequence of derivations with some
  lists left open, which every token preserves.

Uniqueness is the prefix property of the grammar (`Tree.Derives.unique`): two
derivations that begin the same token sequence are equal.
-/

namespace FormScript

/-- A derivation of the grammar, with all of its tokens. -/
inductive Tree where
  | atom (token : Token)
  | list (opener : Token) (items : List Tree) (closer : Token)

namespace Tree

mutual

/-- The tokens of a derivation, in order. -/
def tokens : Tree → List Token
  | .atom token => [token]
  | .list opener items closer => opener :: (tokensAll items ++ [closer])

/-- The tokens of several derivations, one after the other. -/
def tokensAll : List Tree → List Token
  | [] => []
  | tree :: trees => tokens tree ++ tokensAll trees

end

mutual

/-- The expression that a derivation derives. A paren must have the kind and the
text of a paren. -/
inductive Derives : Tree → Expr → Prop
  | atom {token : Token} {e : Expr} :
    token.kind = .atom → Expr.ofAtom? token.text = some e → Derives (.atom token) e
  | list {opener closer : Token} {items : List Tree} {es : List Expr} :
    opener.kind = .opening → opener.text = "(" →
    closer.kind = .closing → closer.text = ")" →
    items ≠ [] → DerivesAll items es → Derives (.list opener items closer) (.list es)

/-- The expressions that several derivations derive, one each. -/
inductive DerivesAll : List Tree → List Expr → Prop
  | nil : DerivesAll [] []
  | cons {tree : Tree} {trees : List Tree} {e : Expr} {es : List Expr} :
    Derives tree e → DerivesAll trees es → DerivesAll (tree :: trees) (e :: es)

end

theorem tokensAll_append (front back : List Tree) :
    tokensAll (front ++ back) = tokensAll front ++ tokensAll back := by
  induction front with
  | nil => rfl
  | cons tree trees ih => simp [tokensAll, ih]

theorem DerivesAll.append {front back : List Tree} {es fs : List Expr}
    (left : DerivesAll front es) (right : DerivesAll back fs) :
    DerivesAll (front ++ back) (es ++ fs) := by
  induction front generalizing es with
  | nil =>
    cases left
    exact right
  | cons tree trees ih =>
    cases left with
    | cons first rest => exact .cons first (ih rest)

theorem DerivesAll.single {tree : Tree} {e : Expr} (derived : Derives tree e) :
    DerivesAll [tree] [e] :=
  .cons derived .nil

theorem DerivesAll.eq_nil_iff {trees : List Tree} {es : List Expr}
    (derived : DerivesAll trees es) : trees = [] ↔ es = [] := by
  cases derived with
  | nil => simp
  | cons _ _ => simp

end Tree

/-! ## Derivations are read -/

namespace Reader

/-- Adds finished expressions in order. -/
def addAll (r : Reader) (es : List Expr) : Reader :=
  es.foldl add r

theorem addAll_frame (forms : List Expr) (frame : Frame) (frames : List Frame)
    (es : List Expr) :
    addAll { forms := forms, frames := frame :: frames } es =
      { forms := forms,
        frames := { frame with items := es.reverse ++ frame.items } :: frames } := by
  induction es generalizing frame with
  | nil => rfl
  | cons e es ih =>
    have rest := ih { frame with items := e :: frame.items }
    simpa [addAll, add] using rest

theorem addAll_start (es : List Expr) :
    start.addAll es = { forms := es.reverse, frames := [] } := by
  have general : ∀ forms : List Expr,
      addAll { forms := forms, frames := [] } es =
        { forms := es.reverse ++ forms, frames := [] } := by
    induction es with
    | nil => exact fun _ => rfl
    | cons e es ih =>
      intro forms
      simpa [addAll, add] using ih (e :: forms)
  simpa [start] using general []

theorem steps_cons_ok {r next : Reader} {token : Token} (tokens : List Token)
    (taken : r.step token = .ok next) : r.steps (token :: tokens) = next.steps tokens := by
  rw [steps, taken]

theorem step_opening {token : Token} (kind : token.kind = .opening)
    (text : token.text = "(") (r : Reader) :
    r.step token = .ok { r with frames := { opener := token, items := [] } :: r.frames } := by
  simp [step, openList, kind, text]

theorem step_closing {token : Token} (kind : token.kind = .closing)
    (text : token.text = ")") {frame : Frame} (nonempty : frame.items ≠ [])
    (forms : List Expr) (frames : List Frame) :
    step { forms := forms, frames := frame :: frames } token =
      .ok (add { forms := forms, frames := frames } (.list frame.items.reverse)) := by
  simp [step, closeList, kind, text, nonempty]

theorem step_atom {token : Token} {e : Expr} (kind : token.kind = .atom)
    (spelled : Expr.ofAtom? token.text = some e) (r : Reader) :
    r.step token = .ok (r.add e) := by
  simp [step, addAtom, kind, spelled]

mutual

/-- Reading the tokens of a derivation adds the expression it derives, whatever was
read before and whatever follows. -/
theorem steps_derived {tree : Tree} {e : Expr} (derived : tree.Derives e)
    (r : Reader) (rest : List Token) :
    r.steps (tree.tokens ++ rest) = (r.add e).steps rest := by
  cases derived with
  | atom kind spelled => exact steps_cons_ok rest (step_atom kind spelled r)
  | @list opener closer items es openKind openText closeKind closeText nonempty inner =>
    have some_items : es.reverse ≠ [] := by
      simpa using mt inner.eq_nil_iff.mpr nonempty
    let opened : Frame := { opener := opener, items := [] }
    calc
      r.steps ((Tree.list opener items closer).tokens ++ rest)
        = r.steps (opener :: (Tree.tokensAll items ++ closer :: rest)) := by
          simp [Tree.tokens]
      _ = steps { r with frames := opened :: r.frames }
            (Tree.tokensAll items ++ closer :: rest) :=
          steps_cons_ok _ (step_opening openKind openText r)
      _ = steps { r with frames := { opened with items := es.reverse } :: r.frames }
            (closer :: rest) := by
          rw [steps_derivedAll inner, addAll_frame]
          simp [opened]
      _ = (r.add (.list es)).steps rest := by
          rw [steps_cons_ok rest (step_closing closeKind closeText some_items _ _)]
          simp

/-- Reading the tokens of several derivations adds what they derive, in order. -/
theorem steps_derivedAll {trees : List Tree} {es : List Expr}
    (derived : Tree.DerivesAll trees es) (r : Reader) (rest : List Token) :
    r.steps (Tree.tokensAll trees ++ rest) = (r.addAll es).steps rest := by
  cases derived with
  | nil => rfl
  | cons first others =>
    rw [Tree.tokensAll, List.append_assoc, steps_derived first, steps_derivedAll others]
    rfl

end

/-! ## What is read is derived -/

/-- `Spine r read`: the tokens `read` are derivations of the finished forms of `r`,
followed, for each open list from the outermost to the innermost, by its paren and
derivations of its items so far. -/
inductive Spine : Reader → List Token → Prop
  | forms {forms : List Expr} {trees : List Tree} :
    Tree.DerivesAll trees forms.reverse →
    Spine { forms := forms, frames := [] } (Tree.tokensAll trees)
  | frame {forms : List Expr} {frames : List Frame} {opener : Token} {items : List Expr}
      {trees : List Tree} {before : List Token} :
    Spine { forms := forms, frames := frames } before →
    opener.kind = .opening → opener.text = "(" → Tree.DerivesAll trees items.reverse →
    Spine { forms := forms, frames := { opener := opener, items := items } :: frames }
      (before ++ opener :: Tree.tokensAll trees)

theorem Spine.start : Spine start [] :=
  @Spine.forms [] [] .nil

/-- A derivation after a spine extends it by the derived expression. -/
theorem Spine.add {r : Reader} {read : List Token} {tree : Tree} {e : Expr}
    (spine : Spine r read) (derived : tree.Derives e) :
    Spine (r.add e) (read ++ tree.tokens) := by
  have last : Tree.tokensAll [tree] = tree.tokens := List.append_nil _
  cases spine with
  | @forms forms trees all =>
    have longer : Tree.DerivesAll (trees ++ [tree]) (e :: forms).reverse := by
      simpa using all.append (.single derived)
    rw [← last, ← Tree.tokensAll_append]
    exact .forms longer
  | @frame forms frames opener items trees before outer kind text all =>
    have longer : Tree.DerivesAll (trees ++ [tree]) (e :: items).reverse := by
      simpa using all.append (.single derived)
    rw [← last, List.append_assoc, List.cons_append, ← Tree.tokensAll_append]
    exact .frame outer kind text longer

/-- A token that the reader takes extends the spine. -/
theorem Spine.step {r next : Reader} {read : List Token} {token : Token}
    (spine : Spine r read) (taken : r.step token = .ok next) :
    Spine next (read ++ [token]) := by
  unfold Reader.step at taken
  split at taken
  · next kind =>
    unfold openList at taken
    split at taken
    · next text =>
      cases taken
      have noItems : Tree.DerivesAll [] ([] : List Expr).reverse := .nil
      exact .frame spine kind text noItems
    · cases taken
  · next kind =>
    unfold closeList at taken
    split at taken
    · next text =>
      cases spine with
      | forms all => cases taken
      | @frame forms frames opener items trees before outer openKind openText all =>
        dsimp only at taken
        split at taken
        · cases taken
        · next occupied =>
          cases taken
          have nonempty : trees ≠ [] := by
            intro none
            exact occupied (by simpa using all.eq_nil_iff.mp none)
          have closed := outer.add (.list openKind openText kind text nonempty all)
          simpa [Tree.tokens] using closed
    · cases taken
  · next kind =>
    unfold addAtom at taken
    split at taken
    · next spelled =>
      cases taken
      exact spine.add (.atom kind spelled)
    · cases taken

theorem Spine.steps {r last : Reader} {read tokens : List Token}
    (spine : Spine r read) (taken : r.steps tokens = .ok last) :
    Spine last (read ++ tokens) := by
  induction tokens generalizing r read with
  | nil =>
    cases taken
    simpa using spine
  | cons token tokens ih =>
    rw [Reader.steps] at taken
    split at taken
    · next stepped => simpa using ih (spine.step stepped) taken
    · cases taken

end Reader

/-! ## The prefix property -/

namespace Tree

/-- No derivation starts here: the tokens are at their end or at a closing paren. -/
def Stops (rest : List Token) : Prop :=
  ∀ token ∈ rest.head?, token.kind = .closing

theorem Derives.not_stops {tree : Tree} {e : Expr} (derived : tree.Derives e)
    (rest : List Token) : ¬ Stops (tree.tokens ++ rest) := by
  intro stops
  cases derived with
  | @atom token _ kind _ =>
    have closing : token.kind = .closing := stops token rfl
    rw [kind] at closing
    cases closing
  | @list opener _ _ _ kind =>
    have closing : opener.kind = .closing := stops opener rfl
    rw [kind] at closing
    cases closing

mutual

/-- Two derivations that begin the same tokens are equal and leave the same rest. -/
theorem Derives.unique {s t : Tree} {e f : Expr} {restS restT : List Token}
    (left : s.Derives e) (right : t.Derives f)
    (same : s.tokens ++ restS = t.tokens ++ restT) :
    s = t ∧ e = f ∧ restS = restT := by
  cases left with
  | atom kindS spelledS =>
    cases right with
    | atom kindT spelledT =>
      obtain ⟨rfl, rests⟩ := List.cons.inj same
      exact ⟨rfl, Option.some.inj (spelledS.symm.trans spelledT), rests⟩
    | list kindT =>
      obtain ⟨rfl, -⟩ := List.cons.inj same
      rw [kindS] at kindT
      cases kindT
  | @list openerS closerS itemsS es kindS _ closeS _ _ innerS =>
    cases right with
    | atom kindT =>
      obtain ⟨rfl, -⟩ := List.cons.inj same
      rw [kindS] at kindT
      cases kindT
    | @list openerT closerT itemsT fs kindT _ closeT _ _ innerT =>
      simp only [tokens, List.cons_append, List.append_assoc, List.nil_append,
        List.cons.injEq] at same
      obtain ⟨rfl, inner⟩ := same
      have stopsS : Stops (closerS :: restS) := by simpa [Stops] using closeS
      have stopsT : Stops (closerT :: restT) := by simpa [Stops] using closeT
      obtain ⟨rfl, rfl, rests⟩ := DerivesAll.unique innerS innerT stopsS stopsT inner
      obtain ⟨rfl, rfl⟩ := List.cons.inj rests
      exact ⟨rfl, rfl, rfl⟩

/-- Two sequences of derivations that begin the same tokens are equal, if no further
derivation starts after either of them. -/
theorem DerivesAll.unique {ss ts : List Tree} {es fs : List Expr}
    {restS restT : List Token}
    (left : DerivesAll ss es) (right : DerivesAll ts fs)
    (stopsS : Stops restS) (stopsT : Stops restT)
    (same : tokensAll ss ++ restS = tokensAll ts ++ restT) :
    ss = ts ∧ es = fs ∧ restS = restT := by
  cases left with
  | nil =>
    cases right with
    | nil => exact ⟨rfl, rfl, same⟩
    | cons first _ =>
      simp only [tokensAll, List.nil_append, List.append_assoc] at same
      exact absurd (same ▸ stopsS) (first.not_stops _)
  | cons firstS othersS =>
    cases right with
    | nil =>
      simp only [tokensAll, List.nil_append, List.append_assoc] at same
      exact absurd (same ▸ stopsT) (firstS.not_stops _)
    | cons firstT othersT =>
      simp only [tokensAll, List.append_assoc] at same
      obtain ⟨rfl, rfl, rests⟩ := Derives.unique firstS firstT same
      obtain ⟨rfl, rfl, rfl⟩ := DerivesAll.unique othersS othersT stopsS stopsT rests
      exact ⟨rfl, rfl, rfl⟩

end

end Tree

/-! ## The reader accepts exactly the grammar -/

namespace Program

theorem ofTokens_of_derived {trees : List Tree} {forms : List Expr}
    (derived : Tree.DerivesAll trees forms) :
    ofTokens (Tree.tokensAll trees) = .ok { forms := forms } := by
  have run := Reader.steps_derivedAll derived Reader.start []
  rw [List.append_nil, Reader.addAll_start] at run
  simp [ofTokens, run, Reader.steps, Reader.finish, Except.map]

theorem derived_of_ofTokens {tokens : List Token} {program : Program}
    (accepted : ofTokens tokens = .ok program) :
    ∃ trees, Tree.tokensAll trees = tokens ∧ Tree.DerivesAll trees program.forms := by
  unfold ofTokens at accepted
  split at accepted
  · next reader taken =>
    have spine := Reader.Spine.start.steps taken
    cases spine with
    | forms all =>
      cases accepted
      exact ⟨_, rfl, all⟩
    | frame => cases accepted
  · cases accepted

/-- A token sequence is read as a program if and only if it is a sequence of
derivations, one for each form; and it is so in one way only. -/
theorem ofTokens_iff_derives (tokens : List Token) :
    (∀ e : Expr, (ofTokens tokens).map expr = .ok e ↔
      ∃ (forms : List Expr) (trees : List Tree), e = .list (.symbol "begin" :: forms) ∧
        tokens = Tree.tokensAll trees ∧ Tree.DerivesAll trees forms) ∧
    (∀ (trees others : List Tree) (forms otherForms : List Expr),
      tokens = Tree.tokensAll trees → Tree.DerivesAll trees forms →
      tokens = Tree.tokensAll others → Tree.DerivesAll others otherForms →
      trees = others ∧ forms = otherForms) := by
  refine ⟨fun e => ⟨fun accepted => ?_, ?_⟩, ?_⟩
  · cases result : ofTokens tokens with
    | error fault =>
      rw [result] at accepted
      cases accepted
    | ok program =>
      rw [result] at accepted
      cases accepted
      obtain ⟨trees, same, derived⟩ := derived_of_ofTokens result
      exact ⟨program.forms, trees, rfl, same.symm, derived⟩
  · rintro ⟨forms, trees, rfl, rfl, derived⟩
    rw [ofTokens_of_derived derived]
    rfl
  · intro trees others forms otherForms same derived otherSame otherDerived
    have ended : Tree.Stops [] := by simp [Tree.Stops]
    have equal : Tree.tokensAll trees ++ [] = Tree.tokensAll others ++ [] := by
      rw [← same, ← otherSame]
    obtain ⟨sameTrees, sameForms, -⟩ :=
      Tree.DerivesAll.unique derived otherDerived ended ended equal
    exact ⟨sameTrees, sameForms⟩

end Program

end FormScript
