import FormScript.Session
import FormScript.Proofs.FirstFault
import FormScript.Proofs.Readable

/-!
# What a session accepts

A session accepts a text that the grammar reads as at least one form, if every form is
a list. `Session.load_iff_grammar` says so, and what is answered to any other text: a
fault of the grammar comes before everything else, then the first form that is no list,
then the want of forms. A rejected text leaves the session as it was.

Bare atoms are searched for in the tokens, by counting parens, while forms come from
derivations. The two meet in `Tree.DerivesAll.firstBareAtom`: inside a list, the tokens
of a derivation are balanced and hold no bare atom, so the first atom outside of all
parens is the token of the first form that is no list.
-/

namespace FormScript

/-! ## Bare atoms and forms -/

namespace Program

/-- Inside a list, balanced tokens hold no bare atom. -/
theorem firstBareAtom?_balanced {inner : List Token} (balanced : Balanced inner) (depth : Nat)
    (rest : List Token) :
    firstBareAtom? (depth + 1) (inner ++ rest) = firstBareAtom? (depth + 1) rest := by
  induction balanced generalizing depth rest with
  | nil => rfl
  | atom kind _ ih => simp [firstBareAtom?, kind, ih]
  | pair openKind _ closeKind _ ihInner ihRest =>
    simp [firstBareAtom?, openKind, closeKind, ihInner, ihRest]

theorem mem_of_firstBareAtom? {depth : Nat} {tokens : List Token} {token : Token}
    (found : firstBareAtom? depth tokens = some token) : token ∈ tokens := by
  induction tokens generalizing depth with
  | nil => cases found
  | cons first tokens ih =>
    rw [firstBareAtom?] at found
    split at found
    · exact List.mem_cons_of_mem _ (ih found)
    · exact List.mem_cons_of_mem _ (ih found)
    · split at found
      · cases found
        exact List.mem_cons_self
      · exact List.mem_cons_of_mem _ (ih found)

/-- The token is the one of the first form that is no list, where the tokens derive the
forms. -/
def FirstBare (tokens : List Token) (forms : List Expr) (token : Token) : Prop :=
  ∃ (before : List Expr) (form : Expr) (after : List Expr) (front back : List Tree),
    forms = before ++ form :: after ∧
    (∀ other ∈ before, other.kind = .list) ∧ form.kind ≠ .list ∧
    tokens = Tree.tokensAll front ++ token :: Tree.tokensAll back ∧
    Tree.DerivesAll front before ∧ (Tree.atom token).Derives form ∧ Tree.DerivesAll back after

end Program

namespace Tree

/-- The tokens of a list begin with its opening paren and end with its closing one. -/
theorem Derives.edges {tree : Tree} {e : Expr} (derived : tree.Derives e)
    (isList : e.kind = .list) :
    ∃ opener inner closer, tree.tokens = opener :: (inner ++ [closer]) ∧
      opener.kind = .opening ∧ closer.kind = .closing := by
  cases derived with
  | atom _ spelled => exact absurd isList (Expr.ofAtom?_kind spelled)
  | @list opener closer items es openKind _ closeKind _ _ _ =>
    exact ⟨opener, tokensAll items, closer, rfl, openKind, closeKind⟩

/-- Each of several derivations derives one of the expressions. -/
theorem DerivesAll.exists_derived {trees : List Tree} {es : List Expr}
    (derived : DerivesAll trees es) : ∀ tree ∈ trees, ∃ e ∈ es, tree.Derives e := by
  induction trees generalizing es with
  | nil => simp
  | cons tree trees ih =>
    cases derived with
    | @cons _ _ e es first others =>
      refine List.forall_mem_cons.mpr ⟨⟨e, List.mem_cons_self, first⟩, fun other member => ?_⟩
      obtain ⟨found, inside, derives⟩ := ih others other member
      exact ⟨found, List.mem_cons_of_mem _ inside, derives⟩

/-- A derivation of a list is passed over in the search for a bare atom; any other
derivation is the atom that is found. -/
theorem Derives.firstBareAtom {tree : Tree} {e : Expr} (derived : tree.Derives e)
    (rest : List Token) :
    (e.kind = .list ∧
      Program.firstBareAtom? 0 (tree.tokens ++ rest) = Program.firstBareAtom? 0 rest) ∨
    (e.kind ≠ .list ∧ ∃ token, tree = .atom token ∧
      Program.firstBareAtom? 0 (tree.tokens ++ rest) = some token) := by
  cases derived with
  | @atom token e kind spelled =>
    exact .inr ⟨Expr.ofAtom?_kind spelled, token, rfl, by simp [tokens, Program.firstBareAtom?, kind]⟩
  | @list opener closer items es openKind _ closeKind _ _ inner =>
    have skipped := Program.firstBareAtom?_balanced inner.balanced 0 (closer :: rest)
    refine .inl ⟨rfl, ?_⟩
    simpa [tokens, Program.firstBareAtom?, openKind, closeKind] using skipped

/-- Either every form is a list and there is no bare atom, or the bare atom is the token
of the first form that is no list. -/
theorem DerivesAll.firstBareAtom {trees : List Tree} {forms : List Expr}
    (derived : DerivesAll trees forms) :
    ((∀ form ∈ forms, form.kind = .list) ∧
      Program.firstBareAtom? 0 (tokensAll trees) = none) ∨
    ∃ token, Program.FirstBare (tokensAll trees) forms token ∧
      Program.firstBareAtom? 0 (tokensAll trees) = some token := by
  induction trees generalizing forms with
  | nil =>
    cases derived
    exact .inl ⟨by simp, rfl⟩
  | cons tree trees ih =>
    cases derived with
    | @cons _ _ e es first others =>
      rw [tokensAll]
      rcases first.firstBareAtom (tokensAll trees) with ⟨isList, same⟩ | ⟨noList, token, rfl, found⟩
      · rw [same]
        rcases ih others with ⟨lists, none⟩ | ⟨token, bare, found⟩
        · exact .inl ⟨List.forall_mem_cons.mpr ⟨isList, lists⟩, none⟩
        · obtain ⟨before, form, after, front, back, rfl, lists, noList, split, left, middle,
            right⟩ := bare
          refine .inr ⟨token, ⟨e :: before, form, after, tree :: front, back, rfl, ?_, noList, ?_,
            .cons first left, middle, right⟩, found⟩
          · exact List.forall_mem_cons.mpr ⟨isList, lists⟩
          · rw [split, tokensAll, List.append_assoc]
      · exact .inr ⟨token, ⟨[], e, es, [], trees, rfl, by simp, noList, rfl, .nil, first, others⟩,
          found⟩

end Tree

/-! ## Programs to run -/

namespace Program

theorem FirstBare.not_list {tokens : List Token} {forms : List Expr} {token : Token}
    (bare : FirstBare tokens forms token) : ∃ form ∈ forms, form.kind ≠ .list := by
  obtain ⟨before, form, after, _, _, rfl, _, noList, _⟩ := bare
  exact ⟨form, by simp, noList⟩

/-- Tokens that the grammar reads hold a bare atom if and only if some form is no list. -/
theorem firstBareAtom_of_read {tokens : List Token} {p : Program}
    (read : ofTokens tokens = .ok p) :
    ((∀ form ∈ p.forms, form.kind = .list) ∧ firstBareAtom? 0 tokens = none) ∨
      ∃ token, FirstBare tokens p.forms token ∧ firstBareAtom? 0 tokens = some token := by
  obtain ⟨trees, rfl, derived⟩ := derived_of_ofTokens read
  exact derived.firstBareAtom

/-- What may be run: at least one form, and every form a list. -/
theorem accept_iff_lists {tokens : List Token} {p : Program} :
    accept tokens = .ok p ↔
      ofTokens tokens = .ok p ∧ p.forms ≠ [] ∧ ∀ form ∈ p.forms, form.kind = .list := by
  rw [accept_eq_ok_iff]
  constructor
  · rintro ⟨read, none, nonempty⟩
    rcases firstBareAtom_of_read read with ⟨lists, -⟩ | ⟨token, -, found⟩
    · exact ⟨read, nonempty, lists⟩
    · rw [none] at found
      cases found
  · rintro ⟨read, nonempty, lists⟩
    rcases firstBareAtom_of_read read with ⟨-, none⟩ | ⟨token, bare, -⟩
    · exact ⟨read, none, nonempty⟩
    · obtain ⟨form, member, noList⟩ := bare.not_list
      exact absurd (lists form member) noList

/-- What may be run begins with an opening paren and ends with a closing one. -/
theorem accept_edges {tokens : List Token} {p : Program} (accepted : accept tokens = .ok p) :
    (∃ opener rest, tokens = opener :: rest ∧ opener.kind = .opening) ∧
      ∃ front closer, tokens = front ++ [closer] ∧ closer.kind = .closing := by
  obtain ⟨read, nonempty, lists⟩ := accept_iff_lists.mp accepted
  obtain ⟨trees, rfl, derived⟩ := derived_of_ofTokens read
  have edges : ∀ tree ∈ trees, ∃ opener inner closer,
      tree.tokens = opener :: (inner ++ [closer]) ∧ opener.kind = .opening ∧
        closer.kind = .closing := by
    intro tree member
    obtain ⟨e, inside, derives⟩ := derived.exists_derived tree member
    exact derives.edges (lists e inside)
  have some_trees := mt derived.eq_nil_iff.mp nonempty
  constructor
  · obtain ⟨tree, others, rfl⟩ := List.exists_cons_of_ne_nil some_trees
    obtain ⟨opener, inner, closer, tokens, openKind, -⟩ := edges tree List.mem_cons_self
    exact ⟨opener, inner ++ [closer] ++ Tree.tokensAll others, by simp [Tree.tokensAll, tokens],
      openKind⟩
  · obtain ⟨others, tree, rfl⟩ : ∃ others tree, trees = others ++ [tree] :=
      ⟨_, _, (List.dropLast_concat_getLast some_trees).symm⟩
    obtain ⟨opener, inner, closer, tokens, -, closeKind⟩ := edges tree (by simp)
    refine ⟨Tree.tokensAll others ++ opener :: inner, closer, ?_, closeKind⟩
    rw [Tree.tokensAll_append]
    simp [Tree.tokensAll, tokens]

theorem accept_of_fault {tokens : List Token} {e : ParseError}
    (fault : ofTokens tokens = .error e) : accept tokens = .error e := by
  rw [accept, fault]

theorem accept_of_bare {tokens : List Token} {p : Program} (read : ofTokens tokens = .ok p)
    (some_bare : ∃ form ∈ p.forms, form.kind ≠ .list) :
    ∃ token, FirstBare tokens p.forms token ∧ accept tokens = .error (.bareAtom token) := by
  rcases firstBareAtom_of_read read with ⟨lists, -⟩ | ⟨token, bare, found⟩
  · obtain ⟨form, member, noList⟩ := some_bare
    exact absurd (lists form member) noList
  · exact ⟨token, bare, by rw [accept, read, found]⟩

theorem accept_of_empty {tokens : List Token} {p : Program} (read : ofTokens tokens = .ok p)
    (empty : p.forms = []) : accept tokens = .error .emptyProgram := by
  rcases firstBareAtom_of_read read with ⟨-, none⟩ | ⟨token, bare, -⟩
  · rw [accept, read, none]
    simp [empty]
  · obtain ⟨form, member, -⟩ := bare.not_list
    rw [empty] at member
    cases member

end Program

/-! ## The token of an error -/

theorem LastUnclosed.mem {tokens : List Token} {opener : Token}
    (last : LastUnclosed tokens opener) : opener ∈ tokens := by
  obtain ⟨before, after, rfl, -⟩ := last
  simp

theorem ParseError.PointsAtEnd.mem {read : List Token} {e : ParseError} {token : Token}
    (points : e.PointsAtEnd read) (carried : e.token? = some token) : token ∈ read := by
  cases e with
  | invalidToken found | unmatchedClose found =>
    cases carried
    exact List.mem_of_getLast? points
  | emptyList opener =>
    cases carried
    obtain ⟨before, closer, rfl, -⟩ := points
    simp
  | unclosed _ | emptyProgram | bareAtom _ | unreadable _ => exact points.elim

namespace Program

/-- A fault of the grammar is found at one of the tokens. -/
theorem mem_of_fault {tokens : List Token} {e : ParseError} {token : Token}
    (fault : ofTokens tokens = .error e) (carried : e.token? = some token) : token ∈ tokens := by
  cases result : Reader.start.steps tokens with
  | error found =>
    rw [ofTokens_of_error result] at fault
    cases fault
    obtain ⟨read, first, -, -, points⟩ := faulty_part result
    exact first.subset (points.mem carried)
  | ok r =>
    rcases ofTokens_of_taken result with ⟨program, accepted⟩ | ⟨frame, frames, opened, unclosed⟩
    · rw [accepted] at fault
      cases fault
    · rw [unclosed] at fault
      cases fault
      cases carried
      exact ((Reader.Spine.start.steps result).lastUnclosed opened).mem

/-- A rejection points at one of the tokens. -/
theorem mem_of_reject {tokens : List Token} {e : ParseError} {token : Token}
    (rejected : accept tokens = .error e) (carried : e.token? = some token) : token ∈ tokens := by
  rcases accept_error_cases rejected with fault | ⟨_, bare, -, found, rfl⟩ | ⟨-, -, rfl⟩
  · exact mem_of_fault fault carried
  · cases carried
    exact mem_of_firstBareAtom? found
  · cases carried

end Program

/-! ## Sessions -/

/-- A session accepts a text if and only if the grammar reads it as at least one form and
every form is a list, and then it holds these forms. A fault of the grammar is answered
whatever else is wrong; otherwise the first form that is no list is, by its token, and
the want of forms only if there are none. A rejected text changes nothing, and its error
points at one of its tokens. -/
theorem Session.load_iff_grammar (s : Session) (text : String) :
    let reply := s.load (.text text)
    (reply.answer = .ok () ↔
      ∃ p, Program.ofText text = .ok p ∧ p.forms ≠ [] ∧ ∀ form ∈ p.forms, form.kind = .list) ∧
    (∀ p, Program.ofText text = .ok p → reply.answer = .ok () →
      reply.session = { s with program := some p }) ∧
    (∀ e, Program.ofText text = .error e → reply.answer = .error e) ∧
    (∀ p, Program.ofText text = .ok p → (∃ form ∈ p.forms, form.kind ≠ .list) →
      ∃ token, Program.FirstBare (Token.scan text) p.forms token ∧
        reply.answer = .error (.bareAtom token)) ∧
    (∀ p, Program.ofText text = .ok p → p.forms = [] → reply.answer = .error .emptyProgram) ∧
    (∀ e, reply.answer = .error e →
      reply.session = s ∧ ∀ token, e.token? = some token → token ∈ Token.scan text) := by
  refine ⟨⟨fun answered => ?_, ?_⟩, fun p read answered => ?_, fun e fault => ?_,
    fun p read bare => ?_, fun p read empty => ?_, fun e failed => ?_⟩
  · obtain ⟨p, accepted⟩ := accept_of_load answered
    exact ⟨p, Program.accept_iff_lists.mp accepted⟩
  · rintro ⟨p, conditions⟩
    rw [load_of_accept (Program.accept_iff_lists.mpr conditions)]
  · obtain ⟨q, accepted⟩ := accept_of_load answered
    obtain ⟨same, -⟩ := Program.accept_iff_lists.mp accepted
    obtain rfl : p = q := Except.ok.inj (read.symm.trans same)
    rw [load_of_accept accepted]
  · rw [load_of_reject (Program.accept_of_fault fault)]
  · obtain ⟨token, first, rejected⟩ := Program.accept_of_bare read bare
    exact ⟨token, first, by rw [load_of_reject rejected]⟩
  · rw [load_of_reject (Program.accept_of_empty read empty)]
  · have rejected := reject_of_load failed
    refine ⟨by rw [load_of_reject rejected], fun token carried => ?_⟩
    exact Program.mem_of_reject rejected carried

end FormScript
