import FormScript.Proofs.Grammar
import FormScript.Proofs.Reading

/-!
# The first fault

Tokens that are not a program are faulty in one of two ways. Either the reader takes
all of them and some list is still open: then more tokens could make them a program,
and the error names the last paren that is open. Or the reader refuses a token: then
nothing that follows matters, and the tokens up to this one are the shortest part that
no continuation mends. `Program.ofTokens_first_fault` says that the errors tell the
two apart, and at which token each of them points.

Which paren is open is said without the reader. `Balanced` are the tokens in which
every paren has its partner, and a paren is closed by what follows it if balanced
tokens and a closing paren come next (`ClosedBy`).
-/

namespace FormScript

/-! ## Parens and their partners -/

/-- Tokens in which every paren has its partner. -/
inductive Balanced : List Token → Prop
  | nil : Balanced []
  | atom {token : Token} {rest : List Token} :
    token.kind = .atom → Balanced rest → Balanced (token :: rest)
  | pair {opener closer : Token} {inner rest : List Token} :
    opener.kind = .opening → Balanced inner → closer.kind = .closing → Balanced rest →
    Balanced (opener :: (inner ++ closer :: rest))

/-- An opening paren before these tokens has its partner among them. -/
def ClosedBy (after : List Token) : Prop :=
  ∃ inner closer rest, after = inner ++ closer :: rest ∧ Balanced inner ∧ closer.kind = .closing

/-- The last opening paren of these tokens that has no partner among them. -/
def LastUnclosed (tokens : List Token) (opener : Token) : Prop :=
  ∃ before after, tokens = before ++ opener :: after ∧ opener.kind = .opening ∧
    ¬ ClosedBy after ∧
    ∀ front other back, after = front ++ other :: back → other.kind = .opening → ClosedBy back

theorem Balanced.append {front back : List Token} (left : Balanced front)
    (right : Balanced back) : Balanced (front ++ back) := by
  induction left with
  | nil => exact right
  | atom kind _ ih => exact .atom kind ih
  | pair openKind inner closeKind _ _ ih =>
    rw [List.cons_append, List.append_assoc, List.cons_append]
    exact .pair openKind inner closeKind ih

theorem ClosedBy.append {front : List Token} (closed : ClosedBy front) (back : List Token) :
    ClosedBy (front ++ back) := by
  obtain ⟨inner, closer, rest, rfl, balanced, kind⟩ := closed
  exact ⟨inner, closer, rest ++ back, by simp, balanced, kind⟩

/-- In balanced tokens every opening paren is closed. -/
theorem Balanced.closedBy {tokens front back : List Token} {opener : Token}
    (balanced : Balanced tokens) (split : tokens = front ++ opener :: back)
    (kind : opener.kind = .opening) : ClosedBy back := by
  induction balanced generalizing front back with
  | nil => simp at split
  | @atom token rest atomKind _ ih =>
    rcases List.cons_eq_append_iff.mp split with ⟨-, same⟩ | ⟨front, -, same⟩
    · obtain ⟨rfl, -⟩ := List.cons.inj same
      rw [atomKind] at kind
      cases kind
    · exact ih same
  | @pair first closer inner rest _ innerBalanced closeKind _ ihInner ihRest =>
    have other : opener ≠ closer := by
      rintro rfl
      rw [closeKind] at kind
      cases kind
    rcases List.cons_eq_append_iff.mp split with ⟨-, same⟩ | ⟨front, -, same⟩
    · obtain ⟨rfl, rfl⟩ := List.cons.inj same
      exact ⟨inner, closer, rest, rfl, innerBalanced, closeKind⟩
    -- the opening paren stands before the closing paren of the pair or after it
    rcases append_eq_append_cons same with ⟨middle, inside, rfl⟩ | ⟨middle, -, after⟩
    · exact (ihInner inside).append _
    · rcases List.cons_eq_append_iff.mp after with ⟨-, same⟩ | ⟨middle, -, after⟩
      · exact absurd (List.cons.inj same).1 other
      · exact ihRest after

/-- The number of open parens after tokens, or nothing at a closing paren too many. -/
def depthAfter? (depth : Nat) : List Token → Option Nat
  | [] => some depth
  | token :: tokens =>
    match token.kind, depth with
    | .opening, _ => depthAfter? (depth + 1) tokens
    | .closing, 0 => none
    | .closing, depth + 1 => depthAfter? depth tokens
    | .atom, _ => depthAfter? depth tokens

theorem Balanced.depthAfter?_append {tokens : List Token} (balanced : Balanced tokens)
    (depth : Nat) (rest : List Token) :
    depthAfter? depth (tokens ++ rest) = depthAfter? depth rest := by
  induction balanced generalizing depth rest with
  | nil => rfl
  | atom kind _ ih => simp [depthAfter?, kind, ih]
  | pair openKind _ closeKind _ ihInner ihRest =>
    simp [depthAfter?, openKind, closeKind, ihInner, ihRest]

/-- Balanced tokens close no paren before them. -/
theorem Balanced.not_closedBy {tokens : List Token} (balanced : Balanced tokens) :
    ¬ ClosedBy tokens := by
  rintro ⟨inner, closer, rest, rfl, innerBalanced, kind⟩
  have whole := balanced.depthAfter?_append 0 []
  rw [List.append_nil, innerBalanced.depthAfter?_append] at whole
  simp [depthAfter?, kind] at whole

mutual

/-- The tokens of a derivation are balanced. -/
theorem Tree.Derives.balanced {tree : Tree} {e : Expr} (derived : tree.Derives e) :
    Balanced tree.tokens := by
  cases derived with
  | atom kind _ => exact .atom kind .nil
  | list openKind _ closeKind _ _ inner =>
    exact .pair openKind (Tree.DerivesAll.balanced inner) closeKind .nil

theorem Tree.DerivesAll.balanced {trees : List Tree} {es : List Expr}
    (derived : Tree.DerivesAll trees es) : Balanced (Tree.tokensAll trees) := by
  cases derived with
  | nil => exact .nil
  | cons first others =>
    exact (Tree.Derives.balanced first).append (Tree.DerivesAll.balanced others)

end

/-! ## Open lists can be closed -/

namespace Reader

/-- An atom, wherever it stands. -/
def anyAtom : Token :=
  { kind := .atom, text := "x", line := 1, span := { start := 0, stop := 1 } }

/-- A closing paren, wherever it stands. -/
def anyCloser : Token :=
  { kind := .closing, text := ")", line := 1, span := { start := 0, stop := 1 } }

/-- Tokens that close every open list. The atom keeps the innermost one from being
empty. -/
def completion (r : Reader) : List Token :=
  if r.frames.isEmpty then [] else anyAtom :: List.replicate r.frames.length anyCloser

/-- As many closing parens as there are open lists close all of them, if the innermost
one has an item. -/
theorem steps_closers (forms : List Expr) (frame : Frame) (frames : List Frame)
    (nonempty : frame.items ≠ []) :
    ∃ all, steps { forms := forms, frames := frame :: frames }
      (List.replicate (frames.length + 1) anyCloser) = .ok { forms := all, frames := [] } := by
  induction frames generalizing frame with
  | nil =>
    refine ⟨.list frame.items.reverse :: forms, ?_⟩
    rw [List.replicate_succ, steps_cons_ok _ (step_closing rfl rfl nonempty _ _)]
    rfl
  | cons outer frames ih =>
    let closed : Frame := { outer with items := .list frame.items.reverse :: outer.items }
    obtain ⟨all, rest⟩ := ih closed (List.cons_ne_nil _ _)
    refine ⟨all, ?_⟩
    rw [List.replicate_succ, steps_cons_ok _ (step_closing rfl rfl nonempty _ _)]
    exact rest

theorem steps_completion (r : Reader) :
    ∃ all, r.steps r.completion = .ok { forms := all, frames := [] } := by
  cases r with
  | mk forms frames =>
    cases frames with
    | nil => exact ⟨forms, rfl⟩
    | cons frame frames =>
      have spelled : Expr.ofAtom? anyAtom.text = some (.symbol "x") := rfl
      let filled : Frame := { frame with items := .symbol "x" :: frame.items }
      obtain ⟨all, rest⟩ := steps_closers forms filled frames (List.cons_ne_nil _ _)
      refine ⟨all, ?_⟩
      simp only [completion, List.isEmpty_cons, Bool.false_eq_true, if_false]
      rw [steps_cons_ok _ (step_atom rfl spelled _)]
      exact rest

/-! ## The refused token -/

/-- The tokens before the one that the reader refuses are taken. -/
theorem steps_error {r : Reader} {tokens : List Token} {e : ParseError}
    (refused : r.steps tokens = .error e) :
    ∃ front token back reached, tokens = front ++ token :: back ∧
      r.steps front = .ok reached ∧ reached.step token = .error e := by
  induction tokens generalizing r with
  | nil => cases refused
  | cons token tokens ih =>
    rw [steps] at refused
    split at refused
    · next taken =>
      obtain ⟨front, last, back, reached, rfl, before, stuck⟩ := ih refused
      exact ⟨token :: front, last, back, reached, rfl,
        (steps_cons_ok front taken).trans before, stuck⟩
    · next stuck =>
      cases refused
      exact ⟨[], token, tokens, r, rfl, rfl, stuck⟩

/-- What the reader takes, it takes from the beginning on. -/
theorem taken_of_isPrefix {r next : Reader} {front tokens : List Token}
    (first : front <+: tokens) (taken : r.steps tokens = .ok next) :
    ∃ reached, r.steps front = .ok reached := by
  obtain ⟨back, rfl⟩ := first
  cases result : r.steps front with
  | ok reached => exact ⟨reached, rfl⟩
  | error e =>
    rw [steps_append_error result] at taken
    cases taken

/-- Why the reader refuses a token. -/
theorem step_error {r : Reader} {token : Token} {e : ParseError}
    (refused : r.step token = .error e) :
    e = .invalidToken token ∨ e = .unmatchedClose token ∨
      ∃ opener frames, r.frames = { opener := opener, items := [] } :: frames ∧
        e = .emptyList opener := by
  unfold step at refused
  split at refused
  · unfold openList at refused
    split at refused <;> cases refused
    exact .inl rfl
  · unfold closeList at refused
    split at refused
    · split at refused
      · cases refused
        exact .inr (.inl rfl)
      · next frame frames opened =>
        split at refused
        · next empty =>
          cases refused
          have noItems : frame.items = [] := by simpa using empty
          exact .inr (.inr ⟨frame.opener, frames, by rw [opened, ← noItems], rfl⟩)
        · cases refused
    · cases refused
      exact .inl rfl
  · unfold addAtom at refused
    split at refused <;> cases refused
    exact .inl rfl

/-- An open list without items was opened just now. -/
theorem Spine.opened_last {r : Reader} {read : List Token} {opener : Token}
    {frames : List Frame} (spine : Spine r read)
    (opened : r.frames = { opener := opener, items := [] } :: frames) :
    ∃ before, read = before ++ [opener] ∧ opener.kind = .opening := by
  cases spine with
  | forms => cases opened
  | @frame forms outer last items trees before _ kind _ derived =>
    cases opened
    have noTrees : trees = [] := derived.eq_nil_iff.mpr rfl
    subst noTrees
    exact ⟨before, rfl, kind⟩

/-- The innermost open list starts at the last paren without a partner. -/
theorem Spine.lastUnclosed {r : Reader} {read : List Token} {frame : Frame}
    {frames : List Frame} (spine : Spine r read) (opened : r.frames = frame :: frames) :
    LastUnclosed read frame.opener := by
  cases spine with
  | forms => cases opened
  | @frame forms outer last items trees before _ kind _ derived =>
    cases opened
    have balanced := derived.balanced
    exact ⟨before, _, rfl, kind, balanced.not_closedBy,
      fun _ _ _ split opening => balanced.closedBy split opening⟩

end Reader

/-! ## Programs -/

namespace Program

theorem ofTokens_of_error {tokens : List Token} {e : ParseError}
    (refused : Reader.start.steps tokens = .error e) : ofTokens tokens = .error e := by
  rw [ofTokens, refused]

/-- Tokens that the reader takes are a program or leave a list open. -/
theorem ofTokens_of_taken {tokens : List Token} {r : Reader}
    (taken : Reader.start.steps tokens = .ok r) :
    (∃ program, ofTokens tokens = .ok program) ∨
      ∃ frame frames, r.frames = frame :: frames ∧
        ofTokens tokens = .error (.unclosed frame.opener) := by
  rw [ofTokens, taken]
  cases r with
  | mk forms frames =>
    cases frames with
    | nil => exact .inl ⟨_, rfl⟩
    | cons frame frames => exact .inr ⟨frame, frames, rfl, rfl⟩

/-- Only a list that is open at the end is reported as unclosed. -/
theorem taken_of_unclosed {tokens : List Token} {opener : Token}
    (unclosed : ofTokens tokens = .error (.unclosed opener)) :
    ∃ r frame frames, Reader.start.steps tokens = .ok r ∧ r.frames = frame :: frames ∧
      opener = frame.opener := by
  cases read : Reader.start.steps tokens with
  | error e =>
    rw [ofTokens_of_error read] at unclosed
    cases unclosed
    obtain ⟨_, token, _, reached, -, -, refused⟩ := Reader.steps_error read
    rcases Reader.step_error refused with impossible | impossible | ⟨_, _, _, impossible⟩
    all_goals cases impossible
  | ok r =>
    rcases ofTokens_of_taken read with ⟨program, accepted⟩ | ⟨frame, frames, opened, same⟩
    · rw [accepted] at unclosed
      cases unclosed
    · rw [same] at unclosed
      cases unclosed
      exact ⟨r, frame, frames, rfl, opened, rfl⟩

/-- The faults of tokens, each at a token. The want of forms is none of them. -/
theorem fault_cases {tokens : List Token} {e : ParseError}
    (fault : ofTokens tokens = .error e) :
    ∃ token, e = .unclosed token ∨ e = .invalidToken token ∨ e = .unmatchedClose token ∨
      e = .emptyList token := by
  cases read : Reader.start.steps tokens with
  | error found =>
    rw [ofTokens_of_error read] at fault
    cases fault
    obtain ⟨_, token, _, _, -, -, refused⟩ := Reader.steps_error read
    rcases Reader.step_error refused with invalid | unmatched | ⟨opener, _, _, empty⟩
    · exact ⟨token, .inr (.inl invalid)⟩
    · exact ⟨token, .inr (.inr (.inl unmatched))⟩
    · exact ⟨opener, .inr (.inr (.inr empty))⟩
  | ok r =>
    rcases ofTokens_of_taken read with ⟨program, accepted⟩ | ⟨frame, _, -, unclosed⟩
    · rw [accepted] at fault
      cases fault
    · rw [unclosed] at fault
      cases fault
      exact ⟨frame.opener, .inl rfl⟩

end Program

/-- An error points at the end of the tokens that have been read: at the last token,
or for an empty list at the opening paren just before it. -/
def ParseError.PointsAtEnd (read : List Token) : ParseError → Prop
  | .invalidToken token | .unmatchedClose token => read.getLast? = some token
  | .emptyList opener =>
    ∃ before closer, read = before ++ [opener, closer] ∧ opener.kind = .opening
  | _ => False

theorem Reader.Spine.pointsAtEnd {r : Reader} {read : List Token} {token : Token}
    {e : ParseError} (spine : Spine r read) (refused : r.step token = .error e) :
    e.PointsAtEnd (read ++ [token]) := by
  rcases step_error refused with rfl | rfl | ⟨opener, frames, opened, rfl⟩
  · exact List.getLast?_concat
  · exact List.getLast?_concat
  · obtain ⟨before, rfl, kind⟩ := spine.opened_last opened
    exact ⟨before, token, by simp, kind⟩

namespace Program

/-- Tokens that leave a list open can be continued to a program. -/
theorem exists_continuation {tokens : List Token} {opener : Token}
    (unclosed : ofTokens tokens = .error (.unclosed opener)) :
    ∃ more program, ofTokens (tokens ++ more) = .ok program := by
  obtain ⟨r, frame, frames, taken, -, -⟩ := taken_of_unclosed unclosed
  obtain ⟨forms, completed⟩ := r.steps_completion
  refine ⟨r.completion, { forms := forms.reverse }, ?_⟩
  rw [ofTokens_eq_ok_iff, Reader.steps_append_ok taken, completed, List.reverse_reverse]

/-- Tokens that can be continued to a program are one or leave a list open. -/
theorem unclosed_of_continuation {tokens more : List Token} {program : Program}
    (continued : ofTokens (tokens ++ more) = .ok program)
    (rejected : ∀ program, ofTokens tokens ≠ .ok program) :
    ∃ opener, ofTokens tokens = .error (.unclosed opener) := by
  obtain ⟨reached, taken⟩ :=
    Reader.taken_of_isPrefix (List.prefix_append _ _) (ofTokens_eq_ok_iff.mp continued)
  rcases ofTokens_of_taken taken with ⟨program, accepted⟩ | ⟨frame, _, _, unclosed⟩
  · exact absurd accepted (rejected program)
  · exact ⟨frame.opener, unclosed⟩

/-- A refused token ends the shortest part of the tokens that nothing mends. -/
theorem faulty_part {tokens : List Token} {e : ParseError}
    (refused : Reader.start.steps tokens = .error e) :
    ∃ read, read <+: tokens ∧ (∀ more, ofTokens (read ++ more) = .error e) ∧
      (∀ less, less <+: read → less ≠ read →
        (∃ program, ofTokens less = .ok program) ∨
          ∃ opener, ofTokens less = .error (.unclosed opener)) ∧
      e.PointsAtEnd read := by
  obtain ⟨front, token, back, reached, rfl, taken, stuck⟩ := Reader.steps_error refused
  have ended : Reader.start.steps (front ++ [token]) = .error e := by
    rw [Reader.steps_append_ok taken, Reader.steps, stuck]
  refine ⟨front ++ [token], ⟨back, by simp⟩, ?_, ?_, ?_⟩
  · exact fun more => ofTokens_of_error (Reader.steps_append_error ended more)
  · intro less shorter different
    rcases List.prefix_concat_iff.mp shorter with same | first
    · exact absurd same different
    · obtain ⟨middle, takenLess⟩ := Reader.taken_of_isPrefix first taken
      rcases ofTokens_of_taken takenLess with accepted | ⟨frame, _, _, unclosed⟩
      · exact .inl accepted
      · exact .inr ⟨frame.opener, unclosed⟩
  · exact (Reader.Spine.start.steps taken).pointsAtEnd stuck

/-- An unclosed list is reported if and only if the tokens are no program but can be
continued to one, and it is the one opened by the last paren without a partner. Any
other error is the error of a first part of the tokens however they go on; every
shorter part is a program or leaves a list open, and the error points at the end of
that part. -/
theorem ofTokens_first_fault (tokens : List Token) :
    ((∃ opener, ofTokens tokens = .error (.unclosed opener)) ↔
      (∀ program, ofTokens tokens ≠ .ok program) ∧
        ∃ more program, ofTokens (tokens ++ more) = .ok program) ∧
    (∀ opener, ofTokens tokens = .error (.unclosed opener) → LastUnclosed tokens opener) ∧
    (∀ e, ofTokens tokens = .error e → (∀ opener, e ≠ .unclosed opener) →
      ∃ read, read <+: tokens ∧ (∀ more, ofTokens (read ++ more) = .error e) ∧
        (∀ less, less <+: read → less ≠ read →
          (∃ program, ofTokens less = .ok program) ∨
            ∃ opener, ofTokens less = .error (.unclosed opener)) ∧
        e.PointsAtEnd read) := by
  refine ⟨⟨?_, ?_⟩, ?_, ?_⟩
  · rintro ⟨opener, unclosed⟩
    refine ⟨fun program accepted => ?_, exists_continuation unclosed⟩
    rw [unclosed] at accepted
    cases accepted
  · rintro ⟨rejected, more, program, continued⟩
    exact unclosed_of_continuation continued rejected
  · intro opener unclosed
    obtain ⟨r, frame, frames, taken, opened, rfl⟩ := taken_of_unclosed unclosed
    exact (Reader.Spine.start.steps taken).lastUnclosed opened
  · intro e failed closed
    cases result : Reader.start.steps tokens with
    | error found =>
      rw [ofTokens_of_error result] at failed
      cases failed
      exact faulty_part result
    | ok r =>
      rcases ofTokens_of_taken result with ⟨program, accepted⟩ | ⟨frame, _, _, unclosed⟩
      · rw [accepted] at failed
        cases failed
      · rw [unclosed] at failed
        cases failed
        exact absurd rfl (closed frame.opener)

end Program

end FormScript
