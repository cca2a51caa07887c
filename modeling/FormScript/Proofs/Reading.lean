import FormScript.Program

/-!
# How reading goes on

Reading is compositional. What was read of a first part of the tokens is a reader
that takes the second part (`Reader.steps_append`), and forms that are finished have
no influence on what follows them (`Reader.steps_onto`). So token sequences that are
programs can be put one after the other (`Program.ofTokens_append`), and after a program
to run the tokens that follow decide (`Program.accept_append_eq`).

The reader looks at the kind and the text of a token only. Under a change of the
tokens that keeps these, a program stays the same, and a fault is found at the
changed token (`Program.ofTokens_map`, `Program.accept_map`).
-/

namespace FormScript

/-! ## One part after the other -/

namespace Reader

theorem steps_append (r : Reader) (front back : List Token) :
    r.steps (front ++ back) = (r.steps front).bind fun next => next.steps back := by
  induction front generalizing r with
  | nil => rfl
  | cons token front ih =>
    rw [List.cons_append, steps, steps]
    cases r.step token with
    | error e => rfl
    | ok next => exact ih next

theorem steps_append_ok {r next : Reader} {front : List Token} (taken : r.steps front = .ok next)
    (back : List Token) : r.steps (front ++ back) = next.steps back := by
  rw [steps_append, taken]
  rfl

theorem steps_append_error {r : Reader} {front : List Token} {e : ParseError}
    (refused : r.steps front = .error e) (back : List Token) :
    r.steps (front ++ back) = .error e := by
  rw [steps_append, refused]
  rfl

/-- The same reader after further forms, the latest first. -/
def onto (r : Reader) (base : List Expr) : Reader :=
  { r with forms := r.forms ++ base }

theorem add_onto (r : Reader) (base : List Expr) (e : Expr) :
    (r.onto base).add e = (r.add e).onto base := by
  cases r with
  | mk forms frames => cases frames <;> rfl

theorem closeList_onto (r : Reader) (base : List Expr) (closer : Token) :
    (r.onto base).closeList closer = (r.closeList closer).map (onto · base) := by
  cases r with
  | mk forms frames =>
    cases frames with
    | nil =>
      unfold closeList
      split <;> rfl
    | cons frame frames =>
      unfold closeList
      split
      · dsimp only [onto]
        split
        · rfl
        · exact congrArg Except.ok (add_onto { forms := forms, frames := frames } base _)
      · rfl

theorem step_onto (r : Reader) (base : List Expr) (token : Token) :
    (r.onto base).step token = (r.step token).map (onto · base) := by
  unfold step
  split
  · unfold openList
    split <;> rfl
  · exact r.closeList_onto base token
  · unfold addAtom
    split
    · exact congrArg Except.ok (r.add_onto base _)
    · rfl

theorem steps_onto (r : Reader) (base : List Expr) (tokens : List Token) :
    (r.onto base).steps tokens = (r.steps tokens).map (onto · base) := by
  induction tokens generalizing r with
  | nil => rfl
  | cons token tokens ih =>
    rw [steps, steps, step_onto]
    cases r.step token with
    | error e => rfl
    | ok next => exact ih next

theorem finish_onto (r : Reader) (base : List Expr) :
    (r.onto base).finish = r.finish.map (base.reverse ++ ·) := by
  cases r with
  | mk forms frames =>
    cases frames with
    | nil => simp [finish, onto, Except.map]
    | cons frame frames => rfl

@[simp] theorem length_frames_add (r : Reader) (e : Expr) :
    (r.add e).frames.length = r.frames.length := by
  cases r with
  | mk forms frames => cases frames <;> rfl

/-- The number of open lists after a token, by the kind of the token. -/
theorem length_frames_step {r next : Reader} {token : Token} (taken : r.step token = .ok next) :
    next.frames.length =
      match token.kind with
      | .opening => r.frames.length + 1
      | .closing => r.frames.length - 1
      | .atom => r.frames.length := by
  cases kind : token.kind with
  | opening =>
    simp only [step, kind, openList] at taken
    split at taken
    · cases taken
      rfl
    · cases taken
  | closing =>
    simp only [step, kind, closeList] at taken
    split at taken
    · split at taken
      · cases taken
      · next frame frames opened =>
        split at taken
        · cases taken
        · cases taken
          simp [opened]
    · cases taken
  | atom =>
    simp only [step, kind, addAtom] at taken
    split at taken
    · cases taken
      simp
    · cases taken

end Reader

namespace Program

/-- A program is read by a reader that ends with no list open. -/
theorem ofTokens_eq_ok_iff {tokens : List Token} {program : Program} :
    ofTokens tokens = .ok program ↔
      Reader.start.steps tokens = .ok { forms := program.forms.reverse, frames := [] } := by
  cases program with
  | mk expected =>
    unfold ofTokens
    cases Reader.start.steps tokens with
    | error e => simp
    | ok r =>
      cases r with
      | mk forms frames =>
        cases frames with
        | nil => simp [Reader.finish, Except.map, List.reverse_eq_iff]
        | cons frame frames => simp [Reader.finish, Except.map]

/-- After the tokens of a program the reader begins anew. -/
theorem ofTokens_append {front : List Token} {program : Program}
    (read : ofTokens front = .ok program) (back : List Token) :
    ofTokens (front ++ back) =
      (ofTokens back).map fun rest => { forms := program.forms ++ rest.forms } := by
  have done : Reader.start.steps front = .ok (Reader.start.onto program.forms.reverse) :=
    ofTokens_eq_ok_iff.mp read
  unfold ofTokens
  rw [Reader.steps_append_ok done, Reader.steps_onto]
  cases Reader.start.steps back with
  | error e => rfl
  | ok r =>
    dsimp only [Except.map]
    rw [Reader.finish_onto, List.reverse_reverse]
    cases r.finish <;> rfl

/-- The search for a bare atom goes on at the depth that the reader has reached. -/
theorem firstBareAtom?_append {r next : Reader} {front : List Token}
    (taken : r.steps front = .ok next) (back : List Token) :
    firstBareAtom? r.frames.length (front ++ back) =
      (firstBareAtom? r.frames.length front).or (firstBareAtom? next.frames.length back) := by
  induction front generalizing r with
  | nil =>
    cases taken
    rfl
  | cons token front ih =>
    rw [Reader.steps] at taken
    split at taken
    · next middle stepped =>
      have depth := Reader.length_frames_step stepped
      have later := ih taken
      rw [depth] at later
      rw [List.cons_append, firstBareAtom?, firstBareAtom?]
      cases kind : token.kind with
      | opening | closing => simpa [kind] using later
      | atom =>
        dsimp only
        split
        · rfl
        · simpa [kind] using later
    · cases taken

/-- What may be run: forms without a bare atom among them, and at least one. -/
theorem accept_eq_ok_iff {tokens : List Token} {program : Program} :
    accept tokens = .ok program ↔
      ofTokens tokens = .ok program ∧ firstBareAtom? 0 tokens = none ∧ program.forms ≠ [] := by
  unfold accept
  cases ofTokens tokens with
  | error e => simp
  | ok p =>
    cases firstBareAtom? 0 tokens with
    | some token => simp
    | none =>
      cases p with
      | mk forms =>
        cases forms with
        | nil =>
          constructor
          · intro refused
            cases refused
          · rintro ⟨same, -, nonempty⟩
            cases same
            exact absurd rfl nonempty
        | cons form forms =>
          constructor
          · intro accepted
            cases accepted
            exact ⟨rfl, rfl, List.cons_ne_nil _ _⟩
          · exact fun ⟨same, _, _⟩ => same

/-- Why tokens are not a program to run. -/
theorem accept_error_cases {tokens : List Token} {e : ParseError}
    (rejected : accept tokens = .error e) :
    ofTokens tokens = .error e ∨
    (∃ q token, ofTokens tokens = .ok q ∧ firstBareAtom? 0 tokens = some token ∧
      e = .bareAtom token) ∨
    (ofTokens tokens = .ok { forms := [] } ∧ firstBareAtom? 0 tokens = none ∧
      e = .emptyProgram) := by
  unfold accept at rejected
  split at rejected
  · next fault =>
    cases rejected
    exact .inl fault
  · next q read =>
    split at rejected
    · next token found =>
      cases rejected
      exact .inr (.inl ⟨q, token, read, found, rfl⟩)
    · next noAtom =>
      split at rejected
      · next empty =>
        cases rejected
        have noForms : q.forms = [] := by simpa using empty
        exact .inr (.inr ⟨by rw [read, ← noForms], noAtom, rfl⟩)
      · cases rejected

/-- After tokens that may be run, those that follow decide: their fault or their bare
atom is found, and otherwise there is nothing left to object to. -/
theorem accept_append_eq {front : List Token} {p : Program} (first : accept front = .ok p)
    (back : List Token) :
    accept (front ++ back) =
      match ofTokens back, firstBareAtom? 0 back with
      | .error e, _ => .error e
      | .ok _, some token => .error (.bareAtom token)
      | .ok q, none => .ok { forms := p.forms ++ q.forms } := by
  obtain ⟨readFirst, noneFirst, nonempty⟩ := accept_eq_ok_iff.mp first
  have bare : firstBareAtom? 0 (front ++ back) = firstBareAtom? 0 back := by
    have found := firstBareAtom?_append (ofTokens_eq_ok_iff.mp readFirst) back
    simpa [Reader.start, noneFirst] using found
  rw [accept, ofTokens_append readFirst, bare]
  cases ofTokens back with
  | error e => rfl
  | ok q =>
    cases firstBareAtom? 0 back with
    | some token => rfl
    | none => simp [Except.map, nonempty]

/-- Programs that may be run can be run one after the other. -/
theorem accept_append {front back : List Token} {p q : Program}
    (first : accept front = .ok p) (second : accept back = .ok q) :
    accept (front ++ back) = .ok { forms := p.forms ++ q.forms } := by
  obtain ⟨readSecond, noneSecond, -⟩ := accept_eq_ok_iff.mp second
  rw [accept_append_eq first, readSecond, noneSecond]

end Program

/-! ## Tokens at other places -/

/-- A change of tokens that keeps what the reader looks at. -/
structure Token.KeepsForm (f : Token → Token) : Prop where
  kind : ∀ token, (f token).kind = token.kind
  text : ∀ token, (f token).text = token.text

/-- The same error about changed tokens. -/
def ParseError.map (f : Token → Token) : ParseError → ParseError
  | .invalidToken token => .invalidToken (f token)
  | .unclosed opener => .unclosed (f opener)
  | .unmatchedClose token => .unmatchedClose (f token)
  | .emptyList opener => .emptyList (f opener)
  | .emptyProgram => .emptyProgram
  | .bareAtom token => .bareAtom (f token)
  | .unreadable reason => .unreadable reason

namespace Reader

/-- A reader of changed tokens. -/
def map (f : Token → Token) (r : Reader) : Reader :=
  { r with frames := r.frames.map fun frame => { frame with opener := f frame.opener } }

variable {f : Token → Token}

theorem add_map (r : Reader) (e : Expr) : (r.map f).add e = (r.add e).map f := by
  cases r with
  | mk forms frames => cases frames <;> rfl

theorem closeList_map (keeps : Token.KeepsForm f) (r : Reader) (closer : Token) :
    (r.map f).closeList (f closer) =
      ((r.closeList closer).map (map f)).mapError (ParseError.map f) := by
  cases r with
  | mk forms frames =>
    unfold closeList
    rw [keeps.text]
    split
    · cases frames with
      | nil => rfl
      | cons frame frames =>
        simp only [map, List.map_cons]
        split
        · rfl
        · exact congrArg Except.ok (add_map { forms := forms, frames := frames } _)
    · rfl

theorem step_map (keeps : Token.KeepsForm f) (r : Reader) (token : Token) :
    (r.map f).step (f token) =
      ((r.step token).map (map f)).mapError (ParseError.map f) := by
  unfold step
  rw [keeps.kind]
  split
  · unfold openList
    rw [keeps.text]
    split <;> rfl
  · exact r.closeList_map keeps token
  · unfold addAtom
    rw [keeps.text]
    split
    · exact congrArg Except.ok (r.add_map _)
    · rfl

theorem steps_map (keeps : Token.KeepsForm f) (r : Reader) (tokens : List Token) :
    (r.map f).steps (tokens.map f) =
      ((r.steps tokens).map (map f)).mapError (ParseError.map f) := by
  induction tokens generalizing r with
  | nil => rfl
  | cons token tokens ih =>
    rw [List.map_cons, steps, steps, step_map keeps]
    cases r.step token with
    | error e => rfl
    | ok next => exact ih next

end Reader

namespace Program

variable {f : Token → Token}

theorem ofTokens_map (keeps : Token.KeepsForm f) (tokens : List Token) :
    ofTokens (tokens.map f) = (ofTokens tokens).mapError (ParseError.map f) := by
  have start : Reader.start = Reader.start.map f := rfl
  unfold ofTokens
  rw [start, Reader.steps_map keeps, ← start]
  cases Reader.start.steps tokens with
  | error e => rfl
  | ok r =>
    cases r with
    | mk forms frames => cases frames <;> rfl

theorem firstBareAtom?_map (keeps : Token.KeepsForm f) (depth : Nat) (tokens : List Token) :
    firstBareAtom? depth (tokens.map f) = (firstBareAtom? depth tokens).map f := by
  induction tokens generalizing depth with
  | nil => rfl
  | cons token tokens ih =>
    rw [List.map_cons, firstBareAtom?, firstBareAtom?, keeps.kind]
    cases token.kind with
    | opening | closing => exact ih _
    | atom =>
      dsimp only
      split
      · rfl
      · exact ih depth

/-- Whether tokens are a program does not depend on where they stand. -/
theorem accept_map (keeps : Token.KeepsForm f) (tokens : List Token) :
    accept (tokens.map f) = (accept tokens).mapError (ParseError.map f) := by
  unfold accept
  rw [ofTokens_map keeps, firstBareAtom?_map keeps]
  cases ofTokens tokens with
  | error e => rfl
  | ok program =>
    cases firstBareAtom? 0 tokens with
    | some token => rfl
    | none =>
      dsimp only [Except.mapError, Option.map_none]
      split <;> rfl

end Program

end FormScript
