import FormScript.Session
import FormScript.Proofs.FirstFault
import FormScript.Proofs.Scanning
import FormScript.Proofs.Sequencing

/-!
# Texts joined at a line feed

A line feed ends whatever the scanner is in the middle of, so the tokens of two texts
joined by one are the tokens of the first and then those of the second, moved by as
many lines and bytes as come before (`Token.scan_join`). Two programs that may be run
are therefore one program when their texts are joined, and a fault of the second text is
found in the joined one, as far on as its tokens are (`Session.load_join_moved`).

Its evaluation is the evaluation of the first program continued by that of the second
(`Expr.eval_begin_append`): it stops where the first one fails, and otherwise ends as
the second one does. `Session.load_join_eval` puts this together for a session.
-/

namespace FormScript

/-! ## Scanning at another place -/

/-- A position moved by lines and bytes. -/
def Cursor.shift (lines bytes : Nat) (here : Cursor) : Cursor where
  line := here.line + lines
  offset := here.offset + bytes

theorem Cursor.advance_shift (lines bytes : Nat) (here : Cursor) (c : Char) :
    (here.shift lines bytes).advance c = (here.advance c).shift lines bytes := by
  simp only [advance, shift, mk.injEq]
  constructor
  · split <;> omega
  · omega

namespace Token

/-- A token moved by lines and bytes. -/
def shift (lines bytes : Nat) (token : Token) : Token :=
  { token with
    line := token.line + lines
    span := { start := token.span.start + bytes, stop := token.span.stop + bytes } }

theorem keepsForm_shift (lines bytes : Nat) : KeepsForm (shift lines bytes) :=
  ⟨fun _ => rfl, fun _ => rfl⟩

namespace Mode

/-- A mode moved by lines and bytes. -/
def shift (lines bytes : Nat) : Mode → Mode
  | .atom start seen => .atom (start.shift lines bytes) seen
  | mode => mode

theorem flush_shift (lines bytes stop : Nat) (mode : Mode) :
    (mode.shift lines bytes).flush (stop + bytes) =
      (mode.flush stop).map (Token.shift lines bytes) := by
  cases mode <;> rfl

theorem paren_shift (lines bytes : Nat) (kind : Kind) (here : Cursor) (c : Char) :
    paren kind (here.shift lines bytes) c = (paren kind here c).shift lines bytes := by
  have stop : here.offset + bytes + c.utf8Size = here.offset + c.utf8Size + bytes := by omega
  simp only [paren, Token.shift, Cursor.shift, stop]

theorem step_shift (lines bytes : Nat) (here : Cursor) (c : Char) (mode : Mode) :
    (mode.shift lines bytes).step (here.shift lines bytes) c =
      ((mode.step here c).1.map (Token.shift lines bytes),
        (mode.step here c).2.shift lines bytes) := by
  cases mode with
  | comment =>
    simp only [shift, step]
    split <;> rfl
  | between | atom start seen =>
    simp only [shift, step]
    cases Glyph.ofChar c with
    | opening | closing =>
      dsimp only
      rw [paren_shift]
      rfl
    | blank | semicolon | letter => rfl

end Mode

theorem scanFrom_shift (lines bytes : Nat) (mode : Mode) (here : Cursor) (cs : List Char) :
    scanFrom (mode.shift lines bytes) (here.shift lines bytes) cs =
      (scanFrom mode here cs).map (shift lines bytes) := by
  induction cs generalizing mode here with
  | nil => exact mode.flush_shift lines bytes here.offset
  | cons c cs ih =>
    rw [scanFrom_cons, scanFrom_cons, Mode.step_shift, Cursor.advance_shift, ih,
      List.map_append]

/-- The tokens of two texts joined by a line feed. -/
theorem scan_join (first second : String) :
    scan (first ++ "\n" ++ second) =
      scan first ++ (scan second).map
        (shift (first.toList.count '\n' + 1) (byteLength first.toList + 1)) := by
  have text : (first ++ "\n" ++ second).toList = first.toList ++ '\n' :: second.toList := by
    simp
  have place : Cursor.origin.advanceAll (first.toList ++ ['\n']) =
      Cursor.origin.shift (first.toList.count '\n' + 1) (byteLength first.toList + 1) := by
    have feed : byteLength ['\n'] = 1 := rfl
    rw [Cursor.advanceAll_eq, byteLength_append, feed, List.count_append]
    rfl
  have between : Mode.between =
      Mode.between.shift (first.toList.count '\n' + 1) (byteLength first.toList + 1) := rfl
  rw [scan, text, scanFrom_join, place, between, scanFrom_shift]
  rfl

end Token

/-! ## Evaluating joined programs -/

namespace Expr

/-- Two sequences of expressions under one `begin` end as the first of them under a
`begin` of its own does, continued by the second. -/
theorem eval_begin_append (env : Env) {front back : List Expr} (first : front ≠ [])
    (second : back ≠ []) :
    (eval env (.list (.symbol "begin" :: (front ++ back)))).SameEnd
      ((eval env (.list (.symbol "begin" :: front))).andThen fun _ env =>
        eval env (.list (.symbol "begin" :: back))) := by
  have both : front ++ back ≠ [] := by simp [first]
  rw [eval_begin_last env both .nothing, eval_begin_last env first .nothing, evalLast_append]
  refine (Run.sameEnd_after _ _).trans ((Run.sameEnd_after _ _).symm.andThen fun value _ => ?_)
  rw [eval_begin_last _ second value]
  exact (Run.sameEnd_after _ _).symm

end Expr

/-! ## Sessions -/

namespace Program

/-- After tokens that may be run, others are rejected as they are on their own, unless
there are no forms among them. -/
theorem accept_append_error {front back : List Token} {p : Program} {e : ParseError}
    (first : accept front = .ok p) (second : accept back = .error e) :
    accept (front ++ back) = if e = .emptyProgram then .ok p else .error e := by
  rw [accept_append_eq first]
  rcases accept_error_cases second with fault | ⟨q, token, read, found, rfl⟩ | ⟨read, noAtom, rfl⟩
  · have other : e ≠ .emptyProgram := by
      obtain ⟨token, rfl | rfl | rfl | rfl⟩ := fault_cases fault <;> simp
    rw [fault, if_neg other]
  · rw [read, found, if_neg (by simp)]
  · simp [read, noAtom]

/-- Tokens that are rejected for the want of forms are read and give none. -/
theorem ofTokens_of_empty {tokens : List Token}
    (rejected : accept tokens = .error .emptyProgram) :
    ofTokens tokens = .ok { forms := [] } := by
  rcases accept_error_cases rejected with fault | ⟨_, token, -, -, impossible⟩ | ⟨read, -⟩
  · obtain ⟨token, impossible⟩ := fault_cases fault
    simp at impossible
  · cases impossible
  · exact read

/-- Texts of programs that may be run, joined by a line feed, are the text of one. -/
theorem accept_join {first second : String} {p q : Program}
    (acceptedFirst : accept (Token.scan first) = .ok p)
    (acceptedSecond : accept (Token.scan second) = .ok q) :
    accept (Token.scan (first ++ "\n" ++ second)) = .ok { forms := p.forms ++ q.forms } := by
  rw [Token.scan_join]
  refine accept_append acceptedFirst ?_
  rw [accept_map (Token.keepsForm_shift _ _), acceptedSecond]
  rfl

/-- After the text of a program to run, a text without forms adds nothing, and any other
text that is rejected is rejected for the same reason, found further on. -/
theorem accept_join_error {first second : String} {p : Program} {e : ParseError}
    (acceptedFirst : accept (Token.scan first) = .ok p)
    (rejectedSecond : accept (Token.scan second) = .error e) :
    accept (Token.scan (first ++ "\n" ++ second)) =
      if e = .emptyProgram then .ok p
      else .error
        (e.map (Token.shift (first.toList.count '\n' + 1) (byteLength first.toList + 1))) := by
  have moved := accept_map
    (Token.keepsForm_shift (first.toList.count '\n' + 1) (byteLength first.toList + 1))
    (Token.scan second)
  rw [rejectedSecond] at moved
  rw [Token.scan_join, accept_append_error acceptedFirst moved]
  cases e <;> rfl

end Program

namespace Session

/-- Two texts that a session accepts can be joined by a line feed. The joined text is
accepted, and its evaluation fails as that of the first text does, with the same
environment, or else ends as the evaluation of the second text after it. -/
theorem load_join_eval (s : Session) (first second : String)
    (acceptedFirst : (s.load (.text first)).answer = .ok ())
    (acceptedSecond : (s.load (.text second)).answer = .ok ()) :
    let joined := s.load (.text (first ++ "\n" ++ second))
    let one := (s.load (.text first)).session.eval
    let both := joined.session.eval
    joined.answer = .ok () ∧
    (∀ e, one.answer = .error e →
      both.answer = .error e ∧ both.session.env = one.session.env) ∧
    (∀ value, one.answer = .ok value →
      let loaded := one.session.load (.text second)
      let two := loaded.session.eval
      loaded.answer = .ok () ∧ both.answer = two.answer ∧
        both.session.env = two.session.env) := by
  obtain ⟨p, acceptedP⟩ := accept_of_load acceptedFirst
  obtain ⟨q, acceptedQ⟩ := accept_of_load acceptedSecond
  obtain ⟨-, -, someP⟩ := Program.accept_eq_ok_iff.mp acceptedP
  obtain ⟨-, -, someQ⟩ := Program.accept_eq_ok_iff.mp acceptedQ
  have same := Expr.eval_begin_append s.env someP someQ
  simp only [load_of_accept acceptedP, load_of_accept acceptedQ,
    load_of_accept (Program.accept_join acceptedP acceptedQ), eval, Program.expr, true_and]
  cases ended : (Expr.eval s.env (.list (.symbol "begin" :: p.forms))).result with
  | error failure =>
    obtain ⟨result, env⟩ := same.trans (Run.sameEnd_andThen_of_error ended _)
    constructor
    · rintro e ⟨⟩
      rw [result, env]
      exact ⟨rfl, rfl⟩
    · rintro _ ⟨⟩
  | ok value =>
    obtain ⟨result, env⟩ := same.trans (Run.sameEnd_andThen_of_ok ended _)
    constructor
    · rintro _ ⟨⟩
    · intro _ _
      rw [result, env]
      exact ⟨rfl, rfl⟩

/-- A comment at the end of the first text does not reach into the second. -/
theorem load_join_eval_comment :
    let one := (fresh.load (.text "(define x True) ; and")).session.eval
    let two := (one.session.load (.text "(not x)")).session.eval
    let both := (fresh.load (.text ("(define x True) ; and" ++ "\n" ++ "(not x)"))).session.eval
    (fresh.load (.text "(define x True) ; and")).answer = .ok () ∧
      (fresh.load (.text "(not x)")).answer = .ok () ∧
      one.answer = .ok (.truth true) ∧ two.answer = .ok (.truth false) ∧
      both.answer = two.answer ∧ both.session.env = two.session.env := by
  intro one two both
  have acceptedFirst : Program.accept (Token.scan "(define x True) ; and") =
      .ok ⟨[.list [.symbol "define", .symbol "x", .truth true]]⟩ := rfl
  have acceptedSecond : Program.accept (Token.scan "(not x)") =
      .ok ⟨[.list [.symbol "not", .symbol "x"]]⟩ := rfl
  have loadedFirst : (fresh.load (.text "(define x True) ; and")).answer = .ok () := by
    rw [load_of_accept acceptedFirst]
  have loadedSecond : (fresh.load (.text "(not x)")).answer = .ok () := by
    rw [load_of_accept acceptedSecond]
  have returned : one.answer = .ok (.truth true) := by
    simp only [one, load_of_accept acceptedFirst]
    rfl
  have last : two.answer = .ok (.truth false) := by
    simp only [two, one, load_of_accept acceptedFirst, load_of_accept acceptedSecond]
    rfl
  obtain ⟨-, -, continued⟩ := load_join_eval fresh _ _ loadedFirst loadedSecond
  exact ⟨loadedFirst, loadedSecond, returned, last, (continued _ returned).2⟩

/-- The tokens of two texts joined by a line feed are those of the first and then those of
the second, further on by the lines and the bytes before them. Where the first text is
accepted, the joined text is too if the second one is or has no forms, and then it stands
for the forms of both; otherwise it is rejected as the second one is, with the token of
that error moved likewise. -/
theorem load_join_moved (s : Session) (first second : String) :
    let moved := Token.shift (first.toList.count '\n' + 1) (byteLength first.toList + 1)
    let joined := s.load (.text (first ++ "\n" ++ second))
    let answer := (s.load (.text second)).answer
    Token.scan (first ++ "\n" ++ second) =
      Token.scan first ++ (Token.scan second).map moved ∧
    ((s.load (.text first)).answer = .ok () → ∃ p, Program.ofText first = .ok p ∧
      (answer = .ok () ∨ answer = .error .emptyProgram →
        ∃ q, Program.ofText second = .ok q ∧ joined.answer = .ok () ∧
          joined.session = { s with program := some { forms := p.forms ++ q.forms } }) ∧
      (∀ e, answer = .error e → e ≠ .emptyProgram →
        joined.answer = .error (e.map moved) ∧ joined.session = s)) := by
  intro moved joined answer
  refine ⟨Token.scan_join first second, fun acceptedFirst => ?_⟩
  obtain ⟨p, acceptedP⟩ := accept_of_load acceptedFirst
  obtain ⟨readP, -, -⟩ := Program.accept_eq_ok_iff.mp acceptedP
  refine ⟨p, readP, ?_, fun e failed other => ?_⟩
  · rintro (accepted | failed)
    · obtain ⟨q, acceptedQ⟩ := accept_of_load accepted
      obtain ⟨readQ, -, -⟩ := Program.accept_eq_ok_iff.mp acceptedQ
      refine ⟨q, readQ, ?_⟩
      simp only [joined, load_of_accept (Program.accept_join acceptedP acceptedQ), true_and]
    · have empty := reject_of_load failed
      have accepted := Program.accept_join_error acceptedP empty
      rw [if_pos rfl] at accepted
      refine ⟨{ forms := [] }, Program.ofTokens_of_empty empty, ?_⟩
      simp only [joined, load_of_accept accepted, List.append_nil, true_and]
  · have rejected := Program.accept_join_error acceptedP (reject_of_load failed)
    rw [if_neg other] at rejected
    simp only [joined, load_of_reject rejected, moved, and_self]

end Session

end FormScript
