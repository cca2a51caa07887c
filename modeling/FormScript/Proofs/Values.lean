import FormScript.Session
import FormScript.Proofs.Application
import FormScript.Proofs.Evaluation
import FormScript.Proofs.Readable

/-!
# What a session can hold

The values of a session are nothing, truth values, numbers and reserved names; a
session never holds a list, nor a symbol that could be looked up again. Its names are
texts that a program can write and that are not reserved, and `pi` is always one of
them, with its own value.

The invariant is `Session.Sound`. It says the above of the environment and, so that
it can be kept, that the program accepted last is readable: names are bound only by
programs, and a program has no other symbols than names. `Expr.eval_sound` keeps the
environment sound through every evaluation, including one that fails halfway;
`Session.perform_sound` is the step and `Session.performAll_sound` the run.
-/

namespace FormScript

/-- The results of evaluation. -/
def Expr.IsValue : Expr → Prop
  | .nothing | .truth _ | .number _ => True
  | .symbol name => isReserved name = true
  | .list _ => False

/-- An environment as a session can have it. -/
structure Env.Sound (env : Env) : Prop where
  pi : env.get? "pi" = some (.number Env.pi)
  unreserved : ∀ name value, env.get? name = some value → isReserved name = false
  named : ∀ name value, env.get? name = some value → Expr.IsName name
  valued : ∀ name value, env.get? name = some value → value.IsValue

namespace Env

theorem isName_pi : Expr.IsName "pi" :=
  ⟨.of_letters rfl, rfl⟩

theorem sound_initial : initial.Sound := by
  have only : ∀ name value, initial.get? name = some value →
      name = "pi" ∧ value = .number pi := by
    intro name value bound
    simp only [initial, get?_set] at bound
    split at bound
    · next same => exact ⟨same.symm, (Option.some.inj bound).symm⟩
    · simp [empty, get?] at bound
  refine ⟨by simp [initial, get?_set], ?_, ?_, ?_⟩
  · rintro name value bound
    rw [(only name value bound).1]
    decide
  · rintro name value bound
    rw [(only name value bound).1]
    exact isName_pi
  · rintro name value bound
    rw [(only name value bound).2]
    trivial

/-- Binding a name that `define` allows keeps an environment sound. -/
theorem Sound.set {env : Env} (sound : env.Sound) {name : String} {value : Expr}
    (allowed : isProtected name = false) (isName : Expr.IsName name)
    (isValue : value.IsValue) : (env.set name value).Sound := by
  simp only [isProtected, Bool.or_eq_false_iff, beq_eq_false_iff_ne] at allowed
  obtain ⟨unreserved, notPi⟩ := allowed
  refine ⟨?_, ?_, ?_, ?_⟩
  · rw [get?_set, if_neg notPi]
    exact sound.pi
  all_goals
    intro other bound found
    rw [get?_set] at found
    split at found
  · next same => exact same ▸ unreserved
  · exact sound.unreserved other bound found
  · next same => exact same ▸ isName
  · exact sound.named other bound found
  · exact (Option.some.inj found) ▸ isValue
  · exact sound.valued other bound found

end Env

/-! ## Evaluation keeps environments sound -/

namespace Expr

/-- A value of the kind that an operator gives is a value. -/
theorem IsValue.of_kind {op : Operator} {value : Expr} (kind : value.kind = op.resultKind) :
    value.IsValue := by
  cases value with
  | nothing | truth | number => trivial
  | symbol | list => cases op <;> cases kind

theorem IsValue.last {values : List Expr} (all : ∀ value ∈ values, value.IsValue) :
    (values.getLast?.getD .nothing).IsValue := by
  cases last : values.getLast? with
  | none => trivial
  | some value => exact all value (List.mem_of_getLast? last)

/-- Evaluating an expression whose symbols are names keeps the environment sound,
whether it returns or fails, and what it returns is a value. -/
theorem eval_sound (e : Expr) (names : ∀ name, .symbol name ∈ e.parts → IsName name) :
    ∀ env : Env, env.Sound →
      (e.eval env).Satisfies (fun value after => after.Sound ∧ value.IsValue)
        (fun _ after => after.Sound) := by
  induction e with
  | nothing | truth b | number x =>
    intro env sound
    simpa using ⟨sound, trivial⟩
  | symbol name =>
    intro env sound
    cases reserved : isReserved name with
    | true =>
      rw [eval_reserved env reserved]
      exact ⟨sound, reserved⟩
    | false =>
      cases bound : env.get? name with
      | some value =>
        rw [eval_bound env reserved bound]
        exact ⟨sound, sound.valued name value bound⟩
      | none =>
        rw [eval_unbound env reserved bound]
        exact sound
  | list items ih =>
    intro env sound
    have item : ∀ x ∈ items, ∀ env : Env, env.Sound →
        (x.eval env).Satisfies (fun value after => after.Sound ∧ value.IsValue)
          (fun _ after => after.Sound) := fun x member =>
      ih x member fun name occurs => names name (mem_parts_of_item member occurs)
    cases Form.of_items items with
    | empty => simpa using sound
    | single only =>
      rw [eval_single]
      exact item only List.mem_cons_self env sound
    | headless symbolic nonempty =>
      rw [eval_headless env symbolic nonempty]
      exact sound
    | unknown unreserved nonempty =>
      rw [eval_unknown env unreserved nonempty]
      exact sound
    | miscounted notBegin nonempty refused =>
      rw [eval_miscounted env notBegin nonempty refused]
      exact sound
    | define target value =>
      rw [eval_define, Run.satisfies_after]
      cases chosen : defineTarget target with
      | error err => exact sound
      | ok name =>
        obtain ⟨rfl, allowed⟩ := defineTarget_ok chosen
        have isName := names name (by simp)
        refine (item value (by simp) env sound).andThen fun value after ⟨kept, isValue⟩ => ?_
        exact ⟨kept.set allowed isName isValue, isValue⟩
    | @begin operands nonempty =>
      rw [eval_begin env nonempty, Run.satisfies_after]
      have all := evalAll_satisfies Env.Sound IsValue
        (fun x member => item x (List.mem_cons_of_mem _ member)) sound
      exact all.andThen fun values after ⟨kept, each, _⟩ => ⟨kept, .last each⟩
    | choose test yes no =>
      rw [eval_choose, Run.satisfies_after]
      refine (item test (by simp) env sound).andThen fun value after ⟨kept, _⟩ => ?_
      split
      · exact item yes (by simp) after kept
      · exact item no (by simp) after kept
      · exact kept
    | @operator op operands nonempty admitted =>
      rw [eval_operator env nonempty admitted, Run.satisfies_after]
      have all := evalAll_satisfies Env.Sound IsValue
        (fun x member => item x (List.mem_cons_of_mem _ member)) sound
      refine all.andThen fun values after ⟨kept, _, count⟩ => ?_
      cases applied : op.apply values with
      | ok value => exact ⟨kept, .of_kind (Operator.kind_of_apply (count ▸ admitted) applied)⟩
      | error err => exact kept

end Expr

/-! ## Sessions -/

/-- A program that is accepted from a source is accepted from a text. -/
theorem Source.accept_scan {source : Source} {p : Program}
    (accepted : source.tokens.bind Program.accept = .ok p) :
    ∃ text, Program.accept (Token.scan text) = .ok p := by
  cases source with
  | text content => exact ⟨content, accepted⟩
  | bytes content =>
    cases decoded : String.fromUTF8? content with
    | some text =>
      simp only [tokens, decoded] at accepted
      exact ⟨text, accepted⟩
    | none =>
      simp only [tokens, decoded] at accepted
      cases accepted
  | failing reason => cases accepted

theorem Source.readable {source : Source} {p : Program}
    (accepted : source.tokens.bind Program.accept = .ok p) : p.expr.Readable := by
  obtain ⟨text, acceptedText⟩ := accept_scan accepted
  exact Program.readable_of_scan (Program.ofTokens_of_accept acceptedText)

namespace Session

/-- The environment is sound and the program, if any, is readable. -/
structure Sound (s : Session) : Prop where
  env : s.env.Sound
  program : ∀ p, s.program = some p → p.expr.Readable

theorem fresh_sound : fresh.Sound :=
  ⟨Env.sound_initial, fun _ none => nomatch none⟩

/-- Every operation keeps a session sound, and an evaluation answers with a value or
an error. -/
theorem perform_sound {s : Session} (sound : s.Sound) (op : Operation) :
    (s.perform op).session.Sound ∧
      ∀ value, (s.perform op).answer = .evaluated (.ok value) → value.IsValue := by
  cases op with
  | load source =>
    refine ⟨?_, by rintro _ ⟨⟩⟩
    simp only [perform, load]
    split
    · next p accepted =>
      refine ⟨sound.env, ?_⟩
      rintro q ⟨⟩
      exact Source.readable accepted
    · exact sound
  | eval =>
    simp only [perform, eval]
    split
    · exact ⟨sound, by rintro _ ⟨⟩⟩
    · next p stored =>
      have readable := sound.program p stored
      have run := p.expr.eval_sound (fun _ occurs => readable.isName occurs) s.env sound.env
      cases result : (p.expr.eval s.env).result with
      | ok value =>
        obtain ⟨kept, isValue⟩ := run.of_ok result
        refine ⟨⟨kept, sound.program⟩, ?_⟩
        rintro _ ⟨⟩
        exact isValue
      | error err =>
        refine ⟨⟨run.of_error result, sound.program⟩, ?_⟩
        rintro _ ⟨⟩
  | reset =>
    exact ⟨⟨Env.sound_initial, sound.program⟩, by rintro _ ⟨⟩⟩

/-- Whatever is asked of a sound session, it stays sound and gives values only. -/
theorem performAll_sound {s : Session} (sound : s.Sound) (ops : List Operation) :
    (s.performAll ops).session.Sound ∧
      ∀ value, .evaluated (.ok value) ∈ (s.performAll ops).answer → value.IsValue := by
  induction ops generalizing s with
  | nil => exact ⟨sound, by simp [performAll]⟩
  | cons op ops ih =>
    obtain ⟨stepped, first⟩ := perform_sound sound op
    obtain ⟨last, others⟩ := ih stepped
    refine ⟨last, fun value member => ?_⟩
    rcases List.mem_cons.mp member with now | later
    · exact first value now.symm
    · exact others value later

/-- After any operations in a fresh session, `pi` has its value, every bound name is
an unreserved text without delimiters that spells its own symbol, and all values,
bound or answered, are nothing, truth values, numbers or reserved names. -/
theorem fresh_performAll_values (ops : List Operation) :
    (fresh.performAll ops).session.env.get? "pi" = some (.number Env.pi) ∧
    (∀ name value, (fresh.performAll ops).session.env.get? name = some value →
      isReserved name = false ∧ Expr.ofAtom? name = some (.symbol name) ∧
      (∀ c ∈ name.toList, c ∉ delimiters) ∧ value.IsValue) ∧
    (∀ value, .evaluated (.ok value) ∈ (fresh.performAll ops).answer → value.IsValue) := by
  obtain ⟨⟨sound, -⟩, answers⟩ := performAll_sound fresh_sound ops
  refine ⟨sound.pi, fun name value bound => ?_, answers⟩
  have isName := sound.named name value bound
  exact ⟨sound.unreserved name value bound, isName.spells, isName.word.free,
    sound.valued name value bound⟩

end Session

end FormScript
