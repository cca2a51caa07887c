import FormScript.Session

/-!
# How messages begin

Messages quote names and expressions, which can be any text. They are told apart by their
first words, which are fixed (`EvalError.begins_message`): a text does not begin in two ways
that are at odds (`Begins.not_of_differ`).
-/

namespace FormScript

/-- A text begins with these characters. -/
def Begins (start : List Char) (text : String) : Prop :=
  start <+: text.toList

namespace Begins

instance (start : List Char) (text : String) : Decidable (Begins start text) :=
  inferInstanceAs (Decidable (start <+: text.toList))

variable {start first second : List Char} {front back text : String}

theorem self (text : String) : Begins text.toList text :=
  List.prefix_rfl

theorem append (begins : Begins start front) (back : String) : Begins start (front ++ back) := by
  rw [Begins, String.toList_append]
  exact begins.trans (List.prefix_append _ _)

theorem after_iff : Begins (front.toList ++ start) (front ++ back) ↔ Begins start back := by
  rw [Begins, String.toList_append]
  exact List.prefix_append_right_inj _

/-- A text does not begin with what is at odds with its beginning. -/
theorem not_of_differ (begins : Begins first text)
    (differ : ¬ first <+: second ∧ ¬ second <+: first) : ¬ Begins second text := by
  intro other
  rcases List.prefix_or_prefix_of_prefix begins other with below | above
  · exact differ.1 below
  · exact differ.2 above

end Begins

namespace EvalError

/-- The first words of the message of a failure. -/
def firstWords : EvalError → String
  | .unbound _ => "unbound symbol '"
  | .emptyList => "invalid expression: cannot evaluate an empty list"
  | .unknownProcedure _ => "invalid expression: unknown procedure '"
  | .headNotSymbol _ => "invalid expression: expected a procedure name but found "
  | .badCount _ _ _ | .badType _ _ _ _ => "'"

theorem begins_message (e : EvalError) : Begins e.firstWords.toList e.message := by
  have begins := Begins.self e.firstWords
  cases e with
  | unbound name | unknownProcedure name => exact (begins.append _).append _
  | emptyList => exact begins
  | headNotSymbol head => exact (((begins.append _).append _).append _).append _
  | badCount form expected found =>
    exact ((((begins.append _).append _).append _).append _).append _
  | badType form position expected found =>
    exact ((((((begins.append _).append _).append _).append _).append _).append _).append _

/-- Only an empty list is reported as one. -/
theorem message_eq_emptyList_iff (e : EvalError) :
    e.message = EvalError.emptyList.message ↔ e = .emptyList := by
  constructor
  · intro same
    have begins : Begins EvalError.emptyList.message.toList e.message := same ▸ Begins.self _
    cases e with
    | emptyList => rfl
    | _ =>
      refine absurd begins ((begins_message _).not_of_differ ?_)
      dsimp only [firstWords]
      decide
  · rintro rfl
    rfl

end EvalError

/-- Only the want of a program is reported as such. -/
theorem SessionError.message_eq_noProgram_iff (e : SessionError) :
    e.message = SessionError.noProgram.message ↔ e = .noProgram := by
  constructor
  · intro same
    cases e with
    | noProgram => rfl
    | evaluation reason =>
      have begins : Begins SessionError.noProgram.message.toList reason.message :=
        same ▸ Begins.self _
      refine absurd begins (reason.begins_message.not_of_differ ?_)
      cases reason <;> dsimp only [EvalError.firstWords] <;> decide
  · rintro rfl
    rfl

end FormScript
