import FormScript.Prompt
import FormScript.Proofs.FirstFault
import FormScript.Proofs.Scanning

/-!
# Entries with open lists

The prompt counts parens to find out whether an entry has to go on in the next line. The
count agrees with the reader (`Reader.depthAfter?_steps`): as long as the reader takes the
tokens, the count is the number of its open lists. So a text whose only fault is an open
list is never taken for complete, and a text that is taken for incomplete has an open
list or a fault that comes before the end of one.

An entry is trimmed before it is read, by a wider notion of white space than the
scanner's. `openAfter?` counts the open lists on the characters of a text, where it is
plain that white space at either end does not matter. Together this is
`Session.load_ne_unclosed`: a complete entry is never rejected for an open list.
-/

namespace FormScript

/-! ## Counting parens and reading lists -/

theorem depthAfter?_append (depth : Nat) (front back : List Token) :
    depthAfter? depth (front ++ back) =
      (depthAfter? depth front).bind fun reached => depthAfter? reached back := by
  induction front generalizing depth with
  | nil => rfl
  | cons token front ih =>
    cases kind : token.kind with
    | opening | atom => simp [depthAfter?, kind, ih]
    | closing => cases depth <;> simp [depthAfter?, kind, ih]

namespace Reader

/-- A closing paren is taken only if a list is open. -/
theorem frames_ne_nil_of_closing {r next : Reader} {token : Token}
    (taken : r.step token = .ok next) (kind : token.kind = .closing) : r.frames ≠ [] := by
  intro closed
  simp only [step, kind, closeList, closed] at taken
  split at taken <;> cases taken

/-- The count follows the reader through a token that it takes. -/
theorem depthAfter?_step {r next : Reader} {token : Token} (taken : r.step token = .ok next)
    (rest : List Token) :
    depthAfter? r.frames.length (token :: rest) = depthAfter? next.frames.length rest := by
  have depth := length_frames_step taken
  cases kind : token.kind with
  | opening | atom =>
    rw [kind] at depth
    simp only [depthAfter?, kind, depth]
  | closing =>
    rw [kind] at depth
    obtain ⟨frame, frames, opened⟩ :=
      List.exists_cons_of_ne_nil (frames_ne_nil_of_closing taken kind)
    rw [opened] at depth ⊢
    simp [depthAfter?, kind, depth]

/-- While the reader takes tokens, the count is the number of its open lists. -/
theorem depthAfter?_steps {r next : Reader} {tokens : List Token}
    (taken : r.steps tokens = .ok next) :
    depthAfter? r.frames.length tokens = some next.frames.length := by
  induction tokens generalizing r with
  | nil =>
    cases taken
    rfl
  | cons token tokens ih =>
    rw [steps] at taken
    split at taken
    · next middle stepped =>
      rw [depthAfter?_step stepped]
      exact ih taken
    · cases taken

/-- A closing paren is reported as unmatched only if no list is open. -/
theorem step_unmatched {r : Reader} {token closer : Token}
    (refused : r.step token = .error (.unmatchedClose closer)) :
    token.kind = .closing ∧ r.frames = [] := by
  unfold step at refused
  split at refused
  · unfold openList at refused
    split at refused <;> cases refused
  · next kind =>
    refine ⟨kind, ?_⟩
    unfold closeList at refused
    split at refused
    · split at refused
      · next closed => exact closed
      · split at refused <;> cases refused
    · cases refused
  · unfold addAtom at refused
    split at refused <;> cases refused

end Reader

/-! ## Incomplete entries -/

namespace Entry

theorem staysOpen_iff {depth : Nat} {tokens : List Token} :
    staysOpen depth tokens = true ↔ ∃ more, depthAfter? depth tokens = some (more + 1) := by
  induction tokens generalizing depth with
  | nil =>
    simp only [staysOpen, depthAfter?, decide_eq_true_eq, Option.some.injEq]
    constructor
    · intro positive
      exact ⟨depth - 1, by omega⟩
    · rintro ⟨more, rfl⟩
      omega
  | cons token tokens ih =>
    cases kind : token.kind with
    | opening | atom =>
      simp only [staysOpen, depthAfter?, kind]
      exact ih
    | closing =>
      cases depth with
      | zero => simp [staysOpen, depthAfter?, kind]
      | succ depth =>
        simp only [staysOpen, depthAfter?, kind]
        exact ih

/-- An entry whose fault is an open list goes on in the next line. -/
theorem staysOpen_of_unclosed {tokens : List Token} {opener : Token}
    (unclosed : Program.ofTokens tokens = .error (.unclosed opener)) :
    staysOpen 0 tokens = true := by
  obtain ⟨r, frame, frames, taken, opened, -⟩ := Program.taken_of_unclosed unclosed
  have count : depthAfter? 0 tokens = some r.frames.length := Reader.depthAfter?_steps taken
  rw [opened, List.length_cons] at count
  exact staysOpen_iff.mpr ⟨frames.length, count⟩

/-- An entry that goes on is no program, and its fault is no paren too many. -/
theorem fault_of_staysOpen {tokens : List Token} (goesOn : staysOpen 0 tokens = true) :
    ∃ token e, Program.ofTokens tokens = .error e ∧
      (e = .unclosed token ∨ e = .invalidToken token ∨ e = .emptyList token) := by
  obtain ⟨more, count⟩ := staysOpen_iff.mp goesOn
  cases read : Reader.start.steps tokens with
  | ok r =>
    have reached : depthAfter? 0 tokens = some r.frames.length := Reader.depthAfter?_steps read
    have opened : r.frames ≠ [] := by
      intro closed
      rw [reached, closed] at count
      cases count
    rcases Program.ofTokens_of_taken read with ⟨program, accepted⟩ | ⟨frame, _, _, unclosed⟩
    · have closed := Program.ofTokens_eq_ok_iff.mp accepted
      rw [read] at closed
      cases closed
      exact absurd rfl opened
    · exact ⟨frame.opener, _, unclosed, .inl rfl⟩
  | error e =>
    obtain ⟨front, token, back, reached, rfl, taken, refused⟩ := Reader.steps_error read
    have fault := Program.ofTokens_of_error read
    rcases Reader.step_error refused with rfl | rfl | ⟨opener, _, _, rfl⟩
    · exact ⟨token, _, fault, .inr (.inl rfl)⟩
    · -- the count would have stopped at this paren
      obtain ⟨kind, closed⟩ := Reader.step_unmatched refused
      have before : depthAfter? 0 front = some reached.frames.length :=
        Reader.depthAfter?_steps taken
      rw [depthAfter?_append, before, closed] at count
      simp [depthAfter?, kind] at count
    · exact ⟨opener, _, fault, .inr (.inr rfl)⟩

end Entry

/-! ## Open lists and white space -/

/-- The number of open lists after a text, or nothing at a closing paren too many, when
`depth` lists are open before it and it begins inside a comment or not. -/
def openAfter? (commented : Bool) (depth : Nat) : List Char → Option Nat
  | [] => some depth
  | c :: cs =>
    if commented then openAfter? (c ≠ '\n') depth cs
    else
      match Glyph.ofChar c, depth with
      | .opening, _ => openAfter? false (depth + 1) cs
      | .closing, 0 => none
      | .closing, depth + 1 => openAfter? false depth cs
      | .semicolon, _ => openAfter? true depth cs
      | .blank, _ | .letter, _ => openAfter? false depth cs

namespace Token

/-- The scanner is inside a comment. -/
def Mode.commented : Mode → Bool
  | .comment => true
  | _ => false

theorem depthAfter?_flush (depth : Nat) (mode : Mode) (stop : Nat) (rest : List Token) :
    depthAfter? depth (mode.flush stop ++ rest) = depthAfter? depth rest := by
  cases mode with
  | between | comment => rfl
  | atom start seen => rfl

/-- The tokens of a text have as many parens open as its characters. -/
theorem depthAfter?_scanFrom (mode : Mode) (here : Cursor) (depth : Nat) (text : List Char) :
    depthAfter? depth (scanFrom mode here text) = openAfter? mode.commented depth text := by
  induction text generalizing mode here depth with
  | nil =>
    have flushed := depthAfter?_flush depth mode here.offset []
    rwa [List.append_nil] at flushed
  | cons c text ih =>
    rw [scanFrom_cons]
    cases mode with
    | comment =>
      simp only [Mode.step, Mode.commented, openAfter?, List.nil_append, if_true, ih]
      by_cases feed : c = '\n' <;> simp [feed]
    | between | atom start seen =>
      cases glyph : Glyph.ofChar c with
      | opening =>
        simp only [Mode.step, glyph, openAfter?, Mode.commented, List.append_assoc,
          depthAfter?_flush]
        exact ih .between (here.advance c) (depth + 1)
      | closing =>
        simp only [Mode.step, glyph, openAfter?, Mode.commented, List.append_assoc,
          depthAfter?_flush]
        cases depth with
        | zero => rfl
        | succ depth => exact ih .between (here.advance c) depth
      | blank =>
        simp only [Mode.step, glyph, openAfter?, Mode.commented, depthAfter?_flush]
        exact ih .between (here.advance c) depth
      | semicolon =>
        simp only [Mode.step, glyph, openAfter?, Mode.commented, depthAfter?_flush]
        exact ih .comment (here.advance c) depth
      | letter =>
        simp only [Mode.step, glyph, openAfter?, Mode.commented, List.nil_append]
        exact ih _ (here.advance c) depth

end Token

theorem Glyph.ofChar_white {c : Char} (white : isWhiteSpace c = true) :
    ofChar c = .blank ∨ ofChar c = .letter := by
  unfold ofChar
  split
  · exact absurd white (by decide)
  · exact absurd white (by decide)
  · exact .inl rfl
  · exact .inl rfl
  · exact .inl rfl
  · exact .inl rfl
  · exact absurd white (by decide)
  · exact .inr rfl

theorem openAfter?_white {c : Char} (white : isWhiteSpace c = true) (depth : Nat)
    (text : List Char) : openAfter? false depth (c :: text) = openAfter? false depth text := by
  rcases Glyph.ofChar_white white with blank | letter
  · simp [openAfter?, blank]
  · simp [openAfter?, letter]

/-- White space before a text opens and closes nothing. -/
theorem openAfter?_front {front : List Char} (white : ∀ c ∈ front, isWhiteSpace c = true)
    (depth : Nat) (text : List Char) :
    openAfter? false depth (front ++ text) = openAfter? false depth text := by
  induction front with
  | nil => rfl
  | cons c front ih =>
    obtain ⟨first, others⟩ := List.forall_mem_cons.mp white
    rw [List.cons_append, openAfter?_white first, ih others]

theorem openAfter?_allWhite {back : List Char} (white : ∀ c ∈ back, isWhiteSpace c = true)
    (commented : Bool) (depth : Nat) : openAfter? commented depth back = some depth := by
  induction back generalizing commented with
  | nil => rfl
  | cons c back ih =>
    obtain ⟨first, others⟩ := List.forall_mem_cons.mp white
    cases commented with
    | true =>
      simp only [openAfter?, if_true]
      exact ih others _
    | false =>
      rw [openAfter?_white first]
      exact ih others false

/-- White space after a text opens and closes nothing, be it in a comment or not. -/
theorem openAfter?_back {back : List Char} (white : ∀ c ∈ back, isWhiteSpace c = true)
    (commented : Bool) (depth : Nat) (text : List Char) :
    openAfter? commented depth (text ++ back) = openAfter? commented depth text := by
  induction text generalizing commented depth with
  | nil => exact openAfter?_allWhite white commented depth
  | cons c text ih => simp only [List.cons_append, openAfter?, ih]

theorem openAfter?_trim (depth : Nat) (text : List Char) :
    openAfter? false depth (trim text) = openAfter? false depth text := by
  obtain ⟨front, back, split, whiteFront, whiteBack⟩ := exists_trim text
  calc
    openAfter? false depth (trim text)
      = openAfter? false depth (trim text ++ back) := (openAfter?_back whiteBack _ _ _).symm
    _ = openAfter? false depth (front ++ (trim text ++ back)) :=
        (openAfter?_front whiteFront _ _).symm
    _ = openAfter? false depth text := by rw [← split]

/-! ## Complete entries -/

namespace Entry

theorem isIncomplete_iff (text : List Char) :
    isIncomplete text = true ↔ ∃ more, openAfter? false 0 text = some (more + 1) := by
  rw [isIncomplete, staysOpen_iff, Token.depthAfter?_scanFrom]
  rfl

/-- Trimming does not change whether an entry goes on. -/
theorem isIncomplete_trim (entry : List Char) : isIncomplete (trim entry) = isIncomplete entry := by
  rw [Bool.eq_iff_iff, isIncomplete_iff, isIncomplete_iff, openAfter?_trim]

/-- White space at its end does not change whether an entry goes on. -/
theorem isIncomplete_back {back : List Char} (white : ∀ c ∈ back, isWhiteSpace c = true)
    (entry : List Char) : isIncomplete (entry ++ back) = isIncomplete entry := by
  rw [Bool.eq_iff_iff, isIncomplete_iff, isIncomplete_iff, openAfter?_back white]

theorem isIncomplete_toList (text : String) :
    isIncomplete text.toList = staysOpen 0 (Token.scan text) := rfl

/-- A reader that submits only what is complete makes complete entries of any lines. -/
theorem complete_of_mem_ofLines {reader : LineReader} (submits : reader.SubmitsComplete)
    {close : Close} {pending entry : List Char} {lines : List (List Char)}
    (member : entry ∈ (ofLines reader close pending lines).entries) :
    isIncomplete entry = false := by
  induction lines generalizing pending with
  | nil => cases member
  | cons line lines ih =>
    rw [ofLines] at member
    split at member
    · next complete added =>
      rcases List.mem_cons.mp member with rfl | later
      · exact submits _ _ _ _ added
      · exact ih later
    · exact ih member
    · cases member

end Entry

theorem Program.unclosed_of_accept {tokens : List Token} {opener : Token}
    (rejected : accept tokens = .error (.unclosed opener)) :
    ofTokens tokens = .error (.unclosed opener) := by
  rcases accept_error_cases rejected with fault | ⟨_, _, -, -, impossible⟩ | ⟨-, -, impossible⟩
  · exact fault
  · cases impossible
  · cases impossible

/-- A complete entry is not rejected for an open list once it is trimmed. -/
theorem Session.load_ne_unclosed {entry : List Char} (complete : Entry.isIncomplete entry = false)
    (s : Session) (opener : Token) :
    (s.load (.text (String.ofList (trim entry)))).answer ≠ .error (.unclosed opener) := by
  intro answered
  have unclosed := Program.unclosed_of_accept (reject_of_load answered)
  have goesOn := Entry.staysOpen_of_unclosed unclosed
  rw [← Entry.isIncomplete_toList, String.toList_ofList, Entry.isIncomplete_trim,
    complete] at goesOn
  cases goesOn

end FormScript
