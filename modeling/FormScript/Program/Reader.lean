import FormScript.Program.Error
import FormScript.Expr.Atom

/-!
# Reading nested lists

The reader takes the tokens one at a time. It keeps the finished top-level forms
and one frame for every list that is still open, the innermost first. A token
either leads to the next state or shows a fault that no later token can mend;
`Reader.step` is that rule. A list that is still open when the tokens end is the
one fault that later tokens could have mended, and it is found by `Reader.finish`.
-/

namespace FormScript

/-- A list that is still open: its paren and its items so far, the latest first. -/
structure Frame where
  opener : Token
  items : List Expr

/-- What has been read so far: finished forms, the latest first, and open lists, the
innermost first. -/
structure Reader where
  forms : List Expr
  frames : List Frame

namespace Reader

/-- Nothing has been read. -/
def start : Reader := { forms := [], frames := [] }

/-- Adds a finished expression to the innermost open list, or to the forms if no
list is open. -/
def add (r : Reader) (e : Expr) : Reader :=
  match r.frames with
  | [] => { r with forms := e :: r.forms }
  | frame :: frames => { r with frames := { frame with items := e :: frame.items } :: frames }

/-- Opens a list. -/
def openList (r : Reader) (opener : Token) : Except ParseError Reader :=
  if opener.text = "(" then
    .ok { r with frames := { opener := opener, items := [] } :: r.frames }
  else .error (.invalidToken opener)

/-- Closes the innermost open list, which must not be empty. -/
def closeList (r : Reader) (closer : Token) : Except ParseError Reader :=
  if closer.text = ")" then
    match r.frames with
    | [] => .error (.unmatchedClose closer)
    | frame :: frames =>
      if frame.items.isEmpty then .error (.emptyList frame.opener)
      else .ok ({ r with frames := frames }.add (.list frame.items.reverse))
  else .error (.invalidToken closer)

/-- Adds the expression that an atom spells. -/
def addAtom (r : Reader) (atom : Token) : Except ParseError Reader :=
  match Expr.ofAtom? atom.text with
  | some e => .ok (r.add e)
  | none => .error (.invalidToken atom)

/-- Takes one token. -/
def step (r : Reader) (token : Token) : Except ParseError Reader :=
  match token.kind with
  | .opening => r.openList token
  | .closing => r.closeList token
  | .atom => r.addAtom token

/-- Takes tokens up to the first fault. -/
def steps (r : Reader) : List Token → Except ParseError Reader
  | [] => .ok r
  | token :: tokens =>
    match r.step token with
    | .ok next => next.steps tokens
    | .error e => .error e

/-- The forms in order, once no list is open. -/
def finish (r : Reader) : Except ParseError (List Expr) :=
  match r.frames with
  | [] => .ok r.forms.reverse
  | frame :: _ => .error (.unclosed frame.opener)

end Reader

end FormScript
