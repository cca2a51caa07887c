import FormScript.Token

/-!
# From text to tokens

Scanning reads a text once, character by character. Parens are tokens of their
own; blanks and line feeds separate tokens; a semicolon starts a comment that
lasts up to the next line feed; any other character belongs to an atom, and an
atom is as long as possible. Every text can be scanned.

The scanner is a machine with three modes. `Mode.step` is its only rule, and
`Token.scanFrom` folds it over the text, so what has been read before a line feed
influences the rest only through the cursor.
-/

namespace FormScript

/-- A position of the scanner: the current line, counted from one, and the number
of bytes before it. -/
structure Cursor where
  line : Nat
  offset : Nat
  deriving DecidableEq, Repr

/-- The position of the first character. -/
def Cursor.origin : Cursor := { line := 1, offset := 0 }

/-- The position after the character `c`. Only a line feed starts a new line. -/
def Cursor.advance (here : Cursor) (c : Char) : Cursor where
  line := if c = '\n' then here.line + 1 else here.line
  offset := here.offset + c.utf8Size

/-- What a character means outside of comments. -/
inductive Glyph where
  | opening
  | closing
  | blank
  | semicolon
  | letter
  deriving DecidableEq, Repr

/-- Space, tab, carriage return and line feed are blank; whatever has no meaning
of its own is a letter. -/
def Glyph.ofChar (c : Char) : Glyph :=
  match c with
  | '(' => .opening
  | ')' => .closing
  | ' ' | '\t' | '\r' | '\n' => .blank
  | ';' => .semicolon
  | _ => .letter

namespace Token

/-- What the scanner is in the middle of. An unfinished atom keeps the position of
its first character and its characters so far, the latest first. -/
inductive Mode where
  | between
  | comment
  | atom (start : Cursor) (seen : List Char)
  deriving DecidableEq, Repr

/-- The one-character token `c` at `here`. -/
def paren (kind : Kind) (here : Cursor) (c : Char) : Token where
  kind := kind
  text := c.toString
  line := here.line
  span := { start := here.offset, stop := here.offset + c.utf8Size }

namespace Mode

/-- The atom that ends at byte `stop`, if the scanner is inside one. -/
def flush (stop : Nat) : Mode → List Token
  | .atom start seen =>
    [{ kind := .atom, text := String.ofList seen.reverse, line := start.line,
       span := { start := start.offset, stop := stop } }]
  | _ => []

/-- A letter continues an atom or begins one. -/
def extend (here : Cursor) (c : Char) : Mode → Mode
  | .atom start seen => .atom start (c :: seen)
  | _ => .atom here [c]

/-- The tokens that are complete once the character `c` at `here` is seen, and the
mode after it. -/
def step (here : Cursor) (c : Char) : Mode → List Token × Mode
  | .comment => ([], if c = '\n' then .between else .comment)
  | mode =>
    match Glyph.ofChar c with
    | .opening => (mode.flush here.offset ++ [paren .opening here c], .between)
    | .closing => (mode.flush here.offset ++ [paren .closing here c], .between)
    | .blank => (mode.flush here.offset, .between)
    | .semicolon => (mode.flush here.offset, .comment)
    | .letter => ([], mode.extend here c)

end Mode

/-- The tokens of the characters from `here` on, when the scanner arrives there in
the given mode. -/
def scanFrom (mode : Mode) (here : Cursor) : List Char → List Token
  | [] => mode.flush here.offset
  | c :: cs =>
    let (done, next) := mode.step here c
    done ++ scanFrom next (here.advance c) cs

/-- The tokens of a text, in order. -/
def scan (text : String) : List Token :=
  scanFrom .between .origin text.toList

end Token

end FormScript
