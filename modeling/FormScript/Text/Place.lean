import FormScript.Text.Span

/-!
# Lines and columns of a report

A report names a position by line and column. Its lines end after any of the
usual line terminators, not only after a line feed, and a terminator at the very
end of a text starts no further line: the end of the text lies on its last line.
-/

namespace FormScript

/-- A line and a column, both counted from one; columns count characters. -/
structure Place where
  line : Nat
  column : Nat
  deriving DecidableEq, Repr

/-- Whether a line ends after `c` when `rest` follows. A carriage return before
a line feed leaves the end of the line to the line feed. -/
def endsLine (c : Char) (rest : List Char) : Bool :=
  match c with
  | '\n' | '\x0b' | '\x0c' | '\u0085' | '\u2028' | '\u2029' => true
  | '\r' => rest.head? != some '\n'
  | _ => false

namespace Place

/-- The place of the first character of a text. -/
def first : Place := { line := 1, column := 1 }

/-- The place that follows the character `c` at `here`. -/
def after (here : Place) (c : Char) (rest : List Char) : Place :=
  if endsLine c rest && !rest.isEmpty then { line := here.line + 1, column := 1 }
  else { here with column := here.column + 1 }

/-- The place of the character that holds the byte `offset` bytes further on,
when the next character of `text` stands at `here`. Offsets beyond the text give
the place of its end. -/
def walk (here : Place) : (offset : Nat) → (text : List Char) → Place
  | _, [] => here
  | offset, c :: rest =>
    if offset < c.utf8Size then here
    else walk (here.after c rest) (offset - c.utf8Size) rest

theorem walk_zero (here : Place) (text : List Char) : here.walk 0 text = here := by
  cases text with
  | nil => rfl
  | cons c rest => rw [walk, if_pos c.utf8Size_pos]

theorem walk_cons (here : Place) (c : Char) (passed rest : List Char) :
    here.walk (byteLength (c :: passed)) (c :: (passed ++ rest)) =
      (here.after c (passed ++ rest)).walk (byteLength passed) (passed ++ rest) := by
  have reaches : ¬ byteLength (c :: passed) < c.utf8Size := by
    rw [byteLength]
    omega
  rw [walk, if_neg reaches, byteLength, Nat.add_sub_cancel_left]

/-- A walk over two texts goes on where the walk over the first one ends. -/
theorem walk_append (here : Place) (front back rest : List Char) :
    here.walk (byteLength (front ++ back)) (front ++ (back ++ rest)) =
      (here.walk (byteLength front) (front ++ (back ++ rest))).walk (byteLength back)
        (back ++ rest) := by
  induction front generalizing here with
  | nil =>
    have stays : here.walk (byteLength []) ([] ++ (back ++ rest)) = here := walk_zero here _
    rw [stays]
    rfl
  | cons c front ih =>
    have joined := walk_cons here c (front ++ back) rest
    rw [List.append_assoc] at joined
    rw [List.cons_append, List.cons_append, joined, walk_cons, ih]

/-- The place of the byte at `offset` in a text. -/
def find (text : List Char) (offset : Nat) : Place :=
  first.walk offset text

/-- The line that holds the last character of a stretch of a text, or its start
if the stretch is empty. -/
def lastLine (text : List Char) (span : Span) : Nat :=
  (find text (if span.start < span.stop then span.stop - 1 else span.start)).line

end Place

end FormScript
