import FormScript.Prompt.Entry
import FormScript.Text.Grapheme
import FormScript.Text.Span

/-!
# Erasing with the backspace character

A backspace in the input takes back the cluster before it. The length of a cluster is
remembered in a single byte, so of a cluster of 256 bytes or more only the remainder
is taken back, and that remainder may end in the middle of a character; then the text
cannot be settled at all.

`Erasure.reader` is the line reader that carries out backspaces, line ends included, and
that breaks off where a text cannot be settled. A text without backspaces it takes as typed.
-/

namespace FormScript.Erasure

/-- The character that takes back a cluster. -/
def backspace : Char := '\x08'

/-- A text under way: its characters, the latest first, and what a backspace takes
back, cluster by cluster, the latest first. -/
structure Draft where
  text : List Char
  sizes : List Nat
  deriving DecidableEq, Repr

/-- Drops bytes from the front of a text, unless that would divide a character. -/
def dropBytes? : (size : Nat) → List Char → Option (List Char)
  | 0, text => some text
  | _, [] => some []
  | size, c :: cs => if c.utf8Size ≤ size then dropBytes? (size - c.utf8Size) cs else none

/-- Adds a cluster to a draft, or takes back its last cluster. With nothing left to
take back, a backspace does nothing. -/
def Draft.add? (d : Draft) (cluster : List Char) : Option Draft :=
  if cluster = [backspace] then
    match d.sizes with
    | [] => some d
    | size :: sizes => (dropBytes? size d.text).map fun text => { text := text, sizes := sizes }
  else
    some { text := cluster.reverse ++ d.text, sizes := byteLength cluster % 256 :: d.sizes }

/-- Adds clusters in order. -/
def Draft.addAll? (d : Draft) : List (List Char) → Option Draft
  | [] => some d
  | cluster :: clusters => (d.add? cluster).bind fun next => next.addAll? clusters

/-- A text with its backspaces carried out. -/
def settle? (text : List Char) : Option (List Char) :=
  if text.contains backspace then
    (Draft.addAll? { text := [], sizes := [] } (Grapheme.clusters text)).map fun d =>
      d.text.reverse
  else some text

theorem settle?_of_free {text : List Char} (free : backspace ∉ text) :
    settle? text = some text := by
  simp [settle?, free]

/-- The reader that settles an entry before it asks whether the entry goes on. -/
def reader : LineReader where
  addLine incomplete pending line :=
    match settle? (pending ++ Entry.dropEnding line) with
    | none => .broken
    | some entry =>
      if incomplete entry then .incomplete (entry ++ Entry.ending line) else .complete entry

theorem reader_submitsComplete : reader.SubmitsComplete := by
  intro incomplete pending line entry added
  simp only [reader] at added
  split at added
  · cases added
  · split at added
    · cases added
    · next closed =>
      cases added
      simpa using closed

/-- Only backspaces make a difference between what is typed and what is taken. -/
theorem reader_takesAsTyped {text : List Char} (free : backspace ∉ text) :
    reader.TakesAsTyped text := by
  intro incomplete pending line begins
  have kept : pending ++ Entry.dropEnding line <+: text :=
    .trans (List.prefix_append_right_inj pending |>.mpr (List.take_prefix _ _)) begins
  have settled := settle?_of_free (mt (fun member => kept.subset member) free)
  simp only [reader, LineReader.plain, settled]

end FormScript.Erasure
