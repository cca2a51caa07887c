import FormScript.Text.GraphemeBreak

/-!
# Grapheme clusters

A text is a sequence of clusters, each of which a reader takes for one character.
Whether a cluster goes on with the next character depends on the class of that
character and on three facts about the cluster so far: whether it ends in an unpaired
half of a flag, whether it ends in a pictograph that waits to be joined to another,
and whether it ends in a consonant that waits for the one stacked below it.
-/

namespace FormScript.Grapheme

/-- How far a cluster has come towards joining two pictographs. -/
inductive Joining where
  | none
  | pictograph
  | joined
  deriving DecidableEq, Repr

/-- How far a cluster has come towards stacking two consonants. -/
inductive Stacking where
  | none
  | consonant
  | linked
  deriving DecidableEq, Repr

/-- What matters about a cluster so far: the class of its last character, whether it
ends in an odd number of flag halves, and the two kinds of pending combination. -/
structure State where
  last : GraphemeBreak
  oddFlags : Bool
  joining : Joining
  stacking : Stacking
  deriving DecidableEq, Repr

/-- Pictographs are joined by a joiner right after the first one and its marks. -/
def Joining.after (j : Joining) (next : GraphemeBreak) : Joining :=
  match next, j with
  | .pictograph, _ => .pictograph
  | .joiner, .pictograph => .joined
  | _, .pictograph => if next.isExtending then .pictograph else .none
  | _, _ => .none

/-- Consonants are stacked by a linker among the marks of the first one. -/
def Stacking.after (s : Stacking) (next : GraphemeBreak) : Stacking :=
  match next, s with
  | .consonant, _ => .consonant
  | _, .none => .none
  | .linker, _ => .linked
  | .extend, s | .joiner, s => s
  | _, _ => .none

namespace State

/-- The state after one more character of the cluster. -/
def after (s : State) (next : GraphemeBreak) : State where
  last := next
  oddFlags := next == .regional && !s.oddFlags
  joining := s.joining.after next
  stacking := s.stacking.after next

/-- The state after the first character of a cluster. -/
def first (next : GraphemeBreak) : State :=
  after { last := .control, oddFlags := false, joining := .none, stacking := .none } next

/-- Whether the next character belongs to the same cluster. A line feed belongs to a
carriage return before it and nothing else goes with a control; Hangul letters build
syllables; marks attach to what stands before them and prepended signs to what
follows; stacked consonants, joined pictographs and pairs of flag halves stay
together. -/
def joins (s : State) (next : GraphemeBreak) : Bool :=
  match s.last, next with
  | .carriageReturn, .lineFeed => true
  | .leading, .leading | .leading, .vowel | .leading, .openSyllable
  | .leading, .closedSyllable => true
  | .openSyllable, .vowel | .openSyllable, .trailing | .vowel, .vowel
  | .vowel, .trailing => true
  | .closedSyllable, .trailing | .trailing, .trailing => true
  | last, next =>
    if last.isSolitary || next.isSolitary then false
    else if next.isExtending || next == .joiner || next == .spacing then true
    else if last == .prepend then true
    else
      match next with
      | .consonant => s.stacking == .linked
      | .pictograph => s.joining == .joined
      | .regional => s.oddFlags
      | _ => false

end State

/-- The clusters of a text, when a cluster has been begun and its characters so far
are given, the latest first. -/
def clustersFrom (s : State) (begun : List Char) : List Char → List (List Char)
  | [] => [begun.reverse]
  | c :: cs =>
    let next := GraphemeBreak.ofChar c
    if s.joins next then clustersFrom (s.after next) (c :: begun) cs
    else begun.reverse :: clustersFrom (.first next) [c] cs

/-- The clusters of a text, in order. -/
def clusters : List Char → List (List Char)
  | [] => []
  | c :: cs => clustersFrom (.first (GraphemeBreak.ofChar c)) [c] cs

end FormScript.Grapheme
