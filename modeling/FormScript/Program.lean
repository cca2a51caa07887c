import FormScript.Token.Scan
import FormScript.Program.Reader

/-!
# Programs

A program is a sequence of forms. As an expression it is the list of its forms
under the symbol `begin`. `Program.ofTokens` reads any sequence of forms;
`Program.accept` is the stricter rule for what may be run, where there is at least
one form and every form is a list.
-/

namespace FormScript

/-- A program: its top-level forms in order. -/
structure Program where
  forms : List Expr

namespace Program

/-- A program as one expression. -/
def expr (p : Program) : Expr :=
  .list (.symbol "begin" :: p.forms)

/-- Reads a sequence of tokens as forms. -/
def ofTokens (tokens : List Token) : Except ParseError Program :=
  match Reader.start.steps tokens with
  | .ok reader => reader.finish.map Program.mk
  | .error e => .error e

/-- Reads a text as forms. -/
def ofText (text : String) : Except ParseError Program :=
  ofTokens (Token.scan text)

/-- The first atom outside of all parens, when `depth` lists are open. A closing
paren too many opens nothing. -/
def firstBareAtom? (depth : Nat) : List Token → Option Token
  | [] => none
  | token :: tokens =>
    match token.kind with
    | .opening => firstBareAtom? (depth + 1) tokens
    | .closing => firstBareAtom? (depth - 1) tokens
    | .atom => if depth = 0 then some token else firstBareAtom? depth tokens

/-- Reads a sequence of tokens as a program to run. A fault of the forms themselves
is found before a bare atom, and a bare atom before the want of forms. -/
def accept (tokens : List Token) : Except ParseError Program :=
  match ofTokens tokens with
  | .error e => .error e
  | .ok program =>
    match firstBareAtom? 0 tokens with
    | some token => .error (.bareAtom token)
    | none => if program.forms.isEmpty then .error .emptyProgram else .ok program

end Program

end FormScript
