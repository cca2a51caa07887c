import FormScript.Text.Span

/-!
# Tokens

A program text is a sequence of opening parens, closing parens and atoms. Each
token remembers the text it was read from, the line it starts on and the bytes it
covers. The span serves diagnostics only: two tokens are alike when they agree in
everything else.
-/

namespace FormScript

/-- The three kinds of token. -/
inductive Token.Kind where
  | opening
  | closing
  | atom
  deriving DecidableEq, Repr

/-- A token; lines count from one. -/
structure Token where
  kind : Token.Kind
  text : String
  line : Nat
  span : Span
  deriving DecidableEq, Repr

namespace Token

/-- How a message calls a token of this kind. -/
def Kind.name : Kind → String
  | .opening => "open paren"
  | .closing => "close paren"
  | .atom => "atom"

/-- A token as messages mention it. -/
def describe (t : Token) : String :=
  t.kind.name ++ " '" ++ t.text ++ "' on line " ++ toString t.line

/-- Whether two tokens agree in kind, text and line. -/
def alike (s t : Token) : Bool :=
  s.kind == t.kind && s.text == t.text && s.line == t.line

end Token

end FormScript
