import FormScript.Token

/-!
# Why a text is not a program
-/

namespace FormScript

/-- The reasons to reject a program. Most of them point at a token. -/
inductive ParseError where
  | invalidToken (token : Token)
  | unclosed (opener : Token)
  | unmatchedClose (token : Token)
  | emptyList (opener : Token)
  | emptyProgram
  | bareAtom (token : Token)
  | unreadable (reason : String)
  deriving DecidableEq, Repr

/-- What is said of bytes that are no UTF-8 text. -/
def notUtf8Text : String :=
  "stream did not contain valid UTF-8"

namespace ParseError

/-- The token at fault. -/
def token? : ParseError → Option Token
  | .invalidToken token | .unclosed token | .unmatchedClose token
  | .emptyList token | .bareAtom token => some token
  | .emptyProgram | .unreadable _ => none

/-- The message of a rejection. -/
def message : ParseError → String
  | .invalidToken token => "invalid token: " ++ token.describe
  | .unclosed opener => "unclosed " ++ opener.describe
  | .unmatchedClose token => "unexpected " ++ token.describe
  | .emptyList opener => "empty list starting at " ++ opener.describe
  | .emptyProgram => "program contains no expressions"
  | .bareAtom token => "bare " ++ token.describe ++ " outside of a list"
  | .unreadable reason => "failed to read program: " ++ reason

end ParseError

end FormScript
