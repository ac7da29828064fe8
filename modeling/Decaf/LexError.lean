/-
Errors of the lexer: a cause, and the place where it was met, if there is
one.  `message` says what went wrong, `tip` what was found there.
-/
import Decaf.Text.Quoted

namespace Decaf

/-- A place in a source: the line, counted from one, and the byte offset. -/
structure Position where
  line : Nat
  offset : Nat
deriving DecidableEq, Repr

/-- Why a source cannot be lexed, or a pattern not be used: no token begins with
the character `found`, a word is reserved, a lexeme has more bytes than are
allowed, a rule matches nothing at all, or a notation is not that of a pattern,
for the reason given. -/
inductive LexError.Cause where
  | unexpected (found : Char)
  | reserved (word : Text)
  | tooLong (size max : Nat)
  | emptyMatch (rule : Nat)
  | malformed (pattern reason : Text)
deriving DecidableEq, Repr

/-- An error of the lexer: a cause, and where it was met, if in a source. -/
structure LexError where
  cause : LexError.Cause
  position : Option Position
deriving DecidableEq, Repr

namespace LexError

open Text

/-- What went wrong. -/
def Cause.message : Cause → Text
  | .unexpected _ => "Invalid token!".toList
  | .reserved word => "reserved word ".toList ++ quoted word ++ " is not supported".toList
  | .tooLong size max =>
      "lexeme of ".toList ++ decimal size ++ " bytes exceeds the maximum of ".toList ++
        decimal max
  | .emptyMatch rule => "rule ".toList ++ decimal rule ++ " matched an empty lexeme".toList
  | .malformed pattern reason =>
      "invalid pattern ".toList ++ quoted pattern ++ ": ".toList ++ reason

/-- What was found, for the causes that lie in the source. -/
def Cause.tip : Cause → Option Text
  | .unexpected found =>
      some ("Unexpected character `".toList ++ escaped found ++ "`".toList)
  | .reserved word =>
      some ("`".toList ++ word ++
        "` is reserved for a language feature that is not supported".toList)
  | .tooLong size max =>
      some ("Token is ".toList ++ decimal size ++ " bytes long, the limit is ".toList ++
        decimal max)
  | .emptyMatch _ => none
  | .malformed _ _ => none

/-- What went wrong. -/
def message (e : LexError) : Text := e.cause.message

/-- What was found, if there is more to say. -/
def tip (e : LexError) : Option Text := e.cause.tip

end LexError
end Decaf
