/-
The log of a run: what it starts on, the matches it makes, and how it ends.
-/
import Decaf.Lexing

namespace Decaf

/-- An event of a run. -/
inductive LogEvent where
  | started (size : Nat)
  /-- A rule has matched; what it does comes after. -/
  | matched (m : Lexing.Matched)
  /-- The source is lexed: the number of tokens, and of the last line. -/
  | finished (tokens lines : Nat)
  | failed (position : Position) (cause : LexError.Cause)
deriving DecidableEq, Repr

/-- An event as one line. -/
def LogEvent.render : LogEvent → Text
  | .started size => "DEBUG lexing len=".toList ++ Text.decimal size
  | .matched m =>
      "TRACE matched rule=".toList ++ Text.decimal m.rule ++ " line=".toList ++
        Text.decimal m.line ++ " lexeme=".toList ++ Text.quoted m.lexeme
  | .finished tokens lines =>
      "DEBUG lexed tokens=".toList ++ Text.decimal tokens ++ " lines=".toList ++
        Text.decimal lines
  | .failed position cause =>
      "DEBUG lex failed line=".toList ++ Text.decimal position.line ++ " offset=".toList ++
        Text.decimal position.offset ++ " error=".toList ++ cause.message

namespace Lexing.Run

/-- The event that ends a run. -/
def lastEvent (r : Run) : LogEvent :=
  match r.cause with
  | some cause => .failed r.final.position cause
  | none => .finished r.tokens.length r.final.line

/-- The events of a run over a source of `size` bytes, in order. -/
def log (size : Nat) (r : Run) : List LogEvent :=
  .started size :: r.matched.map .matched ++ [r.lastEvent]

end Lexing.Run

/-- The events of lexing a source. -/
def logOf (limits : Limits) (source : Text) : List LogEvent :=
  (Lexing.run limits source).log (Text.byteSize source)

end Decaf
