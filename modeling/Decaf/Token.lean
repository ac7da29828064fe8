/-
Tokens, and the text between them.

A token is a piece of the source that means something; trivia are the pieces
that do not: blanks, line feeds and comments.  Each knows its text, the line
it starts on and its byte offset.  `Token.listing` prints a list of tokens.
-/
import Decaf.Text.Basic

namespace Decaf

/-- The kinds of tokens. -/
inductive Token.Kind where
  | keyword
  | identifier
  | decimalLiteral
  | hexLiteral
  | stringLiteral
  | symbol
deriving DecidableEq, Repr

/-- The code of a kind in listings. -/
def Token.Kind.code : Token.Kind → Text
  | .keyword => "KEY".toList
  | .identifier => "ID".toList
  | .decimalLiteral => "DECLIT".toList
  | .hexLiteral => "HEXLIT".toList
  | .stringLiteral => "STRLIT".toList
  | .symbol => "SYM".toList

/-- A token: its lexeme, the line it starts on, counted from one, and the byte
offset of its start. -/
structure Token where
  kind : Token.Kind
  lexeme : Text
  line : Nat
  offset : Nat
deriving DecidableEq, Repr

namespace Token

/-- A token as one entry of a listing: the code of its kind in a column of six
places, and its lexeme. -/
def render (t : Token) : Text := t.kind.code.rightpad 6 ' ' ++ ' ' :: t.lexeme

/-- A listing of tokens: each entry is closed by a line feed. -/
def listing (ts : List Token) : Text := ts.flatMap fun t => t.render ++ ['\n']

end Token

/-- The kinds of trivia. -/
inductive Trivia.Kind where
  | whitespace
  | newline
  | comment
deriving DecidableEq, Repr

/-- A piece of the source that yields no token. -/
structure Trivia where
  kind : Trivia.Kind
  text : Text
  line : Nat
  offset : Nat
deriving DecidableEq, Repr

end Decaf
