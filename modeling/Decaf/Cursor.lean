/-
Lexing from a byte offset on.

A cursor is a byte offset in a source.  It may be moved anywhere, so what
asks for the text at it has an answer only on a character boundary.  Lexing
from a cursor counts lines from one, and offsets from the start of the
source.
-/
import Decaf.Lexing

namespace Decaf

/-- A byte offset in a source. -/
structure Cursor where
  source : Text
  offset : Nat
deriving DecidableEq, Repr

namespace Cursor

open Text Lexing

/-- One more than the largest offset. -/
def offsetLimit : Nat := Nat.pow 2 64

/-- The cursor at the start of a source. -/
def start (source : Text) : Cursor := ⟨source, 0⟩

/-- The cursor moved by some bytes.  Offsets are counted modulo
`offsetLimit`. -/
def advance (c : Cursor) (n : Nat) : Cursor :=
  { c with offset := (c.offset + n) % offsetLimit }

/-- Whether nothing of the source is left. -/
def atEnd (c : Cursor) : Bool := byteSize c.source ≤ c.offset

/-- The line that lexing from the cursor begins with. -/
def line (_ : Cursor) : Nat := 1

/-- The text from the cursor on, if it is on a boundary. -/
def rest? (c : Cursor) : Option Text := dropBytes? c.offset c.source

/-- The run from the cursor on, if it is on a boundary.  Behind the end of the
source there is nothing to be done. -/
def run? (c : Cursor) (limits : Limits) : Option Run :=
  if c.atEnd then some ⟨[], [], ⟨[], c.line, c.offset⟩, none⟩
  else c.rest?.map fun rest => runFrom limits [] [] ⟨rest, c.line, c.offset⟩

/-- The tokens and trivia from the cursor on, if it is on a boundary. -/
def lex? (c : Cursor) (limits : Limits) : Option (Except LexError Lexed) :=
  (c.run? limits).map Run.result

end Cursor
end Decaf
