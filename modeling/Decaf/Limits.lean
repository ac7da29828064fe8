/-
Limits on what is read and lexed, in bytes.
-/

namespace Decaf

/-- The longest lexeme that a token may have, and the largest source that is
read. -/
structure Limits where
  lexeme : Nat := 256
  source : Nat := 65536
deriving DecidableEq, Repr

end Decaf
