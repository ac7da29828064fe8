/-
Regular expressions.

An expression says which texts match, and, by the order of its alternatives
and the greed of its repeats, which match is preferred.  A group that is set
off by plain parentheses is kept as such, since it is one of its kind: no
other part of a pattern is the same.

The questions asked here are those that decide how an expression is put
together and tried: whether its matches can be empty, and whether it can only
match at an end of the text.
-/
import Decaf.Pattern.CharSet
import Decaf.Text.Basic
import Decaf.Text.WordChar

namespace Decaf
namespace Pattern

/-- A condition on a place in a text. -/
inductive Anchor where
  | start
  | stop
  | boundary
deriving DecidableEq, Repr

/-- Whether a character is there and belongs to a word. -/
def inWord (c : Option Char) : Bool := c.any Text.isWordChar

/-- Whether the condition holds between the characters `prev` and `next`. -/
def Anchor.holds (prev next : Option Char) : Anchor → Bool
  | .start => prev.isNone
  | .stop => next.isNone
  | .boundary => inWord prev != inWord next

/-- Whether a repeat prefers more rounds or fewer. -/
inductive Greed where
  | greedy
  | lazy
deriving DecidableEq, Repr

/-- A regular expression. -/
inductive Expr where
  | empty
  | text (t : Text)
  | set (s : CharSet)
  | look (a : Anchor)
  | group (a : Expr)
  | seq (a b : Expr)
  | alt (a b : Expr)
  /-- An expression `min` times at least, and `max` times at most if there is
  an upper bound. -/
  | rep (g : Greed) (min : Nat) (max : Option Nat) (a : Expr)
deriving DecidableEq, Repr

namespace Expr

/-- Whether every match of the expression is empty. -/
def isZeroWidth : Expr → Bool
  | .empty | .look _ => true
  | .text t => t.isEmpty
  | .set _ => false
  | .group a => isZeroWidth a
  | .seq a b => isZeroWidth a && isZeroWidth b
  | .alt a b => isZeroWidth a && isZeroWidth b
  | .rep _ _ _ a => isZeroWidth a

/-- Whether every match of the expression has a character. -/
def consumes : Expr → Bool
  | .empty | .look _ => false
  | .text t => !t.isEmpty
  | .set _ => true
  | .group a => consumes a
  | .seq a b => consumes a || consumes b
  | .alt a b => consumes a && consumes b
  | .rep _ min _ a => min != 0 && consumes a

/-- Whether the expression holds a group. -/
def hasGroup : Expr → Bool
  | .empty | .text _ | .set _ | .look _ => false
  | .group _ => true
  | .seq a b => hasGroup a || hasGroup b
  | .alt a b => hasGroup a || hasGroup b
  | .rep _ _ _ a => hasGroup a

/-- Whether every match begins by passing the anchor for the start of the
text. -/
def isTiedToStart : Expr → Bool
  | .empty | .text _ | .set _ => false
  | .look a => a = .start
  | .group a => isTiedToStart a
  | .seq a b => isTiedToStart a || isZeroWidth a && isTiedToStart b
  | .alt a b => isTiedToStart a && isTiedToStart b
  | .rep _ min _ a => min != 0 && isTiedToStart a

/-- Whether every match ends by passing the anchor for the end of the text. -/
def isTiedToStop : Expr → Bool
  | .empty | .text _ | .set _ => false
  | .look a => a = .stop
  | .group a => isTiedToStop a
  | .seq a b => isTiedToStop b || isZeroWidth b && isTiedToStop a
  | .alt a b => isTiedToStop a && isTiedToStop b
  | .rep _ min _ a => min != 0 && isTiedToStop a

end Expr
end Pattern
end Decaf
