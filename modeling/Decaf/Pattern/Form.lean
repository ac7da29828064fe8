/-
Patterns as they are written.

A form is what a reader sees on the page: characters, classes, anchors,
groups, alternatives, and repeats with their bounds.  `Form.expr` gives the
regular expression that a form stands for, and `Form.depth` the nesting that
a reader has to follow.
-/
import Decaf.Pattern.Normal

namespace Decaf
namespace Pattern

/-- A pattern as it is written. -/
inductive Form where
  | empty
  | char (c : Char)
  | dot
  /-- A class in brackets, that lists its members or, if negated, what it
  leaves out. -/
  | bracket (negated : Bool) (members : List (Char × Char))
  | look (a : Anchor)
  | seq (a b : Form)
  | alt (a b : Form)
  /-- A form in parentheses, as a group of its own or not. -/
  | group (own : Bool) (a : Form)
  /-- A form repeated `min` times at least, and `max` times at most if there
  is an upper bound. -/
  | rep (g : Greed) (min : Nat) (max : Option Nat) (a : Form)
deriving DecidableEq, Repr

namespace Form

/-! ## What a form stands for -/

/-- The set of characters of a class in brackets. -/
def bracketSet (negated : Bool) (members : List (Char × Char)) : CharSet :=
  if negated then (CharSet.ofRanges members).complement else .ofRanges members

/-- The expressions between which a form gives the choice: one for each of its
alternatives. -/
def options : Form → List Expr
  | .empty => [.empty]
  | .char c => [.char c]
  | .dot => [.ofSet .dot]
  | .bracket negated members => [.ofSet (bracketSet negated members)]
  | .look a => [.look a]
  | .seq a b => [(Expr.anyOf (options a)).andThen (.anyOf (options b))]
  | .alt a b => options a ++ options b
  | .group own a => if own then [.group (.anyOf (options a))] else [.anyOf (options a)]
  | .rep g min max a => [.repeated g min max (.anyOf (options a))]

/-- The regular expression that a form stands for. -/
def expr (f : Form) : Expr := .anyOf f.options

/-! ## Nesting -/

/-- Whether a form is a sequence. -/
def isSeq : Form → Bool
  | .seq _ _ => true
  | _ => false

/-- Whether a form is a choice of alternatives. -/
def isAlt : Form → Bool
  | .alt _ _ => true
  | _ => false

/-- How deeply the form is nested.  A group, a repeat, a sequence, a choice of
alternatives and a class count one level each, however many members they
have, and the members of a class one more if there are several. -/
def depth : Form → Nat
  | .empty | .char _ | .dot | .look _ => 0
  | .bracket _ members => if members.length ≤ 1 then 1 else 2
  | .seq a b => max (a.depth + 1) (if b.isSeq then b.depth else b.depth + 1)
  | .alt a b => max (a.depth + 1) (if b.isAlt then b.depth else b.depth + 1)
  | .group _ a => a.depth + 1
  | .rep _ _ _ a => a.depth + 1

/-- The deepest nesting accepted. -/
def maxDepth : Nat := 250

end Form
end Pattern
end Decaf
