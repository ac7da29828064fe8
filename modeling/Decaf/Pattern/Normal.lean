/-
Putting expressions together.

Every way of joining expressions brings the result into one form: a sequence
is a chain to the right in which no member is empty, no member is a sequence
and no two texts meet; a choice is such a chain of alternatives, in which
characters and sets that stand by themselves have become one set; a repeat
has a bound that matters.

Alternatives that all begin with the same members have these taken out in
front, as in `a*(?:b|c)` for `a*b|a*c`.  The preference is that of the result:
`a*` takes its turn before the alternatives do.
-/
import Decaf.Pattern.Expr

namespace Decaf
namespace Pattern
namespace Expr

/-! ## Characters -/

/-- The expression for one character. -/
def char (c : Char) : Expr := .text [c]

/-- The expression for one character of a set. -/
def ofSet (s : CharSet) : Expr :=
  match s.char? with
  | some c => char c
  | none => .set s

/-! ## Sequences -/

/-- The members of a sequence. -/
def items : Expr → List Expr
  | .empty => []
  | .seq a b => a :: items b
  | e => [e]

/-- A sequence with one more member in front.  Texts that meet become one. -/
def cons : Expr → Expr → Expr
  | a, .empty => a
  | .text s, .text t => .text (s ++ t)
  | .text s, .seq (.text t) b => .seq (.text (s ++ t)) b
  | a, b => .seq a b

/-- One expression and then another. -/
def andThen : Expr → Expr → Expr
  | .empty, b => b
  | .seq a a', b => cons a (andThen a' b)
  | a, b => cons a b

/-- The sequence of some expressions. -/
def inOrder (es : List Expr) : Expr := es.foldr andThen .empty

/-! ## Choices -/

/-- The alternatives of a choice. -/
def branches : Expr → List Expr
  | .alt a b => a :: branches b
  | e => [e]

/-- The chain of some alternatives; of none, what never matches. -/
def choice : List Expr → Expr
  | [] => .set ⟨[]⟩
  | [e] => e
  | e :: es => .alt e (choice es)

/-- The set of an expression that is one character. -/
def charSet? : Expr → Option CharSet
  | .text [c] => some (.single c)
  | _ => none

/-- The set of an expression that is one. -/
def set? : Expr → Option CharSet
  | .set s => some s
  | _ => none

/-- The choice between some expressions.  If all are characters, or all are
sets, it is the set of all of them. -/
def merged (es : List Expr) : Expr :=
  match es.flatMap branches with
  | [e] => e
  | es =>
      match es.mapM charSet? <|> es.mapM set? with
      | some ss => ofSet (.union ss)
      | none => choice es

/-- Whether an expression is a sequence. -/
def isSeq : Expr → Bool
  | .seq _ _ => true
  | _ => false

/-- The members with which two sequences begin.  A group is never found
twice. -/
def commonItems : List Expr → List Expr → List Expr
  | a :: as, b :: bs => if a = b && !a.hasGroup then a :: commonItems as bs else []
  | _, _ => []

/-- The members with which some alternatives all begin, if there are several
and all are sequences. -/
def sharedItems : List Expr → List Expr
  | e :: e' :: es =>
      if (e :: e' :: es).all isSeq then
        (e' :: es).foldl (fun shared e => commonItems shared e.items) e.items
      else []
  | _ => []

/-- The choice between some expressions, the first that leads to a match.
What they all begin with is taken out in front. -/
def anyOf : List Expr → Expr
  | [e] => e
  | es =>
      match sharedItems (es.flatMap branches) with
      | [] => merged es
      | shared =>
          let rests := (es.flatMap branches).map fun e => inOrder (e.items.drop shared.length)
          inOrder (shared ++ [merged rests])

/-! ## Repeats -/

/-- An expression repeated within bounds.  To repeat what is always empty more
than once is of no use. -/
def repeated (g : Greed) (min : Nat) (max : Option Nat) (a : Expr) : Expr :=
  let (min, max) :=
    if a.isZeroWidth then (Nat.min min 1, some (Nat.min (max.getD 1) 1)) else (min, max)
  if max = some 0 then .empty
  else if min = 1 && max = some 1 then a
  else .rep g min max a

end Expr
end Pattern
end Decaf
