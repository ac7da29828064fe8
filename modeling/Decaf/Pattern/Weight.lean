/-
How much a pattern weighs.

A pattern is accepted only if the two machines that would read texts for it,
byte by byte, one forwards and one backwards, stay within `maxWeight` bytes.
A machine consists of states.  A state weighs 32 bytes, each way out of it
that reads a byte 8 more, if there can be several, and each that reads nothing
4 more.  The weight is reckoned here from the expression; no machine is built
for it.

Two parts of an expression share states: the encodings of the characters of a
set, forwards where their ends and backwards where their beginnings agree, and
the texts of a choice between texts alone, where their beginnings agree.
-/
import Decaf.Pattern.ByteSpan
import Decaf.Pattern.Normal

namespace Decaf
namespace Pattern

/-- The largest weight accepted, in bytes. -/
def maxWeight : Nat := 10 * 1024 * 1024

/-- The way in which a machine reads. -/
inductive Direction where
  | forwards
  | backwards
deriving DecidableEq, Repr

/-! ## Words with common beginnings -/

section Words

variable {α : Type} [DecidableEq α]

/-- The first members of some words, each once. -/
def firsts (ws : List (List α)) : List α := (ws.filterMap List.head?).eraseDups

/-- What follows `a` in the words that begin with it. -/
def after (a : α) (ws : List (List α)) : List (List α) :=
  ws.filterMap fun
    | [] => none
    | b :: w => if a = b then some w else none

/-- The words, and what follows their beginnings of fewer than `n` members
where something does. -/
def residues : Nat → List (List α) → List (List (List α))
  | 0, _ => []
  | n + 1, ws =>
      if (firsts ws).isEmpty then []
      else ws :: (firsts ws).flatMap fun a => residues n (after a ws)

/-- The beginnings of a word, but for the empty one. -/
def beginnings (w : List α) : List (List α) := (List.range w.length).map fun n => w.take (n + 1)

/-- Some words, cut at the empty ones. -/
def runs : List (List α) → List (List (List α))
  | [] => [[]]
  | [] :: ws => [] :: runs ws
  | w :: ws =>
      match runs ws with
      | [] => [[w]]
      | r :: rs => (w :: r) :: rs

/-- The weight of what reads one of some words of fewer than `n` members, in
their order of preference, but for the state behind them.  A word that ends
closes a run: words behind it share nothing with words before it. -/
def wordsWeight : Nat → List (List α) → Nat
  | 0, _ => 0
  | n + 1, ws =>
      let rest := ws.dropWhile List.isEmpty
      if rest.isEmpty then 0
      else
        let ends := min 1 (ws.length - rest.length) + rest.countP List.isEmpty
        let filled := (runs rest).filter fun r => !r.isEmpty
        32 + 4 * (filled.length + ends) +
          (filled.map fun r =>
            let ways := firsts r
            32 + (if ways.length = 1 then 0 else 8 * ways.length) +
              (ways.map fun a => wordsWeight n (after a r)).foldr (· + ·) 0).foldr (· + ·) 0

end Words

/-! ## Sets and texts -/

/-- The weight of what reads a character of a set.  ASCII characters are read
in one step. -/
def CharSet.weight (d : Direction) (s : CharSet) : Nat :=
  if s.ranges.all fun r => r.2 < 0x80 then 64 + 8 * s.ranges.length
  else
    let spans := ByteSpan.ofRanges s.ranges
    match d with
    | .forwards =>
        let ways := (residues 4 spans).eraseDups.map fun ws => 32 + 8 * (firsts ws).length
        32 + ways.foldr (· + ·) 0
    | .backwards => 64 + 4 * spans.length + 32 * (spans.flatMap beginnings).eraseDups.length

/-- The bytes of a text in the order in which they are read. -/
def readBytes (d : Direction) (t : Text) : List UInt8 :=
  match d with
  | .forwards => t.flatMap String.utf8EncodeChar
  | .backwards => (t.flatMap String.utf8EncodeChar).reverse

/-- The weight of a choice between texts. -/
def textsWeight (d : Direction) (ts : List Text) : Nat :=
  let words := ts.map (readBytes d)
  32 + wordsWeight ((words.map List.length).foldl max 0 + 1) words

/-! ## Expressions -/

namespace Expr

/-- The text of an expression that is one. -/
def text? : Expr → Option Text
  | .text t => some t
  | _ => none

/-- The weight of an expression whose alternatives have the weights `ws`. -/
def choiceWeight (d : Direction) (e : Expr) (ws : List Nat) : Nat :=
  match ws, e.branches.mapM text? with
  | [w], _ => w
  | _, some ts => textsWeight d ts
  | ws, none => 64 + 4 * ws.length + ws.foldr (· + ·) 0

/-- The weight of a repeat of what weighs `w`. -/
def repeatWeight (min : Nat) (max : Option Nat) (consumes : Bool) (w : Nat) : Nat :=
  match min, max with
  | 0, none => if consumes then 40 + w else 112 + w
  | n, none => n * w + 40
  | 0, some 1 => 72 + w
  | n, some m =>
      (if n = 0 then 32 else n * w) + if n = m then 0 else 32 + (m - n) * (40 + w)

/-- The weights of the alternatives of an expression. -/
def weights (d : Direction) : Expr → List Nat
  | .empty | .look _ => [32]
  | .text t => [32 * Text.byteSize t]
  | .set s => [s.weight d]
  | .group a => [choiceWeight d a (weights d a) + if d = .forwards then 64 else 0]
  | .seq a b => [choiceWeight d a (weights d a) + choiceWeight d b (weights d b)]
  | .alt a b => choiceWeight d a (weights d a) :: weights d b
  | .rep _ min max a => [repeatWeight min max a.consumes (choiceWeight d a (weights d a))]

/-- The weight of a machine for an expression.  Unless the expression is tied
to the end of the text where the machine begins, it begins with a loop that
passes over bytes. -/
def weight (d : Direction) (e : Expr) : Nat :=
  let w := choiceWeight d e (weights d e)
  match d with
  | .forwards => (if e.isTiedToStart then 32 else 112) + 64 + w + 32
  | .backwards => (if e.isTiedToStop then 32 else 112) + w + 32

/-- Whether an expression is small enough to be worked with. -/
def isModest (e : Expr) : Bool :=
  e.weight .forwards ≤ maxWeight && e.weight .backwards ≤ maxWeight

end Expr
end Pattern
end Decaf
