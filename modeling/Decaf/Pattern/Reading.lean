/-
Reading patterns.

A pattern is read one character at a time.  `Reading` is what has been
understood so far: the innermost open group, the groups around it, and, in
`Mode`, what the last characters leave pending.  `Reading.feed` takes one
character, and `none` says that no pattern goes on in this way.  Since
reading is a fold over the characters, to read two texts in a row is to read
the first and go on with the second.

The notation: characters stand for themselves, `.` for any character but the
line feed, `[a-z]` and `[^a-z]` for classes, `(a)` and `(?:a)` group, `|`
separates alternatives, `*`, `+`, `?`, `{n}`, `{n,}` and `{n,m}` repeat, and
a `?` behind a repeat makes it prefer fewer rounds.  `^` and `$` are the
start and the end of the text, `\b` is the edge of a word, `\n` and its like
are control characters, and a backslash before punctuation takes it
literally.
-/
import Decaf.Pattern.Form
import Decaf.Text.Blank

namespace Decaf
namespace Pattern

/-! ## Escapes -/

/-- The character that a backslash and `c` stand for: a control character, or
punctuation taken literally.  The signs `<` and `>` are kept back. -/
def escapeOf? (c : Char) : Option Char :=
  match c with
  | 'a' => some '\x07'
  | 'f' => some '\x0c'
  | 'n' => some '\n'
  | 'r' => some '\r'
  | 't' => some '\t'
  | 'v' => some '\x0b'
  | '<' | '>' => none
  | c => if c.toNat < 0x80 && !c.isAlphanum then some c else none

/-! ## Classes in brackets -/

/-- Where a class in brackets stands. -/
inductive Bracket.Place where
  /-- Behind the opening bracket, where a caret negates the class. -/
  | opened
  /-- Behind that, where a closing bracket is a member. -/
  | first
  /-- Behind hyphens that lead the class and are members. -/
  | leading
  | member
  /-- Behind a character that may begin a range; `bare` if it is not
  escaped. -/
  | single (c : Char) (bare : Bool)
  | hyphen (c : Char)
  | escaped
  /-- Behind the backslash of the end of a range that begins with `c`. -/
  | escapedEnd (c : Char)
deriving DecidableEq, Repr

/-- What is read of a class in brackets, with its members last first. -/
structure Bracket where
  negated : Bool
  members : List (Char × Char)
  place : Bracket.Place
deriving DecidableEq, Repr

namespace Bracket

/-- A class of which only the opening bracket is read. -/
def start : Bracket := ⟨false, [], .opened⟩

/-- The class with a range of characters added, if the range is in order. -/
def addRange (b : Bracket) (first last : Char) : Option Bracket :=
  if first ≤ last then some { b with members := (first, last) :: b.members, place := .member }
  else none

/-- The class with one character added. -/
def add (b : Bracket) (c : Char) : Bracket :=
  { b with members := (c, c) :: b.members, place := .member }

/-- The class that has been read. -/
def toForm (b : Bracket) : Form := .bracket b.negated b.members.reverse

/-- Reads a character where a member may begin. -/
def feedMember (b : Bracket) (c : Char) : Option (Bracket ⊕ Form) :=
  match c with
  | ']' => some (.inr b.toForm)
  | '[' => none
  | '\\' => some (.inl { b with place := .escaped })
  | c => some (.inl { b with place := .single c true })

/-- Reads a character where a closing bracket is a member. -/
def feedFirst (b : Bracket) (c : Char) : Option (Bracket ⊕ Form) :=
  match c with
  | '-' => some (.inl { b.add '-' with place := .leading })
  | ']' => some (.inl (b.add ']'))
  | c => b.feedMember c

/-- Reads one character of a class: what is read then, or the class, if the
character closes it.  Doubled hyphens, ampersands and tildes are kept back. -/
def feed (b : Bracket) (c : Char) : Option (Bracket ⊕ Form) :=
  match b.place with
  | .opened =>
      if c = '^' then some (.inl { b with negated := true, place := .first }) else b.feedFirst c
  | .first => b.feedFirst c
  | .leading =>
      if c = '-' then some (.inl { b.add '-' with place := .leading }) else b.feedMember c
  | .member => b.feedMember c
  | .single a bare =>
      if bare && a = c && (c = '-' || c = '&' || c = '~') then none
      else if c = '-' then some (.inl { b with place := .hyphen a })
      else (b.add a).feedMember c
  | .hyphen a =>
      match c with
      | ']' => some (.inr ((b.add a).add '-').toForm)
      | '-' => none
      | '\\' => some (.inl { b with place := .escapedEnd a })
      | c => (b.addRange a c).map .inl
  | .escaped => (escapeOf? c).map fun e => .inl { b with place := .single e false }
  | .escapedEnd a => (escapeOf? c).bind fun e => (b.addRange a e).map .inl

end Bracket

/-! ## Bounds of a repeat -/

/-- One more than the largest number that a bound can be. -/
def Bounds.limit : Nat := Nat.pow 2 32

/-- What is read of the bounds of a repeat, behind the opening brace.  A
number is followed by its digits' value, if there are any yet, and by whether
a blank has closed it. -/
inductive Bounds where
  | lower (n : Option Nat) (closed : Bool)
  | comma (n : Nat)
  | upper (n : Nat) (m : Option Nat) (closed : Bool)
deriving DecidableEq, Repr

namespace Bounds

/-- Bounds of which only the opening brace is read. -/
def start : Bounds := .lower none false

/-- Reads a character inside a number: blanks may stand around its digits. -/
def feedNumber (n : Option Nat) (closed : Bool) (c : Char) : Option (Option Nat × Bool) :=
  if Text.isBlank c then some (n, n.isSome)
  else if c.isDigit && !closed then
    let n := 10 * n.getD 0 + (c.toNat - '0'.toNat)
    if n < limit then some (some n, false) else none
  else none

/-- Reads one character of the bounds: what is read then, or the bounds, if
the character closes them. -/
def feed (b : Bounds) (c : Char) : Option (Bounds ⊕ Nat × Option Nat) :=
  match b, c with
  | .lower (some n) _, '\x7d' => some (.inr (n, some n))
  | .lower (some n) _, ',' => some (.inl (.comma n))
  | .lower n closed, c => (feedNumber n closed c).map fun r => .inl (.lower r.1 r.2)
  | .comma n, '\x7d' => some (.inr (n, none))
  | .comma n, c => (feedNumber none false c).map fun r => .inl (.upper n r.1 r.2)
  | .upper n (some m) _, '\x7d' => if n ≤ m then some (.inr (n, some m)) else none
  | .upper n m closed, c => (feedNumber m closed c).map fun r => .inl (.upper n r.1 r.2)

end Bounds

/-! ## Groups -/

/-- What is read of a group: whether it is a group of its own, with plain
parentheses, the alternatives that are complete, and the parts of the current
one, both last first. -/
structure Frame where
  own : Bool
  branches : List Form
  items : List Form
deriving DecidableEq, Repr

namespace Frame

/-- A group of which nothing is read. -/
def start : Frame := ⟨true, [], []⟩

/-- The sequence of some forms. -/
def sequence : List Form → Form
  | [] => .empty
  | [f] => f
  | f :: fs => .seq f (sequence fs)

/-- The choice between a form and some others. -/
def choice (f : Form) : List Form → Form
  | [] => f
  | g :: gs => .alt f (choice g gs)

/-- The current alternative. -/
def branch (f : Frame) : Form := sequence f.items.reverse

/-- The form that has been read. -/
def toForm (f : Frame) : Form :=
  match (f.branch :: f.branches).reverse with
  | [] => .empty
  | g :: gs => choice g gs

/-- The group with one more member in the current alternative. -/
def push (f : Frame) (item : Form) : Frame := { f with items := item :: f.items }

/-- The group after a bar. -/
def bar (f : Frame) : Frame := { f with branches := f.branch :: f.branches, items := [] }

/-- The group with its last member repeated, if there is one. -/
def repeatLast (f : Frame) (min : Nat) (max : Option Nat) : Option Frame :=
  match f.items with
  | [] => none
  | item :: items => some { f with items := .rep .greedy min max item :: items }

/-- The group with its last repeat preferring fewer rounds. -/
def lazyLast (f : Frame) : Frame :=
  match f.items with
  | .rep _ min max item :: items => { f with items := .rep .lazy min max item :: items }
  | _ => f

end Frame

/-! ## The reading -/

/-- What the last characters leave pending. -/
inductive Mode where
  | plain
  /-- An opening parenthesis, which a question mark may follow. -/
  | opened
  | marked
  /-- A repeat, which a question mark may follow. -/
  | repeated
  | escaped
  | bracket (b : Bracket)
  | bounds (b : Bounds)
deriving DecidableEq, Repr

/-- What has been read of a pattern: the innermost open group, the groups around
it, innermost first, and what is pending. -/
structure Reading where
  frame : Frame
  outer : List Frame
  mode : Mode
deriving DecidableEq, Repr

namespace Reading

/-- A pattern of which nothing is read. -/
def start : Reading := ⟨.start, [], .plain⟩

/-- The reading with one more member in the current alternative. -/
def push (r : Reading) (item : Form) : Reading :=
  { r with frame := r.frame.push item, mode := .plain }

/-- The reading with its last member repeated, if there is one. -/
def repeatLast (r : Reading) (min : Nat) (max : Option Nat) : Option Reading :=
  (r.frame.repeatLast min max).map fun f => { r with frame := f, mode := .repeated }

/-- Reads a character of which nothing before is pending. -/
def feedPlain (r : Reading) (c : Char) : Option Reading :=
  match c with
  | '(' => some ⟨.start, r.frame :: r.outer, .opened⟩
  | ')' =>
      match r.outer with
      | [] => none
      | f :: outer => some ⟨f.push (.group r.frame.own r.frame.toForm), outer, .plain⟩
  | '|' => some { r with frame := r.frame.bar, mode := .plain }
  | '[' => some { r with mode := .bracket .start }
  | '\\' => some { r with mode := .escaped }
  | '.' => some (r.push .dot)
  | '^' => some (r.push (.look .start))
  | '$' => some (r.push (.look .stop))
  | '*' => r.repeatLast 0 none
  | '+' => r.repeatLast 1 none
  | '?' => r.repeatLast 0 (some 1)
  | '\x7b' => if r.frame.items.isEmpty then none else some { r with mode := .bounds .start }
  | c => some (r.push (.char c))

/-- Reads one character. -/
def feed (r : Reading) (c : Char) : Option Reading :=
  match r.mode with
  | .plain => r.feedPlain c
  | .opened => if c = '?' then some { r with mode := .marked } else r.feedPlain c
  | .marked =>
      if c = ':' then some { r with frame := { r.frame with own := false }, mode := .plain }
      else none
  | .repeated =>
      if c = '?' then some { r with frame := r.frame.lazyLast, mode := .plain }
      else r.feedPlain c
  | .escaped =>
      if c = 'b' then some (r.push (.look .boundary))
      else (escapeOf? c).map fun e => r.push (.char e)
  | .bracket b =>
      (b.feed c).map fun
        | .inl b' => { r with mode := .bracket b' }
        | .inr f => r.push f
  | .bounds b =>
      (b.feed c).bind fun
        | .inl b' => some { r with mode := .bounds b' }
        | .inr (min, max) => r.repeatLast min max

/-- Reads a text. -/
def feedAll (r : Reading) (t : Text) : Option Reading := t.foldlM feed r

/-- The form that has been read, if no group is open and nothing pending but a
question mark. -/
def finish (r : Reading) : Option Form :=
  match r.outer, r.mode with
  | [], .plain => some r.frame.toForm
  | [], .repeated => some r.frame.toForm
  | _, _ => none

theorem feedAll_append (r : Reading) (s t : Text) :
    r.feedAll (s ++ t) = (r.feedAll s).bind fun r' => r'.feedAll t := by
  simp only [feedAll, List.foldlM_append]
  rfl

end Reading

namespace Form

/-- The form that a text is the notation of. -/
def read? (t : Text) : Option Form := (Reading.start.feedAll t).bind Reading.finish

end Form
end Pattern
end Decaf
