/-
Searching a text for a match of a program.

At each place of a text a program waits at some instructions for the next
character, and the order in which it waits is the order of its preferences.
`follow` finds these instructions.  It goes through the ways that take
nothing, in order, and passes each instruction once: who comes to it again
comes with less preference, and a round that takes nothing leads nowhere.
Where the program accepts, all that would come later is given up.

`scan` reads a text in one pass.  The last place where the program accepted is
the end of the match.  `find?` looks for the leftmost place with a match.
-/
import Decaf.Pattern.Program

namespace Decaf
namespace Pattern
namespace Program

/-! ## What waits at a place -/

/-- What has come of following a program as far as the next character. -/
structure Front where
  /-- The addresses at which it waits to take a character, the preferred
  first. -/
  waiting : List Nat
  /-- Whether it accepts, after all of these. -/
  accepts : Bool
deriving DecidableEq, Repr

/-- To mark an address that is not marked leaves one fewer. -/
theorem count_mark {seen : Array Bool} {i : Nat} (h : seen.getD i true = false) :
    (seen.setIfInBounds i true).count false + 1 = seen.count false := by
  obtain ⟨hi, h⟩ : ∃ hi : i < seen.size, seen[i] = false := by
    simp only [Array.getD] at h
    split at h
    · exact ⟨‹_›, h⟩
    · cases h
  have hpos : 0 < seen.count false := Array.count_pos_iff.2 (h ▸ Array.getElem_mem hi)
  rw [Array.setIfInBounds_def, dif_pos hi, Array.count_set hi]
  simp only [h, beq_self_eq_true, if_true]
  simp only [Bool.beq_eq_decide_eq, Bool.true_eq_false, decide_false, Bool.false_eq_true, if_false]
  omega

/-- Follows a program from some addresses, in order, to the instructions that
take a character; those marked in `seen` are passed over, and those in
`waiting` were found before, last first. -/
def follow (code : Array Instruction) (holds : Anchor → Bool) (pending : List Nat)
    (seen : Array Bool) (waiting : List Nat) : Front :=
  match pending with
  | [] => ⟨waiting.reverse, false⟩
  | i :: pending =>
      if _h : seen.getD i true = false then
        match code[i]? with
        | none => follow code holds pending (seen.setIfInBounds i true) waiting
        | some .accept => ⟨waiting.reverse, true⟩
        | some (.take _ _) =>
            follow code holds pending (seen.setIfInBounds i true) (i :: waiting)
        | some instruction =>
            follow code holds (instruction.ways holds ++ pending)
              (seen.setIfInBounds i true) waiting
      else follow code holds pending seen waiting
termination_by 2 * seen.count false + pending.length
decreasing_by
  · have := count_mark _h
    simp only [List.length_cons]
    omega
  · have := count_mark _h
    simp only [List.length_cons]
    omega
  · have := count_mark _h
    have := instruction.length_ways_le holds
    simp only [List.length_cons, List.length_append]
    omega
  · simp only [List.length_cons]
    omega

/-- The front of a program that has come to some addresses between the
characters `prev` and `next`. -/
def front (p : Program) (prev next : Option Char) (arrived : List Nat) : Front :=
  follow p.code (Anchor.holds prev next) arrived (Array.replicate p.code.size false) []

/-- The addresses to which a program comes that takes a character. -/
def take (p : Program) (c : Char) (waiting : List Nat) : List Nat :=
  waiting.filterMap fun i => p.code[i]?.bind (·.target? c)

/-! ## One pass over the text -/

/-- The length of the preferred match, where the program has come to some
addresses and `passed` characters are behind it, and `best` is the match that
counts if it does not accept any more. -/
def scan (p : Program) (prev : Option Char) (arrived : List Nat) (passed : Nat)
    (best : Option Nat) : Text → Option Nat
  | [] => if (p.front prev none arrived).accepts then some passed else best
  | c :: t =>
      let front := p.front prev (some c) arrived
      let best := if front.accepts then some passed else best
      let arrived := p.take c front.waiting
      if arrived.isEmpty then best else scan p (some c) arrived (passed + 1) best t

/-- The preferred match at the start of a text whose character before is
`prev`. -/
def matchAt? (p : Program) (prev : Option Char) (t : Text) : Option Text :=
  (p.scan prev [0] 0 none t).map t.take

/-- The match at the leftmost place that has one, from a place behind `prev`
on. -/
def search (p : Program) (prev : Option Char) : Text → Option Text
  | [] => p.matchAt? prev []
  | c :: t => (p.matchAt? prev (c :: t)).or (search p (some c) t)

/-- The match at the leftmost place of the text that has one.  A program that
is tied to the start of the text has its match there or nowhere. -/
def find? (p : Program) (t : Text) : Option Text :=
  if p.isTied then p.matchAt? none t else p.search none t

end Program
end Pattern
end Decaf
