/-
Programs that match texts.

A program is a row of instructions, each known by its address in the row.  An
instruction takes a character of a set, asks for an anchor, goes on elsewhere,
goes on at two addresses of which the first is preferred, or accepts.

The instructions for an expression stand together, from the first on in the
order of its parts, and end by going on at a given address: the next one in
the row or any other.  A part that is repeated stands there once for each
round that its bounds tell apart.  `Expr.length` is their number.
-/
import Decaf.Pattern.Expr

namespace Decaf
namespace Pattern

/-- An instruction of a program. -/
inductive Instruction where
  | take (s : CharSet) (next : Nat)
  | look (a : Anchor) (next : Nat)
  | jump (next : Nat)
  /-- Go on at two addresses, the first preferred. -/
  | split (first second : Nat)
  | accept
deriving DecidableEq, Repr

namespace Instruction

/-- The choice between a round of a repeat and what follows it. -/
def choose (g : Greed) (round next : Nat) : Instruction :=
  match g with
  | .greedy => .split round next
  | .lazy => .split next round

/-- Where an instruction goes on without a character, in order of preference,
at a place where some anchors hold. -/
def ways (holds : Anchor → Bool) : Instruction → List Nat
  | .take _ _ | .accept => []
  | .look a next => if holds a then [next] else []
  | .jump next => [next]
  | .split first second => [first, second]

theorem length_ways_le (holds : Anchor → Bool) : ∀ i : Instruction, (i.ways holds).length ≤ 2
  | .take _ _ | .accept | .jump _ | .split _ _ => by simp [ways]
  | .look a _ => by cases h : holds a <;> simp [ways, h]

/-- Where an instruction goes on when it takes a character, if it does. -/
def target? (c : Char) : Instruction → Option Nat
  | .take s next => if s.contains c then some next else none
  | _ => none

end Instruction

/-- A program. -/
structure Program where
  code : Array Instruction
  /-- Whether it can match only at the start of the text. -/
  isTied : Bool
deriving DecidableEq, Repr

/-! ## Expressions as programs -/

namespace Expr

/-- The number of instructions for a repeat of what has `n`. -/
def repeatLength (min : Nat) (max : Option Nat) (consumes : Bool) (n : Nat) : Nat :=
  match min, max with
  | 0, none => if consumes then n + 1 else n + 2
  | min, none => min * n + 1
  | min, some max =>
      if min < max then min * n + (max - min) * (n + 1) else if min = 0 then 1 else min * n

/-- The number of instructions for an expression. -/
def length : Expr → Nat
  | .empty | .set _ | .look _ => 1
  | .text t => Nat.max 1 t.length
  | .group a => length a
  | .seq a b => length a + length b
  | .alt a b => length a + length b + 1
  | .rep _ min max a => repeatLength min max a.consumes (length a)

end Expr

namespace Program

/-- The code with the instructions for a text, from which it goes on at
`next`. -/
def emitText (code : Array Instruction) (next : Nat) : Text → Array Instruction
  | [] => code.push (.jump next)
  | [c] => code.push (.take (.single c) next)
  | c :: t =>
      let here := code.size
      emitText (code.push (.take (.single c) (here + 1))) next t

/-- The code with the instructions for an expression, from which it goes on at
`next`. -/
def emit (code : Array Instruction) (next : Nat) : Expr → Array Instruction
  | .empty => code.push (.jump next)
  | .text t => emitText code next t
  | .set s => code.push (.take s next)
  | .look a => code.push (.look a next)
  | .group a => emit code next a
  | .seq a b =>
      let behind := code.size + a.length
      emit (emit code behind a) next b
  | .alt a b =>
      let here := code.size
      emit (emit (code.push (.split (here + 1) (here + 1 + a.length))) next a) next b
  | .rep g min max a =>
      let n := a.length
      -- A round that has to come, and one that may; the code goes on behind both.
      let round (code : Array Instruction) : Array Instruction :=
        let here := code.size
        emit code (here + n) a
      let chance (code : Array Instruction) : Array Instruction :=
        let here := code.size
        emit (code.push (.choose g (here + 1) next)) (here + 1 + n) a
      match min, max with
      | 0, none =>
          let here := code.size
          if a.consumes then emit (code.push (.choose g (here + 1) next)) here a
          else (chance code).push (.choose g (here + 1) next)
      | min, none =>
          let last := code.size + (min - 1) * n
          (Nat.repeat round min code).push (.choose g last next)
      | min, some max =>
          if min < max then
            let here := code.size + min * n + (max - min - 1) * (n + 1)
            emit ((Nat.repeat chance (max - min - 1) (Nat.repeat round min code)).push
              (.choose g (here + 1) next)) next a
          else if min = 0 then code.push (.jump next)
          else emit (Nat.repeat round (min - 1) code) next a

/-! ## Addresses -/

theorem size_emitText (next : Nat) : ∀ (code : Array Instruction) (t : Text),
    (emitText code next t).size = code.size + Nat.max 1 t.length
  | _, [] => by simp [emitText, Nat.max]
  | _, [_] => by simp [emitText, Nat.max]
  | code, c :: d :: t => by
      rw [emitText, size_emitText next _ (d :: t)]
      · simp only [Array.size_push, List.length_cons, Nat.max_def]
        split <;> split <;> omega
      · simp

theorem size_repeat {f : Array Instruction → Array Instruction} {k : Nat}
    (h : ∀ code, (f code).size = code.size + k) (code : Array Instruction) :
    ∀ n, (Nat.repeat f n code).size = code.size + n * k
  | 0 => by simp [Nat.repeat]
  | n + 1 => by rw [Nat.repeat, h, size_repeat h code n, Nat.succ_mul]; omega

/-- An expression has as many instructions as its length says, so the parts
behind it begin where they are taken to begin. -/
theorem size_emit (e : Expr) (code : Array Instruction) (next : Nat) :
    (emit code next e).size = code.size + e.length := by
  induction e generalizing code next with
  | empty | set | look => simp [emit, Expr.length]
  | text t => exact size_emitText next code t
  | group a ih => exact ih code next
  | seq a b iha ihb => simp only [emit, Expr.length, iha, ihb]; omega
  | alt a b iha ihb => simp only [emit, Expr.length, iha, ihb, Array.size_push]; omega
  | rep g min max a ih =>
      have hround : ∀ code, (emit code (code.size + a.length) a).size = code.size + a.length :=
        fun code => ih _ _
      have hchance : ∀ code : Array Instruction,
          (emit (code.push (.choose g (code.size + 1) next)) (code.size + 1 + a.length) a).size =
            code.size + (a.length + 1) := by
        intro code
        rw [ih, Array.size_push]
        omega
      cases max with
      | none =>
          cases min with
          | zero =>
              simp only [emit, Expr.length, Expr.repeatLength]
              split
              · rw [ih, Array.size_push]; omega
              · rw [Array.size_push, hchance]; omega
          | succ n =>
              simp only [emit, Expr.length, Expr.repeatLength]
              rw [Array.size_push, size_repeat hround]
              omega
      | some m =>
          simp only [emit, Expr.length, Expr.repeatLength]
          split
          · rw [ih, Array.size_push, size_repeat hchance, size_repeat hround]
            obtain ⟨k, hk⟩ : ∃ k, m - min = k + 1 := ⟨m - min - 1, by omega⟩
            rw [hk, Nat.add_sub_cancel, Nat.succ_mul]
            omega
          · split
            · simp
            · rw [ih, size_repeat hround]
              obtain ⟨k, hk⟩ : ∃ k, min = k + 1 := ⟨min - 1, by omega⟩
              rw [hk, Nat.add_sub_cancel, Nat.succ_mul]
              omega

end Program

/-- The program that matches an expression. -/
def Expr.program (e : Expr) : Program :=
  ⟨(Program.emit #[] e.length e).push .accept, e.isTiedToStart⟩

end Pattern
end Decaf
