/-
The preferred match of an expression.

What an expression matches is told here without a program.  A `Goal` says
what has to come of the text from a place on; `Expr.before e k` is the goal to
match `e` and then to reach `k`.  An alternative that comes first, or a round
that a greedy repeat prefers, counts only if the goal behind it is reached as
well, so `Expr.before e .accept` finds the match that backtracking through the
expression would find.

A repeat without an upper bound is given one round more than the text has
characters.  Where every round consumes, that is as good as any number
(`Goal.star_eq`): a repeat is one more round of itself, or none.
-/
import Decaf.Pattern.Expr
import Mathlib.Logic.Function.Iterate

namespace Decaf
namespace Pattern

/-- What has to come of a text from a place on: given the character before
the place and the text behind it, the text that is taken, if the goal is
reached. -/
abbrev Goal := Option Char → Text → Option Text

namespace Goal

/-! ## Goals -/

/-- The goal that is reached everywhere, with nothing more to take. -/
def accept : Goal := fun _ _ => some []

/-- The goal to take a character that passes a test, and then to reach `k`. -/
def take (test : Char → Bool) (k : Goal) : Goal
  | _, [] => none
  | _, c :: t => if test c then (k (some c) t).map (c :: ·) else none

/-- The goal to take a given text, and then to reach `k`. -/
def text : Text → Goal → Goal
  | [], k => k
  | c :: w, k => take (c == ·) (text w k)

/-- The goal to reach one of two, the preferred one if both can be reached. -/
def choose (g : Greed) (round next : Goal) : Goal := fun prev t =>
  match g with
  | .greedy => (round prev t).or (next prev t)
  | .lazy => (next prev t).or (round prev t)

/-- The goal to go through some rounds, `n` at most, and then to reach `k`. -/
def rounds (g : Greed) (round : Goal → Goal) (k : Goal) : Nat → Goal
  | 0 => k
  | n + 1 => choose g (round (rounds g round k n)) k

/-- The goal to go through any number of rounds, and then to reach `k`. -/
def star (g : Greed) (round : Goal → Goal) (k : Goal) : Goal := fun prev t =>
  rounds g round k (t.length + 1) prev t

/-! ## What a goal looks at -/

/-- A step towards a goal looks at the goal behind it only where as much text
is left as before, or less if the step is strict. -/
structure Local (strict : Bool) (step : Goal → Goal) : Prop where
  congr : ∀ {k k' : Goal} {prev : Option Char} {t : Text},
    (∀ p u, u.length + strict.toNat ≤ t.length → k p u = k' p u) →
      step k prev t = step k' prev t

theorem Local.weaken {strict strict' : Bool} {step : Goal → Goal} (h : Local strict step)
    (hs : strict' = true → strict = true) : Local strict' step := by
  refine ⟨fun hk => h.congr fun p u hu => hk p u ?_⟩
  cases strict' <;> cases strict <;> simp_all
  omega

theorem local_id : Local false id :=
  ⟨fun hk => hk _ _ (by simp)⟩

theorem local_take (test : Char → Bool) : Local true (take test) := by
  constructor
  intro k k' prev t hk
  cases t with
  | nil => rfl
  | cons c t => simp only [take, hk (some c) t (by simp)]

/-- One step and then another is strict if one of them is. -/
theorem Local.comp {s s' : Bool} {f f' : Goal → Goal} (hf : Local s f) (hf' : Local s' f') :
    Local (s || s') (f ∘ f') := by
  refine ⟨fun hk => hf.congr fun p u hu => hf'.congr fun p' u' hu' => hk p' u' ?_⟩
  cases s <;> cases s' <;> simp_all <;> omega

theorem local_text (w : Text) : Local (!w.isEmpty) (text w) := by
  induction w with
  | nil => exact local_id
  | cons c w ih => exact ((local_take _).comp ih).weaken (by simp)

/-- One step or another is strict if both are. -/
theorem Local.choose {s s' : Bool} {f f' : Goal → Goal} (g : Greed) (hf : Local s f)
    (hf' : Local s' f') : Local (s && s') fun k => Goal.choose g (f k) (f' k) := by
  constructor
  intro k k' prev t hk
  have h₁ : f k prev t = f k' prev t := (hf.weaken (by simp +contextual)).congr hk
  have h₂ : f' k prev t = f' k' prev t := (hf'.weaken (by simp +contextual)).congr hk
  simp only [Goal.choose, h₁, h₂]

theorem Local.rounds {s : Bool} {f : Goal → Goal} (g : Greed) (hf : Local s f) :
    ∀ n, Local false fun k => Goal.rounds g f k n
  | 0 => local_id
  | n + 1 => (Local.choose g (hf.comp (hf.rounds g n)) local_id).weaken (by simp)

theorem Local.star {s : Bool} {f : Goal → Goal} (g : Greed) (hf : Local s f) :
    Local false (Goal.star g f) :=
  ⟨fun hk => (hf.rounds g _).congr hk⟩

theorem Local.iterate {s : Bool} {f : Goal → Goal} (hf : Local s f) :
    ∀ n : Nat, Local (n != 0 && s) f^[n]
  | 0 => local_id
  | n + 1 => ((hf.iterate n).comp hf).weaken (by simp +contextual)

/-! ## Any number of rounds -/

/-- Rounds that consume cannot be more than the characters of the text, so one
more than these is enough. -/
theorem rounds_eq_star {g : Greed} {f : Goal → Goal} {k : Goal} (hf : Local true f) (n : Nat) :
    ∀ {prev : Option Char} {t : Text}, t.length < n →
      rounds g f k n prev t = star g f k prev t := by
  induction n using Nat.strongRecOn with
  | ind n ih =>
      intro prev t ht
      obtain ⟨m, rfl⟩ : ∃ m, n = m + 1 := ⟨n - 1, by omega⟩
      have hround : f (rounds g f k m) prev t = f (rounds g f k t.length) prev t := by
        refine hf.congr ?_
        intro p u hu
        simp only [Bool.toNat_true] at hu
        rw [ih m (by omega) (by omega), ih t.length (by omega) (by omega)]
      simp only [star, rounds, choose, hround]

/-- Any number of rounds is one round and then any number, or none. -/
theorem star_eq {g : Greed} {f : Goal → Goal} {k : Goal} (hf : Local true f)
    (prev : Option Char) (t : Text) :
    star g f k prev t = choose g (f (star g f k)) k prev t := by
  have hround : f (rounds g f k t.length) prev t = f (star g f k) prev t :=
    hf.congr fun p u hu => rounds_eq_star hf _ hu
  simp only [star, rounds, choose, hround]

end Goal

/-! ## Expressions as steps towards a goal -/

namespace Expr

/-- The goal to match an expression, as it prefers, and then to reach `k`. -/
def before : Expr → Goal → Goal
  | .empty, k => k
  | .text w, k => Goal.text w k
  | .set s, k => Goal.take s.contains k
  | .look a, k => fun prev t => if a.holds prev t.head? then k prev t else none
  | .group a, k => a.before k
  | .seq a b, k => a.before (b.before k)
  | .alt a b, k => Goal.choose .greedy (a.before k) (b.before k)
  | .rep g min none a, k => a.before^[min] (Goal.star g a.before k)
  | .rep g min (some max) a, k => a.before^[min] (Goal.rounds g a.before k (max - min))

/-- Whether every repeat without an upper bound has rounds that consume. -/
def isProductive : Expr → Bool
  | .empty | .text _ | .set _ | .look _ => true
  | .group a => isProductive a
  | .seq a b | .alt a b => isProductive a && isProductive b
  | .rep _ _ max a => isProductive a && (max.isSome || a.consumes)

/-- Matching an expression leaves no more text than there was, and less if its
matches cannot be empty. -/
theorem local_before (e : Expr) : Goal.Local e.consumes e.before := by
  induction e with
  | empty => exact Goal.local_id
  | text w => exact Goal.local_text w
  | set s => exact Goal.local_take _
  | look a =>
      constructor
      intro k k' prev t hk
      simp only [before, hk prev t (by simp [consumes])]
  | group a ih => exact ih
  | seq a b iha ihb => exact iha.comp ihb
  | alt a b iha ihb => exact iha.choose .greedy ihb
  | rep g min max a ih =>
      cases max with
      | none => exact ((ih.iterate min).comp (ih.star g)).weaken (by simp [consumes])
      | some m => exact ((ih.iterate min).comp (ih.rounds g (m - min))).weaken (by simp [consumes])

end Expr
end Pattern
end Decaf
