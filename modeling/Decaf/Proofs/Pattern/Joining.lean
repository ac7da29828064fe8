/-
What joined expressions match.

The ways of putting expressions together bring the result into one form; here
it is shown that this form matches what the parts match, one after another
(`before_inOrder`) or one instead of another (`before_choice`).  A greedy
repeat of one character of a set takes the whole run of such characters, if
the goal behind the run is reached (`star_take`).
-/
import Decaf.Proofs.Pattern.Preference
import Decaf.Rule

namespace Decaf
namespace Pattern

namespace Goal

variable {k : Goal} {prev : Option Char} {t : Text}

/-! ## Texts -/

theorem text_append (v w : Text) (k : Goal) : text (v ++ w) k = text v (text w k) := by
  induction v with
  | nil => rfl
  | cons c v ih => rw [List.cons_append, text, ih, text]

/-- A text that is there is taken; the place behind it has its last character
before. -/
theorem text_of_append (w : Text) (k : Goal) (prev : Option Char) (t : Text) :
    text w k prev (w ++ t) = (k (w.getLast?.or prev) t).map (w ++ ·) := by
  induction w generalizing prev with
  | nil => simp [text]
  | cons c w ih =>
      have hlast : (c :: w).getLast?.or prev = w.getLast?.or (some c) := by
        rw [List.getLast?_cons]
        cases w.getLast? <;> rfl
      rw [List.cons_append, text, take, if_pos (beq_self_eq_true c), ih, Option.map_map, hlast]
      rfl

theorem text_of_not_prefix {w : Text} (h : ¬ w <+: t) : text w k prev t = none := by
  induction w generalizing prev t with
  | nil => exact absurd List.nil_prefix h
  | cons c w ih =>
      cases t with
      | nil => rfl
      | cons d t =>
          rw [text, take]
          split
          · rename_i hcd
            obtain rfl := eq_of_beq hcd
            rw [ih fun hw => h (List.cons_prefix_cons.mpr ⟨rfl, hw⟩)]
            rfl
          · rfl

theorem text_single (a c : Char) (t : Text) :
    text [a] k prev (c :: t) = if c = a then (k (some c) t).map (c :: ·) else none := by
  rw [text, take, BEq.comm]
  simp only [beq_iff_eq, text]

theorem text_pair (a b c : Char) (t : Text) :
    text [a, b] k prev (c :: t) =
      if c = a ∧ t.head? = some b then (k (some b) t.tail).map ([a, b] ++ ·) else none := by
  by_cases h : c = a ∧ t.head? = some b
  · obtain ⟨rfl, ht⟩ := h
    obtain ⟨u, rfl⟩ := List.head?_eq_some_iff.mp ht
    rw [if_pos ⟨rfl, ht⟩]
    exact text_of_append [c, b] k prev u
  · rw [if_neg h]
    refine text_of_not_prefix fun ⟨u, hu⟩ => h ?_
    cases hu
    exact ⟨rfl, rfl⟩

/-! ## Runs of characters -/

/-- A greedy repeat of one character takes all of a run of such characters, if
the goal behind it is reached there. -/
theorem star_take {test : Char → Bool} {m : Text}
    (hk : ∀ p, k p (t.dropWhile test) = some m) :
    star .greedy (take test) k prev t = some (t.takeWhile test ++ m) := by
  induction t generalizing prev with
  | nil =>
      rw [star_eq (local_take test)]
      simpa [choose, take] using hk prev
  | cons c t ih =>
      rw [star_eq (local_take test)]
      by_cases hc : test c = true
      · have hstar : star .greedy (take test) k (some c) t = some (t.takeWhile test ++ m) :=
          ih fun p => by simpa [hc] using hk p
        simp [choose, take, hc, hstar]
      · have hk := hk prev
        rw [List.dropWhile_cons, if_neg hc] at hk
        simp [choose, take, hc, hk]

end Goal

namespace Expr

variable {k : Goal} {prev : Option Char} {t : Text}

/-! ## Sequences and choices -/

theorem before_cons (a b : Expr) (k : Goal) : (cons a b).before k = a.before (b.before k) := by
  fun_cases cons a b with
  | case1 => rfl
  | case2 v w => exact Goal.text_append v w k
  | case3 v w b => exact Goal.text_append v w (b.before k)
  | case4 => rfl

theorem before_andThen (a b : Expr) (k : Goal) :
    (andThen a b).before k = a.before (b.before k) := by
  fun_induction andThen a b with
  | case1 => rfl
  | case2 b a a' ih => rw [before_cons, ih]; rfl
  | case3 => exact before_cons _ _ k

/-- A sequence matches its members one after another. -/
theorem before_inOrder (es : List Expr) (k : Goal) :
    (inOrder es).before k = es.foldr before k := by
  induction es with
  | nil => rfl
  | cons e es ih =>
      rw [inOrder, List.foldr_cons, before_andThen, List.foldr_cons, ← ih]
      rfl

theorem before_choice_nil : (choice []).before k prev t = none := by
  cases t <;> rfl

/-- A choice matches its first alternative, or else what the others match. -/
theorem before_choice_cons (e : Expr) (es : List Expr) :
    (choice (e :: es)).before k prev t =
      (e.before k prev t).or ((choice es).before k prev t) := by
  cases es with
  | nil => rw [before_choice_nil, Option.or_none]; rfl
  | cons e' es => rfl

/-- A choice matches the first of its alternatives that leads to the goal. -/
theorem before_choice (es : List Expr) :
    (choice es).before k prev t = es.findSome? fun e => e.before k prev t := by
  induction es with
  | nil => exact before_choice_nil
  | cons e es ih =>
      rw [before_choice_cons, ih, List.findSome?_cons]
      cases e.before k prev t <;> rfl

theorem isTiedToStart_tied (a : Expr) : (tied a).isTiedToStart = true := by
  cases a <;> simp [tied, cons, isTiedToStart]

theorem isProductive_tied (a : Expr) : (tied a).isProductive = a.isProductive := by
  cases a <;> simp [tied, cons, isProductive]

/-- At the start of the text an expression that is tied to it matches what it
matches by itself. -/
theorem before_tied (a : Expr) : (tied a).before k none t = a.before k none t := by
  rw [tied, before_cons]
  rfl

end Expr
end Pattern
end Decaf
