/-
The program of an expression finds the preferred match of the expression.

Emitting an expression only adds to the code, so what is emitted for a part
stands in the whole program as it was emitted (`Extends`).  The instructions
of a part reach the goal of that part, if what they go on to reaches the goal
behind it (`leads_emit`); the proof follows the expression.  A repeat without
an upper bound goes back to where it began, with less text than before.
-/
import Decaf.Pattern.Basic
import Decaf.Proofs.Pattern.Preference
import Decaf.Proofs.Pattern.Threads

namespace Decaf
namespace Pattern
namespace Program

/-! ## Code that grows -/

/-- The code stands at the beginning of the other. -/
def Extends (code code' : Array Instruction) : Prop :=
  ∀ i, i < code.size → code'[i]? = code[i]?

theorem Extends.refl (code : Array Instruction) : Extends code code := fun _ _ => rfl

theorem Extends.size_le {code code' : Array Instruction} (h : Extends code code') :
    code.size ≤ code'.size := by
  rcases Nat.eq_zero_or_pos code.size with h₀ | h₀
  · omega
  · have hlast := h (code.size - 1) (by omega)
    rw [Array.getElem?_eq_getElem (show code.size - 1 < code.size by omega)] at hlast
    have := (Array.getElem?_eq_some_iff.mp hlast).1
    omega

theorem Extends.trans {code code' code'' : Array Instruction} (h : Extends code code')
    (h' : Extends code' code'') : Extends code code'' := fun i hi =>
  (h' i (Nat.lt_of_lt_of_le hi h.size_le)).trans (h i hi)

theorem extends_push (code : Array Instruction) (i : Instruction) : Extends code (code.push i) :=
  fun _ hj => Array.getElem?_push_lt hj ▸ (Array.getElem?_eq_getElem hj).symm

theorem extends_repeat {f : Array Instruction → Array Instruction}
    (h : ∀ code, Extends code (f code)) (code : Array Instruction) :
    ∀ n, Extends code (Nat.repeat f n code)
  | 0 => .refl _
  | n + 1 => (extends_repeat h code n).trans (h _)

/-- The last instruction of code that is extended. -/
theorem Extends.getElem?_size {code code' : Array Instruction} {i : Instruction}
    (h : Extends (code.push i) code') : code'[code.size]? = some i := by
  rw [h code.size (by simp), Array.getElem?_push_size]

theorem extends_emitText (next : Nat) : ∀ (code : Array Instruction) (w : Text),
    Extends code (emitText code next w)
  | _, [] | _, [_] => extends_push _ _
  | _, _ :: d :: w => (extends_push _ _).trans (extends_emitText next _ (d :: w))

/-- The code with a round of a repeat that has to come. -/
abbrev emitRound (a : Expr) (code : Array Instruction) : Array Instruction :=
  emit code (code.size + a.length) a

/-- The code with a round of a repeat that may come, or be left for `next`. -/
abbrev emitChance (g : Greed) (next : Nat) (a : Expr) (code : Array Instruction) :
    Array Instruction :=
  emit (code.push (.choose g (code.size + 1) next)) (code.size + 1 + a.length) a

theorem size_repeat_round (a : Expr) (code : Array Instruction) (n : Nat) :
    (Nat.repeat (emitRound a) n code).size = code.size + n * a.length :=
  size_repeat (fun code => size_emit a code _) code n

theorem size_repeat_chance (g : Greed) (next : Nat) (a : Expr) (code : Array Instruction)
    (n : Nat) :
    (Nat.repeat (emitChance g next a) n code).size = code.size + n * (a.length + 1) := by
  refine size_repeat (fun code => ?_) code n
  rw [size_emit, Array.size_push]
  omega

theorem extends_emit (e : Expr) (code : Array Instruction) (next : Nat) :
    Extends code (emit code next e) := by
  induction e generalizing code next with
  | empty | set | look => exact extends_push _ _
  | text w => exact extends_emitText next code w
  | group a ih => exact ih code next
  | seq a b iha ihb => exact (iha _ _).trans (ihb _ _)
  | alt a b iha ihb => exact ((extends_push _ _).trans (iha _ _)).trans (ihb _ _)
  | rep g min max a ih =>
      have hround : ∀ code, Extends code (emitRound a code) := fun code => ih _ _
      have hchance : ∀ code, Extends code (emitChance g next a code) :=
        fun code => (extends_push _ _).trans (ih _ _)
      cases max with
      | none =>
          cases min with
          | zero =>
              simp only [emit]
              split
              · exact (extends_push _ _).trans (ih _ _)
              · exact (hchance code).trans (extends_push _ _)
          | succ n => exact (extends_repeat hround code _).trans (extends_push _ _)
      | some m =>
          simp only [emit]
          split
          · exact (((extends_repeat hround code _).trans (extends_repeat hchance _ _)).trans
              (extends_push _ _)).trans (ih _ _)
          · split
            · exact extends_push _ _
            · exact (extends_repeat hround code _).trans (ih _ _)

/-! ## Instructions and goals -/

section

variable {code : Array Instruction} {prev : Option Char} {t : Text} {i next : Nat} {k : Goal}

theorem leads_take {s : CharSet} {test : Char → Bool} (hs : ∀ c, s.contains c = test c)
    (hi : code[i]? = some (.take s next))
    (hk : ∀ p u, u.length + 1 ≤ t.length → Leads code p u next (k p u)) :
    Leads code prev t i (Goal.take test k prev t) := by
  cases t with
  | nil => exact .refuse hi rfl
  | cons c t =>
      simp only [Goal.take]
      split
      · rename_i hc
        exact .take hi ((hs c).trans hc) (hk _ _ (by simp))
      · rename_i hc
        exact .refuse hi (by simpa [hs] using hc)

theorem leads_choose {g : Greed} {round : Nat} {k' : Goal}
    (hi : code[i]? = some (.choose g round next)) (hr : Leads code prev t round (k' prev t))
    (hn : Leads code prev t next (k prev t)) :
    Leads code prev t i (Goal.choose g k' k prev t) := by
  cases g with
  | greedy => exact .split hi hr hn
  | lazy => exact .split hi hn hr

/-- A loop whose rounds consume reaches the goal behind it, after as many
rounds as it prefers. -/
theorem leads_star {g : Greed} {round : Nat} {f : Goal → Goal} (hf : Goal.Local true f)
    (hi : code[i]? = some (.choose g round next))
    (hround : ∀ {k' : Goal} {p u},
      (∀ p' u', u'.length + 1 ≤ u.length → Leads code p' u' i (k' p' u')) →
        Leads code p u round (f k' p u))
    (hk : ∀ p u, u.length ≤ t.length → Leads code p u next (k p u)) :
    Leads code prev t i (Goal.star g f k prev t) := by
  induction hn : t.length using Nat.strongRecOn generalizing prev t with
  | ind n ih =>
      rw [Goal.star_eq hf]
      refine leads_choose hi (hround fun p u hu => ?_) (hk _ _ (Nat.le_refl _))
      exact ih u.length (by omega) (fun p' u' hu' => hk p' u' (by omega)) rfl

theorem leads_emitText : ∀ (w : Text) {code code' : Array Instruction} {k : Goal}
    {prev : Option Char} {t : Text}, Extends (emitText code next w) code' →
      (∀ p u, u.length + w.length ≤ t.length → Leads code' p u next (k p u)) →
      Leads code' prev t code.size (Goal.text w k prev t)
  | [], _, _, _, _, _, hx, hk => .jump hx.getElem?_size (hk _ _ (by simp))
  | [c], _, _, _, _, _, hx, hk =>
      leads_take (CharSet.contains_single c) hx.getElem?_size
        fun p u hu => hk p u (by simpa using hu)
  | c :: d :: w, code, code', k, prev, t, hx, hk => by
      have hi := ((extends_emitText next _ (d :: w)).trans hx).getElem?_size
      refine leads_take (CharSet.contains_single c) hi ?_
      intro p u hu
      rw [← Array.size_push (.take (.single c) (code.size + 1))]
      exact leads_emitText (d :: w) hx
        fun p' u' hu' => hk p' u' (by simp only [List.length_cons] at hu' ⊢; omega)

end

/-! ## Expressions -/

theorem toNat_or_le (a b : Bool) : (a || b).toNat ≤ a.toNat + b.toNat := by
  cases a <;> cases b <;> decide

theorem toNat_and_le (a b : Bool) : (a && b).toNat ≤ a.toNat ∧ (a && b).toNat ≤ b.toNat := by
  cases a <;> cases b <;> decide

section

variable {code' : Array Instruction} {a : Expr}

/-- The instructions of an expression reach its goal: wherever in the code
they stand, if what they go on to reaches a goal, they reach the goal to match
the expression and then that one. -/
structure Reaches (code' : Array Instruction) (a : Expr) : Prop where
  leads : ∀ {code : Array Instruction} {next : Nat} {k : Goal} {prev : Option Char} {t : Text},
    Extends (emit code next a) code' →
      (∀ p u, u.length + a.consumes.toNat ≤ t.length → Leads code' p u next (k p u)) →
      Leads code' prev t code.size (a.before k prev t)

/-- Rounds that have to come, one behind the other. -/
theorem leads_repeat_round (ha : Reaches code' a) (n : Nat) {code : Array Instruction} {k : Goal}
    {prev : Option Char} {t : Text} (hx : Extends (Nat.repeat (emitRound a) n code) code')
    (hk : ∀ p u, u.length + (n != 0 && a.consumes).toNat ≤ t.length →
      Leads code' p u (code.size + n * a.length) (k p u)) :
    Leads code' prev t code.size (a.before^[n] k prev t) := by
  induction n generalizing k with
  | zero => simpa using hk prev t (by simp)
  | succ n ih =>
      rw [Function.iterate_succ_apply]
      have hsize := size_repeat_round a code n
      rw [Nat.repeat] at hx
      refine ih ((extends_emit a _ _).trans hx) ?_
      intro p u hu
      rw [← hsize]
      refine ha.leads hx ?_
      intro p' u' hu'
      rw [hsize, Nat.add_assoc, ← Nat.succ_mul]
      refine hk p' u' ?_
      rw [show (n + 1 != 0) = true from rfl, Bool.true_and]
      omega

/-- Rounds that may come, one behind the other, all of which can be left for
`next`. -/
theorem leads_repeat_chance (ha : Reaches code' a) {g : Greed} {next : Nat} (n m : Nat)
    {code : Array Instruction} {k : Goal} {prev : Option Char} {t : Text}
    (hx : Extends (Nat.repeat (emitChance g next a) n code) code')
    (hk : ∀ p u, u.length ≤ t.length → Leads code' p u next (k p u))
    (hm : ∀ p u, u.length ≤ t.length → Leads code' p u (code.size + n * (a.length + 1))
      (Goal.rounds g a.before k m p u)) :
    Leads code' prev t code.size (Goal.rounds g a.before k (m + n) prev t) := by
  induction n generalizing m prev t with
  | zero => simpa using hm prev t (Nat.le_refl _)
  | succ n ih =>
      have hsize := size_repeat_chance g next a code n
      rw [Nat.repeat] at hx
      have hpush := (extends_emit a _ _).trans hx
      rw [show m + (n + 1) = m + 1 + n by omega]
      refine ih (m + 1) ((extends_push _ _).trans hpush) hk ?_
      intro p u hu
      rw [← hsize]
      refine leads_choose hpush.getElem?_size ?_ (hk p u hu)
      rw [← Array.size_push]
      refine ha.leads hx ?_
      intro p' u' hu'
      have hnext : (Nat.repeat (emitChance g next a) n code).size + 1 + a.length =
          code.size + (n + 1) * (a.length + 1) := by
        rw [hsize, Nat.succ_mul]
        omega
      rw [hnext]
      exact hm p' u' (by omega)

/-- A repeat without an upper bound: the rounds that have to come, of which
the last is the body of the loop. -/
theorem reaches_atLeast (ha : Reaches code' a) (hc : a.consumes = true) {g : Greed} {min : Nat} :
    Reaches code' (.rep g min none a) := by
  have hlocal : Goal.Local true a.before := hc ▸ a.local_before
  refine ⟨fun {code next k prev t} hx hk => ?_⟩
  cases min with
  | zero =>
      simp only [emit, hc, if_true] at hx
      have hpush := (extends_emit a _ _).trans hx
      refine leads_star hlocal hpush.getElem?_size (fun hk' => ?_)
        fun p u hu => hk p u (by simpa [Expr.consumes] using hu)
      rw [← Array.size_push]
      exact ha.leads hx (hc ▸ hk')
  | succ n =>
      simp only [emit, Nat.add_sub_cancel] at hx
      have hrounds := (extends_push _ _).trans hx
      have hlast := (extends_emit a _ _).trans hrounds
      have hi := hx.getElem?_size
      rw [size_repeat_round] at hi
      refine leads_repeat_round ha (n + 1) hrounds ?_
      intro p u hu
      refine leads_star hlocal hi (fun hk' => ?_) fun p' u' hu' => hk p' u' ?_
      · rw [← size_repeat_round]
        refine ha.leads hrounds ?_
        intro p' u' hu'
        rw [size_repeat_round, Nat.add_assoc, ← Nat.succ_mul]
        rw [hc, Bool.toNat_true] at hu'
        exact hk' p' u' hu'
      · simp only [Expr.consumes]
        omega

/-- A repeat with an upper bound: the rounds that have to come, and then those
that may. -/
theorem reaches_between (ha : Reaches code' a) {g : Greed} {min max : Nat} :
    Reaches code' (.rep g min (some max) a) := by
  refine ⟨fun {code next k prev t} hx hk => ?_⟩
  simp only [emit] at hx
  split at hx
  · rename_i hlt
    obtain ⟨m, rfl⟩ : ∃ m, max = min + m + 1 := ⟨max - min - 1, by omega⟩
    rw [show min + m + 1 - min - 1 = m by omega] at hx
    have hpush := (extends_emit a _ _).trans hx
    have hchances := (extends_push _ _).trans hpush
    have hrounds := (extends_repeat (fun code =>
      (extends_push code _).trans (extends_emit a _ _)) _ m).trans hchances
    rw [Expr.before, show min + m + 1 - min = 1 + m by omega]
    refine leads_repeat_round ha min hrounds ?_
    intro p u hu
    have hk' : ∀ p' u', u'.length ≤ u.length → Leads code' p' u' next (k p' u') :=
      fun p' u' hu' => hk p' u' (by simp only [Expr.consumes]; omega)
    rw [← size_repeat_round]
    refine leads_repeat_chance ha m 1 hchances hk' ?_
    intro p' u' hu'
    rw [← size_repeat_chance g next]
    have hi := hpush.getElem?_size
    refine leads_choose hi ?_ (hk' p' u' hu')
    rw [← size_repeat_round, ← size_repeat_chance g next, ← Array.size_push]
    exact ha.leads hx fun p'' u'' hu'' => hk' p'' u'' (by omega)
  · rename_i hge
    rw [Expr.before, show max - min = 0 by omega]
    split at hx
    · rename_i hmin
      subst hmin
      exact .jump hx.getElem?_size (hk prev t (by simp [Expr.consumes]))
    · rename_i hmin
      obtain ⟨n, rfl⟩ : ∃ n, min = n + 1 := ⟨min - 1, by omega⟩
      rw [Nat.add_sub_cancel] at hx
      rw [Function.iterate_succ_apply]
      refine leads_repeat_round ha n ((extends_emit a _ _).trans hx) ?_
      intro p u hu
      rw [← size_repeat_round]
      refine ha.leads hx fun p' u' hu' => hk p' u' ?_
      rw [Expr.consumes, show (n + 1 != 0) = true from rfl, Bool.true_and]
      cases n <;> simp_all <;> omega

/-- The instructions of an expression reach its goal, if every repeat without
an upper bound has rounds that consume. -/
theorem reaches_of_isProductive (e : Expr) (he : e.isProductive = true) : Reaches code' e := by
  induction e with
  | empty =>
      refine ⟨fun {code next k prev t} hx hk => ?_⟩
      exact .jump hx.getElem?_size (hk _ _ (by simp [Expr.consumes]))
  | text w =>
      refine ⟨fun {code next k prev t} hx hk => ?_⟩
      refine leads_emitText w hx fun p u hu => hk p u ?_
      cases w <;> simp_all [Expr.consumes]
      omega
  | set s =>
      refine ⟨fun {code next k prev t} hx hk => ?_⟩
      exact leads_take (fun _ => rfl) hx.getElem?_size hk
  | look a =>
      refine ⟨fun {code next k prev t} hx hk => ?_⟩
      simp only [Expr.before]
      split
      · rename_i ha
        exact .pass hx.getElem?_size ha (hk _ _ (by simp [Expr.consumes]))
      · rename_i ha
        exact .halt hx.getElem?_size (by simpa using ha)
  | group a ih => exact ⟨fun hx hk => (ih he).leads hx hk⟩
  | seq a b iha ihb =>
      refine ⟨fun {code next k prev t} hx hk => ?_⟩
      simp only [Expr.isProductive, Bool.and_eq_true] at he
      refine (iha he.1).leads ((extends_emit b _ _).trans hx) ?_
      intro p u hu
      rw [← size_emit a code (code.size + a.length)]
      refine (ihb he.2).leads hx fun p' u' hu' => hk p' u' ?_
      have hab := toNat_or_le a.consumes b.consumes
      simp only [Expr.consumes]
      omega
  | alt a b iha ihb =>
      refine ⟨fun {code next k prev t} hx hk => ?_⟩
      simp only [Expr.isProductive, Bool.and_eq_true] at he
      have hxa := (extends_emit b _ _).trans hx
      have hxs := (extends_emit a _ _).trans hxa
      have hab := toNat_and_le a.consumes b.consumes
      refine leads_choose hxs.getElem?_size ?_ ?_
      · rw [← Array.size_push]
        refine (iha he.1).leads hxa fun p u hu => hk p u ?_
        simp only [Expr.consumes]
        omega
      · have hsize :=
          size_emit a (code.push (.split (code.size + 1) (code.size + 1 + a.length))) next
        rw [Array.size_push] at hsize
        rw [← hsize]
        refine (ihb he.2).leads hx fun p u hu => hk p u ?_
        simp only [Expr.consumes]
        omega
  | rep g min max a ih =>
      simp only [Expr.isProductive, Bool.and_eq_true, Bool.or_eq_true] at he
      have ha : Reaches code' a := ih he.1
      cases max with
      | none => exact reaches_atLeast ha (by simpa using he.2)
      | some m => exact reaches_between ha

end
end Program

/-! ## Patterns -/

/-- A pattern that is tied to the start of the text finds the match that its
expression prefers. -/
theorem find?_eq_before (p : Pattern) (hp : p.expr.isProductive = true)
    (ht : p.expr.isTiedToStart = true) (t : Text) :
    p.find? t = p.expr.before .accept none t := by
  have hreaches : Program.Reaches p.expr.program.code p.expr :=
    Program.reaches_of_isProductive p.expr hp
  rw [find?, p.program_eq]
  refine Program.find?_eq_of_leads ht (hreaches.leads (Program.extends_push _ _) fun q u _ => ?_)
  have hlast : p.expr.program.code[(Program.emit #[] p.expr.length p.expr).size]? = some .accept :=
    Array.getElem?_push_size
  rw [Program.size_emit, Array.size_empty, Nat.zero_add] at hlast
  exact .accept hlast

end Pattern
end Decaf
