/-
Programs side by side.

The search passes each address once a place, and keeps its threads in the order
of its preference.  So what it finds from an address depends on the code that can
be reached from there, and not on where that code stands.  Two programs may stand
side by side in a third one, and have no instruction in common but those that
accept: the third program finds from both what the first of them finds, or else
what the second finds (`scan_beside`).

Nothing is asked of loops here.  A repeat whose rounds may be empty passes over
what it has passed before, and what it would find by backtracking need not even
be told; but it does so in the third program as it does by itself.
-/
import Decaf.Proofs.Pattern.Relocation

namespace Decaf
namespace Pattern
namespace Program

/-! ## Following a program to the next character -/

section

variable {code code' : Array Instruction} {holds : Anchor → Bool} {i : Nat} {pending : List Nat}
  {seen : Array Bool} {waiting : List Nat}

theorem follow_of_marked (h : seen.getD i true = true) :
    follow code holds (i :: pending) seen waiting = follow code holds pending seen waiting := by
  rw [follow, dif_neg (by simp [h])]

theorem follow_of_accept (h : seen.getD i true = false) (hi : code[i]? = some .accept) :
    follow code holds (i :: pending) seen waiting = ⟨waiting.reverse, true⟩ := by
  rw [follow, dif_pos h, hi]

theorem follow_of_take {s : CharSet} {next : Nat} (h : seen.getD i true = false)
    (hi : code[i]? = some (.take s next)) :
    follow code holds (i :: pending) seen waiting =
      follow code holds pending (seen.setIfInBounds i true) (i :: waiting) := by
  rw [follow, dif_pos h, hi]

theorem follow_of_ways {x : Instruction} (h : seen.getD i true = false) (hi : code[i]? = some x)
    (hna : x ≠ .accept) (hnt : ∀ s next, x ≠ .take s next) :
    follow code holds (i :: pending) seen waiting =
      follow code holds (x.ways holds ++ pending) (seen.setIfInBounds i true) waiting := by
  rw [follow, dif_pos h, hi]
  cases x with
  | accept => exact absurd rfl hna
  | take s next => exact absurd rfl (hnt s next)
  | _ => rfl

theorem getD_setIfInBounds (seen : Array Bool) (i j : Nat) :
    (seen.setIfInBounds i true).getD j true = (decide (j = i) || seen.getD j true) := by
  rw [Array.getD_eq_getD_getElem?, Array.getD_eq_getD_getElem?, Array.getElem?_setIfInBounds]
  by_cases hij : j = i
  · subst hij
    simp only [if_true, decide_true, Bool.true_or]
    split <;> rfl
  · rw [if_neg (Ne.symm hij), decide_eq_false hij, Bool.false_or]

theorem getD_setIfInBounds_self (seen : Array Bool) (i : Nat) :
    (seen.setIfInBounds i true).getD i true = true := by
  rw [getD_setIfInBounds, decide_eq_true rfl, Bool.true_or]

theorem getD_setIfInBounds_of_ne (seen : Array Bool) {i j : Nat} (h : j ≠ i) :
    (seen.setIfInBounds i true).getD j true = seen.getD j true := by
  rw [getD_setIfInBounds, decide_eq_false h, Bool.false_or]

/-- What waits takes a character, if that was so before. -/
theorem exists_take_of_mem_waiting {j : Nat}
    (h : j ∈ (follow code holds pending seen waiting).waiting) :
    j ∈ waiting ∨ ∃ s next, code[j]? = some (.take s next) := by
  fun_induction follow code holds pending seen waiting with
  | case1 seen waiting => exact .inl (List.mem_reverse.mp h)
  | case2 seen waiting i pending hseen hi ih | case6 seen waiting i pending hseen ih => exact ih h
  | case3 seen waiting i pending hseen hi => exact .inl (List.mem_reverse.mp h)
  | case4 seen waiting i pending hseen s next hi ih =>
      rcases ih h with hj | hj
      · rcases List.mem_cons.mp hj with rfl | hj
        · exact .inr ⟨s, next, hi⟩
        · exact .inl hj
      · exact .inr hj
  | case5 seen waiting i pending hseen instruction hna hnt hi ih => exact ih h

end

section

variable {ρ : Nat → Nat} {code code' : Array Instruction}

/-- The addresses of a program are marked where it stands by itself and where it stands
within other code alike. -/
def MarkedAlike (ρ : Nat → Nat) (code : Array Instruction) (seen seen' : Array Bool) : Prop :=
  ∀ i < code.size, seen'.getD (ρ i) true = seen.getD i true

/-- An address has no instruction of a program, but perhaps one that accepts. -/
def Outside (ρ : Nat → Nat) (code : Array Instruction) (j : Nat) : Prop :=
  ∀ i < code.size, code[i]? ≠ some .accept → ρ i ≠ j

theorem Embeds.mark (he : Embeds ρ code code') {seen seen' : Array Bool} {i : Nat}
    (hi : i < code.size) (h : MarkedAlike ρ code seen seen') :
    MarkedAlike ρ code (seen.setIfInBounds i true) (seen'.setIfInBounds (ρ i) true) := by
  intro k hk
  rw [getD_setIfInBounds, getD_setIfInBounds, h k hk]
  congr 1
  exact decide_eq_decide.mpr ⟨he.injective hk hi, fun h => h ▸ rfl⟩

theorem Outside.getD_setIfInBounds {i j : Nat} (h : Outside ρ code j) (hi : i < code.size)
    (hna : code[i]? ≠ some .accept) (seen : Array Bool) :
    (seen.setIfInBounds (ρ i) true).getD j true = seen.getD j true :=
  getD_setIfInBounds_of_ne seen (Ne.symm (h i hi hna))

/-- A program that stands in another is followed there as by itself.  If it does
not accept, what else was pending is followed then; of the addresses outside of
the program none has been marked, nor has the one that accepts. -/
theorem Embeds.follow (he : Embeds ρ code code') (holds : Anchor → Bool) (pending : List Nat)
    (seen : Array Bool) (waiting : List Nat) (hp : ∀ i ∈ pending, i < code.size)
    (rest earlier : List Nat) (seen' : Array Bool) (hseen : MarkedAlike ρ code seen seen') :
    ∃ seen'' : Array Bool,
      (∀ j, Outside ρ code j → seen''.getD j true = seen'.getD j true) ∧
      Program.follow code' holds (pending.map ρ ++ rest) seen' (waiting.map ρ ++ earlier) =
        let front := Program.follow code holds pending seen waiting
        if front.accepts then ⟨earlier.reverse ++ front.waiting.map ρ, true⟩
        else Program.follow code' holds rest seen'' ((front.waiting.map ρ).reverse ++ earlier) := by
  fun_induction Program.follow code holds pending seen waiting generalizing seen' with
  | case1 seen waiting =>
      refine ⟨seen', fun _ _ => rfl, ?_⟩
      simp [List.map_reverse]
  | case2 seen waiting i pending hnew hi ih =>
      have hlt := hp i List.mem_cons_self
      simp [Array.getElem?_eq_getElem hlt] at hi
  | case3 seen waiting i pending hnew hi =>
      refine ⟨seen', fun _ _ => rfl, ?_⟩
      rw [List.map_cons, List.cons_append, follow_of_accept
        ((hseen i (hp i List.mem_cons_self)).trans hnew) (he.instruction hi)]
      simp [List.map_reverse]
  | case4 seen waiting i pending hnew s next hi ih =>
      have hlt := hp i List.mem_cons_self
      obtain ⟨seen'', hsame, hfollow⟩ := ih (fun j hj => hp j (List.mem_cons_of_mem _ hj)) _
        (he.mark hlt hseen)
      have hna : code[i]? ≠ some .accept := by simp [hi]
      refine ⟨seen'', fun j hj => (hsame j hj).trans (hj.getD_setIfInBounds hlt hna seen'), ?_⟩
      rw [List.map_cons, List.cons_append, follow_of_take ((hseen i hlt).trans hnew)
        (he.instruction hi)]
      exact hfollow
  | case5 seen waiting i pending hnew x hna hnt hi ih =>
      have hlt := hp i List.mem_cons_self
      have hpending : ∀ j ∈ x.ways holds ++ pending, j < code.size := by
        intro j hj
        rcases List.mem_append.mp hj with hj | hj
        · exact he.closed hi j (Instruction.mem_targets_of_mem_ways hj)
        · exact hp j (List.mem_cons_of_mem _ hj)
      obtain ⟨seen'', hsame, hfollow⟩ := ih hpending _ (he.mark hlt hseen)
      have hne : code[i]? ≠ some .accept := by
        rw [hi]
        exact fun h => hna (Option.some.inj h)
      refine ⟨seen'', fun j hj => (hsame j hj).trans (hj.getD_setIfInBounds hlt hne seen'), ?_⟩
      rw [List.map_cons, List.cons_append, follow_of_ways ((hseen i hlt).trans hnew)
        (he.instruction hi) (Instruction.relocate_ne_accept hna) (Instruction.relocate_ne_take hnt),
        Instruction.ways_relocate, ← List.append_assoc, ← List.map_append]
      exact hfollow
  | case6 seen waiting i pending hold ih =>
      have hlt := hp i List.mem_cons_self
      obtain ⟨seen'', hsame, hfollow⟩ := ih (fun j hj => hp j (List.mem_cons_of_mem _ hj)) _ hseen
      refine ⟨seen'', hsame, ?_⟩
      have hold' : seen'.getD (ρ i) true = true := (hseen i hlt).trans (by simpa using hold)
      rw [List.map_cons, List.cons_append, follow_of_marked hold']
      exact hfollow

end

/-! ## One pass over the text -/

section

variable {p : Program} {prev : Option Char} {arrived : List Nat} {t : Text}

theorem scan_none (passed : Nat) (best : Option Nat) :
    p.scan prev [] passed best t = best := by
  have hfront : ∀ next, p.front prev next [] = ⟨[], false⟩ := by
    intro next
    rw [front, follow]
    rfl
  cases t with
  | nil => rw [scan, hfront]; rfl
  | cons c t => rw [scan, hfront]; rfl

theorem scan_cons (passed : Nat) (best : Option Nat) (c : Char) :
    p.scan prev arrived passed best (c :: t) =
      p.scan (some c) (p.take c (p.front prev (some c) arrived).waiting) (passed + 1)
        (if (p.front prev (some c) arrived).accepts then some passed else best) t := by
  rw [scan]
  split
  · rename_i h
    rw [List.isEmpty_iff.mp h, scan_none]
  · rfl

/-- The match that counts if the program does not accept any more, and the number
of characters that are behind it, are kept along a pass. -/
theorem scan_eq_or (passed : Nat) (best : Option Nat) :
    p.scan prev arrived passed best t =
      ((p.scan prev arrived 0 none t).map (passed + ·)).or best := by
  induction t generalizing prev arrived passed best with
  | nil =>
      rw [scan, scan]
      split <;> simp
  | cons c t ih =>
      rw [scan_cons, scan_cons, ih, ih 1]
      split <;>
        cases p.scan (some c) (p.take c (p.front prev (some c) arrived).waiting) 0 none t <;>
          simp <;> omega

/-- A pass depends on the addresses only by what waits at the first place. -/
theorem scan_congr {arrived' : List Nat}
    (h : p.front prev t.head? arrived = p.front prev t.head? arrived') (passed : Nat)
    (best : Option Nat) :
    p.scan prev arrived passed best t = p.scan prev arrived' passed best t := by
  cases t with
  | nil => rw [scan, scan, show p.front prev none arrived = p.front prev none arrived' from h]
  | cons c t =>
      rw [scan_cons, scan_cons,
        show p.front prev (some c) arrived = p.front prev (some c) arrived' from h]

end

/-! ## Two programs within a third -/

section

variable {ρ σ : Nat → Nat} {a b p : Program} {prev next : Option Char} {la lb : List Nat} {c : Char}

/-- The addresses to which a program comes that stands in another one. -/
theorem Embeds.take (he : Embeds ρ a.code p.code) (c : Char) (waiting : List Nat)
    (hw : ∀ i ∈ waiting, i < a.code.size) :
    p.take c (waiting.map ρ) = (a.take c waiting).map ρ ∧
      ∀ j ∈ a.take c waiting, j < a.code.size := by
  induction waiting with
  | nil => exact ⟨rfl, fun j hj => absurd hj List.not_mem_nil⟩
  | cons i waiting ih =>
      obtain ⟨ih₁, ih₂⟩ := ih fun j hj => hw j (List.mem_cons_of_mem _ hj)
      have hlt := hw i List.mem_cons_self
      have hi : a.code[i]? = some a.code[i] := Array.getElem?_eq_getElem hlt
      simp only [Program.take] at ih₁ ih₂
      simp only [Program.take, List.map_cons, List.filterMap_cons, he.instruction hi, hi, ih₁,
        Option.bind_some, Instruction.target?_relocate]
      cases htarget : a.code[i].target? c with
      | none => exact ⟨rfl, ih₂⟩
      | some j =>
          refine ⟨rfl, fun k hk => ?_⟩
          rcases List.mem_cons.mp hk with rfl | hk
          · exact he.closed hi _ (Instruction.mem_targets_of_target? htarget)
          · exact ih₂ k hk

theorem take_append (v w : List Nat) : p.take c (v ++ w) = p.take c v ++ p.take c w :=
  List.filterMap_append

theorem embeds_nil (code' : Array Instruction) : Embeds id #[] code' :=
  ⟨nofun, nofun, fun hi => nomatch hi⟩

/-- The front of two programs of which the first is preferred. -/
def Front.beside (ρ σ : Nat → Nat) (f g : Front) : Front :=
  if f.accepts then ⟨f.waiting.map ρ, true⟩
  else ⟨f.waiting.map ρ ++ g.waiting.map σ, g.accepts⟩

/-- Two programs stand in a third, and have no instruction in common but those that
accept. -/
structure Beside (ρ σ : Nat → Nat) (a b p : Program) : Prop where
  left : Embeds ρ a.code p.code
  right : Embeds σ b.code p.code
  disjoint : ∀ i < a.code.size, a.code[i]? ≠ some .accept → ∀ j < b.code.size, ρ i ≠ σ j

theorem lt_of_mem_waiting_front {i : Nat} (h : i ∈ (a.front prev next la).waiting) :
    i < a.code.size := by
  rcases exists_take_of_mem_waiting h with hi | ⟨s, _, hi⟩
  · exact absurd hi List.not_mem_nil
  · exact (Array.getElem?_eq_some_iff.mp hi).1

theorem getD_replicate {n i : Nat} (h : i < n) :
    (Array.replicate n false).getD i true = false := by
  simp [h]

/-- Both programs are followed in the third at once, from where nothing of either is
marked. -/
theorem Beside.follow (hs : Beside ρ σ a b p) (hla : ∀ i ∈ la, i < a.code.size)
    (hlb : ∀ j ∈ lb, j < b.code.size) {seen : Array Bool}
    (ha : ∀ i < a.code.size, seen.getD (ρ i) true = false)
    (hb : ∀ j < b.code.size, seen.getD (σ j) true = false) :
    Program.follow p.code (Anchor.holds prev next) (la.map ρ ++ lb.map σ) seen [] =
      .beside ρ σ (a.front prev next la) (b.front prev next lb) := by
  obtain ⟨seen', hseen', hleft⟩ := hs.left.follow (Anchor.holds prev next) la
    (Array.replicate a.code.size false) [] hla (lb.map σ) [] seen
    fun i hi => (ha i hi).trans (getD_replicate hi).symm
  obtain ⟨seen'', -, hright⟩ := hs.right.follow (Anchor.holds prev next) lb
    (Array.replicate b.code.size false) [] hlb [] ((a.front prev next la).waiting.map ρ).reverse
    seen' fun j hj => by
      rw [hseen' _ fun i hi hna => hs.disjoint i hi hna j hj, hb j hj, getD_replicate hj]
  simp only [List.map_nil, List.nil_append, List.append_nil, List.reverse_nil,
    List.reverse_reverse] at hleft hright
  rw [hleft, Front.beside]
  show (if (a.front prev next la).accepts = true then _ else _) = _
  split
  · rfl
  · refine hright.trans ?_
    show (if (b.front prev next lb).accepts = true then _ else _) = _
    split
    · rename_i hacc
      rw [hacc]
      rfl
    · rename_i hacc
      rw [Program.follow, List.reverse_append, List.reverse_reverse, List.reverse_reverse,
        Bool.eq_false_iff.mpr hacc]
      rfl

theorem Embeds.lt_size (he : Embeds ρ a.code p.code) {i : Nat} (hi : i < a.code.size) :
    ρ i < p.code.size :=
  (Array.getElem?_eq_some_iff.mp (he.instruction (Array.getElem?_eq_getElem hi))).1

theorem Beside.front (hs : Beside ρ σ a b p) (hla : ∀ i ∈ la, i < a.code.size)
    (hlb : ∀ j ∈ lb, j < b.code.size) :
    p.front prev next (la.map ρ ++ lb.map σ) =
      .beside ρ σ (a.front prev next la) (b.front prev next lb) :=
  hs.follow hla hlb (fun _ hi => getD_replicate (hs.left.lt_size hi))
    fun _ hj => getD_replicate (hs.right.lt_size hj)

/-- Two programs side by side find what the first finds, or else what the second
finds. -/
theorem Beside.scan (hs : Beside ρ σ a b p) {t : Text} (hla : ∀ i ∈ la, i < a.code.size)
    (hlb : ∀ j ∈ lb, j < b.code.size) (passed : Nat) (best : Option Nat) :
    p.scan prev (la.map ρ ++ lb.map σ) passed best t =
      (a.scan prev la passed none t).or (b.scan prev lb passed best t) := by
  induction t generalizing prev la lb passed best with
  | nil =>
      rw [Program.scan, Program.scan, Program.scan, hs.front hla hlb, Front.beside]
      cases (a.front prev none la).accepts <;> rfl
  | cons c t ih =>
      obtain ⟨hta, hla'⟩ := hs.left.take c (a.front prev (some c) la).waiting
        fun i => lt_of_mem_waiting_front
      obtain ⟨htb, hlb'⟩ := hs.right.take c (b.front prev (some c) lb).waiting
        fun j => lt_of_mem_waiting_front
      rw [scan_cons, scan_cons, scan_cons, hs.front hla hlb, Front.beside]
      by_cases hacc : (a.front prev (some c) la).accepts = true
      · -- The second program is given up.
        have hgiven := @ih (some c) _ [] hla' (List.forall_mem_nil _) (passed + 1) (some passed)
        rw [List.map_nil, List.append_nil, scan_none] at hgiven
        rw [if_pos hacc, if_pos hacc, if_pos rfl, hta, hgiven,
          a.scan_eq_or (passed + 1) (some passed), a.scan_eq_or (passed + 1) none, Option.or_none,
          Option.or_assoc, Option.some_or]
      · rw [if_neg hacc, if_neg hacc, take_append, hta, htb]
        exact ih hla' hlb' (passed + 1) _

/-- A program finds in another one what it finds by itself. -/
theorem Embeds.scan (he : Embeds ρ a.code p.code) {t : Text} (hla : ∀ i ∈ la, i < a.code.size)
    (passed : Nat) (best : Option Nat) :
    p.scan prev (la.map ρ) passed best t = a.scan prev la passed best t := by
  -- It stands there beside a program without instructions.
  have hs : Beside ρ id a ⟨#[], false⟩ p := ⟨he, embeds_nil _, fun _ _ _ _ hj => nomatch hj⟩
  have hscan : p.scan prev (la.map ρ ++ [].map id) passed best t = _ := hs.scan hla
    (fun j hj => absurd hj List.not_mem_nil) passed best
  rw [List.map_nil, List.append_nil, scan_none] at hscan
  rw [hscan, a.scan_eq_or passed best, a.scan_eq_or passed none, Option.or_none]

/-- An instruction that goes on at the beginnings of two programs, the first
preferred. -/
theorem Beside.scan_split (hs : Beside ρ σ a b p) {t : Text} {i : Nat}
    (hi : p.code[i]? = some (.split (ρ 0) (σ 0))) (ha : 0 < a.code.size) (hb : 0 < b.code.size)
    (hia : ∀ k < a.code.size, ρ k ≠ i) (hib : ∀ k < b.code.size, σ k ≠ i) :
    p.scan prev [i] 0 none t = (a.scan prev [0] 0 none t).or (b.scan prev [0] 0 none t) := by
  have hla : ∀ k ∈ [0], k < a.code.size := fun k hk => List.mem_singleton.mp hk ▸ ha
  have hlb : ∀ k ∈ [0], k < b.code.size := fun k hk => List.mem_singleton.mp hk ▸ hb
  -- No way leads back to the instruction.
  have hunmarked : ∀ {m : Nat}, m < p.code.size → m ≠ i →
      ((Array.replicate p.code.size false).setIfInBounds i true).getD m true = false := by
    intro m hm hne
    rw [getD_setIfInBounds_of_ne _ hne, getD_replicate hm]
  have hfront : p.front prev t.head? [i] = p.front prev t.head? ([0].map ρ ++ [0].map σ) := by
    rw [hs.front hla hlb, ← hs.follow hla hlb
      (fun k hk => hunmarked (hs.left.lt_size hk) (hia k hk))
      (fun k hk => hunmarked (hs.right.lt_size hk) (hib k hk)), Program.front,
      follow_of_ways (getD_replicate (Array.getElem?_eq_some_iff.mp hi).1) hi nofun nofun]
    rfl
  rw [scan_congr hfront, hs.scan hla hlb]

end

end Program
end Pattern
end Decaf
