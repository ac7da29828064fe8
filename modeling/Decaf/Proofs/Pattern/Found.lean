/-
What an expression finds by itself.

`Expr.before` tells what an expression finds by backtracking, and it is right of
those whose loops consume in every round.  Where a round may be empty the search
gives up some ways that backtracking would try, so what is said here of all
expressions is said of their programs.  A choice finds what its first alternative
finds, or else what the second finds (`found_alt`).  A sequence finds what its
second part finds behind the first, if that is rigid: if it can take a text in one
way at most, so that there is nothing to give up (`found_seq`).
-/
import Decaf.Proofs.Pattern.Beside
import Decaf.Proofs.Pattern.Joining

namespace Decaf
namespace Pattern
namespace Program

/-! ## Addresses with one way on -/

section

variable {code : Array Instruction} {holds : Anchor → Bool} {i j : Nat} {x : Instruction}

/-- Where the only way on from an address is passed, nothing depends on whether the
address is passed as well. -/
theorem follow_setIfInBounds (hi : code[i]? = some x) (hna : x ≠ .accept)
    (hnt : ∀ s next, x ≠ .take s next) (hways : x.ways holds = [j]) (pending : List Nat)
    (seen : Array Bool) (waiting : List Nat)
    (hj : seen.getD j true = true ∨ pending.head? = some j) :
    follow code holds pending (seen.setIfInBounds i true) waiting =
      follow code holds pending seen waiting := by
  have hmark : ∀ {seen : Array Bool} {k : Nat} {pending : List Nat},
      seen.getD j true = true ∨ (k :: pending).head? = some j →
        (seen.setIfInBounds k true).getD j true = true := by
    intro seen k pending h
    rw [getD_setIfInBounds]
    rcases h with h | h
    · rw [h, Bool.or_true]
    · rw [decide_eq_true (Option.some.inj h).symm, Bool.true_or]
  have hother : ∀ {k : Nat}, code[k]? ≠ some x → k ≠ i := by
    rintro k hk rfl
    exact hk hi
  fun_induction follow code holds pending seen waiting with
  | case1 seen waiting => rw [follow]
  | case2 seen waiting k pending hnew hk ih =>
      have hne : k ≠ i := hother (by simp [hk])
      rw [follow, dif_pos ((getD_setIfInBounds_of_ne seen hne).trans hnew), hk,
        Array.setIfInBounds_comm _ _ (Ne.symm hne)]
      exact ih (.inl (hmark hj))
  | case3 seen waiting k pending hnew hk =>
      have hne : k ≠ i := hother (by simp [hk, hna.symm])
      rw [follow_of_accept ((getD_setIfInBounds_of_ne seen hne).trans hnew) hk]
  | case4 seen waiting k pending hnew s next hk ih =>
      have hne : k ≠ i := hother (by simp [hk, (hnt s next).symm])
      rw [follow_of_take ((getD_setIfInBounds_of_ne seen hne).trans hnew) hk,
        Array.setIfInBounds_comm _ _ (Ne.symm hne)]
      exact ih (.inl (hmark hj))
  | case5 seen waiting k pending hnew y hyna hynt hk ih =>
      by_cases hne : k = i
      · subst hne
        obtain rfl : x = y := Option.some.inj (hi.symm.trans hk)
        rw [follow_of_marked (getD_setIfInBounds_self seen k), hways, List.cons_append,
          List.nil_append, follow_of_marked (hmark hj)]
      · rw [follow_of_ways ((getD_setIfInBounds_of_ne seen hne).trans hnew) hk hyna hynt,
          Array.setIfInBounds_comm _ _ (Ne.symm hne)]
        exact ih (.inl (hmark hj))
  | case6 seen waiting k pending hold ih =>
      have hold : seen.getD k true = true := by simpa using hold
      rw [follow_of_marked (by rw [getD_setIfInBounds, hold, Bool.or_true])]
      refine ih (.inl ?_)
      rcases hj with hj | hj
      · exact hj
      · rwa [← Option.some.inj hj]

end

/-! ## The goals of addresses -/

section

variable {p : Program} {prev : Option Char} {t : Text} {i next : Nat}

/-- The goal that a program reaches from an address. -/
def goalAt (p : Program) (i : Nat) : Goal := fun prev t => (p.scan prev [i] 0 none t).map t.take

theorem front_of_ways {c : Option Char} {x : Instruction} (hi : p.code[i]? = some x)
    (hna : x ≠ .accept) (hnt : ∀ s next, x ≠ .take s next) :
    p.front prev c [i] = follow p.code (Anchor.holds prev c) (x.ways (Anchor.holds prev c))
      ((Array.replicate p.code.size false).setIfInBounds i true) [] := by
  rw [front, follow_of_ways (getD_replicate (Array.getElem?_eq_some_iff.mp hi).1) hi hna hnt,
    List.append_nil]

/-- An instruction with one way on reaches what is reached there. -/
theorem goalAt_of_way {x : Instruction} (hi : p.code[i]? = some x) (hna : x ≠ .accept)
    (hnt : ∀ s next, x ≠ .take s next) (hways : x.ways (Anchor.holds prev t.head?) = [next]) :
    p.goalAt i prev t = p.goalAt next prev t := by
  have hfront : p.front prev t.head? [i] = p.front prev t.head? [next] := by
    rw [front_of_ways hi hna hnt, hways]
    exact follow_setIfInBounds hi hna hnt hways [next] _ [] (.inr rfl)
  rw [goalAt, goalAt, scan_congr hfront]

theorem goalAt_jump (hi : p.code[i]? = some (.jump next)) : p.goalAt i = p.goalAt next := by
  funext prev t
  exact goalAt_of_way hi nofun nofun rfl

theorem goalAt_look {a : Anchor} (hi : p.code[i]? = some (.look a next)) :
    p.goalAt i prev t = if a.holds prev t.head? then p.goalAt next prev t else none := by
  split
  · rename_i ha
    exact goalAt_of_way hi nofun nofun (if_pos ha)
  · rename_i ha
    have hfront : p.front prev t.head? [i] = p.front prev t.head? [] := by
      rw [front_of_ways hi nofun nofun, Instruction.ways, if_neg ha, front, follow, follow]
    rw [goalAt, scan_congr hfront, scan_none]
    rfl

theorem goalAt_take {s : CharSet} (hi : p.code[i]? = some (.take s next)) :
    p.goalAt i = Goal.take s.contains (p.goalAt next) := by
  have hfront : ∀ prev c, p.front prev c [i] = ⟨[i], false⟩ := by
    intro prev c
    rw [front, follow_of_take (getD_replicate (Array.getElem?_eq_some_iff.mp hi).1) hi, follow]
    rfl
  funext prev t
  cases t with
  | nil =>
      rw [goalAt, scan, hfront]
      rfl
  | cons c t =>
      have htake : p.take c [i] = if s.contains c then [next] else [] := by
        rw [Program.take, List.filterMap_cons, hi]
        simp only [Option.bind_some, Instruction.target?, List.filterMap_nil]
        split <;> simp_all
      rw [goalAt, scan_cons, hfront, htake, Goal.take]
      split
      · rw [scan_eq_or, goalAt, if_neg Bool.false_ne_true, Option.or_none, Option.map_map,
          Option.map_map]
        congr 1
        funext n
        simp [Nat.add_comm]
      · rw [scan_none]
        rfl

theorem goalAt_accept (hi : p.code[i]? = some .accept) : p.goalAt i = Goal.accept := by
  have hfront : ∀ prev c, p.front prev c [i] = ⟨[], true⟩ := by
    intro prev c
    rw [front, follow_of_accept (getD_replicate (Array.getElem?_eq_some_iff.mp hi).1) hi]
    rfl
  funext prev t
  cases t with
  | nil =>
      rw [goalAt, scan, hfront]
      rfl
  | cons c t =>
      rw [goalAt, scan_cons, hfront, Program.take, List.filterMap_nil, scan_none]
      rfl

end

end Program

/-! ## Rigid expressions -/

/-- Whether the expression takes a text in one way at most: it neither chooses nor
repeats more or less often. -/
def Expr.isRigid : Expr → Bool
  | .empty | .text _ | .set _ | .look _ => true
  | .group a => isRigid a
  | .seq a b => isRigid a && isRigid b
  | .alt _ _ => false
  | .rep _ min max a => max.any (· ≤ min) && isRigid a

namespace Program

section

variable {p : Program} {a : Expr} {code : Array Instruction} {next : Nat}

theorem goalAt_emitText (w : Text) (hx : Extends (emitText code next w) p.code) :
    p.goalAt code.size = Goal.text w (p.goalAt next) := by
  induction w generalizing code with
  | nil => exact goalAt_jump hx.getElem?_size
  | cons c w ih =>
      have htest : (CharSet.single c).contains = (c == ·) :=
        funext fun d => CharSet.contains_single c d
      cases w with
      | nil => rw [goalAt_take hx.getElem?_size, htest]; rfl
      | cons d w =>
          have hi := ((extends_emitText next _ (d :: w)).trans hx).getElem?_size
          have hrest := ih hx
          rw [Array.size_push] at hrest
          rw [goalAt_take hi, htest, hrest]
          rfl

/-- Rounds that have to come, one behind the other. -/
theorem goalAt_repeat_round
    (ha : ∀ {code : Array Instruction} {next : Nat}, Extends (emit code next a) p.code →
      p.goalAt code.size = a.before (p.goalAt next))
    (n : Nat) (hx : Extends (Nat.repeat (emitRound a) n code) p.code) :
    p.goalAt code.size = a.before^[n] (p.goalAt (code.size + n * a.length)) := by
  induction n with
  | zero => rw [Nat.zero_mul]; rfl
  | succ n ih =>
      rw [Nat.repeat] at hx
      have hlast := ha hx
      rw [size_repeat_round, Nat.add_assoc, ← Nat.succ_mul] at hlast
      rw [ih ((extends_emit a _ _).trans hx), hlast, Function.iterate_succ_apply]

/-- The instructions of a rigid expression reach its goal, whatever they go on to. -/
theorem goalAt_of_isRigid (ha : a.isRigid = true) (hx : Extends (emit code next a) p.code) :
    p.goalAt code.size = a.before (p.goalAt next) := by
  induction a generalizing code next with
  | empty => exact goalAt_jump hx.getElem?_size
  | text w => exact goalAt_emitText w hx
  | set s => exact goalAt_take hx.getElem?_size
  | look a =>
      funext prev t
      exact goalAt_look hx.getElem?_size
  | group a ih => exact ih ha hx
  | seq a b iha ihb =>
      simp only [Expr.isRigid, Bool.and_eq_true] at ha
      have hb := ihb ha.2 hx
      rw [size_emit] at hb
      rw [iha ha.1 ((extends_emit b _ _).trans hx), hb]
      rfl
  | alt a b => cases ha
  | rep g min max a ih =>
      simp only [Expr.isRigid, Bool.and_eq_true, Option.any_eq_true, decide_eq_true_eq] at ha
      obtain ⟨⟨m, rfl, hm⟩, ha⟩ := ha
      simp only [emit, if_neg (Nat.not_lt.mpr hm)] at hx
      rw [Expr.before, Nat.sub_eq_zero_of_le hm]
      cases min with
      | zero => exact goalAt_jump hx.getElem?_size
      | succ n =>
          rw [if_neg (Nat.succ_ne_zero n), Nat.add_sub_cancel] at hx
          have hlast := ih ha hx
          rw [size_repeat_round] at hlast
          rw [goalAt_repeat_round (ih ha) n ((extends_emit a _ _).trans hx), hlast,
            Function.iterate_succ_apply]
          rfl

end

end Program

/-! ## What expressions find -/

namespace Expr

variable {a b : Expr} {prev : Option Char} {t : Text}

/-- The goal that the program of an expression reaches. -/
def found (e : Expr) : Goal := e.program.goalAt 0

theorem size_program (e : Expr) : e.program.code.size = e.length + 1 := by
  rw [program, Array.size_push, Program.size_emit, Array.size_empty, Nat.zero_add]

theorem accept_program (e : Expr) : e.program.code[e.length]? = some .accept := by
  have hlast : e.program.code[(Program.emit #[] e.length e).size]? = some .accept :=
    Array.getElem?_push_size
  rwa [Program.size_emit, Array.size_empty, Nat.zero_add] at hlast

/-- Where an expression is emitted, and what it goes on to accepts and comes later,
the program reaches what the expression finds. -/
theorem goalAt_eq_found {p : Program} {e : Expr} {code : Array Instruction} {next : Nat}
    (hx : Program.Extends (Program.emit code next e) p.code) (hnext : code.size + e.length ≤ next)
    (haccept : p.code[next]? = some .accept) : p.goalAt code.size = e.found := by
  have hembeds := Program.embeds_program hx hnext haccept
  have hfirst : ∀ i ∈ [0], i < e.program.code.size := by
    intro i hi
    rw [List.mem_singleton.mp hi, size_program]
    exact Nat.succ_pos _
  have hscan : ∀ prev t, p.scan prev ([0].map _) 0 none t = e.program.scan prev [0] 0 none t :=
    fun prev t => hembeds.scan hfirst 0 none
  have hbegin : Program.placed code.size next e.length 0 = code.size :=
    if_pos (Program.length_pos e)
  funext prev t
  rw [Program.goalAt, found, Program.goalAt, ← hscan, List.map_singleton, hbegin]

/-- A rigid expression finds what it takes. -/
theorem found_of_isRigid (ha : a.isRigid = true) : a.found = a.before .accept := by
  rw [← Program.goalAt_accept a.accept_program]
  have hx : Program.Extends (Program.emit #[] a.length a) a.program.code :=
    Program.extends_push _ _
  exact Program.goalAt_of_isRigid ha hx

/-- The code of a sequence is that of its parts, one behind the other. -/
theorem code_seq (a b : Expr) :
    Program.Extends (Program.emit (Program.emit #[] a.length a) (seq a b).length b)
      (seq a b).program.code := by
  rw [program]
  simp only [Program.emit, Array.size_empty, Nat.zero_add]
  exact Program.extends_push _ _

/-- Behind the first part of a sequence the program reaches what the second finds. -/
theorem goalAt_seq (a b : Expr) : (seq a b).program.goalAt a.length = b.found := by
  have hsize : (Program.emit #[] a.length a).size = a.length := by
    rw [Program.size_emit, Array.size_empty, Nat.zero_add]
  have hfound := goalAt_eq_found (code_seq a b) (by rw [hsize]; exact Nat.le_refl _)
    (seq a b).accept_program
  rwa [hsize] at hfound

/-- A sequence finds what its second part finds, where a rigid part comes first. -/
theorem found_seq (ha : a.isRigid = true) (b : Expr) : (seq a b).found = a.before b.found := by
  rw [← goalAt_seq a b]
  exact Program.goalAt_of_isRigid ha ((Program.extends_emit b _ _).trans (code_seq a b))

/-- The code of a choice begins with the choice. -/
theorem code_alt (a b : Expr) :
    Program.Extends (Program.emit (Program.emit #[.split 1 (1 + a.length)] (alt a b).length a)
      (alt a b).length b) (alt a b).program.code := by
  rw [program]
  simp only [Program.emit, Array.size_empty, Nat.zero_add]
  exact Program.extends_push _ _

/-- The programs of two alternatives stand side by side in that of the choice. -/
theorem beside_alt (a b : Expr) :
    Program.Beside (Program.placed 1 (alt a b).length a.length)
      (Program.placed (1 + a.length) (alt a b).length b.length) a.program b.program
      (alt a b).program := by
  have haccept := (alt a b).accept_program
  have hsize : (Program.emit #[.split 1 (1 + a.length)] (alt a b).length a).size = 1 + a.length :=
    Program.size_emit a _ _
  have hright := Program.embeds_program (code_alt a b) (by rw [hsize, length]; omega) haccept
  rw [hsize] at hright
  refine ⟨Program.embeds_program ((Program.extends_emit b _ _).trans (code_alt a b))
    (by rw [length, List.size_toArray, List.length_singleton]; omega) haccept, hright, ?_⟩
  intro i hi hna j hj
  have hne : i ≠ a.length := fun h => hna (h ▸ a.accept_program)
  rw [size_program] at hi
  rw [Program.placed, Program.placed, if_pos (by omega), length]
  split <;> omega

/-- A choice finds what its first alternative finds, or else what the second finds. -/
theorem found_alt (a b : Expr) :
    (alt a b).found prev t = (a.found prev t).or (b.found prev t) := by
  have hsplit : (alt a b).program.code[0]? = some (.split 1 (1 + a.length)) :=
    (((Program.extends_emit a _ _).trans (Program.extends_emit b _ _)).trans (code_alt a b)) 0
      Nat.one_pos
  have hla := Program.length_pos a
  have hlb := Program.length_pos b
  have hne : ∀ {base : Nat}, 0 < base → ∀ n k, Program.placed base (alt a b).length n k ≠ 0 := by
    intro base hbase n k
    rw [Program.placed, length]
    split <;> omega
  have hscan : (alt a b).program.scan prev [0] 0 none t = _ := (beside_alt a b).scan_split
    (by rw [hsplit, Program.placed, Program.placed, if_pos hla, if_pos hlb]; rfl)
    (by rw [size_program]; omega) (by rw [size_program]; omega) (fun k _ => hne Nat.one_pos _ k)
    fun k _ => hne (by omega) _ k
  rw [found, Program.goalAt, hscan, Option.map_or]
  rfl

/-! ## Joined expressions -/

theorem found_cons (ha : a.isRigid = true) (b : Expr) : (cons a b).found = a.before b.found := by
  fun_cases cons a b with
  | case1 => rw [found_of_isRigid ha, found_of_isRigid (a := .empty) rfl]; rfl
  | case2 v w =>
      rw [found_of_isRigid rfl, found_of_isRigid rfl]
      exact Goal.text_append v w .accept
  | case3 v w b =>
      rw [found_seq rfl, found_seq rfl]
      exact Goal.text_append v w b.found
  | case4 => exact found_seq ha b

theorem found_andThen (ha : a.isRigid = true) (b : Expr) :
    (andThen a b).found = a.before b.found := by
  fun_induction andThen a b with
  | case1 => rfl
  | case2 b a a' ih =>
      simp only [isRigid, Bool.and_eq_true] at ha
      rw [found_cons ha.1, ih ha.2]
      rfl
  | case3 => exact found_cons ha _

/-- A sequence whose first members are rigid finds what the others find behind
these. -/
theorem found_inOrder_append {es : List Expr} (hes : ∀ e ∈ es, e.isRigid = true)
    (es' : List Expr) : (inOrder (es ++ es')).found = es.foldr before (inOrder es').found := by
  induction es with
  | nil => rfl
  | cons e es ih =>
      rw [List.cons_append, inOrder, List.foldr_cons, found_andThen (hes e List.mem_cons_self),
        List.foldr_cons, ← ih fun e he => hes e (List.mem_cons_of_mem _ he)]
      rfl

theorem found_choice_nil : (choice []).found prev t = none := by
  rw [choice, found_of_isRigid rfl]
  exact before_choice_nil

theorem found_choice_cons (e : Expr) (es : List Expr) :
    (choice (e :: es)).found prev t = (e.found prev t).or ((choice es).found prev t) := by
  cases es with
  | nil => rw [found_choice_nil, Option.or_none]; rfl
  | cons e' es => exact found_alt e (choice (e' :: es))

/-- A choice finds what the first of its alternatives finds that finds anything. -/
theorem found_choice (es : List Expr) :
    (choice es).found prev t = es.findSome? fun e => e.found prev t := by
  induction es with
  | nil => exact found_choice_nil
  | cons e es ih =>
      rw [found_choice_cons, ih, List.findSome?_cons]
      cases e.found prev t <;> rfl

theorem findSome?_branches (e : Expr) :
    (branches e).findSome? (fun e => e.found prev t) = e.found prev t := by
  induction e with
  | alt a b iha ihb =>
      rw [branches, List.findSome?_cons, ihb, found_alt]
      cases a.found prev t <;> rfl
  | _ => exact List.findSome?_singleton

theorem findSome?_flatMap_branches (es : List Expr) :
    (es.flatMap branches).findSome? (fun e => e.found prev t) =
      es.findSome? fun e => e.found prev t := by
  induction es with
  | nil => rfl
  | cons e es ih =>
      rw [List.flatMap_cons, List.findSome?_append, findSome?_branches, ih, List.findSome?_cons]
      cases e.found prev t <;> rfl

/-- At the start of the text an expression that is tied to it finds what it finds by
itself. -/
theorem found_tied (a : Expr) : (tied a).found none t = a.found none t := by
  rw [tied, found_cons rfl]
  rfl

end Expr

/-- A pattern that is tied to the start of the text finds what its expression finds
there. -/
theorem find?_eq_found {p : Pattern} {a : Expr} (hp : p.expr = .tied a) (t : Text) :
    p.find? t = a.found none t := by
  have htied : p.expr.program.isTied = true := hp ▸ a.isTiedToStart_tied
  rw [find?, p.program_eq, Program.find?, if_pos htied, hp, ← Expr.found_tied]
  rfl

end Pattern
end Decaf
