/-
Taking out what alternatives begin with.

A choice whose alternatives all begin alike is put together as what they begin with
and then the choice between what is left of them.  That changes nothing as long as
what is taken out is rigid (`found_anyOf`): a rigid expression goes on at one place
at most (`OneWay`), so the first alternative that leads to a match from there is the
first of all.  What can be taken in several ways has its turn before the alternatives
once it stands in front of them, and its preference overrides theirs.

Alternatives that are characters, or sets, become one set, and which of them is meant
makes no difference.
-/
import Decaf.Proofs.Pattern.Found
import Decaf.Proofs.Pattern.NormalForm

namespace Decaf
namespace Pattern

/-! ## Steps with one way on -/

namespace Goal

variable {f f' : Goal → Goal}

/-- A step towards a goal that goes on at one place, whatever the goal is, or
nowhere. -/
structure OneWay (step : Goal → Goal) : Prop where
  way : ∀ prev t, (∀ k : Goal, step k prev t = none) ∨
    ∃ w p u, ∀ k : Goal, step k prev t = (k p u).map (w ++ ·)

theorem oneWay_id : OneWay id :=
  ⟨fun prev t => .inr ⟨[], prev, t, fun k => by simp⟩⟩

theorem oneWay_take (test : Char → Bool) : OneWay (take test) := by
  refine ⟨fun prev t => ?_⟩
  cases t with
  | nil => exact .inl fun k => rfl
  | cons c t =>
      by_cases hc : test c = true
      · exact .inr ⟨[c], some c, t, fun k => if_pos hc⟩
      · exact .inl fun k => if_neg hc

theorem OneWay.comp (hf : OneWay f) (hf' : OneWay f') : OneWay (f ∘ f') := by
  refine ⟨fun prev t => ?_⟩
  rcases hf.way prev t with hnone | ⟨w, p, u, hway⟩
  · exact .inl fun k => hnone (f' k)
  · rcases hf'.way p u with hnone | ⟨w', p', u', hway'⟩
    · exact .inl fun k => by rw [Function.comp_apply, hway, hnone]; rfl
    · refine .inr ⟨w ++ w', p', u', fun k => ?_⟩
      rw [Function.comp_apply, hway, hway', Option.map_map]
      congr 1
      funext v
      exact (List.append_assoc w w' v).symm

theorem oneWay_text (w : Text) : OneWay (text w) := by
  induction w with
  | nil => exact oneWay_id
  | cons c w ih => exact (oneWay_take _).comp ih

theorem OneWay.iterate (hf : OneWay f) : ∀ n : Nat, OneWay f^[n]
  | 0 => oneWay_id
  | n + 1 => (hf.iterate n).comp hf

/-- Where there is one way on, it makes no difference whether the first of several
goals is looked for behind it or before it is gone. -/
theorem OneWay.findSome? {α : Type} (hf : OneWay f) (as : List α) (g : α → Goal)
    (prev : Option Char) (t : Text) :
    f (fun p u => as.findSome? fun a => g a p u) prev t = as.findSome? fun a => f (g a) prev t := by
  rcases hf.way prev t with hnone | ⟨w, p, u, hway⟩
  · rw [hnone, eq_comm, List.findSome?_eq_none_iff]
    exact fun a _ => hnone (g a)
  · rw [hway, List.map_findSome?]
    congr 1
    funext a
    exact (hway (g a)).symm

end Goal

namespace Expr

variable {a : Expr} {es : List Expr} {prev : Option Char} {t : Text}

theorem oneWay_before (ha : a.isRigid = true) : Goal.OneWay a.before := by
  induction a with
  | empty => exact Goal.oneWay_id
  | text w => exact Goal.oneWay_text w
  | set s => exact Goal.oneWay_take _
  | look a =>
      refine ⟨fun prev t => ?_⟩
      by_cases hholds : a.holds prev t.head? = true
      · exact .inr ⟨[], prev, t, fun k => (if_pos hholds).trans (by simp)⟩
      · exact .inl fun k => if_neg hholds
  | group a ih => exact ih ha
  | seq a b iha ihb =>
      simp only [isRigid, Bool.and_eq_true] at ha
      exact (iha ha.1).comp (ihb ha.2)
  | alt a b => cases ha
  | rep g min max a ih =>
      simp only [isRigid, Bool.and_eq_true, Option.any_eq_true, decide_eq_true_eq] at ha
      obtain ⟨⟨m, rfl, hm⟩, ha⟩ := ha
      refine ⟨fun prev t => ?_⟩
      simp only [before, Nat.sub_eq_zero_of_le hm, Goal.rounds]
      exact ((ih ha).iterate min).way prev t

theorem oneWay_foldr (hes : ∀ e ∈ es, e.isRigid = true) :
    Goal.OneWay fun k => es.foldr before k := by
  induction es with
  | nil => exact Goal.oneWay_id
  | cons e es ih =>
      obtain ⟨he, hes⟩ := List.forall_mem_cons.mp hes
      exact (oneWay_before he).comp (ih hes)

/-! ## Sets -/

theorem found_set (s : CharSet) : (set s).found = Goal.take s.contains .accept :=
  found_of_isRigid rfl

theorem found_ofSet {s : CharSet} (hs : s.IsProper) : (ofSet s).found = (set s).found := by
  rw [ofSet]
  split
  · rename_i c hc
    rw [char, found_of_isRigid rfl, found_set, before, Goal.text, Goal.text]
    congr 1
    funext d
    exact (CharSet.contains_of_char? hs hc d).symm
  · rfl

theorem Denotes.found_eq {s : CharSet} (h : Denotes a s) : a.found = (Expr.set s).found := by
  cases h with
  | char c =>
      rw [found_of_isRigid rfl, found_set, before, Goal.text, Goal.text]
      congr 1
      funext d
      exact (CharSet.contains_single c d).symm
  | set hs => rfl

theorem findSome?_found_set (ss : List CharSet) :
    (ss.findSome? fun s => (set s).found prev t) =
      Goal.take (fun c => ss.any fun s => s.contains c) .accept prev t := by
  induction ss with
  | nil => cases t <;> rfl
  | cons s ss ih =>
      rw [List.findSome?_cons, ih, found_set]
      cases t with
      | nil => rfl
      | cons c t => by_cases hc : s.contains c = true <;> simp [Goal.take, Goal.accept, hc]

/-- The set of some sets finds what the first of them finds that finds anything. -/
theorem found_union {ss : List CharSet} (h : List.Forall₂ Denotes es ss) :
    (set (.union ss)).found prev t = es.findSome? fun e => e.found prev t := by
  have hsets : (es.findSome? fun e => e.found prev t) =
      ss.findSome? fun s => (set s).found prev t := by
    induction h with
    | nil => rfl
    | cons h _ ih => rw [List.findSome?_cons, List.findSome?_cons, h.found_eq, ih]
  rw [hsets, findSome?_found_set, found_set]
  congr 1
  funext c
  exact CharSet.contains_union (isProper_of_forall₂ h) c

/-- A choice finds what the first of its alternatives finds that finds anything, also
if it has become a set. -/
theorem found_merged (hes : ∀ e ∈ es, e.IsNormal) :
    (merged es).found prev t = es.findSome? fun e => e.found prev t := by
  rw [← findSome?_flatMap_branches, merged]
  split
  · rename_i e he
    rw [he, List.findSome?_singleton]
  · split
    · rename_i ss hss
      have hsets := forall₂_of_sets (isNormal_of_mem_flatMap hes) hss
      rw [found_ofSet (CharSet.isProper_union (isProper_of_forall₂ hsets)), found_union hsets]
    · exact found_choice _

/-! ## What is taken out in front -/

theorem findSome?_congr {α β : Type} {as : List α} {f g : α → Option β}
    (h : ∀ a ∈ as, f a = g a) : as.findSome? f = as.findSome? g := by
  induction as with
  | nil => rfl
  | cons a as ih =>
      obtain ⟨ha, has⟩ := List.forall_mem_cons.mp h
      rw [List.findSome?_cons, List.findSome?_cons, ha, ih has]

/-- An expression whose first members are rigid finds what the others find behind
these. -/
theorem found_of_isPrefix (ha : a.IsNormal) {shared : List Expr} (h : shared <+: a.items)
    (hshared : ∀ e ∈ shared, e.isRigid = true) :
    a.found = shared.foldr before (a.behind shared.length).found := by
  obtain ⟨rest, hrest⟩ := h
  rw [behind, ← found_inOrder_append hshared, ← hrest, List.drop_left, hrest, inOrder_items ha]

/-- The choice between what is left of some expressions, at the end of a sequence. -/
theorem found_merged_behind (hes : ∀ e ∈ es, e.IsNormal) (n : Nat) :
    (inOrder [merged (es.map (behind n))]).found prev t =
      es.findSome? fun e => (e.behind n).found prev t := by
  have hbehind := isNormal_of_mem_behind hes n
  rw [inOrder_merged hbehind, found_merged hbehind, List.findSome?_map]
  rfl

/-- What some alternatives have taken out in front, when the choice between them is
put together. -/
def takenOut : List Expr → List Expr
  | [_] => []
  | es => sharedItems (es.flatMap branches)

/-- A choice finds what the first of its alternatives finds that finds anything, if
what is taken out of them in front is rigid. -/
theorem found_anyOf (hes : ∀ e ∈ es, e.IsNormal) (hrigid : ∀ x ∈ takenOut es, x.isRigid = true) :
    (anyOf es).found prev t = es.findSome? fun e => e.found prev t := by
  have hbranches := isNormal_of_mem_flatMap hes
  fun_cases anyOf es with
  | case1 e => exact (List.findSome?_singleton).symm
  | case2 => exact found_merged hes
  | case3 es hne shared rests =>
      rw [takenOut.eq_def] at hrigid
      split at hrigid
      · exact absurd rfl (hne _)
      · have hmerged : (inOrder [merged rests]).found = fun p u =>
            (es.flatMap branches).findSome? fun e =>
              (e.behind (sharedItems (es.flatMap branches)).length).found p u :=
          funext₂ fun p u => found_merged_behind hbranches _
        rw [found_inOrder_append hrigid, hmerged, (oneWay_foldr hrigid).findSome?,
          ← findSome?_flatMap_branches]
        refine findSome?_congr fun e he => ?_
        rw [found_of_isPrefix (hbranches e he) (sharedItems_isPrefix e he) hrigid]

end Expr
end Pattern
end Decaf
