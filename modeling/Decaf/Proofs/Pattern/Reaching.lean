/-
Where a program finds anything.

Which match is found is a matter of preference; whether one is found is not.  A
program finds a match exactly if some way through its instructions leads to one that
accepts (`isSome_goalAt`), whatever instructions it has passed before: who comes to an
instruction again gains nothing by going round, since a way that does not return is
shorter.

So it can be told of every sequence, rigid or not, where its first part leads to
(`isSome_found_seq`), and taking out in front what alternatives begin with never makes
a difference to whether the choice between them finds anything (`isSome_found_anyOf`).
-/
import Decaf.Proofs.Pattern.Factoring

namespace Decaf
namespace Pattern
namespace Program

/-! ## Ways through a program -/

/-- A program at an address, with the text that it has not read. -/
structure Spot where
  address : Nat
  prev : Option Char
  rest : Text

/-- One instruction leads on, without a character or with one. -/
inductive Goes (code : Array Instruction) : Spot → Spot → Prop
  | way {i j : Nat} {prev : Option Char} {t : Text} {x : Instruction} : code[i]? = some x →
      j ∈ x.ways (Anchor.holds prev t.head?) → Goes code ⟨i, prev, t⟩ ⟨j, prev, t⟩
  | take {i j : Nat} {prev : Option Char} {c : Char} {t : Text} {x : Instruction} :
      code[i]? = some x → x.target? c = some j → Goes code ⟨i, prev, c :: t⟩ ⟨j, some c, t⟩

/-- A number of instructions lead on to one that accepts. -/
inductive Accepts (code : Array Instruction) : Nat → Spot → Prop
  | accept {i : Nat} {prev : Option Char} {t : Text} : code[i]? = some .accept →
      Accepts code 0 ⟨i, prev, t⟩
  | step {n : Nat} {s s' : Spot} : Goes code s s' → Accepts code n s' → Accepts code (n + 1) s

/-- Some way leads on to an instruction that accepts. -/
def CanAccept (code : Array Instruction) (s : Spot) : Prop := ∃ n, Accepts code n s

section

variable {code : Array Instruction} {prev : Option Char} {t : Text} {i n : Nat} {x : Instruction}

theorem Accepts.lt_size {s : Spot} (h : Accepts code n s) : s.address < code.size := by
  cases h with
  | accept hi => exact (Array.getElem?_eq_some_iff.mp hi).1
  | step hgoes _ =>
      cases hgoes with
      | way hi | take hi => exact (Array.getElem?_eq_some_iff.mp hi).1

/-- From an instruction that does not accept, a way that accepts leads over one of the
addresses that it goes on at, if it takes no character. -/
theorem Accepts.exists_way (h : Accepts code n ⟨i, prev, t⟩) (hi : code[i]? = some x)
    (hna : x ≠ .accept) (hnt : ∀ s next, x ≠ .take s next) :
    ∃ j ∈ x.ways (Anchor.holds prev t.head?), ∃ m < n, Accepts code m ⟨j, prev, t⟩ := by
  cases h with
  | accept hacc => exact absurd (Option.some.inj (hi.symm.trans hacc)) hna
  | step hgoes hrest =>
      cases hgoes with
      | way hy hj =>
          obtain rfl : x = _ := Option.some.inj (hi.symm.trans hy)
          exact ⟨_, hj, _, Nat.lt_succ_self _, hrest⟩
      | take hy htarget =>
          obtain rfl : x = _ := Option.some.inj (hi.symm.trans hy)
          cases x with
          | take s next => exact absurd rfl (hnt s next)
          | _ => cases htarget

theorem Accepts.exists_take {c : Char} {s : CharSet} {next : Nat}
    (h : Accepts code n ⟨i, prev, c :: t⟩) (hi : code[i]? = some (.take s next)) :
    s.contains c = true ∧ CanAccept code ⟨next, some c, t⟩ := by
  cases h with
  | accept hacc => rw [hi] at hacc; cases hacc
  | step hgoes hrest =>
      cases hgoes with
      | way hy hj =>
          rw [hi] at hy
          cases hy
          exact absurd hj List.not_mem_nil
      | take hy htarget =>
          rw [hi] at hy
          cases hy
          obtain ⟨hc, rfl⟩ := Option.ite_some_none_eq_some.mp htarget
          exact ⟨hc, _, hrest⟩

theorem not_accepts_take_nil {s : CharSet} {next : Nat} (hi : code[i]? = some (.take s next)) :
    ¬ Accepts code n ⟨i, prev, []⟩ := by
  intro h
  cases h with
  | accept hacc => rw [hi] at hacc; cases hacc
  | step hgoes hrest =>
      cases hgoes with
      | way hy hj =>
          rw [hi] at hy
          cases hy
          exact absurd hj List.not_mem_nil

/-! ## Following every way -/

/-- A way to an instruction that accepts leads on from an address that waits, or from
one that is pending in less than so many steps. -/
def LeadsWithin (code : Array Instruction) (prev : Option Char) (t : Text)
    (pending waiting : List Nat) (n : Nat) : Prop :=
  (∃ j ∈ waiting, CanAccept code ⟨j, prev, t⟩) ∨
    ∃ j ∈ pending, ∃ m < n, Accepts code m ⟨j, prev, t⟩

/-- No address that is marked is needed any more: where a way that accepts leads on from
it, one leads on from an address that waits, or a shorter one from a pending address. -/
def Bypassed (code : Array Instruction) (prev : Option Char) (t : Text) (pending : List Nat)
    (seen : Array Bool) (waiting : List Nat) : Prop :=
  ∀ i n, seen.getD i true = true → Accepts code n ⟨i, prev, t⟩ →
    LeadsWithin code prev t pending waiting n

variable {pending pending' waiting waiting' : List Nat} {seen : Array Bool}

theorem LeadsWithin.of_le {m : Nat} (h : LeadsWithin code prev t pending waiting m) (hmn : m ≤ n) :
    LeadsWithin code prev t pending waiting n := by
  refine h.imp_right ?_
  rintro ⟨j, hj, k, hk, hacc⟩
  exact ⟨j, hj, k, Nat.lt_of_lt_of_le hk hmn, hacc⟩

/-- A pending address is marked once what it leads to waits or is pending itself. -/
theorem Bypassed.mark (h : Bypassed code prev t (i :: pending) seen waiting)
    (hi : ∀ n, Accepts code n ⟨i, prev, t⟩ → LeadsWithin code prev t pending' waiting' n)
    (hpending : pending ⊆ pending') (hwaiting : waiting ⊆ waiting') :
    Bypassed code prev t pending' (seen.setIfInBounds i true) waiting' := by
  intro k n hk hacc
  rcases getD_mark hk with rfl | hk
  · exact hi n hacc
  · rcases h k n hk hacc with ⟨j, hj, hacc⟩ | ⟨j, hj, m, hm, hacc⟩
    · exact .inl ⟨j, hwaiting hj, hacc⟩
    · rcases List.mem_cons.mp hj with rfl | hj
      · exact (hi m hacc).of_le (Nat.le_of_lt hm)
      · exact .inr ⟨j, hpending hj, m, hm, hacc⟩

/-- An address that is marked is no longer needed where it is pending: what leads over
it leads on by a shorter way. -/
theorem Bypassed.skip (h : Bypassed code prev t (i :: pending) seen waiting)
    (hold : seen.getD i true = true) : Bypassed code prev t pending seen waiting := by
  intro k n
  induction n using Nat.strongRecOn generalizing k with
  | ind n ih =>
      intro hk hacc
      rcases h k n hk hacc with hw | ⟨j, hj, m, hm, hacc⟩
      · exact .inl hw
      · rcases List.mem_cons.mp hj with rfl | hj
        · exact (ih m hm j hold hacc).of_le (Nat.le_of_lt hm)
        · exact .inr ⟨j, hj, m, hm, hacc⟩

/-- The program accepts or waits where a way leads on to an instruction that accepts,
exactly if it has come to such an address. -/
theorem canAccept_follow (h : Bypassed code prev t pending seen waiting) :
    let front := follow code (Anchor.holds prev t.head?) pending seen waiting
    (front.accepts = true ∨ ∃ j ∈ front.waiting, CanAccept code ⟨j, prev, t⟩) ↔
      (∃ j ∈ pending, CanAccept code ⟨j, prev, t⟩) ∨
        ∃ j ∈ waiting, CanAccept code ⟨j, prev, t⟩ := by
  fun_induction follow code (Anchor.holds prev t.head?) pending seen waiting with
  | case1 seen waiting => simp
  | case2 seen waiting i pending hnew hi ih =>
      have hnot : ∀ n, ¬ Accepts code n ⟨i, prev, t⟩ := fun n hacc =>
        Nat.not_lt.mpr (Array.getElem?_eq_none_iff.mp hi) hacc.lt_size
      have hcannot : ¬ CanAccept code ⟨i, prev, t⟩ := not_exists.mpr hnot
      rw [List.exists_mem_cons_iff, or_iff_right hcannot]
      exact ih (h.mark (fun n hacc => absurd hacc (hnot n)) (List.Subset.refl _)
        (List.Subset.refl _))
  | case3 seen waiting i pending hnew hi =>
      exact ⟨fun _ => .inl ⟨i, List.mem_cons_self, 0, .accept hi⟩, fun _ => .inl rfl⟩
  | case4 seen waiting i pending hnew s next hi ih =>
      have hrest := ih (h.mark (fun n hacc => .inl ⟨i, List.mem_cons_self, n, hacc⟩)
        (List.Subset.refl _) (List.subset_cons_self _ _))
      rw [List.exists_mem_cons_iff, or_left_comm, ← or_assoc] at hrest
      rw [List.exists_mem_cons_iff]
      exact hrest
  | case5 seen waiting i pending hnew x hna hnt hi ih =>
      have hways : CanAccept code ⟨i, prev, t⟩ ↔
          ∃ j ∈ x.ways (Anchor.holds prev t.head?), CanAccept code ⟨j, prev, t⟩ := by
        constructor
        · rintro ⟨n, hacc⟩
          obtain ⟨j, hj, m, -, hacc⟩ := hacc.exists_way hi hna hnt
          exact ⟨j, hj, m, hacc⟩
        · rintro ⟨j, hj, n, hacc⟩
          exact ⟨n + 1, .step (.way hi hj) hacc⟩
      have hleads : ∀ n, Accepts code n ⟨i, prev, t⟩ →
          LeadsWithin code prev t (x.ways (Anchor.holds prev t.head?) ++ pending) waiting n := by
        intro n hacc
        obtain ⟨j, hj, m, hm, hacc⟩ := hacc.exists_way hi hna hnt
        exact .inr ⟨j, List.mem_append_left _ hj, m, hm, hacc⟩
      have hrest := ih (h.mark hleads (List.subset_append_right _ _) (List.Subset.refl _))
      simp only [List.mem_append, or_and_right, exists_or] at hrest
      rw [List.exists_mem_cons_iff, hways]
      exact hrest
  | case6 seen waiting i pending hold ih =>
      have hold : seen.getD i true = true := by simpa using hold
      have hskip := h.skip hold
      rw [List.exists_mem_cons_iff, or_assoc, or_iff_right_of_imp]
      · exact ih hskip
      · rintro ⟨n, hacc⟩
        rcases hskip i n hold hacc with hw | ⟨j, hj, m, -, hacc⟩
        · exact .inr hw
        · exact .inl ⟨j, hj, m, hacc⟩

end

section

variable {p : Program} {prev : Option Char} {arrived : List Nat}

theorem canAccept_front (t : Text) :
    ((p.front prev t.head? arrived).accepts = true ∨
      ∃ j ∈ (p.front prev t.head? arrived).waiting, CanAccept p.code ⟨j, prev, t⟩) ↔
        ∃ i ∈ arrived, CanAccept p.code ⟨i, prev, t⟩ := by
  have hbypassed : Bypassed p.code prev t arrived (Array.replicate p.code.size false) [] := by
    intro i n hi hacc
    rw [getD_replicate hacc.lt_size] at hi
    cases hi
  simpa [front] using canAccept_follow hbypassed

/-- Where a character is taken, a way leads on from what waits to take it exactly if
it leads on from where that comes to. -/
theorem canAccept_take (prev : Option Char) (c : Char) (t : Text) {waiting : List Nat}
    (hw : ∀ j ∈ waiting, ∃ s next, p.code[j]? = some (.take s next)) :
    (∃ j ∈ waiting, CanAccept p.code ⟨j, prev, c :: t⟩) ↔
      ∃ i ∈ p.take c waiting, CanAccept p.code ⟨i, some c, t⟩ := by
  constructor
  · rintro ⟨j, hj, n, hacc⟩
    obtain ⟨s, next, hcode⟩ := hw j hj
    obtain ⟨hc, hnext⟩ := hacc.exists_take hcode
    refine ⟨next, List.mem_filterMap.mpr ⟨j, hj, ?_⟩, hnext⟩
    rw [hcode]
    exact if_pos hc
  · rintro ⟨i, hi, n, hacc⟩
    obtain ⟨j, hj, htarget⟩ := List.mem_filterMap.mp hi
    obtain ⟨x, hx, htarget⟩ := Option.bind_eq_some_iff.mp htarget
    exact ⟨j, hj, n + 1, .step (.take hx htarget) hacc⟩

/-- A pass finds a match exactly if there was one before or some way leads on to an
instruction that accepts. -/
theorem isSome_scan (passed : Nat) (best : Option Nat) (t : Text) :
    (p.scan prev arrived passed best t).isSome = true ↔
      best.isSome = true ∨ ∃ i ∈ arrived, CanAccept p.code ⟨i, prev, t⟩ := by
  have hwaiting : ∀ {prev next arrived}, ∀ j ∈ (p.front prev next arrived).waiting,
      ∃ s next, p.code[j]? = some (.take s next) := fun j hj =>
    (exists_take_of_mem_waiting hj).resolve_left List.not_mem_nil
  induction t generalizing prev arrived passed best with
  | nil =>
      have hnone : ¬ ∃ j ∈ (p.front prev none arrived).waiting, CanAccept p.code ⟨j, prev, []⟩ := by
        rintro ⟨j, hj, n, hacc⟩
        obtain ⟨s, next, hcode⟩ := hwaiting j hj
        exact not_accepts_take_nil hcode hacc
      rw [scan, ← canAccept_front [], List.head?_nil, or_iff_left hnone]
      split
      · rename_i hacc
        simp [hacc]
      · rename_i hacc
        simp [hacc]
  | cons c t ih =>
      rw [scan_cons]
      refine (ih (passed + 1) _).trans ?_
      have hfront : _ ↔ ∃ i ∈ arrived, CanAccept p.code ⟨i, prev, c :: t⟩ :=
        canAccept_front (c :: t)
      rw [← canAccept_take prev c t hwaiting, ← hfront, List.head?_cons]
      split
      · rename_i hacc
        simp [hacc]
      · rename_i hacc
        simp [hacc]

theorem isSome_goalAt (i : Nat) (t : Text) :
    (p.goalAt i prev t).isSome = true ↔ CanAccept p.code ⟨i, prev, t⟩ := by
  rw [goalAt, Option.isSome_map, isSome_scan]
  simp

end

end Program

/-! ## Sequences -/

namespace Expr

open Pattern.Program

variable {a b : Expr} {es : List Expr} {prev : Option Char} {t : Text}

/-- The instructions of an expression do not accept, and go on at each other or where
the expression does. -/
theorem instruction_program {e : Expr} {i : Nat} (hi : i < e.length) :
    ∃ x, e.program.code[i]? = some x ∧ x ≠ .accept ∧ ∀ j ∈ x.targets, j ≤ e.length := by
  have hempty : Copies id 0 e.length #[] #[] := ⟨rfl, fun i hi => absurd hi (Nat.not_lt_zero i)⟩
  have hcopies := (relocates (fun i _ => (Nat.zero_add i).symm) e).copies hempty (Nat.le_refl _)
    (Nat.le_of_eq (Nat.zero_add _))
  have hlt : i < (emit #[] e.length e).size := by
    rwa [size_emit, Array.size_empty, Nat.zero_add]
  obtain ⟨x, hx, -, hna, htargets⟩ := hcopies.instruction i hlt
  exact ⟨x, (extends_push _ _ i hlt).trans hx, hna, htargets⟩

/-- An expression can be matched at one place so that it goes on at another. -/
def Crosses (a : Expr) (prev : Option Char) (t : Text) (q : Option Char) (u : Text) : Prop :=
  Relation.ReflTransGen (Goes a.program.code) ⟨0, prev, t⟩ ⟨a.length, q, u⟩

/-- Where an instruction leads on depends on that instruction alone. -/
theorem goes_congr {code code' : Array Instruction} {s s' : Spot} (h : Goes code s s')
    (hs : code'[s.address]? = code[s.address]?) : Goes code' s s' := by
  cases h with
  | way hi hj => exact .way (hs.trans hi) hj
  | take hi htarget => exact .take (hs.trans hi) htarget

/-- No way within an expression leads further than to where the expression goes on. -/
theorem goes_program {s s' : Spot} (h : Goes a.program.code s s') :
    s.address < a.length ∧ s'.address ≤ a.length := by
  have hlt : s.address < a.length := by
    have hsize : s.address < a.length + 1 := by
      rw [← size_program]
      cases h with
      | way hi | take hi => exact (Array.getElem?_eq_some_iff.mp hi).1
    refine Nat.lt_of_le_of_ne (Nat.le_of_lt_succ hsize) fun heq => ?_
    have haccept : a.program.code[s.address]? = some .accept := heq ▸ a.accept_program
    cases h with
    | way hi hj =>
        obtain rfl := Option.some.inj (hi.symm.trans haccept)
        exact List.not_mem_nil hj
    | take hi htarget =>
        obtain rfl := Option.some.inj (hi.symm.trans haccept)
        cases htarget
  obtain ⟨x, hx, -, htargets⟩ := instruction_program hlt
  refine ⟨hlt, ?_⟩
  cases h with
  | way hi hj =>
      obtain rfl := Option.some.inj (hi.symm.trans hx)
      exact htargets _ (Instruction.mem_targets_of_mem_ways hj)
  | take hi htarget =>
      obtain rfl := Option.some.inj (hi.symm.trans hx)
      exact htargets _ (Instruction.mem_targets_of_target? htarget)

/-- Where the instructions of an expression stand at the beginning of some code, each
way that accepts crosses the expression and goes on behind it. -/
theorem canAccept_crosses {code : Array Instruction}
    (hcode : ∀ i < a.length, code[i]? = a.program.code[i]?) :
    CanAccept code ⟨0, prev, t⟩ ↔
      ∃ q u, a.Crosses prev t q u ∧ CanAccept code ⟨a.length, q, u⟩ := by
  constructor
  · rintro ⟨n, hacc⟩
    have hleave : ∀ {n : Nat} {s : Spot}, Accepts code n s → s.address ≤ a.length →
        ∃ q u, Relation.ReflTransGen (Goes a.program.code) s ⟨a.length, q, u⟩ ∧
          CanAccept code ⟨a.length, q, u⟩ := by
      intro n s hacc
      induction hacc with
      | @accept i prev t hi =>
          intro hle
          rcases Nat.lt_or_eq_of_le hle with hlt | rfl
          · obtain ⟨x, hx, hna, -⟩ := instruction_program hlt
            exact absurd (Option.some.inj (hx.symm.trans ((hcode i hlt).symm.trans hi))) hna
          · exact ⟨prev, t, .refl, 0, .accept hi⟩
      | @step n s s' hgoes hrest ih =>
          intro hle
          rcases Nat.lt_or_eq_of_le hle with hlt | heq
          · have hwithin := goes_congr hgoes (hcode s.address hlt).symm
            obtain ⟨q, u, hcross, hacc⟩ := ih (goes_program hwithin).2
            exact ⟨q, u, .head hwithin hcross, hacc⟩
          · obtain ⟨i, prev, t⟩ := s
            obtain rfl : i = a.length := heq
            exact ⟨prev, t, .refl, n + 1, .step hgoes hrest⟩
    exact hleave hacc (Nat.zero_le _)
  · rintro ⟨q, u, hcross, hacc⟩
    have hback : ∀ {s s' : Spot}, Relation.ReflTransGen (Goes a.program.code) s s' →
        CanAccept code s' → CanAccept code s := by
      intro s s' hcross hacc
      induction hcross using Relation.ReflTransGen.head_induction_on with
      | refl => exact hacc
      | head hgoes _ ih =>
          obtain ⟨n, hacc⟩ := ih
          exact ⟨n + 1, .step (goes_congr hgoes (hcode _ (goes_program hgoes).1)) hacc⟩
    exact hback hcross hacc

theorem isSome_found : (a.found prev t).isSome = true ↔ ∃ q u, a.Crosses prev t q u := by
  rw [found, isSome_goalAt, canAccept_crosses fun _ _ => rfl]
  refine exists_congr fun q => exists_congr fun u => and_iff_left ?_
  exact ⟨0, .accept a.accept_program⟩

/-- A sequence finds something exactly if its second part does at a place that the
first leads to. -/
theorem isSome_found_seq (b : Expr) : ((seq a b).found prev t).isSome = true ↔
    ∃ q u, a.Crosses prev t q u ∧ (b.found q u).isSome = true := by
  have hcode : ∀ i < a.length, (seq a b).program.code[i]? = a.program.code[i]? := by
    intro i hi
    have hlt : i < (emit #[] a.length a).size := by
      rwa [size_emit, Array.size_empty, Nat.zero_add]
    rw [((extends_emit b _ _).trans (code_seq a b)) i hlt]
    exact (extends_push _ _ i hlt).symm
  rw [found, isSome_goalAt, canAccept_crosses hcode]
  refine exists_congr fun q => exists_congr fun u => and_congr_right fun _ => ?_
  rw [← isSome_goalAt, goalAt_seq]

/-! ## Joined expressions -/

theorem isSome_found_cons (b : Expr) : ((cons a b).found prev t).isSome = true ↔
    ∃ q u, a.Crosses prev t q u ∧ (b.found q u).isSome = true := by
  fun_cases cons a b with
  | case1 =>
      rw [isSome_found]
      refine exists_congr fun q => exists_congr fun u => (and_iff_left ?_).symm
      rw [found_of_isRigid rfl]
      rfl
  | case2 v w =>
      have htexts : (text (v ++ w)).found = (seq (text v) (text w)).found :=
        (found_cons (a := .text v) rfl (.text w)).trans (found_seq rfl _).symm
      rw [htexts]
      exact isSome_found_seq _
  | case3 v w b =>
      have htexts : (seq (text (v ++ w)) b).found = (seq (text v) (seq (text w) b)).found :=
        (found_cons (a := .text v) rfl (.seq (.text w) b)).trans (found_seq rfl _).symm
      rw [htexts]
      exact isSome_found_seq _
  | case4 => exact isSome_found_seq b

/-- Some expressions can be matched one after another, from one place to another. -/
def CrossesAll (prev : Option Char) (t : Text) (q : Option Char) (u : Text) : List Expr → Prop
  | [] => prev = q ∧ t = u
  | e :: es => ∃ q' u', e.Crosses prev t q' u' ∧ CrossesAll q' u' q u es

theorem isSome_found_inOrder_append (hes : ∀ e ∈ es, e.isSeq = false ∧ e ≠ .empty)
    (es' : List Expr) : ((inOrder (es ++ es')).found prev t).isSome = true ↔
      ∃ q u, CrossesAll prev t q u es ∧ ((inOrder es').found q u).isSome = true := by
  induction es generalizing prev t with
  | nil => simp [CrossesAll]
  | cons e es ih =>
      obtain ⟨⟨hseq, hne⟩, hes⟩ := List.forall_mem_cons.mp hes
      rw [List.cons_append, inOrder, List.foldr_cons, ← inOrder, andThen_eq_cons hseq hne,
        isSome_found_cons]
      simp only [ih hes, CrossesAll]
      constructor
      · rintro ⟨q', u', hcross, q, u, hall, hfound⟩
        exact ⟨q, u, ⟨q', u', hcross, hall⟩, hfound⟩
      · rintro ⟨q, u, ⟨q', u', hcross, hall⟩, hfound⟩
        exact ⟨q', u', hcross, q, u, hall, hfound⟩

/-! ## What is taken out in front -/

theorem isSome_found_merged (hes : ∀ e ∈ es, e.IsNormal) :
    ((merged es).found prev t).isSome = true ↔ ∃ e ∈ es, (e.found prev t).isSome = true := by
  rw [found_merged hes, List.findSome?_isSome_iff]

theorem exists_isSome_flatMap_branches (es : List Expr) :
    (∃ e ∈ es.flatMap branches, (e.found prev t).isSome = true) ↔
      ∃ e ∈ es, (e.found prev t).isSome = true := by
  rw [← List.findSome?_isSome_iff, findSome?_flatMap_branches, List.findSome?_isSome_iff]

/-- A choice finds something exactly if one of its alternatives does, whatever is taken
out of these in front. -/
theorem isSome_found_anyOf (hes : ∀ e ∈ es, e.IsNormal) :
    ((anyOf es).found prev t).isSome = true ↔ ∃ e ∈ es, (e.found prev t).isSome = true := by
  have hbranches := isNormal_of_mem_flatMap hes
  fun_cases anyOf es with
  | case1 e => simp
  | case2 => exact isSome_found_merged hes
  | case3 es hne hshared rests =>
      have hmembers : ∀ x ∈ sharedItems (es.flatMap branches), x.isSeq = false ∧ x ≠ .empty := by
        intro x hx
        obtain ⟨e, he, hx⟩ := exists_of_mem_sharedItems hx
        exact (hbranches e he).isSeq_of_mem_items x hx
      have hchoice : ∀ q u, ((inOrder [merged rests]).found q u).isSome = true ↔
          ∃ e ∈ es.flatMap branches,
            ((e.behind (sharedItems (es.flatMap branches)).length).found q u).isSome = true := by
        intro q u
        rw [← List.findSome?_isSome_iff, ← found_merged_behind hbranches]
        rfl
      have halternative : ∀ e ∈ es.flatMap branches, ((e.found prev t).isSome = true ↔
          ∃ q u, CrossesAll prev t q u (sharedItems (es.flatMap branches)) ∧
            ((e.behind (sharedItems (es.flatMap branches)).length).found q u).isSome = true) := by
        intro e he
        obtain ⟨rest, hrest⟩ := sharedItems_isPrefix e he
        rw [behind, ← isSome_found_inOrder_append hmembers, ← hrest, List.drop_left, hrest,
          inOrder_items (hbranches e he)]
      rw [← exists_isSome_flatMap_branches, isSome_found_inOrder_append hmembers]
      simp only [hchoice]
      constructor
      · rintro ⟨q, u, hcross, e, he, hfound⟩
        exact ⟨e, he, (halternative e he).mpr ⟨q, u, hcross, hfound⟩⟩
      · rintro ⟨e, he, hfound⟩
        obtain ⟨q, u, hcross, hfound⟩ := (halternative e he).mp hfound
        exact ⟨q, u, hcross, e, he, hfound⟩

end Expr
end Pattern
end Decaf
