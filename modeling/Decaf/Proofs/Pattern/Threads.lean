/-
What a program finds.

`Leads` tells what comes of an address by backtracking: a split tries its
first way, and its second if nothing comes of the first.  The search of the
library does not backtrack: it keeps a row of threads in order of preference,
goes through a text once, and passes each address once a place.

Here the two are shown to agree (`scan_eq`).  The point is that an address
which is passed over because it is marked would contribute nothing: what comes
of it has been found before it, or is going to be found below it, by ways that
stand in front of all others (`Covered`).  The last needs that no address lies
below itself, and where `Leads` tells what comes of an address it does not.
-/
import Decaf.Pattern.Search
import Mathlib.Logic.Relation

namespace Decaf
namespace Pattern
namespace Program

/-! ## Backtracking -/

/-- What comes of an address between the character before a place and the text
behind it: the text that is taken from there on, if the program comes to
accept. -/
inductive Leads (code : Array Instruction) :
    Option Char → Text → Nat → Option Text → Prop
  | accept {prev : Option Char} {t : Text} {i : Nat} :
      code[i]? = some .accept → Leads code prev t i (some [])
  | take {prev : Option Char} {c : Char} {t : Text} {i next : Nat} {s : CharSet}
      {r : Option Text} :
      code[i]? = some (.take s next) → s.contains c = true → Leads code (some c) t next r →
      Leads code prev (c :: t) i (r.map (c :: ·))
  | refuse {prev : Option Char} {t : Text} {i next : Nat} {s : CharSet} :
      code[i]? = some (.take s next) → t.head?.any s.contains = false →
      Leads code prev t i none
  | pass {prev : Option Char} {t : Text} {i next : Nat} {a : Anchor} {r : Option Text} :
      code[i]? = some (.look a next) → a.holds prev t.head? = true → Leads code prev t next r →
      Leads code prev t i r
  | halt {prev : Option Char} {t : Text} {i next : Nat} {a : Anchor} :
      code[i]? = some (.look a next) → a.holds prev t.head? = false →
      Leads code prev t i none
  | jump {prev : Option Char} {t : Text} {i next : Nat} {r : Option Text} :
      code[i]? = some (.jump next) → Leads code prev t next r → Leads code prev t i r
  | split {prev : Option Char} {t : Text} {i first second : Nat} {r r' : Option Text} :
      code[i]? = some (.split first second) → Leads code prev t first r →
      Leads code prev t second r' → Leads code prev t i (r.or r')

section

variable {code : Array Instruction} {prev : Option Char} {t : Text} {i : Nat} {r r' : Option Text}

/-- Only one thing comes of an address. -/
theorem Leads.unique (h : Leads code prev t i r) : ∀ r', Leads code prev t i r' → r = r' := by
  induction h with
  | accept hi | refuse hi hs | halt hi ha => intro r' h'; cases h' <;> simp_all
  | take hi hs _ ih | pass hi ha _ ih | jump hi _ ih => intro r' h'; cases h' <;> grind
  | split hi _ _ ih₁ ih₂ => intro r' h'; cases h' <;> grind

/-- What is taken is the beginning of the text. -/
theorem Leads.isPrefix (h : Leads code prev t i r) : ∀ w ∈ r, w <+: t := by
  induction h with
  | accept => intro w hw; cases hw; exact List.nil_prefix
  | take _ _ _ ih =>
      intro w hw
      obtain ⟨v, hv, rfl⟩ := Option.map_eq_some_iff.mp hw
      exact List.cons_prefix_cons.mpr ⟨rfl, ih v hv⟩
  | refuse | halt => intro w hw; cases hw
  | pass _ _ _ ih | jump _ _ ih => exact ih
  | split _ _ _ ih₁ ih₂ =>
      intro w hw
      rcases Option.or_eq_some_iff.mp hw with h | ⟨-, h⟩
      · exact ih₁ w h
      · exact ih₂ w h

/-! ## Settled addresses -/

/-- Backtracking from the address comes to an end. -/
def Settled (code : Array Instruction) (prev : Option Char) (t : Text) (i : Nat) : Prop :=
  ∃ r, Leads code prev t i r

/-- What comes of an address, if backtracking from it comes to an end. -/
noncomputable def outcome (code : Array Instruction) (prev : Option Char) (t : Text) (i : Nat) :
    Option Text :=
  Classical.epsilon (Leads code prev t i)

theorem Settled.leads (h : Settled code prev t i) :
    Leads code prev t i (outcome code prev t i) :=
  Classical.epsilon_spec h

theorem Leads.outcome_eq (h : Leads code prev t i r) : outcome code prev t i = r :=
  Leads.unique (Settled.leads ⟨r, h⟩) r h

/-- One address is the next after another, with no character between. -/
def Below (code : Array Instruction) (prev : Option Char) (t : Text) (j i : Nat) : Prop :=
  ∃ instruction, code[i]? = some instruction ∧
    j ∈ instruction.ways (Anchor.holds prev t.head?)

/-- What is below a settled address is settled, and decides what comes of it. -/
theorem Leads.ways {instruction : Instruction} (h : Leads code prev t i r)
    (hi : code[i]? = some instruction) :
    (∀ j ∈ instruction.ways (Anchor.holds prev t.head?), Settled code prev t j) ∧
      (instruction ≠ .accept → (∀ s next, instruction ≠ .take s next) →
        r = (instruction.ways (Anchor.holds prev t.head?)).findSome? (outcome code prev t)) := by
  cases h with
  | accept hi' | take hi' _ _ | refuse hi' _ =>
      cases hi'.symm.trans hi
      simp [Instruction.ways]
  | pass hi' ha h' =>
      cases hi'.symm.trans hi
      simp only [Instruction.ways, ha, if_true, List.mem_singleton]
      exact ⟨fun j hj => hj ▸ ⟨r, h'⟩, fun _ _ => by simp [h'.outcome_eq]⟩
  | halt hi' ha =>
      cases hi'.symm.trans hi
      simp [Instruction.ways, ha]
  | jump hi' h' =>
      cases hi'.symm.trans hi
      simp only [Instruction.ways, List.mem_singleton]
      exact ⟨fun j hj => hj ▸ ⟨r, h'⟩, fun _ _ => by simp [h'.outcome_eq]⟩
  | @split _ _ _ _ _ r₁ r₂ hi' h₁ h₂ =>
      cases hi'.symm.trans hi
      simp only [Instruction.ways, List.mem_cons, List.not_mem_nil, or_false]
      refine ⟨?_, fun _ _ => ?_⟩
      · rintro j (rfl | rfl)
        · exact ⟨_, h₁⟩
        · exact ⟨_, h₂⟩
      · simp only [List.findSome?_cons, h₁.outcome_eq, h₂.outcome_eq, List.findSome?_nil]
        cases r₁ <;> cases r₂ <;> rfl

theorem mem_ways_of_below {instruction : Instruction} {j : Nat}
    (hi : code[i]? = some instruction) (h : Below code prev t j i) :
    j ∈ instruction.ways (Anchor.holds prev t.head?) := by
  obtain ⟨instruction', hi', hj⟩ := h
  cases hi.symm.trans hi'
  exact hj

/-- Below a settled address one comes to an end. -/
theorem Leads.acc (h : Leads code prev t i r) : Acc (Below code prev t) i := by
  induction h with
  | accept hi | take hi _ _ _ | refuse hi _ =>
      constructor
      intro j hbelow
      cases mem_ways_of_below hi hbelow
  | pass hi ha _ ih =>
      constructor
      intro j hbelow
      have hj := mem_ways_of_below hi hbelow
      simp only [Instruction.ways, ha, if_true, List.mem_singleton] at hj
      exact hj ▸ ih
  | halt hi ha =>
      constructor
      intro j hbelow
      have hj := mem_ways_of_below hi hbelow
      simp [Instruction.ways, ha] at hj
  | jump hi _ ih =>
      constructor
      intro j hbelow
      have hj := mem_ways_of_below hi hbelow
      simp only [Instruction.ways, List.mem_singleton] at hj
      exact hj ▸ ih
  | split hi _ _ ih₁ ih₂ =>
      constructor
      intro j hbelow
      have hj := mem_ways_of_below hi hbelow
      simp only [Instruction.ways, List.mem_cons, List.not_mem_nil, or_false] at hj
      rcases hj with rfl | rfl
      · exact ih₁
      · exact ih₂

/-- No settled address lies below itself. -/
theorem Settled.not_transGen_self (h : Settled code prev t i) :
    ¬ Relation.TransGen (Below code prev t) i i := by
  have hacc := (h.leads.acc).transGen
  induction hacc with
  | intro i _ ih => exact fun hi => ih i hi (by assumption) hi

/-! ## Following a program to the next character -/

/-- Why a marked address need not be followed again: nothing comes of it, or
what comes of it is found in `waiting`, or something comes of an address below
it that is `pending` in front of all that does not lie below it. -/
def Covered (code : Array Instruction) (prev : Option Char) (t : Text)
    (pending waiting : List Nat) (j : Nat) : Prop :=
  (∃ w ∈ waiting, (outcome code prev t w).isSome) ∨ outcome code prev t j = none ∨
    ∃ before k behind, pending = before ++ k :: behind ∧ (outcome code prev t k).isSome ∧
      ∀ x ∈ before ++ [k], Relation.TransGen (Below code prev t) x j

/-- A settled address that is pending again and covered adds nothing. -/
theorem findSome?_of_covered {pending waiting : List Nat} (hi : Settled code prev t i)
    (h : Covered code prev t (i :: pending) waiting i) :
    (∃ w ∈ waiting, (outcome code prev t w).isSome) ∨ outcome code prev t i = none := by
  rcases h with h | h | ⟨before, k, behind, hp, hk, hbelow⟩
  · exact Or.inl h
  · exact Or.inr h
  · -- The address itself would be one of those below it.
    refine absurd (hbelow i ?_) hi.not_transGen_self
    cases before with
    | nil => simp_all
    | cons x before => simp_all

theorem Covered.skip {pending waiting : List Nat} {j : Nat} (hi : Settled code prev t i)
    (hci : Covered code prev t (i :: pending) waiting i)
    (h : Covered code prev t (i :: pending) waiting j) :
    Covered code prev t pending waiting j := by
  rcases h with h | h | ⟨before, k, behind, hp, hk, hbelow⟩
  · exact Or.inl h
  · exact Or.inr (Or.inl h)
  · cases before with
    | nil =>
        obtain ⟨rfl, rfl⟩ : i = k ∧ pending = behind := by simpa using hp
        rcases findSome?_of_covered hi hci with h | h
        · exact Or.inl h
        · simp [h] at hk
    | cons x before =>
        obtain ⟨rfl, rfl⟩ : i = x ∧ pending = before ++ k :: behind := by simpa using hp
        exact Or.inr (Or.inr ⟨before, k, behind, rfl, hk,
          fun y hy => hbelow y (List.mem_cons_of_mem _ hy)⟩)

theorem Covered.wait {pending waiting : List Nat} {j : Nat}
    (h : Covered code prev t (i :: pending) waiting j) :
    Covered code prev t pending (i :: waiting) j := by
  rcases h with ⟨w, hw, hsome⟩ | h | ⟨before, k, behind, hp, hk, hbelow⟩
  · exact Or.inl ⟨w, List.mem_cons_of_mem _ hw, hsome⟩
  · exact Or.inr (Or.inl h)
  · cases before with
    | nil =>
        obtain ⟨rfl, rfl⟩ : i = k ∧ pending = behind := by simpa using hp
        exact Or.inl ⟨i, List.mem_cons_self, hk⟩
    | cons x before =>
        obtain ⟨rfl, rfl⟩ : i = x ∧ pending = before ++ k :: behind := by simpa using hp
        exact Or.inr (Or.inr ⟨before, k, behind, rfl, hk,
          fun y hy => hbelow y (List.mem_cons_of_mem _ hy)⟩)

/-- Where something comes of an address below another, what covers the one
covers the other. -/
theorem Covered.of_below {pending waiting : List Nat} {j : Nat}
    (hij : Relation.TransGen (Below code prev t) i j) (hi : (outcome code prev t i).isSome)
    (h : Covered code prev t pending waiting i) : Covered code prev t pending waiting j := by
  rcases h with h | h | ⟨before, k, behind, hp, hk, hbelow⟩
  · exact Or.inl h
  · simp [h] at hi
  · exact Or.inr (Or.inr ⟨before, k, behind, hp, hk, fun x hx => (hbelow x hx).trans hij⟩)

/-- An address is covered once the ways from it are pending. -/
theorem covered_self {pending waiting ways : List Nat}
    (hb : ∀ x ∈ ways, Below code prev t x i)
    (ho : outcome code prev t i = ways.findSome? (outcome code prev t)) :
    Covered code prev t (ways ++ pending) waiting i := by
  cases hi : outcome code prev t i with
  | none => exact Or.inr (Or.inl hi)
  | some w =>
      obtain ⟨before, k, behind, rfl, hk, -⟩ := List.findSome?_eq_some_iff.mp (ho.symm.trans hi)
      refine Or.inr (Or.inr ⟨before, k, behind ++ pending, by simp, by simp [hk], ?_⟩)
      intro x hx
      exact .single (hb x (by grind))

theorem Covered.descend {pending waiting ways : List Nat} {j : Nat}
    (hb : ∀ x ∈ ways, Below code prev t x i)
    (ho : outcome code prev t i = ways.findSome? (outcome code prev t))
    (h : Covered code prev t (i :: pending) waiting j) :
    Covered code prev t (ways ++ pending) waiting j := by
  rcases h with h | h | ⟨before, k, behind, hp, hk, hbelow⟩
  · exact Or.inl h
  · exact Or.inr (Or.inl h)
  · cases before with
    | nil =>
        obtain ⟨rfl, rfl⟩ : i = k ∧ pending = behind := by simpa using hp
        exact (covered_self hb ho).of_below (hbelow i (by simp)) hk
    | cons x before =>
        obtain ⟨rfl, rfl⟩ : i = x ∧ pending = before ++ k :: behind := by simpa using hp
        have hij := hbelow i List.mem_cons_self
        refine Or.inr (Or.inr ⟨ways ++ before, k, behind, by simp, hk, ?_⟩)
        intro y hy
        rw [List.append_assoc, List.mem_append] at hy
        rcases hy with hy | hy
        · exact (Relation.TransGen.single (hb y hy)).trans hij
        · exact hbelow y (List.mem_cons_of_mem _ hy)

theorem getD_mark {seen : Array Bool} {i j : Nat}
    (h : (seen.setIfInBounds i true).getD j true = true) : j = i ∨ seen.getD j true = true := by
  by_cases hij : j = i
  · exact Or.inl hij
  · rw [Array.getD_eq_getD_getElem?, Array.getElem?_setIfInBounds_ne (Ne.symm hij)] at h
    exact Or.inr (by rwa [Array.getD_eq_getD_getElem?])

/-- What comes of a front: of what waits, or else of accepting. -/
def Front.outcome (out : Nat → Option Text) (f : Front) : Option Text :=
  (f.waiting.findSome? out).or (if f.accepts then some [] else none)

theorem findSome?_cons_eq_or (out : Nat → Option Text) (i : Nat) (is : List Nat) :
    (i :: is).findSome? out = (out i).or (is.findSome? out) := by
  cases h : out i <;> simp [h]

/-- What comes of a front is the first that comes of what was waiting or
pending. -/
theorem outcome_follow (pending : List Nat) (seen : Array Bool) (waiting : List Nat)
    (hs : ∀ i ∈ pending, Settled code prev t i)
    (hc : ∀ j, Settled code prev t j → seen.getD j true = true →
      Covered code prev t pending waiting j) :
    (follow code (Anchor.holds prev t.head?) pending seen waiting).outcome (outcome code prev t) =
      (waiting.reverse ++ pending).findSome? (outcome code prev t) := by
  fun_induction follow code (Anchor.holds prev t.head?) pending seen waiting with
  | case1 seen waiting => simp [Front.outcome]
  | case2 seen waiting i pending hseen hi ih =>
      obtain ⟨r, hr⟩ := hs i List.mem_cons_self
      cases hr <;> simp_all
  | case3 seen waiting i pending hseen hi =>
      have ho : outcome code prev t i = some [] := (Leads.accept hi).outcome_eq
      simp [Front.outcome, List.findSome?_append, ho]
  | case4 seen waiting i pending hseen s next hi ih =>
      rw [ih (fun j hj => hs j (List.mem_cons_of_mem _ hj)) fun j hj hmark => ?_]
      · simp
      · rcases getD_mark hmark with rfl | hmark
        · cases ho : outcome code prev t j with
          | none => exact Or.inr (Or.inl ho)
          | some w => exact Or.inl ⟨j, List.mem_cons_self, by simp [ho]⟩
        · exact (hc j hj hmark).wait
  | case5 seen waiting i pending hseen instruction hna hnt hi ih =>
      have hsi := hs i List.mem_cons_self
      obtain ⟨hways, ho⟩ := hsi.leads.ways hi
      have ho := ho hna hnt
      have hb : ∀ x ∈ instruction.ways (Anchor.holds prev t.head?), Below code prev t x i :=
        fun x hx => ⟨instruction, hi, hx⟩
      rw [ih (fun j hj => ?_) fun j hj hmark => ?_]
      · rw [List.findSome?_append, List.findSome?_append, List.findSome?_append,
          findSome?_cons_eq_or, ho]
      · rcases List.mem_append.mp hj with hj | hj
        · exact hways j hj
        · exact hs j (List.mem_cons_of_mem _ hj)
      · rcases getD_mark hmark with rfl | hmark
        · exact covered_self hb ho
        · exact (hc j hj hmark).descend hb ho
  | case6 seen waiting i pending hseen ih =>
      have hsi := hs i List.mem_cons_self
      have hci := hc i hsi (by simpa using hseen)
      rw [ih (fun j hj => hs j (List.mem_cons_of_mem _ hj))
        fun j hj hmark => Covered.skip hsi hci (hc j hj hmark)]
      rw [List.findSome?_append, List.findSome?_append, findSome?_cons_eq_or]
      rcases findSome?_of_covered hsi hci with ⟨w, hw, hsome⟩ | ho
      · have hfound : (waiting.reverse.findSome? (outcome code prev t)).isSome :=
          List.findSome?_isSome_iff.mpr ⟨w, List.mem_reverse.mpr hw, hsome⟩
        obtain ⟨found, hfound⟩ := Option.isSome_iff_exists.mp hfound
        simp [hfound]
      · simp [ho]

/-- What waits at a front takes a character, and is settled if all that was
pending is. -/
theorem waiting_follow (pending : List Nat) (seen : Array Bool) (waiting : List Nat)
    (hs : ∀ i ∈ pending, Settled code prev t i)
    (hw : ∀ i ∈ waiting, Settled code prev t i ∧ ∃ s next, code[i]? = some (.take s next)) :
    ∀ i ∈ (follow code (Anchor.holds prev t.head?) pending seen waiting).waiting,
      Settled code prev t i ∧ ∃ s next, code[i]? = some (.take s next) := by
  fun_induction follow code (Anchor.holds prev t.head?) pending seen waiting with
  | case1 seen waiting => exact fun i hi => hw i (List.mem_reverse.mp hi)
  | case2 seen waiting i pending hseen hi ih | case6 seen waiting i pending hseen ih =>
      exact ih (fun j hj => hs j (List.mem_cons_of_mem _ hj)) hw
  | case3 seen waiting i pending hseen hi => exact fun i hi => hw i (List.mem_reverse.mp hi)
  | case4 seen waiting i pending hseen s next hi ih =>
      refine ih (fun j hj => hs j (List.mem_cons_of_mem _ hj)) ?_
      intro j hj
      rcases List.mem_cons.mp hj with rfl | hj
      · exact ⟨hs j List.mem_cons_self, s, next, hi⟩
      · exact hw j hj
  | case5 seen waiting i pending hseen instruction hna hnt hi ih =>
      refine ih (fun j hj => ?_) hw
      rcases List.mem_append.mp hj with hj | hj
      · exact ((hs i List.mem_cons_self).leads.ways hi).1 j hj
      · exact hs j (List.mem_cons_of_mem _ hj)

end

/-! ## One pass over the text -/

section

variable {p : Program} {prev : Option Char} {arrived : List Nat}

theorem outcome_front {t : Text} (h : ∀ i ∈ arrived, Settled p.code prev t i) :
    (p.front prev t.head? arrived).outcome (outcome p.code prev t) =
      arrived.findSome? (outcome p.code prev t) := by
  refine outcome_follow arrived _ [] h ?_
  intro j hj hmark
  -- At first nothing is marked but what lies outside of the program.
  obtain ⟨instruction, hi⟩ : ∃ instruction, p.code[j]? = some instruction := by
    obtain ⟨r, hr⟩ := hj
    cases hr <;> exact ⟨_, by assumption⟩
  have hlt : j < p.code.size := (Array.getElem?_eq_some_iff.mp hi).1
  simp [hlt] at hmark

theorem waiting_front {t : Text} (h : ∀ i ∈ arrived, Settled p.code prev t i) :
    ∀ i ∈ (p.front prev t.head? arrived).waiting,
      Settled p.code prev t i ∧ ∃ s next, p.code[i]? = some (.take s next) :=
  waiting_follow arrived _ [] h fun _ hi => absurd hi List.not_mem_nil

/-- Of what waits nothing comes at the end of the text. -/
theorem findSome?_waiting_nil {waiting : List Nat}
    (h : ∀ i ∈ waiting, Settled p.code prev [] i ∧ ∃ s next, p.code[i]? = some (.take s next)) :
    waiting.findSome? (outcome p.code prev []) = none := by
  refine List.findSome?_eq_none_iff.mpr fun i hi => ?_
  obtain ⟨-, s, next, hi⟩ := h i hi
  exact (Leads.refuse hi rfl).outcome_eq

/-- What comes of what waits is the next character, and what comes then of
the addresses to which it leads. -/
theorem findSome?_waiting_cons {waiting : List Nat} {c : Char} {t : Text}
    (h : ∀ i ∈ waiting,
      Settled p.code prev (c :: t) i ∧ ∃ s next, p.code[i]? = some (.take s next)) :
    waiting.findSome? (outcome p.code prev (c :: t)) =
        ((p.take c waiting).findSome? (outcome p.code (some c) t)).map (c :: ·) ∧
      ∀ i ∈ p.take c waiting, Settled p.code (some c) t i := by
  induction waiting with
  | nil => exact ⟨rfl, fun i hi => absurd hi List.not_mem_nil⟩
  | cons i waiting ih =>
      obtain ⟨ih₁, ih₂⟩ := ih fun j hj => h j (List.mem_cons_of_mem _ hj)
      obtain ⟨⟨r, hr⟩, s, next, hi⟩ := h i List.mem_cons_self
      rw [findSome?_cons_eq_or, ih₁, hr.outcome_eq]
      cases hr with
      | take hi' hs hr' =>
          cases hi'.symm.trans hi
          have htake : p.take c (i :: waiting) = next :: p.take c waiting := by
            simp [take, hi, Instruction.target?, hs]
          rw [htake, findSome?_cons_eq_or, hr'.outcome_eq]
          refine ⟨?_, fun j hj => ?_⟩
          · cases ‹Option Text› <;> rfl
          · rcases List.mem_cons.mp hj with rfl | hj
            · exact ⟨_, hr'⟩
            · exact ih₂ j hj
      | refuse hi' hs =>
          cases hi'.symm.trans hi
          have htake : p.take c (i :: waiting) = p.take c waiting := by
            simp only [List.head?_cons, Option.any_some] at hs
            simp [take, hi, Instruction.target?, hs]
          rw [htake]
          exact ⟨by simp, ih₂⟩
      | accept hi' | pass hi' _ _ | halt hi' _ | jump hi' _ | split hi' _ _ =>
          cases hi'.symm.trans hi

/-- One pass finds the first that comes of the addresses to which the program
has come. -/
theorem scan_eq {t : Text} (h : ∀ i ∈ arrived, Settled p.code prev t i) (passed : Nat)
    (best : Option Nat) :
    p.scan prev arrived passed best t =
      ((arrived.findSome? (outcome p.code prev t)).map (passed + ·.length)).or best := by
  induction t generalizing prev arrived passed best with
  | nil =>
      have hf := outcome_front h
      rw [Front.outcome, findSome?_waiting_nil (waiting_front h)] at hf
      rw [scan, ← hf]
      simp only [List.head?_nil]
      by_cases ha : (p.front prev none arrived).accepts = true <;> simp [ha]
  | cons c t ih =>
      have hf := outcome_front h
      obtain ⟨htake, hsettled⟩ := findSome?_waiting_cons (waiting_front h)
      rw [Front.outcome, htake] at hf
      rw [scan, ← hf]
      simp only [List.head?_cons] at hsettled ⊢
      split
      · rename_i hnil
        rw [List.isEmpty_iff.mp hnil]
        by_cases ha : (p.front prev (some c) arrived).accepts = true <;> simp [ha]
      · rw [ih hsettled]
        cases (p.take c (p.front prev (some c) arrived).waiting).findSome?
          (outcome p.code (some c) t) with
        | none => by_cases ha : (p.front prev (some c) arrived).accepts = true <;> simp [ha]
        | some w => simp; omega

/-- A program that is tied to the start of the text finds what backtracking
from its first address finds. -/
theorem find?_eq_of_leads {t : Text} {r : Option Text} (hp : p.isTied = true)
    (h : Leads p.code none t 0 r) : p.find? t = r := by
  have hsettled : ∀ i ∈ [0], Settled p.code none t i :=
    fun i hi => List.mem_singleton.mp hi ▸ ⟨r, h⟩
  have hscan := scan_eq hsettled 0 none
  rw [find?, if_pos hp, matchAt?, hscan]
  simp only [findSome?_cons_eq_or, List.findSome?_nil, Option.or_none, h.outcome_eq]
  cases r with
  | none => rfl
  | some w => simpa using (List.prefix_iff_eq_take.mp (h.isPrefix w rfl)).symm

end
end Program
end Pattern
end Decaf
