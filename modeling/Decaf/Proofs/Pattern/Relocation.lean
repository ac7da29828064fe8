/-
Programs at other addresses.

The code emitted for an expression depends on where it begins and on where it
goes on, but on nothing else: emitted at another place it is the same code with
its addresses renamed (`relocates`).  So the program of an expression stands in
every program that the expression is a part of, if that program accepts behind it
(`embeds_program`).
-/
import Decaf.Proofs.Pattern.Emission

namespace Decaf
namespace Pattern

/-! ## Instructions -/

namespace Instruction

/-- The instruction with its addresses renamed. -/
def relocate (ρ : Nat → Nat) : Instruction → Instruction
  | .take s next => .take s (ρ next)
  | .look a next => .look a (ρ next)
  | .jump next => .jump (ρ next)
  | .split first second => .split (ρ first) (ρ second)
  | .accept => .accept

/-- The addresses that an instruction names. -/
def targets : Instruction → List Nat
  | .take _ next | .look _ next | .jump next => [next]
  | .split first second => [first, second]
  | .accept => []

variable {ρ : Nat → Nat} {i : Instruction} {holds : Anchor → Bool} {j : Nat}

theorem ways_relocate : (i.relocate ρ).ways holds = (i.ways holds).map ρ := by
  cases i with
  | look a next => exact (apply_ite (List.map ρ) (holds a = true) [next] []).symm
  | _ => rfl

theorem target?_relocate {c : Char} : (i.relocate ρ).target? c = (i.target? c).map ρ := by
  cases i with
  | take s next => exact (apply_ite (Option.map ρ) (s.contains c = true) (some next) none).symm
  | _ => rfl

theorem relocate_ne_accept (h : i ≠ .accept) : i.relocate ρ ≠ .accept := by
  cases i with
  | accept => exact absurd rfl h
  | _ => exact nofun

theorem relocate_ne_take (h : ∀ s next, i ≠ .take s next) (s : CharSet) (next : Nat) :
    i.relocate ρ ≠ .take s next := by
  cases i with
  | take s next => exact absurd rfl (h s next)
  | _ => exact nofun

theorem relocate_choose (g : Greed) (round next : Nat) :
    (choose g round next).relocate ρ = choose g (ρ round) (ρ next) := by
  cases g <;> rfl

theorem choose_ne_accept (g : Greed) (round next : Nat) : choose g round next ≠ .accept := by
  cases g <;> exact nofun

theorem mem_targets_choose {g : Greed} {round next : Nat} (h : j ∈ (choose g round next).targets) :
    j = round ∨ j = next := by
  cases g <;> simp_all [choose, targets, or_comm]

theorem mem_targets_of_mem_ways (h : j ∈ i.ways holds) : j ∈ i.targets := by
  cases i with
  | look a next =>
      rw [ways] at h
      split at h
      · exact h
      · cases h
  | take | accept => cases h
  | jump | split => exact h

theorem mem_targets_of_target? {c : Char} (h : i.target? c = some j) : j ∈ i.targets := by
  cases i with
  | take s next =>
      rw [target?] at h
      split at h
      · cases h
        exact List.mem_singleton.mpr rfl
      · cases h
  | _ => cases h

end Instruction

namespace Program

/-! ## Code emitted twice -/

/-- The code for an expression of length `n` is emitted from nothing, and once
more behind `base` other instructions.  As much of it is there on both sides, and
it is the same up to the renaming of addresses; none of it accepts. -/
structure Copies (ρ : Nat → Nat) (base n : Nat) (code code' : Array Instruction) : Prop where
  size_eq : code'.size = base + code.size
  instruction : ∀ i, i < code.size → ∃ x, code[i]? = some x ∧
    code'[base + i]? = some (x.relocate ρ) ∧ x ≠ .accept ∧ ∀ j ∈ x.targets, j ≤ n

/-- An expression is emitted alike on both sides, if it goes on at addresses that
are the same up to the renaming. -/
structure Relocates (ρ : Nat → Nat) (base n : Nat) (a : Expr) : Prop where
  copies : ∀ {code code' : Array Instruction} {next : Nat}, Copies ρ base n code code' →
    next ≤ n → code.size + a.length ≤ n → Copies ρ base n (emit code next a) (emit code' (ρ next) a)

section

variable {ρ : Nat → Nat} {base n : Nat} {code code' : Array Instruction} {next : Nat}

theorem Copies.push (h : Copies ρ base n code code') (x : Instruction) (hna : x ≠ .accept)
    (hx : ∀ j ∈ x.targets, j ≤ n) : Copies ρ base n (code.push x) (code'.push (x.relocate ρ)) := by
  refine ⟨by rw [Array.size_push, Array.size_push, h.size_eq, Nat.add_assoc], fun i hi => ?_⟩
  rw [Array.size_push] at hi
  rcases Nat.lt_succ_iff_lt_or_eq.mp hi with hi | rfl
  · obtain ⟨y, hy, hy', hyna, hn⟩ := h.instruction i hi
    have hi' : base + i < code'.size := h.size_eq ▸ Nat.add_lt_add_left hi base
    refine ⟨y, ?_, ?_, hyna, hn⟩
    · rw [extends_push code x i hi, hy]
    · rw [extends_push code' _ _ hi', hy']
  · refine ⟨x, Array.getElem?_push_size, ?_, hna, hx⟩
    rw [← h.size_eq, Array.getElem?_push_size]

theorem Copies.push_choose (h : Copies ρ base n code code') (g : Greed) (round next : Nat)
    (hround : round ≤ n) (hnext : next ≤ n) :
    Copies ρ base n (code.push (.choose g round next))
      (code'.push (.choose g (ρ round) (ρ next))) := by
  rw [← Instruction.relocate_choose]
  refine h.push _ (Instruction.choose_ne_accept g round next) fun j hj => ?_
  rcases Instruction.mem_targets_choose hj with rfl | rfl
  · exact hround
  · exact hnext

theorem Copies.repeat {f f' : Array Instruction → Array Instruction} {k : Nat}
    (hsize : ∀ code, (f code).size = code.size + k)
    (hf : ∀ {code code'}, Copies ρ base n code code' → code.size + k < n →
      Copies ρ base n (f code) (f' code'))
    (h : Copies ρ base n code code') :
    ∀ m, code.size + m * k < n → Copies ρ base n (Nat.repeat f m code) (Nat.repeat f' m code')
  | 0, _ => h
  | m + 1, hm => by
      rw [Nat.succ_mul, ← Nat.add_assoc] at hm
      rw [Nat.repeat, Nat.repeat]
      refine hf (Copies.repeat hsize hf h m (by omega)) ?_
      rw [size_repeat hsize]
      exact hm

theorem size_emitChance (g : Greed) (next : Nat) (a : Expr) (code : Array Instruction) :
    (emitChance g next a code).size = code.size + (a.length + 1) := by
  rw [size_emit, Array.size_push]
  omega

/-- Every expression has an instruction. -/
theorem length_pos (e : Expr) : 0 < e.length := by
  induction e with
  | empty | set | look => exact Nat.one_pos
  | text w => exact Nat.lt_of_lt_of_le Nat.one_pos (Nat.le_max_left 1 w.length)
  | group a ih => exact ih
  | seq a b iha ihb => exact Nat.add_pos_left iha _
  | alt a b iha ihb => exact Nat.succ_pos _
  | rep g min max a ih =>
      cases max with
      | none =>
          cases min with
          | zero =>
              simp only [Expr.length, Expr.repeatLength]
              split <;> omega
          | succ k => exact Nat.succ_pos _
      | some m =>
          simp only [Expr.length, Expr.repeatLength]
          split
          · exact Nat.add_pos_right _ (Nat.mul_pos (by omega) (Nat.succ_pos _))
          · split
            · exact Nat.one_pos
            · exact Nat.mul_pos (by omega) ih

/-! ## Expressions -/

variable (hρ : ∀ i < n, ρ i = base + i)
include hρ

/-- An address further on in the code. -/
theorem Copies.address (h : Copies ρ base n code code') (k : Nat) (hk : code.size + k < n) :
    ρ (code.size + k) = code'.size + k := by
  rw [hρ _ hk, h.size_eq, Nat.add_assoc]

theorem copies_emitText (w : Text) (hnext : next ≤ n) (h : Copies ρ base n code code')
    (hn : code.size + Nat.max 1 w.length ≤ n) :
    Copies ρ base n (emitText code next w) (emitText code' (ρ next) w) := by
  induction w generalizing code code' with
  | nil => exact h.push (.jump next) nofun (by simpa [Instruction.targets] using hnext)
  | cons c w ih =>
      cases w with
      | nil =>
          refine h.push (.take (.single c) next) nofun ?_
          simpa [Instruction.targets] using hnext
      | cons d w =>
          simp only [List.length_cons, Nat.max_def] at hn ih
          have hlt : code.size + 1 < n := by split at hn <;> omega
          have hpush := h.push (.take (.single c) (code.size + 1)) nofun
            (by simpa [Instruction.targets] using Nat.le_of_lt hlt)
          rw [Instruction.relocate, h.address hρ 1 hlt] at hpush
          refine ih hpush ?_
          rw [Array.size_push]
          split <;> split at hn <;> omega

variable {a b : Expr} {g : Greed}

theorem Relocates.round (ha : Relocates ρ base n a) (h : Copies ρ base n code code')
    (hn : code.size + a.length < n) : Copies ρ base n (emitRound a code) (emitRound a code') := by
  rw [emitRound, emitRound, ← h.address hρ _ hn]
  exact ha.copies h (Nat.le_of_lt hn) (Nat.le_of_lt hn)

theorem Relocates.chance (ha : Relocates ρ base n a) (h : Copies ρ base n code code')
    (hnext : next ≤ n) (hn : code.size + (a.length + 1) < n) :
    Copies ρ base n (emitChance g next a code) (emitChance g (ρ next) a code') := by
  have hchoose := h.push_choose g (code.size + 1) next (by omega) hnext
  rw [h.address hρ 1 (by omega)] at hchoose
  rw [emitChance, emitChance, Nat.add_assoc, Nat.add_assoc, Nat.add_comm 1, ← h.address hρ _ hn]
  refine ha.copies hchoose (Nat.le_of_lt hn) ?_
  rw [Array.size_push]
  omega

theorem Relocates.seq (ha : Relocates ρ base n a) (hb : Relocates ρ base n b) :
    Relocates ρ base n (.seq a b) := by
  refine ⟨fun {code code' next} h hnext hn => ?_⟩
  simp only [Expr.length] at hn
  have hpos := length_pos b
  refine hb.copies (ha.round hρ h (by omega)) hnext ?_
  rw [size_emit]
  omega

theorem Relocates.alt (ha : Relocates ρ base n a) (hb : Relocates ρ base n b) :
    Relocates ρ base n (.alt a b) := by
  refine ⟨fun {code code' next} h hnext hn => ?_⟩
  simp only [Expr.length] at hn
  have hpos := length_pos b
  have hsplit := h.push_choose .greedy (code.size + 1) (code.size + 1 + a.length) (by omega)
    (by omega)
  rw [h.address hρ 1 (by omega), Nat.add_assoc, h.address hρ _ (by omega), ← Nat.add_assoc,
    ← Nat.add_assoc] at hsplit
  refine hb.copies (ha.copies hsplit hnext ?_) hnext ?_
  · rw [Array.size_push]
    omega
  · rw [size_emit, Array.size_push]
    omega

/-- A repeat without an upper bound. -/
theorem Relocates.atLeast (ha : Relocates ρ base n a) {min : Nat} :
    Relocates ρ base n (.rep g min none a) := by
  refine ⟨fun {code code' next} h hnext hn => ?_⟩
  have hpos := length_pos a
  cases min with
  | zero =>
      simp only [Expr.length, Expr.repeatLength] at hn
      simp only [emit]
      split
      · rename_i hc
        rw [if_pos hc] at hn
        have hchoose := h.push_choose g (code.size + 1) next (by omega) hnext
        rw [h.address hρ 1 (by omega)] at hchoose
        have hbody := ha.copies hchoose (show code.size ≤ n by omega) (by
          rw [Array.size_push]
          omega)
        rwa [show ρ code.size = code'.size from h.address hρ 0 (by omega)] at hbody
      · rename_i hc
        rw [if_neg hc] at hn
        have hchance := ha.chance (g := g) hρ h hnext (by omega)
        have hlast := hchance.push_choose g (code.size + 1) next (by omega) hnext
        rwa [h.address hρ 1 (by omega)] at hlast
  | succ k =>
      simp only [Expr.length, Expr.repeatLength, Nat.succ_mul] at hn
      simp only [emit, Nat.add_sub_cancel]
      have hrounds := Copies.repeat (fun code => size_emit a code _) (ha.round hρ) h (k + 1) (by
        rw [Nat.succ_mul]
        omega)
      rw [← h.address hρ _ (by omega)]
      exact hrounds.push_choose g _ next (by omega) hnext

/-- A repeat with an upper bound. -/
theorem Relocates.between (ha : Relocates ρ base n a) {min max : Nat} :
    Relocates ρ base n (.rep g min (some max) a) := by
  refine ⟨fun {code code' next} h hnext hn => ?_⟩
  have hpos := length_pos a
  have hrounds : ∀ m, code.size + m * a.length < n →
      Copies ρ base n (Nat.repeat (emitRound a) m code) (Nat.repeat (emitRound a) m code') :=
    Copies.repeat (fun code => size_emit a code _) (ha.round hρ) h
  simp only [Expr.length, Expr.repeatLength] at hn
  simp only [emit]
  split
  · rename_i hlt
    obtain ⟨k, rfl⟩ : ∃ k, max = min + k + 1 := ⟨max - min - 1, by omega⟩
    rw [if_pos hlt, show min + k + 1 - min = k + 1 by omega, Nat.succ_mul] at hn
    rw [show min + k + 1 - min - 1 = k by omega]
    have hchances : Copies ρ base n
        (Nat.repeat (emitChance g next a) k (Nat.repeat (emitRound a) min code))
        (Nat.repeat (emitChance g (ρ next) a) k (Nat.repeat (emitRound a) min code')) :=
      Copies.repeat (size_emitChance g next a) (fun h hlt => ha.chance hρ h hnext hlt)
        (hrounds min (by omega)) k (by rw [size_repeat_round]; omega)
    have hchoose := hchances.push_choose g
      (code.size + (min * a.length + k * (a.length + 1) + 1)) next (by omega) hnext
    rw [h.address hρ _ (by omega), ← Nat.add_assoc, ← Nat.add_assoc, ← Nat.add_assoc,
      ← Nat.add_assoc] at hchoose
    refine ha.copies hchoose hnext ?_
    rw [Array.size_push, size_repeat_chance, size_repeat_round]
    omega
  · rename_i hge
    rw [if_neg hge] at hn
    split
    · exact h.push (.jump next) (by simp) (by simpa [Instruction.targets] using hnext)
    · rename_i hmin
      obtain ⟨k, rfl⟩ : ∃ k, min = k + 1 := ⟨min - 1, by omega⟩
      rw [if_neg hmin, Nat.succ_mul] at hn
      rw [Nat.add_sub_cancel]
      refine ha.copies (hrounds k (by omega)) hnext ?_
      rw [size_repeat_round]
      omega

/-- Every expression is emitted alike wherever it begins. -/
theorem relocates (e : Expr) : Relocates ρ base n e := by
  induction e with
  | empty =>
      exact ⟨fun h hnext _ => h.push (.jump _) nofun (by simpa [Instruction.targets] using hnext)⟩
  | text w => exact ⟨fun h hnext hn => copies_emitText hρ w hnext h hn⟩
  | set s =>
      exact ⟨fun h hnext _ => h.push (.take s _) nofun (by simpa [Instruction.targets] using hnext)⟩
  | look a =>
      exact ⟨fun h hnext _ => h.push (.look a _) nofun (by simpa [Instruction.targets] using hnext)⟩
  | group a ih => exact ⟨ih.copies⟩
  | seq a b iha ihb => exact iha.seq hρ ihb
  | alt a b iha ihb => exact iha.alt hρ ihb
  | rep g min max a ih =>
      cases max with
      | none => exact ih.atLeast hρ
      | some m => exact ih.between hρ

end

/-! ## One program within another -/

/-- The code of a program stands within other code, with its addresses renamed.
It names no address outside of itself. -/
structure Embeds (ρ : Nat → Nat) (code code' : Array Instruction) : Prop where
  instruction : ∀ {i : Nat} {x : Instruction}, code[i]? = some x →
    code'[ρ i]? = some (x.relocate ρ)
  closed : ∀ {i : Nat} {x : Instruction}, code[i]? = some x → ∀ j ∈ x.targets, j < code.size
  injective : ∀ {i j : Nat}, i < code.size → j < code.size → ρ i = ρ j → i = j

/-- Where the code of an expression that begins at `base` and goes on at `next`
has the instructions of its program. -/
def placed (base next length i : Nat) : Nat := if i < length then base + i else next

/-- The program of an expression stands wherever the expression is emitted, if the
code that it goes on to accepts and comes later. -/
theorem embeds_program {e : Expr} {code code' : Array Instruction} {next : Nat}
    (hx : Extends (emit code next e) code') (hnext : code.size + e.length ≤ next)
    (haccept : code'[next]? = some .accept) :
    Embeds (placed code.size next e.length) e.program.code code' := by
  generalize hρ : placed code.size next e.length = ρ
  have hbefore : ∀ i < e.length, ρ i = code.size + i := fun i hi => by rw [← hρ, placed, if_pos hi]
  have hbehind : ρ e.length = next := by rw [← hρ, placed, if_neg (Nat.lt_irrefl _)]
  have hempty : Copies ρ code.size e.length #[] code :=
    ⟨rfl, fun i hi => absurd hi (Nat.not_lt_zero i)⟩
  have hcopies : Copies ρ code.size e.length (emit #[] e.length e) (emit code next e) := by
    rw [← hbehind]
    exact (relocates hbefore e).copies hempty (Nat.le_refl _) (Nat.le_of_eq (Nat.zero_add _))
  have hsize : (emit #[] e.length e).size = e.length := by
    rw [size_emit, Array.size_empty, Nat.zero_add]
  have hsize' : e.program.code.size = e.length + 1 := by
    rw [Expr.program, Array.size_push, hsize]
  have hcases : ∀ {i : Nat} {x : Instruction}, e.program.code[i]? = some x →
      code'[ρ i]? = some (x.relocate ρ) ∧ ∀ j ∈ x.targets, j ≤ e.length := by
    intro i x hi
    have hle : i < e.length + 1 := hsize' ▸ (Array.getElem?_eq_some_iff.mp hi).1
    rcases Nat.lt_succ_iff_lt_or_eq.mp hle with hlt | rfl
    · obtain ⟨y, hy, hy', -, hn⟩ := hcopies.instruction i (hsize.symm ▸ hlt)
      have hfirst : e.program.code[i]? = some y := by
        rw [← hy]
        exact extends_push _ _ i (hsize.symm ▸ hlt)
      obtain rfl : y = x := Option.some.inj (hfirst.symm.trans hi)
      refine ⟨?_, hn⟩
      rw [hbefore i hlt, hx _ (by rw [size_emit]; omega), hy']
    · have hlast : e.program.code[e.length]? = some .accept := by
        rw [← hsize]
        exact Array.getElem?_push_size
      obtain rfl : Instruction.accept = x := Option.some.inj (hlast.symm.trans hi)
      exact ⟨by rw [hbehind, haccept]; rfl, fun j hj => absurd hj List.not_mem_nil⟩
  refine ⟨fun hi => (hcases hi).1, fun hi j hj => ?_, fun {i j} hi hj hij => ?_⟩
  · have := (hcases hi).2 j hj
    omega
  · rw [← hρ, placed, placed] at hij
    split at hij <;> split at hij <;> omega

end Program
end Pattern
end Decaf
