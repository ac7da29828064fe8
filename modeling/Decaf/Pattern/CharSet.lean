/-
Sets of characters.

A set is kept as the ranges of its code points, in order and joined where they
meet, whatever way it was written: a class that lists its members, a class
that lists what it leaves out, the dot, or a choice between characters.  So
two sets with the same characters are found equal.
-/
import Decaf.Text.Ranges

namespace Decaf
namespace Pattern

/-- A set of characters, by their code points. -/
structure CharSet where
  ranges : Ranges
deriving DecidableEq, Repr

namespace CharSet

/-- Whether a character belongs to the set. -/
def contains (s : CharSet) (c : Char) : Bool := s.ranges.contains c.toNat

/-- The set of one character. -/
def single (c : Char) : CharSet := ⟨[(c.toNat, c.toNat)]⟩

/-- The set of the characters of some closed ranges. -/
def ofRanges (rs : List (Char × Char)) : CharSet :=
  ⟨.ofList (rs.map fun r => (r.1.toNat, r.2.toNat))⟩

/-- The characters of some sets. -/
def union (ss : List CharSet) : CharSet := ⟨.ofList (ss.flatMap ranges)⟩

/-! ## What is left out -/

/-- The code point of the next character; those from U+D800 to U+DFFF are of
no character. -/
def codeAfter (n : Nat) : Nat := if n = 0xD7FF then 0xE000 else n + 1

/-- The code point of the character before. -/
def codeBefore (n : Nat) : Nat := if n = 0xE000 then 0xD7FF else n - 1

/-- No character stands between a code point and the one of the next character. -/
theorem codeAfter_le {n m : Nat} (hm : m.isValidChar) : codeAfter n ≤ m ↔ n < m := by
  unfold Nat.isValidChar at hm
  unfold codeAfter
  split <;> omega

/-- No character stands between a code point and the one of the character before. -/
theorem le_codeBefore {n m : Nat} (hm : m.isValidChar) (hn : 0 < n) :
    m ≤ codeBefore n ↔ m < n := by
  unfold Nat.isValidChar at hm
  unfold codeBefore
  split <;> omega

theorem isValidChar_codeBefore {n : Nat} (h : n.isValidChar) (h₀ : 0 < n) :
    (codeBefore n).isValidChar := by
  unfold codeBefore Nat.isValidChar at *
  split <;> omega

theorem isValidChar_codeAfter {n : Nat} (h : n.isValidChar) (hle : codeAfter n ≤ 0x10FFFF) :
    (codeAfter n).isValidChar := by
  unfold codeAfter at *
  unfold Nat.isValidChar at *
  split <;> split at hle <;> omega

/-- The ranges between some ranges, from the code point `next` on. -/
def gapsFrom (next : Nat) : Ranges → Ranges
  | [] => if next ≤ 0x10FFFF then [(next, 0x10FFFF)] else []
  | (a, b) :: rs =>
      if next < a then (next, codeBefore a) :: gapsFrom (codeAfter b) rs
      else gapsFrom (codeAfter b) rs

/-- The characters that do not belong to a set. -/
def complement (s : CharSet) : CharSet := ⟨gapsFrom 0 s.ranges⟩

/-- Every character but the line feed. -/
def dot : CharSet := complement (single '\n')

/-- The only character of a set, if there is just one. -/
def char? (s : CharSet) : Option Char :=
  match s.ranges with
  | [(a, b)] => if a = b then some (Char.ofNat a) else none
  | _ => none

/-! ## Membership -/

@[simp] theorem contains_single (a c : Char) : (single a).contains c = (a == c) := by
  rw [Bool.eq_iff_iff]
  simp only [contains, single, Ranges.contains, List.any_cons, List.any_nil, Bool.or_false,
    Bool.and_eq_true, decide_eq_true_eq, beq_iff_eq]
  constructor
  · intro h
    have : a.toNat = c.toNat := by omega
    exact Char.toNat_inj.1 this
  · rintro rfl
    exact ⟨Nat.le_refl _, Nat.le_refl _⟩

/-- The set of some ranges has the characters of each of them. -/
theorem contains_ofRanges {rs : List (Char × Char)} (hrs : ∀ r ∈ rs, r.1 ≤ r.2) (c : Char) :
    (ofRanges rs).contains c = rs.any fun r => r.1 ≤ c && c ≤ r.2 := by
  rw [contains, ofRanges, Ranges.contains_ofList, Ranges.contains, List.any_map]
  · rfl
  · intro r hr
    obtain ⟨r, hr', rfl⟩ := List.mem_map.1 hr
    exact hrs r hr'

/-- A character from `next` on belongs either to the ranges or to the gaps
between them. -/
theorem contains_gapsFrom (c : Char) (next : Nat) (rs : Ranges) (hs : Ranges.sorted rs = true)
    (hv : ∀ r ∈ rs, r.1.isValidChar ∧ r.2.isValidChar) (hn : ∀ r ∈ rs.head?, next ≤ r.1) :
    Ranges.contains (gapsFrom next rs) c.toNat =
      (decide (next ≤ c.toNat) && !Ranges.contains rs c.toNat) := by
  have hc : c.toNat.isValidChar := c.valid
  induction rs generalizing next with
  | nil =>
      unfold Nat.isValidChar at hc
      rw [Bool.eq_iff_iff, gapsFrom]
      split <;> simp [Ranges.contains] <;> omega
  | cons r rs ih =>
      obtain ⟨a, b⟩ := r
      have ha : next ≤ a := hn (a, b) rfl
      obtain ⟨hab, hbelow, hrest⟩ := Ranges.sorted_cons.mp hs
      have hnext : ∀ r ∈ rs.head?, codeAfter b ≤ r.1 := by
        intro r hr
        have hmem : r ∈ rs := List.mem_of_head? hr
        exact (codeAfter_le (hv r (List.mem_cons_of_mem _ hmem)).1).mpr
          (Nat.lt_of_succ_lt (hbelow r hmem))
      have hbehind : Ranges.contains rs c.toNat = true → b < c.toNat := by
        intro h
        obtain ⟨r, hr, hle, -⟩ := Ranges.contains_iff.mp h
        exact Nat.lt_of_lt_of_le (Nat.lt_of_succ_lt (hbelow r hr)) hle
      have ih := ih (codeAfter b) hrest (fun r hr => hv r (List.mem_cons_of_mem _ hr)) hnext
      simp only [codeAfter_le hc] at ih
      rw [gapsFrom, Ranges.contains_cons, Bool.eq_iff_iff]
      split
      · rename_i hlt
        have hpos : 0 < a := Nat.zero_lt_of_lt hlt
        simp only [Ranges.contains_cons, ih, le_codeBefore hc hpos]
        cases hk : Ranges.contains rs c.toNat with
        | true =>
            have := hbehind hk
            simp
            omega
        | false =>
            simp
            omega
      · rw [ih]
        cases hk : Ranges.contains rs c.toNat with
        | true => simp
        | false =>
            simp
            omega

/-- A set and its complement share no character and miss none, if the ranges
of the set are in order. -/
theorem contains_complement {s : CharSet} (hs : s.ranges.sorted = true)
    (hv : ∀ r ∈ s.ranges, r.1.isValidChar ∧ r.2.isValidChar) (c : Char) :
    s.complement.contains c = !s.contains c := by
  simp [complement, contains, contains_gapsFrom c 0 s.ranges hs hv]

@[simp] theorem contains_dot (c : Char) : dot.contains c = (c != '\n') := by
  rw [dot, contains_complement rfl (by simp [single]; decide), contains_single, bne, BEq.comm]

end CharSet
end Pattern
end Decaf
