/-
Lines and columns address the bytes of a text.

A byte offset below the size of a text lies on exactly one line, and the line
is the same however the offset is found: on a line feed, on the first byte of a
line, on a last line that is not ended, or inside of a character.
`HoldsAt` tells what a line at an offset is without searching for it, and
`lineAt?_eq_some_iff` says that the search finds just that.

    above           below                   the line holds one line feed at most,
    ... \n | line \n | ...                  and it is the last character

So an offset can be told again from the number of its line and its column, and
these come in the order of the offsets (`address_lt_of_locate`).
-/
import Mathlib.Data.List.Basic
import Mathlib.Data.Prod.Lex
import Decaf.Text.Lines

namespace Decaf
namespace Text

variable {t above below : Text} {offset : Nat} {l : Line}

/-- A line holds a byte offset of a text, between the lines above it and the
rest of the text below. -/
structure HoldsAt (t : Text) (offset : Nat) (l : Line) (above below : Text) : Prop where
  text_eq : t = above ++ (l.text ++ below)
  above_ended : above = [] ∨ above.getLast? = some '\n'
  nonempty : l.text ≠ []
  single : '\n' ∉ l.text.dropLast
  ended : l.text.getLast? = some '\n' ∨ below = []
  offset_eq : byteSize above + l.column = offset
  column_lt : l.column < byteSize l.text
  number_eq : l.number = 1 + lineFeeds above

/-! ## The line of an offset -/

/-- Every byte of a text lies in one of its characters. -/
theorem exists_char_of_lt {n : Nat} (h : n < byteSize t) :
    ∃ u c r k, t = u ++ c :: r ∧ n = byteSize u + k ∧ k < c.utf8Size := by
  induction t generalizing n with
  | nil => cases h
  | cons c t ih =>
      by_cases hn : n < c.utf8Size
      · exact ⟨[], c, t, n, rfl, (Nat.zero_add n).symm, hn⟩
      · rw [byteSize_cons] at h
        obtain ⟨u, d, r, k, rfl, hk, hlt⟩ := ih (n := n - c.utf8Size) (by omega)
        refine ⟨c :: u, d, r, k, rfl, ?_, hlt⟩
        rw [byteSize_cons]
        omega

theorem locate_eq_none {number column : Nat} {before : Text} (h : byteSize t ≤ offset) :
    locate number before column offset t = none := by
  induction t generalizing number before column offset with
  | nil => rfl
  | cons c t ih =>
      rw [byteSize_cons] at h
      rw [locate, if_neg (by omega), ih (by omega), ih (by omega), ite_self]

/-- The search finds a line that holds the offset. -/
theorem exists_holdsAt_of_lt (h : offset < byteSize t) :
    ∃ l above below, lineAt? t offset = some l ∧ HoldsAt t offset l above below := by
  obtain ⟨u, c, r, k, rfl, rfl, hk⟩ := exists_char_of_lt h
  obtain ⟨a, b, rfl, ha, hb⟩ := exists_lines u
  obtain ⟨below, hbelow⟩ := restOfLine_isPrefix (c :: r)
  obtain ⟨v, hv⟩ := exists_restOfLine_eq_cons c r
  refine ⟨_, a, below, by rw [List.append_assoc, lineAt?_inside ha hb hk], ?_⟩
  refine {
    text_eq := by rw [List.append_assoc, List.append_assoc, hbelow]
    above_ended := ha
    nonempty := by simp [hv]
    single := ?_
    ended := ?_
    offset_eq := by rw [byteSize_append, Nat.add_assoc]
    column_lt := ?_
    number_eq := rfl }
  · show '\n' ∉ (b ++ restOfLine (c :: r)).dropLast
    rw [hv, List.dropLast_append_of_ne_nil (List.cons_ne_nil c v), ← hv, List.mem_append, not_or]
    exact ⟨hb, lineFeed_not_mem_dropLast_restOfLine _⟩
  · show (b ++ restOfLine (c :: r)).getLast? = some '\n' ∨ below = []
    refine (getLast?_restOfLine (c :: r)).imp ?_ ?_
    · intro hlast
      rw [List.getLast?_append, hlast]
      rfl
    · intro hall
      rwa [hall, List.append_right_eq_self] at hbelow
  · show byteSize b + k < byteSize (b ++ restOfLine (c :: r))
    rw [hv, byteSize_append, byteSize_cons]
    omega

/-- A line that holds an offset is the one that the search finds. -/
theorem HoldsAt.lineAt?_eq (h : HoldsAt t offset l above below) : lineAt? t offset = some l := by
  obtain ⟨number, text, column⟩ := l
  obtain ⟨rfl, habove, -, hsingle, hended, rfl, hlt, rfl⟩ := h
  dsimp only at *
  obtain ⟨b, c, r, k, rfl, rfl, hk⟩ := exists_char_of_lt hlt
  have hb : '\n' ∉ b := by
    rw [List.dropLast_append_of_ne_nil (List.cons_ne_nil c r), List.mem_append, not_or] at hsingle
    exact hsingle.1
  have hrest : restOfLine (c :: r ++ below) = c :: r := by
    refine restOfLine_eq_of_append ?_ (hended.imp_left ?_)
    · intro hmem
      rw [List.dropLast_append_of_ne_nil (List.cons_ne_nil c r)] at hsingle
      exact hsingle (List.mem_append_right b hmem)
    · intro hlast
      rwa [List.getLast?_append_of_ne_nil _ (List.cons_ne_nil c r)] at hlast
  have hinside := lineAt?_inside (r := r ++ below) habove hb hk
  rw [← List.cons_append, hrest] at hinside
  rw [← hinside, byteSize_append, Nat.add_assoc, List.append_assoc]

theorem lineAt?_eq_none_iff : lineAt? t offset = none ↔ byteSize t ≤ offset := by
  constructor
  · intro h
    by_contra hlt
    obtain ⟨l, -, -, hl, -⟩ := exists_holdsAt_of_lt (Nat.lt_of_not_le hlt)
    rw [h] at hl
    cases hl
  · exact locate_eq_none

theorem lineAt?_eq_some_iff :
    lineAt? t offset = some l ↔ ∃ above below, HoldsAt t offset l above below := by
  constructor
  · intro h
    have hlt : offset < byteSize t := by
      refine Nat.lt_of_not_le fun hle => ?_
      rw [lineAt?_eq_none_iff.mpr hle] at h
      cases h
    obtain ⟨l', above, below, hl', hholds⟩ := exists_holdsAt_of_lt hlt
    obtain rfl := Option.some.inj (h.symm.trans hl')
    exact ⟨above, below, hholds⟩
  · rintro ⟨above, below, h⟩
    exact h.lineAt?_eq

/-! ## The order of addresses -/

/-- The number and the column of a line. -/
def Line.address (l : Line) : Nat ×ₗ Nat := toLex (l.number, l.column)

/-- What the search finds lies on a later line, or as far on the current line
as the offset. -/
theorem number_lt_or_of_locate {number column : Nat} {before : Text}
    (h : locate number before column offset t = some l) :
    number < l.number ∨ number = l.number ∧ l.column = column + offset := by
  fun_induction locate number before column offset t with
  | case1 => cases h
  | case2 =>
      cases h
      exact .inr ⟨rfl, rfl⟩
  | case3 number before column offset t hlt ih =>
      rcases ih h with hnumber | ⟨hnumber, -⟩
      · exact .inl (Nat.lt_of_succ_lt hnumber)
      · exact .inl (Nat.lt_of_succ_le (Nat.le_of_eq hnumber))
  | case4 number before column offset c t hlt hc ih =>
      rcases ih h with hnumber | ⟨hnumber, hcolumn⟩
      · exact .inl hnumber
      · exact .inr ⟨hnumber, by omega⟩

/-- Of two offsets the search finds the greater one later. -/
theorem address_lt_of_locate {number column o₁ o₂ : Nat} {before : Text} {l₁ l₂ : Line}
    (h₁ : locate number before column o₁ t = some l₁)
    (h₂ : locate number before column o₂ t = some l₂) (h : o₁ < o₂) : l₁.address < l₂.address := by
  induction t generalizing number before column o₁ o₂ with
  | nil => cases h₁
  | cons c t ih =>
      by_cases hin : o₁ < c.utf8Size
      · rw [locate, if_pos hin] at h₁
        cases h₁
        rw [Line.address, Line.address, Prod.Lex.toLex_lt_toLex]
        rcases number_lt_or_of_locate h₂ with hnumber | ⟨hnumber, hcolumn⟩
        · exact .inl hnumber
        · refine .inr ⟨hnumber, ?_⟩
          dsimp only
          omega
      · rw [locate, if_neg hin] at h₁
        rw [locate, if_neg (by omega)] at h₂
        split at h₁
        · rw [if_pos ‹_›] at h₂
          exact ih h₁ h₂ (by omega)
        · rw [if_neg ‹_›] at h₂
          exact ih h₁ h₂ (by omega)

/-- A byte offset has a line exactly where it lies in the text, and the line is
the one that holds it.  Two offsets are in the order of the numbers of their
lines and of their columns, so none of them share both. -/
theorem lineAt?_addresses (t : Text) :
    (∀ offset, lineAt? t offset = none ↔ byteSize t ≤ offset) ∧
    (∀ offset l, lineAt? t offset = some l ↔ ∃ above below, HoldsAt t offset l above below) ∧
    ∀ o₁ o₂ l₁ l₂, lineAt? t o₁ = some l₁ → lineAt? t o₂ = some l₂ →
      (o₁ < o₂ ↔ l₁.address < l₂.address) ∧ (o₁ = o₂ ↔ l₁.address = l₂.address) := by
  refine ⟨fun _ => lineAt?_eq_none_iff, fun _ _ => lineAt?_eq_some_iff, ?_⟩
  intro o₁ o₂ l₁ l₂ h₁ h₂
  rcases Nat.lt_trichotomy o₁ o₂ with h | rfl | h
  · have hlt := address_lt_of_locate h₁ h₂ h
    exact ⟨iff_of_true h hlt, iff_of_false (Nat.ne_of_lt h) (ne_of_lt hlt)⟩
  · obtain rfl := Option.some.inj (h₁.symm.trans h₂)
    exact ⟨iff_of_false (Nat.lt_irrefl _) (lt_irrefl _), iff_of_true rfl rfl⟩
  · have hlt := address_lt_of_locate h₂ h₁ h
    exact ⟨iff_of_false (Nat.lt_asymm h) (lt_asymm hlt),
      iff_of_false (Nat.ne_of_gt h) (ne_of_gt hlt)⟩

/-- The second byte of a character, on a last line that is not ended, and the
line feed before it. -/
theorem lineAt?_addresses_of_accent :
    lineAt? ['a', '\n', 'é', 'b'] 1 = some ⟨1, ['a', '\n'], 1⟩ ∧
      lineAt? ['a', '\n', 'é', 'b'] 3 = some ⟨2, ['é', 'b'], 1⟩ ∧
      (∃ above below, HoldsAt ['a', '\n', 'é', 'b'] 3 ⟨2, ['é', 'b'], 1⟩ above below) ∧
      Line.address ⟨1, ['a', '\n'], 1⟩ < Line.address ⟨2, ['é', 'b'], 1⟩ := by
  have h₁ : lineAt? ['a', '\n', 'é', 'b'] 1 = some ⟨1, ['a', '\n'], 1⟩ := by decide
  have h₂ : lineAt? ['a', '\n', 'é', 'b'] 3 = some ⟨2, ['é', 'b'], 1⟩ := by decide
  obtain ⟨-, hholds, horder⟩ := lineAt?_addresses ['a', '\n', 'é', 'b']
  exact ⟨h₁, h₂, (hholds 3 _).mp h₂, (horder 1 3 _ _ h₁ h₂).1.mp (by decide)⟩

end Text
end Decaf
