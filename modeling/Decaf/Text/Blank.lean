/-
Blank characters: the property White_Space of Unicode, and trimming at the
end of a text.
-/
import Decaf.Text.Basic
import Decaf.Text.Ranges

namespace Decaf
namespace Text

/-- The code points with the property White_Space. -/
def blankRanges : Ranges :=
  [(0x9, 0xD), (0x20, 0x20), (0x85, 0x85), (0xA0, 0xA0), (0x1680, 0x1680), (0x2000, 0x200A),
    (0x2028, 0x2029), (0x202F, 0x202F), (0x205F, 0x205F), (0x3000, 0x3000)]

/-- Whether a character is blank: a space of any width, a tab, or a mark that
ends a line. -/
def isBlank (c : Char) : Bool := blankRanges.contains c.toNat

example : blankRanges.sorted = true := by decide

/-- The text without the blanks at its end. -/
def trimEnd (t : Text) : Text := (t.reverse.dropWhile isBlank).reverse

@[simp] theorem trimEnd_nil : trimEnd [] = [] := rfl

/-- Only blanks are cut off. -/
theorem eq_trimEnd_append (t : Text) :
    ∃ blanks, t = trimEnd t ++ blanks ∧ ∀ c ∈ blanks, isBlank c = true := by
  refine ⟨(t.reverse.takeWhile isBlank).reverse, ?_, ?_⟩
  · rw [trimEnd, ← List.reverse_append, List.takeWhile_append_dropWhile, List.reverse_reverse]
  · intro c hc
    exact List.all_eq_true.1 List.all_takeWhile c (List.mem_reverse.1 hc)

/-- What is left does not end in a blank. -/
theorem isBlank_getLast?_trimEnd {t : Text} {c : Char} (h : (trimEnd t).getLast? = some c) :
    isBlank c = false := by
  rw [trimEnd, List.getLast?_reverse] at h
  have := List.head?_dropWhile_not isBlank t.reverse
  rw [h] at this
  simpa using this

/-- Up to a character that is not blank, nothing is cut off. -/
theorem trimEnd_append_cons {c : Char} (hc : isBlank c = false) (s t : Text) :
    trimEnd (s ++ c :: t) = s ++ c :: trimEnd t := by
  rw [trimEnd, List.reverse_append, List.reverse_cons, List.append_assoc, List.singleton_append,
    dropWhile_append_cons hc]
  simp [trimEnd]

/-- Of a line, the line feed is cut off. -/
theorem lineFeed_not_mem_trimEnd {t : Text} (h : '\n' ∉ t.dropLast) : '\n' ∉ trimEnd t := by
  obtain ⟨blanks, ht, -⟩ := eq_trimEnd_append t
  intro hmem
  rcases List.eq_nil_or_concat blanks with rfl | ⟨blanks, c, rfl⟩
  · -- Nothing is cut off, so that the last character is not blank.
    obtain ⟨u, c, hu⟩ :=
      (List.eq_nil_or_concat (trimEnd t)).resolve_left (List.ne_nil_of_mem hmem)
    rw [List.concat_eq_append] at hu
    have hc : isBlank c = false := isBlank_getLast?_trimEnd (by rw [hu, List.getLast?_concat])
    rw [ht, List.append_nil, hu, List.dropLast_concat] at h
    rw [hu, List.mem_append, List.mem_singleton] at hmem
    rcases hmem with hmem | rfl
    · exact h hmem
    · cases hc
  · rw [ht, List.concat_eq_append, ← List.append_assoc, List.dropLast_concat] at h
    exact h (List.mem_append_left _ hmem)

end Text
end Decaf
