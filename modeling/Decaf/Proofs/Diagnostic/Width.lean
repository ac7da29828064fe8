/-
Errors that cannot be drawn.

A caret stands no further than in column `maxColumn`.  A source within the
default limit has at most one byte more than that, so that an error can stand
in the column behind, at one place only: at the last byte of a source that is
as large as the limit allows, on its first line, where no indentation is cut
off (`render_eq_none_iff`).  All other errors in such a source are drawn.

A row of brackets with a caret at its end is a source of that kind, for one
length (`render_brackets_eq_none_iff`).
-/
import Decaf.Proofs.Diagnostic.Caret

namespace Decaf
namespace Diagnostic

open Text Rule Lexing

variable {limits : Limits} {source file : Text} {e : LexError} {l : Line}

/-- A diagnostic cannot be drawn if its caret would stand too far to the right. -/
theorem render_eq_none_iff_of_line? (hl : line? e source = some l) :
    render e source file = none ↔ maxColumn < caretColumn l := by
  constructor
  · intro h
    refine Nat.lt_of_not_le fun hcolumn => ?_
    rw [render_eq_text hl hcolumn] at h
    cases h
  · intro h
    have hexcerpt : excerpt l = none := by
      unfold excerpt
      exact if_neg (Nat.not_le_of_lt h)
    rw [render, hl]
    dsimp only
    rw [hexcerpt, Option.map_none]

/-- Nothing is cut off a line that does not begin with indentation. -/
theorem length_dropWhile_isIndent_eq_iff {left right : Text} {c : Char} (hc : isIndent c = false) :
    (left.dropWhile isIndent).length = left.length ↔
      ∀ x ∈ (left ++ c :: right).head?, isIndent x = false := by
  cases left with
  | nil => simp [hc]
  | cons x t =>
      cases hx : isIndent x with
      | true =>
          have hlength : (t.dropWhile isIndent).length ≤ t.length :=
            (List.dropWhile_sublist isIndent).length_le
          refine iff_of_false ?_ fun h => ?_
          · rw [List.dropWhile_cons_of_pos hx, List.length_cons]
            omega
          · rw [h x rfl] at hx
            cases hx
      | false => simp [List.dropWhile_cons_of_neg, hx]

/-- Within the default limit of a source one error cannot be drawn, the one at
the very end of the longest line. -/
theorem render_eq_none_iff (h : tokenize limits source = .error e)
    (hsize : byteSize source ≤ ({} : Limits).source) (file : Text) :
    render e source file = none ↔
      byteSize source = ({} : Limits).source ∧ e.position = some ⟨1, maxColumn⟩ ∧
        ∀ x ∈ source.head?, isIndent x = false := by
  obtain ⟨pos, above, left, c, right, line, hpos, hstands, hnumber, hleft, hindent, -, hl⟩ :=
    exists_line?_of_error (tokenize_eq_error_iff.mp h)
  obtain ⟨rfl, hoffset, hended, -⟩ := hstands
  have hlimit : ({} : Limits).source = maxColumn + 1 := rfl
  have hc : 0 < c.utf8Size := c.utf8Size_pos
  have hcut : (left.dropWhile isIndent).length ≤ left.length :=
    (List.dropWhile_sublist isIndent).length_le
  rw [render_eq_none_iff_of_line? hl, caretColumn_eq hleft hindent, hpos]
  rw [byteSize_append, byteSize_eq_length hleft] at hoffset
  rw [byteSize_append, byteSize_append, byteSize_cons, byteSize_eq_length hleft] at hsize ⊢
  constructor
  · intro hwide
    -- Nothing stands above the line or behind the character, and nothing is cut off.
    obtain ⟨habove, hcut⟩ :
        byteSize above = 0 ∧ (left.dropWhile isIndent).length = left.length := by omega
    obtain rfl : above = [] := by
      have := length_le_byteSize above
      exact List.eq_nil_of_length_eq_zero (by omega)
    refine ⟨by omega, congrArg some ?_, (length_dropWhile_isIndent_eq_iff hindent).mp hcut⟩
    show (⟨pos.line, pos.offset⟩ : Position) = ⟨1, maxColumn⟩
    rw [hnumber, hoffset, Position.mk.injEq]
    exact ⟨rfl, by omega⟩
  · rintro ⟨-, hposition, hhead⟩
    obtain rfl := Option.some.inj hposition
    change 1 = 1 + lineFeeds above at hnumber
    change maxColumn = byteSize above + left.length at hoffset
    obtain rfl : above = [] := eq_nil_of_lineFeeds_eq_zero hended (by omega)
    rw [byteSize_nil, Nat.zero_add] at hoffset
    rw [(length_dropWhile_isIndent_eq_iff hindent).mpr hhead, ← hoffset]
    exact Nat.lt_succ_self maxColumn

/-- Behind a few characters an error is drawn. -/
theorem render_eq_none_iff_of_short :
    tokenize {} "x = ^".toList = .error ⟨.unexpected '^', some ⟨1, 4⟩⟩ ∧
      byteSize "x = ^".toList ≤ ({} : Limits).source ∧
      render ⟨.unexpected '^', some ⟨1, 4⟩⟩ "x = ^".toList "a.decaf".toList ≠ none := by
  have h : tokenize {} "x = ^".toList = .error ⟨.unexpected '^', some ⟨1, 4⟩⟩ :=
    tokenize_eq_error_iff.mpr (lex_of_error? (by decide +kernel))
  have hsize : byteSize "x = ^".toList ≤ ({} : Limits).source := by decide
  refine ⟨h, hsize, fun hnone => ?_⟩
  obtain ⟨hfull, -⟩ := (render_eq_none_iff h hsize _).mp hnone
  exact absurd hfull (by decide)

/-! ## A row of brackets -/

theorem ascii_of_mem_brackets {n : Nat} {x : Char} (h : x ∈ List.replicate n '(') :
    x.toNat < 0x80 := by
  rw [List.eq_of_mem_replicate h]
  decide

theorem byteSize_brackets (n : Nat) : byteSize (List.replicate n '(') = n := by
  rw [byteSize_eq_length fun _ => ascii_of_mem_brackets, List.length_replicate]

/-- A row of brackets is passed over one by one. -/
theorem steps_brackets {r : Text} (hlimit : 0 < limits.lexeme) (n line offset : Nat) :
    ∃ ms ps, Steps limits ⟨List.replicate n '(' ++ r, line, offset⟩ ms ps
      ⟨r, line, offset + n⟩ := by
  induction n generalizing offset with
  | zero => exact ⟨[], [], .refl⟩
  | succ n ih =>
      obtain ⟨ms, ps, t⟩ := ih (offset + 1)
      have hb : Begins (['('] ++ (List.replicate n '(' ++ r)) ⟨8, .token .symbol, ['(']⟩ :=
        .punctuation (by decide)
      rw [Nat.add_right_comm, Nat.add_assoc] at t
      exact ⟨_, _, .step (step_of_tokenKind hb rfl hlimit line offset) t⟩

/-- Lexing stops at a character behind the row that no token begins with. -/
theorem tokenize_brackets (hlimit : 0 < limits.lexeme) (n : Nat) :
    tokenize limits (List.replicate n '(' ++ ['^']) =
      .error ⟨.unexpected '^', some ⟨1, n⟩⟩ := by
  obtain ⟨ms, ps, t⟩ := steps_brackets (r := ['^']) hlimit n 1 0
  rw [Nat.zero_add] at t
  have hnone : select? table ['^'] = none := by decide +kernel
  have hfails : step limits ⟨['^'], 1, n⟩ = .failed none (.unexpected '^') := by
    rw [step, hnone]
    rfl
  exact tokenize_eq_error_iff.mpr
    (lex_eq_error_iff.mpr ⟨ms, ps, _, _, _, t, List.cons_ne_nil _ _, hfails, rfl⟩)

/-- The error behind a row of brackets cannot be drawn if the row fills the
columns. -/
theorem render_brackets_eq_none_iff (n : Nat) (file : Text) :
    render ⟨.unexpected '^', some ⟨1, n⟩⟩ (List.replicate n '(' ++ ['^']) file = none ↔
      maxColumn ≤ n := by
  have hstands : StandsAt (List.replicate n '(' ++ ['^']) n [] (List.replicate n '(') '^' [] := {
    source_eq := rfl
    offset_eq := (byteSize_brackets n).symm
    above_ended := .inl rfl
    left_open := by simp }
  have hl : line? ⟨.unexpected '^', some ⟨1, n⟩⟩ (List.replicate n '(' ++ ['^']) =
      some ⟨1, List.replicate n '(' ++ ['^'], byteSize (List.replicate n '(')⟩ :=
    hstands.lineAt?_eq
  have hcut : (List.replicate n '(').dropWhile isIndent = List.replicate n '(' := by
    cases n <;> rfl
  rw [render_eq_none_iff_of_line? hl, caretColumn_eq (fun _ => ascii_of_mem_brackets)
    (by decide), hcut, List.length_replicate, Nat.lt_succ_iff]

/-- A source that is as large as the default limit allows, with an error that
cannot be drawn. -/
theorem render_eq_none_of_brackets :
    byteSize (List.replicate 65535 '(' ++ ['^']) = ({} : Limits).source ∧
      tokenize {} (List.replicate 65535 '(' ++ ['^']) =
        .error ⟨.unexpected '^', some ⟨1, 65535⟩⟩ ∧
      render ⟨.unexpected '^', some ⟨1, 65535⟩⟩ (List.replicate 65535 '(' ++ ['^'])
        "a.decaf".toList = none := by
  refine ⟨?_, tokenize_brackets (by decide) 65535,
    (render_brackets_eq_none_iff 65535 _).mpr (Nat.le_refl _)⟩
  rw [byteSize_append, byteSize_brackets]
  rfl

end Diagnostic
end Decaf
