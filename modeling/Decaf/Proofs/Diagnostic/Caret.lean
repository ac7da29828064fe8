/-
The caret under an error.

A diagnostic that shows a line of the source is drawn in five lines.  The caret
that ends the last of them is placed by a column in bytes, and a reader finds
it by counting characters.  Where lexing stops the two agree, since what stands
to the left on the line is of ASCII; so the caret stands under the character
that lexing stopped at (`render_pointsAt`).

Two more things could move them apart, and do not.  The indentation is cut off
the line, and it ends before the character, which is neither a space nor a tab;
so the caret moves by as much as the character.  And blanks are cut off at the
end of the line, but none before a character that is not blank.
-/
import Decaf.Diagnostic
import Decaf.Proofs.Lexing.Columns
import Decaf.Proofs.Lexing.Errors

namespace Decaf
namespace Diagnostic

open Text Rule Lexing

/-! ## The lines of a diagnostic -/

/-- The lines of a diagnostic that shows a line of the source. -/
structure Drawing where
  error : Text
  file : Text
  above : Text
  excerpt : Text
  caret : Text

namespace Drawing

/-- The lines from top to bottom. -/
def lines (d : Drawing) : List Text := [d.error, d.file, d.above, d.excerpt, d.caret]

/-- The diagnostic itself, where each line is ended by a line feed. -/
def text (d : Drawing) : Text := d.lines.flatMap (· ++ ['\n'])

/-- A drawing points at a character of the line `number`, where `left` is what
stands before the character on its line.  The caret is as far behind the margin
as the character is behind the indentation, in characters. -/
structure PointsAt (d : Drawing) (number : Nat) (left : Text) (c : Char) : Prop where
  on_lines : ∀ l ∈ d.lines, '\n' ∉ l
  numbered : decimal number ++ " | ".toList <+: d.excerpt
  caret_at : ∃ u, d.caret = u ++ ['^'] ∧
    u.length = (decimal number ++ " | ".toList).length + (left.dropWhile isIndent).length ∧
    (isBlank c = false → d.excerpt[u.length]? = some c)

end Drawing

/-- The lines of the diagnostic that shows the line `l`. -/
def drawing (e : LexError) (file : Text) (l : Line) : Drawing where
  error := "Error: ".toList ++ e.message ++
    e.tip.elim [] fun tip => " (".toList ++ tip ++ ")".toList
  file := "-> ".toList ++ file
  above := margin (decimal l.number).length
  excerpt := decimal l.number ++ " | ".toList ++ shown l.text
  caret := margin (decimal l.number).length ++ " ".toList ++ ['^'].leftpad (caretColumn l) '-'

variable {limits : Limits} {source file : Text} {e : LexError} {l : Line}

theorem render_eq_text (hl : line? e source = some l) (hcolumn : caretColumn l ≤ maxColumn) :
    render e source file = some (drawing e file l).text := by
  have hheading : heading e file =
      (drawing e file l).error ++ ['\n'] ++ (drawing e file l).file ++ ['\n'] := by
    unfold heading drawing
    cases e.tip <;> simp
  have hexcerpt : excerpt l = some ((drawing e file l).above ++ ['\n'] ++
      (drawing e file l).excerpt ++ ['\n'] ++ (drawing e file l).caret ++ ['\n']) := by
    unfold excerpt drawing
    simp [hcolumn]
  rw [render, hl]
  dsimp only
  rw [hexcerpt, hheading]
  simp [Drawing.text, Drawing.lines]

/-! ## Errors on one line -/

/-- An error that is met in a source is told on one line. -/
theorem lineFeed_not_mem_of_metAt {t : Text} {cause : LexError.Cause}
    (h : MetAt limits t cause) :
    '\n' ∉ cause.message ∧ ∀ tip ∈ cause.tip, '\n' ∉ tip := by
  unfold LexError.Cause.message LexError.Cause.tip
  cases h with
  | unexpected | tooLong => simp
  | @reserved w t hw ht =>
      have hword : ∀ w ∈ Vocabulary.reserved, '\n' ∉ w := by decide +kernel
      simp [hword w hw]

theorem lineFeed_not_mem_margin (digits : Nat) : '\n' ∉ margin digits := by
  simp [margin, List.leftpad]

/-- The diagnostic of an error keeps to its lines. -/
theorem lineFeed_not_mem_lines {t : Text} (h : MetAt limits t e.cause) (hfile : '\n' ∉ file)
    (hshown : '\n' ∉ shown l.text) : ∀ t ∈ (drawing e file l).lines, '\n' ∉ t := by
  obtain ⟨hmessage, htip⟩ := lineFeed_not_mem_of_metAt h
  have hmargin := lineFeed_not_mem_margin (decimal l.number).length
  have hnumber := lineFeed_not_mem_decimal l.number
  unfold Drawing.lines drawing
  simp only [List.forall_mem_cons, List.mem_append, not_or]
  refine ⟨⟨⟨by decide, hmessage⟩, ?_⟩, ⟨by decide, hfile⟩, hmargin, ⟨⟨hnumber, by decide⟩, hshown⟩,
    ⟨⟨hmargin, by decide⟩, by simp [List.leftpad]⟩, nofun⟩
  cases ht : e.tip with
  | none => exact List.not_mem_nil
  | some tip => simp [htip tip ht]

/-! ## The column of the caret -/

theorem isIndent_eq_isSpace (c : Char) : isIndent c = isSpace c := by
  rw [isSpace, List.contains_cons, List.contains_cons, List.contains_nil, Bool.or_false, isIndent]

variable {n : Nat} {left right : Text} {c : Char}

/-- On a line of which the part before a character is of ASCII, the column is
one more than the characters between the indentation and the character. -/
theorem caretColumn_eq (hleft : ∀ x ∈ left, x.toNat < 0x80) (hc : isIndent c = false) :
    caretColumn ⟨n, left ++ c :: right, byteSize left⟩ = (left.dropWhile isIndent).length + 1 := by
  have hlength : left.length =
      (left.takeWhile isIndent).length + (left.dropWhile isIndent).length := by
    rw [← List.length_append, List.takeWhile_append_dropWhile]
  rw [caretColumn, indent, takeWhile_append_cons hc, byteSize_eq_length hleft, hlength,
    Nat.add_sub_cancel_left]

/-- The shown part of a line keeps a character that is not blank, and everything
between the indentation and the character. -/
theorem shown_append_cons (hc : isIndent c = false) (hblank : isBlank c = false) :
    shown (left ++ c :: right) = left.dropWhile isIndent ++ c :: trimEnd right := by
  rw [shown, dropWhile_append_cons hc, trimEnd_append_cons hblank]

theorem lineFeed_not_mem_shown (hc : isIndent c = false) (hleft : '\n' ∉ left)
    (hright : '\n' ∉ (c :: right).dropLast) : '\n' ∉ shown (left ++ c :: right) := by
  rw [shown, dropWhile_append_cons hc]
  refine lineFeed_not_mem_trimEnd ?_
  rw [List.dropLast_append_of_ne_nil (List.cons_ne_nil c right), List.mem_append, not_or]
  exact ⟨fun h => hleft ((List.dropWhile_sublist isIndent).mem h), hright⟩

theorem length_margin_append (digits : Text) :
    (margin digits.length ++ " ".toList).length = (digits ++ " | ".toList).length := by
  simp [margin, List.leftpad]

/-- The caret of a drawing is as far behind the margin as its column says. -/
theorem exists_drawing_caret_eq {k : Nat} (hcolumn : caretColumn l = k + 1) :
    ∃ u, (drawing e file l).caret = u ++ ['^'] ∧
      u.length = (decimal l.number ++ " | ".toList).length + k := by
  refine ⟨margin (decimal l.number).length ++ " ".toList ++ List.replicate k '-', ?_, ?_⟩
  · show margin (decimal l.number).length ++ " ".toList ++ ['^'].leftpad (caretColumn l) '-' = _
    rw [hcolumn, List.leftpad]
    exact (List.append_assoc ..).symm
  · rw [List.length_append, length_margin_append, List.length_replicate]

/-- The character is on the line of the source as far behind the margin as behind
the indentation. -/
theorem getElem?_excerpt (hc : isIndent c = false) (hblank : isBlank c = false) :
    (decimal n ++ " | ".toList ++ shown (left ++ c :: right))[
      (decimal n ++ " | ".toList).length + (left.dropWhile isIndent).length]? = some c := by
  rw [shown_append_cons hc hblank, List.getElem?_append_right (Nat.le_add_right ..),
    Nat.add_sub_cancel_left, List.getElem?_append_right (Nat.le_refl _), Nat.sub_self]
  rfl

/-! ## The line of an error -/

/-- The line that an error is shown on: `left` stands before the character that
lexing stopped at, and `line` behind it. -/
theorem exists_line?_of_error (h : lex limits source = .error e) :
    ∃ (pos : Position) (above left : Text) (c : Char) (right line : Text),
      e.position = some pos ∧ StandsAt source pos.offset above left c right ∧
      pos.line = 1 + lineFeeds above ∧ (∀ x ∈ left, x.toNat < 0x80) ∧ isIndent c = false ∧
      restOfLine (c :: right) = c :: line ∧
      line? e source = some ⟨pos.line, left ++ c :: line, byteSize left⟩ := by
  obtain ⟨pos, above, left, c, right, hpos, hnumber, hstands, hleft, hspace⟩ :=
    exists_standsAt_of_error h
  obtain ⟨line, hline⟩ := exists_restOfLine_eq_cons c right
  refine ⟨pos, above, left, c, right, line, hpos, hstands, hnumber, hleft,
    (isIndent_eq_isSpace c).trans hspace, hline, ?_⟩
  rw [line?, hpos, Option.bind_some, hstands.lineAt?_eq, hline, hnumber]

/-- The caret stands under the character that lexing stopped at: the diagnostic
has five lines, shows the line of the error behind its number, and points at the
character there. -/
theorem render_pointsAt (h : tokenize limits source = .error e) (hfile : '\n' ∉ file)
    (hcolumn : ∀ l ∈ line? e source, caretColumn l ≤ maxColumn) :
    ∃ (d : Drawing) (pos : Position) (above left : Text) (c : Char) (right : Text),
      render e source file = some d.text ∧ e.position = some pos ∧
      StandsAt source pos.offset above left c right ∧ (∀ x ∈ left, x.toNat < 0x80) ∧
      d.PointsAt pos.line left c := by
  have hlex := tokenize_eq_error_iff.mp h
  obtain ⟨pos, above, left, c, right, line, hpos, hstands, -, hleft, hindent, hline, hl⟩ :=
    exists_line?_of_error hlex
  obtain ⟨t, hmet⟩ := exists_metAt_of_error hlex
  have hshown : '\n' ∉ shown (left ++ c :: line) :=
    lineFeed_not_mem_shown hindent hstands.left_open
      (hline ▸ lineFeed_not_mem_dropLast_restOfLine (c :: right))
  obtain ⟨u, hcaret, hlength⟩ := exists_drawing_caret_eq (caretColumn_eq hleft hindent)
  refine ⟨_, pos, above, left, c, right, render_eq_text hl (hcolumn _ hl), hpos, hstands, hleft, ?_⟩
  exact {
    on_lines := lineFeed_not_mem_lines hmet hfile hshown
    numbered := List.prefix_append _ _
    caret_at := by
      refine ⟨u, hcaret, hlength, fun hblank => ?_⟩
      rw [hlength]
      exact getElem?_excerpt hindent hblank }

/-- Behind a comment with a character of two bytes, on a line with an
indentation. -/
theorem render_pointsAt_of_tab :
    tokenize {} "//é\n\tx = ^;\n".toList = .error ⟨.unexpected '^', some ⟨2, 10⟩⟩ ∧
      '\n' ∉ "a.decaf".toList ∧
      ∃ d : Drawing, render ⟨.unexpected '^', some ⟨2, 10⟩⟩ "//é\n\tx = ^;\n".toList
          "a.decaf".toList = some d.text ∧
        d.PointsAt 2 "\tx = ".toList '^' := by
  have h : tokenize {} "//é\n\tx = ^;\n".toList = .error ⟨.unexpected '^', some ⟨2, 10⟩⟩ :=
    tokenize_eq_error_iff.mpr (lex_of_error? (by decide +kernel))
  have hfile : '\n' ∉ "a.decaf".toList := by decide
  obtain ⟨d, pos, above, left, c, right, hd, hpos, hstands, -, hpoints⟩ :=
    render_pointsAt h hfile (by decide +kernel)
  obtain rfl := Option.some.inj hpos
  have hcaret : StandsAt "//é\n\tx = ^;\n".toList 10 "//é\n".toList "\tx = ".toList '^'
      ";\n".toList :=
    ⟨by decide, by decide, by decide, by decide⟩
  obtain ⟨-, rfl, rfl, -⟩ := hstands.unique hcaret
  exact ⟨h, hfile, d, hd, hpoints⟩

example : render ⟨.unexpected '^', some ⟨2, 10⟩⟩ "//é\n\tx = ^;\n".toList "a.decaf".toList =
    some ("Error: Invalid token! (Unexpected character `^`)\n-> a.decaf\n".toList ++
      "  |\n2 | x = ^;\n  | ----^\n".toList) := by decide +kernel

end Diagnostic
end Decaf
