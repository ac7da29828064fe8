/-
Columns count characters where lexing stops.

A column is counted in bytes.  Characters that take more than one byte are not
of ASCII, and only comments hold them; but a comment ends its line, or else the
text ends with it.  So where text is left, what stands before it on its line is
of ASCII (`Steps.ascii_of_suffix`), and the column of an error is the number of
characters to the left of it (`exists_standsAt_of_error`).  The character at an
error is never a space or a tab, since a rule matches these.
-/
import Decaf.Proofs.Lexing.LineNumbers

namespace Decaf
namespace Lexing

open Text Rule

/-- A character stands at a byte offset of a source: the lines above it are
ended, and `left` is the part of its line before it. -/
structure StandsAt (source : Text) (offset : Nat) (above left : Text) (c : Char) (right : Text) :
    Prop where
  source_eq : source = above ++ (left ++ c :: right)
  offset_eq : offset = byteSize (above ++ left)
  above_ended : above = [] ∨ above.getLast? = some '\n'
  left_open : '\n' ∉ left

theorem StandsAt.lineAt?_eq {source above left right : Text} {offset : Nat} {c : Char}
    (h : StandsAt source offset above left c right) :
    lineAt? source offset =
      some ⟨1 + lineFeeds above, left ++ restOfLine (c :: right), byteSize left⟩ := by
  rw [h.source_eq, h.offset_eq]
  exact lineAt?_behind h.above_ended h.left_open (List.cons_ne_nil c right)

/-- What stands at an offset, and to both sides of it, is told by the offset. -/
theorem StandsAt.unique {source above left right above' left' right' : Text} {offset : Nat}
    {c c' : Char} (h : StandsAt source offset above left c right)
    (h' : StandsAt source offset above' left' c' right') :
    above = above' ∧ left = left' ∧ c = c' ∧ right = right' := by
  have hrest : some (c :: right) = some (c' :: right') := by
    rw [← dropBytes?_append (above ++ left), ← dropBytes?_append (above' ++ left'),
      ← h.offset_eq, ← h'.offset_eq, List.append_assoc, List.append_assoc, ← h.source_eq,
      ← h'.source_eq]
  obtain ⟨rfl, rfl⟩ := List.cons.inj (Option.some.inj hrest)
  have hline := Option.some.inj (h.lineAt?_eq.symm.trans h'.lineAt?_eq)
  obtain rfl := List.append_cancel_right (congrArg Line.text hline)
  exact ⟨List.append_cancel_right (h.source_eq.symm.trans h'.source_eq), rfl, rfl, rfl⟩

variable {limits : Limits} {s s' : State} {ms : List Matched} {ps : List Piece}

/-! ## What stands before the text that is left -/

/-- A part of a line at the end of some texts is of ASCII, if each of the texts
is of ASCII or ends a line. -/
theorem ascii_of_suffix_flatten {ts : List Text}
    (hts : ∀ t ∈ ts, (∀ c ∈ t, c.toNat < 0x80) ∨ t.getLast? = some '\n') {b : Text}
    (hb : b <:+ ts.flatten) (hline : '\n' ∉ b) : ∀ c ∈ b, c.toNat < 0x80 := by
  induction ts generalizing b with
  | nil =>
      rw [List.flatten_nil, List.suffix_nil] at hb
      rw [hb]
      nofun
  | cons t ts ih =>
      obtain ⟨ht, hrest⟩ := List.forall_mem_cons.mp hts
      obtain ⟨w, hw⟩ := hb
      rw [List.flatten_cons, List.append_eq_append_iff] at hw
      rcases hw with ⟨v, rfl, rfl⟩ | ⟨v, -, hv⟩
      · -- It begins with the part `v` of the first text.
        rw [List.mem_append, not_or] at hline
        refine List.forall_mem_append.mpr ⟨?_, ih hrest (List.suffix_refl _) hline.2⟩
        rcases ht with hascii | hend
        · exact fun c hc => hascii c (List.mem_append_right w hc)
        · cases hlast : v.getLast? with
          | none =>
              rw [List.getLast?_eq_none_iff.mp hlast]
              nofun
          | some c =>
              rw [List.getLast?_append, hlast] at hend
              obtain rfl := Option.some.inj hend
              exact absurd (List.mem_of_getLast? hlast) hline.1
      · exact ih hrest ⟨v, hv.symm⟩ hline

/-- Where text is left behind a piece, the piece is of ASCII or ends a line. -/
theorem ascii_or_lineFeed_of_step {p : Piece} {seen : Matched}
    (h : step limits s = .advanced seen p s') (hs : s'.rest ≠ []) :
    (∀ c ∈ p.text, c.toNat < 0x80) ∨ p.text.getLast? = some '\n' := by
  obtain ⟨m, n, hb, ha, -, rfl⟩ := step_eq_advanced_iff.mp h
  obtain ⟨htext, -, -⟩ := act_eq_ok ha
  rw [htext]
  rcases hb.ascii_or_comment with hascii | ⟨-, hend | hall⟩
  · exact .inl hascii
  · exact .inr hend
  · exact absurd (by rw [State.move, hall, List.drop_length]) hs

theorem Steps.ascii_of_suffix (h : Steps limits s ms ps s') (hs : s'.rest ≠ []) {b : Text}
    (hb : b <:+ ps.flatMap Piece.text) (hline : '\n' ∉ b) : ∀ c ∈ b, c.toNat < 0x80 := by
  refine ascii_of_suffix_flatten ?_ hb hline
  intro t ht
  obtain ⟨p, hp, rfl⟩ := List.mem_map.mp ht
  obtain ⟨ms₁, ps₁, s₁, seen, s₂, ms₂, ps₂, -, h₁, t₂, -⟩ := h.exists_step_of_mem hp
  exact ascii_or_lineFeed_of_step h₁ (t₂.rest_ne_nil hs)

/-! ## Errors -/

/-- No step fails at a space or at a tab. -/
theorem not_isSpace_of_failed {seen : Option Matched} {cause : LexError.Cause} {c : Char}
    {t : Text} (h : step limits s = .failed seen cause) (hs : s.rest = c :: t) :
    isSpace c = false := by
  refine Bool.eq_false_iff.mpr fun hc => ?_
  have hb : Begins s.rest ⟨0, .skip, c :: t.takeWhile isSpace⟩ := hs ▸ .blanks hc
  rw [step_of_ok hb rfl] at h
  cases h

/-- At the position of an error stands a character that is neither a space nor a
tab, and what stands to its left on its line is of ASCII. -/
theorem exists_standsAt_of_error {source : Text} {e : LexError}
    (h : lex limits source = .error e) :
    ∃ pos above left c right, e.position = some pos ∧ pos.line = 1 + lineFeeds above ∧
      StandsAt source pos.offset above left c right ∧ (∀ x ∈ left, x.toNat < 0x80) ∧
      isSpace c = false := by
  obtain ⟨ms, ps, s', seen, cause, t, hs, hf, rfl⟩ := lex_eq_error_iff.mp h
  obtain ⟨hsource, hoffset⟩ := t.source_eq
  obtain ⟨c, right, hrest⟩ := List.exists_cons_of_ne_nil hs
  obtain ⟨above, left, hsplit, habove, hleft⟩ := exists_lines (ps.flatMap Piece.text)
  have hline : s'.line = 1 + lineFeeds (ps.flatMap Piece.text) := t.line_eq hs
  rw [hsplit, lineFeeds_append, lineFeeds_eq_zero hleft] at hline
  rw [hsplit] at hsource hoffset
  refine ⟨s'.position, above, left, c, right, rfl, hline, ?_, ?_, not_isSpace_of_failed hf hrest⟩
  · exact {
      source_eq := by rw [hsource, hrest, List.append_assoc]
      offset_eq := hoffset
      above_ended := habove
      left_open := hleft }
  · exact t.ascii_of_suffix hs ⟨above, hsplit.symm⟩ hleft

end Lexing
end Decaf
