/-
Line numbers agree with the line feeds of the source.

A state counts lines while the source is lexed, and the count is not always
the number of line feeds passed: a comment always begins a new line, though at
the end of the source it may have no line feed.  But such a comment is the last
piece (`line_of_step`), so as long as text is left the count is right
(`Steps.line_eq`), and nothing is placed where none is left.  A token that runs
over several lines is placed before its line feeds are counted.
-/
import Mathlib.Data.List.TakeWhile
import Decaf.Proofs.Lexing.Steps

namespace Decaf
namespace Lexing

open Text Rule

/-! ## Lines that a step begins -/

theorem lineFeeds_eq_zero {t : Text} (h : '\n' ∉ t) : lineFeeds t = 0 := List.count_eq_zero.mpr h

/-- The rest of a line has the one line feed that ends it, or the text has none
and ends with the line. -/
theorem lineFeeds_restOfLine (t : Text) :
    lineFeeds (restOfLine t) = 1 ∨ '\n' ∉ t ∧ restOfLine t = t := by
  induction t with
  | nil => exact .inr ⟨List.not_mem_nil, rfl⟩
  | cons c t ih =>
      by_cases hc : c = '\n'
      · subst hc
        exact .inl rfl
      · rw [restOfLine_cons_of_ne hc, lineFeeds, List.count_cons_of_ne hc]
        refine ih.imp_right ?_
        rintro ⟨ht, hall⟩
        exact ⟨List.not_mem_cons_of_ne_of_not_mem (Ne.symm hc) ht, congrArg _ hall⟩

/-- Whether a piece is a comment that no line feed ends. -/
def Piece.isOpen : Piece → Bool
  | .token _ => false
  | .trivia v => v.kind = .comment && !v.text.contains '\n'

variable {limits : Limits} {s s' : State} {p : Piece} {seen : Matched} {ms : List Matched}
  {ps : List Piece}

/-- A piece begins as many lines as it has line feeds, but for a comment that
has none.  It begins a line all the same, and the text ends with it. -/
theorem lines_cases {m : Match} {n : Nat} (hb : Begins s.rest m)
    (ha : act limits s m = .ok (p, n)) :
    (p.isOpen = false ∧ n = lineFeeds m.text) ∨
      (p.isOpen = true ∧ n = 1 ∧ lineFeeds m.text = 0 ∧ m.text = s.rest) := by
  generalize hrest : s.rest = t at hb
  cases hb with
  | blanks hc =>
      cases ha
      refine .inl ⟨rfl, (lineFeeds_eq_zero ?_).symm⟩
      intro h
      have hspace : isSpace '\n' = true := by
        rcases List.mem_cons.mp h with rfl | h
        · exact hc
        · exact List.mem_takeWhile_imp h
      cases hspace
  | lineFeed =>
      cases ha
      exact .inl ⟨rfl, rfl⟩
  | @comment t =>
      cases ha
      rcases lineFeeds_restOfLine t with h | ⟨ht, hall⟩
      · have hmem : '\n' ∈ restOfLine t := List.count_pos_iff.mp (by rw [← lineFeeds, h]; decide)
        refine .inl ⟨?_, ?_⟩
        · simp [Piece.isOpen, hmem]
        · rw [lineFeeds_append, h]
          rfl
      · rw [hall]
        have hnone : '\n' ∉ '/' :: '/' :: t := by simpa using ht
        refine .inr ⟨?_, rfl, lineFeeds_eq_zero hnone, rfl⟩
        simpa [Piece.isOpen] using ht
  | reserved => cases ha
  | _ =>
      obtain ⟨-, rfl, hn⟩ := tokenAt_eq_ok ha
      exact .inl ⟨rfl, hn⟩

/-- A step begins as many lines as it passes line feeds, and one more for a
comment that has none. -/
theorem line_of_step_eq (h : step limits s = .advanced seen p s') :
    s'.line = s.line + lineFeeds p.text + if p.isOpen then 1 else 0 := by
  obtain ⟨m, n, hb, ha, -, rfl⟩ := step_eq_advanced_iff.mp h
  obtain ⟨htext, -, -⟩ := act_eq_ok ha
  rw [htext]
  rcases lines_cases hb ha with ⟨hopen, rfl⟩ | ⟨hopen, rfl, hzero, -⟩
  · rw [hopen]
    rfl
  · rw [hopen, hzero]
    rfl

/-- A step begins as many lines as it passes line feeds, but for a comment at
the end of the text. -/
theorem line_of_step (h : step limits s = .advanced seen p s') (hs : s'.rest ≠ []) :
    s'.line = s.line + lineFeeds p.text := by
  obtain ⟨m, n, hb, ha, -, rfl⟩ := step_eq_advanced_iff.mp h
  obtain ⟨htext, -, -⟩ := act_eq_ok ha
  rcases lines_cases hb ha with ⟨-, rfl⟩ | ⟨-, -, -, hall⟩
  · rw [htext]
    rfl
  · exact absurd (by rw [State.move, hall, List.drop_length]) hs

/-- While text is left, the line of a state counts the line feeds passed. -/
theorem Steps.line_eq (h : Steps limits s ms ps s') (hs : s'.rest ≠ []) :
    s'.line = s.line + lineFeeds (ps.flatMap Piece.text) := by
  induction h with
  | refl => rfl
  | step h t ih =>
      rw [ih hs, line_of_step h (t.rest_ne_nil hs), List.flatMap_cons, lineFeeds_append,
        Nat.add_assoc]

/-! ## Two counts -/

/-- A line number is the one of the place at an offset: it counts the line
feeds before the offset, and it is found again from the offset alone. -/
def OnLine (source : Text) (line offset : Nat) : Prop :=
  ∃ u r, source = u ++ r ∧ byteSize u = offset ∧ line = 1 + lineFeeds u ∧
    ∃ l, lineAt? source offset = some l ∧ l.number = line

theorem Steps.onLine {source : Text} (h : Steps limits (.start source) ms ps s')
    (hs : s'.rest ≠ []) : OnLine source s'.line s'.offset := by
  obtain ⟨hrest, hoffset⟩ := h.source_eq
  obtain ⟨l, hl, hn⟩ := lineAt?_append (ps.flatMap Piece.text) hs
  rw [← hrest, ← hoffset] at hl
  exact ⟨_, _, hrest, hoffset.symm, h.line_eq hs, l, hl, hn.trans (h.line_eq hs).symm⟩

theorem Steps.onLine_of_mem {source : Text} (h : Steps limits (.start source) ms ps s')
    (hp : p ∈ ps) : OnLine source p.line p.offset := by
  obtain ⟨ms₁, ps₁, s₁, seen, s₂, ms₂, ps₂, t₁, h₁, -, -⟩ := h.exists_step_of_mem hp
  obtain ⟨-, -, hline, hoffset, -⟩ := rest_of_step h₁
  rw [hline, hoffset]
  exact t₁.onLine (rest_ne_nil_of_step h₁)

/-- Lines never decrease from piece to piece. -/
theorem Steps.pairwise_line (h : Steps limits s ms ps s') :
    ps.Pairwise fun p q => p.line ≤ q.line := by
  induction h with
  | refl => exact .nil
  | step h t ih =>
      refine List.pairwise_cons.mpr ⟨?_, ih⟩
      intro q hq
      obtain ⟨ms₁, ps₁, s₁, seen, s₂, ms₂, ps₂, t₁, h₁, -, -⟩ := t.exists_step_of_mem hq
      have hleft := rest_ne_nil_of_step h₁
      rw [(rest_of_step h).2.2.1, (rest_of_step h₁).2.2.1, t₁.line_eq hleft,
        line_of_step h (t₁.rest_ne_nil hleft)]
      omega

/-- The line of every token, of every piece of trivia and of every error is the
line that its offset is on. -/
theorem lines_agree (limits : Limits) (source : Text) :
    match lex limits source with
    | .ok lexed =>
        (∀ t ∈ lexed.tokens, OnLine source t.line t.offset) ∧
          (∀ v ∈ lexed.trivia, OnLine source v.line v.offset) ∧
          lexed.tokens.Pairwise fun t u => t.line ≤ u.line
    | .error e => ∃ pos, e.position = some pos ∧ OnLine source pos.line pos.offset := by
  cases hl : lex limits source with
  | ok lexed =>
      obtain ⟨ms, ps, s', t, hs, rfl⟩ := lex_eq_ok_iff.mp hl
      refine ⟨?_, ?_, List.pairwise_filterMap.mpr (t.pairwise_line.imp ?_)⟩
      · intro u hu
        exact t.onLine_of_mem (mem_token?.mp hu)
      · intro v hv
        exact t.onLine_of_mem (mem_trivia?.mp hv)
      · intro p q hpq u hu v hv
        rwa [token?_eq_some.mp hu, token?_eq_some.mp hv] at hpq
  | error e =>
      obtain ⟨ms, ps, s', m, cause, t, hs, -, rfl⟩ := lex_eq_error_iff.mp hl
      exact ⟨s'.position, rfl, t.onLine hs⟩

/-- A word behind a literal that has a line feed, and an error behind a comment. -/
theorem lines_agree_of_literal :
    (∃ lexed, lex {} "\"a\nb\" c".toList = .ok lexed ∧
      ⟨.identifier, ['c'], 2, 6⟩ ∈ lexed.tokens ∧ OnLine "\"a\nb\" c".toList 2 6) ∧
      lex {} "//é\n^".toList = .error ⟨.unexpected '^', some ⟨2, 5⟩⟩ ∧
      OnLine "//é\n^".toList 2 5 := by
  have hok : lex {} "\"a\nb\" c".toList =
      .ok ⟨[⟨.stringLiteral, "\"a\nb\"".toList, 1, 0⟩, ⟨.identifier, ['c'], 2, 6⟩],
        [⟨.whitespace, [' '], 2, 5⟩]⟩ :=
    eq_ok_of_toOption (by decide +kernel)
  have herror : lex {} "//é\n^".toList = .error ⟨.unexpected '^', some ⟨2, 5⟩⟩ :=
    lex_of_error? (by decide +kernel)
  have htokens := lines_agree {} "\"a\nb\" c".toList
  have hposition := lines_agree {} "//é\n^".toList
  rw [hok] at htokens
  rw [herror] at hposition
  obtain ⟨pos, hpos, honline⟩ := hposition
  obtain rfl := Option.some.inj hpos
  have hmem : (⟨.identifier, ['c'], 2, 6⟩ : Token) ∈
      [⟨.stringLiteral, "\"a\nb\"".toList, 1, 0⟩, ⟨.identifier, ['c'], 2, 6⟩] :=
    List.mem_of_getLast? rfl
  exact ⟨⟨_, hok, hmem, htokens.1 _ hmem⟩, herror, honline⟩

end Lexing
end Decaf
