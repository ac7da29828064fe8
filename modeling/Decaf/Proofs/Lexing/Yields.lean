/-
What a text yields, places left aside.

`Yields limits t ws` says that the text `t` is lexed to its end, and that its
tokens are spelled `ws`: their kinds and their lexemes, in order.  Lines and
offsets do not come into it, so a text can be put in front of another without
counting anew.  `tokenize_iff_yields` ties it to the lexer.  The spellings do
not change when blanks, line feeds and comments are put in front
(`Yields.of_space`, `Yields.of_lineFeed`, `Yields.of_comment`).
-/
import Decaf.Proofs.Lexing.Words
import Decaf.Proofs.Rule.Context

namespace Decaf
namespace Lexing

open Text Rule

/-- A token without its place. -/
def spelling (t : Token) : Token.Kind × Text := (t.kind, t.lexeme)

/-- A text is lexed to its end, and its tokens have some kinds and lexemes. -/
inductive Yields (limits : Limits) : Text → List (Token.Kind × Text) → Prop where
  | nil : Yields limits [] []
  | trivia {i : Nat} {a : Action} {u r : Text} {ws : List (Token.Kind × Text)}
      (h : Begins (u ++ r) ⟨i, a, u⟩) (ha : (passed? a).isSome) (y : Yields limits r ws) :
      Yields limits (u ++ r) ws
  | token {i : Nat} {a : Action} {w r : Text} {kind : Token.Kind}
      {ws : List (Token.Kind × Text)} (h : Begins (w ++ r) ⟨i, a, w⟩)
      (hk : tokenKind? a w = some kind) (hw : byteSize w ≤ limits.lexeme) (y : Yields limits r ws) :
      Yields limits (w ++ r) ((kind, w) :: ws)

variable {limits : Limits} {s s' : State} {ms : List Matched} {ps : List Piece}

/-! ## The lexer -/

theorem Steps.yields (h : Steps limits s ms ps s') (hs : s'.rest = []) :
    Yields limits s.rest ((ps.filterMap Piece.token?).map spelling) := by
  induction h with
  | refl =>
      rw [hs]
      exact .nil
  | @step s s' s'' seen p ms ps h t ih =>
      obtain ⟨m, n, hb, ha, -, -⟩ := step_eq_advanced_iff.mp h
      obtain ⟨htext, -, -⟩ := act_eq_ok ha
      have hrest := (rest_of_step h).1
      rw [htext] at hrest
      rw [hrest] at hb ⊢
      cases p with
      | token u =>
          obtain ⟨hk, hw⟩ := act_eq_token ha
          change u.lexeme = m.text at htext
          show Yields limits _ ((u.kind, u.lexeme) :: _)
          rw [htext]
          exact .token hb hk hw (ih hs)
      | trivia v => exact .trivia hb (by rw [act_eq_trivia ha]; rfl) (ih hs)

theorem Yields.steps {t : Text} {ws : List (Token.Kind × Text)} (h : Yields limits t ws)
    (line offset : Nat) :
    ∃ ms ps s', Steps limits ⟨t, line, offset⟩ ms ps s' ∧ s'.rest = [] ∧
      (ps.filterMap Piece.token?).map spelling = ws := by
  induction h generalizing line offset with
  | nil => exact ⟨[], [], _, .refl, rfl, rfl⟩
  | trivia h ha _ ih =>
      obtain ⟨seen, v, line', offset', hstep⟩ := step_of_passed h ha line offset
      obtain ⟨ms, ps, s', t, hs, hws⟩ := ih line' offset'
      exact ⟨_, _, s', .step hstep t, hs, hws⟩
  | token h hk hw _ ih =>
      obtain ⟨ms, ps, s', t, hs, hws⟩ := ih _ _
      exact ⟨_, _, s', .step (step_of_tokenKind h hk hw line offset) t, hs, congrArg _ hws⟩

theorem tokenize_iff_yields {source : Text} {ws : List (Token.Kind × Text)} :
    (∃ ts, tokenize limits source = .ok ts ∧ ts.map spelling = ws) ↔ Yields limits source ws := by
  constructor
  · rintro ⟨ts, h, rfl⟩
    obtain ⟨ms, ps, s', t, hs, rfl⟩ := tokenize_eq_ok_iff.mp h
    exact t.yields hs
  · intro h
    obtain ⟨ms, ps, s', t, hs, rfl⟩ := h.steps 1 0
    exact ⟨_, tokenize_eq_ok_iff.mpr ⟨ms, ps, s', t, hs, rfl⟩, rfl⟩

/-! ## Blanks, line feeds and comments in front -/

namespace Yields

variable {t : Text} {ws : List (Token.Kind × Text)}

/-- The blanks at the beginning of a text are one match, so what is behind them
yields the same. -/
theorem dropSpaces (y : Yields limits t ws) : Yields limits (t.dropWhile isSpace) ws := by
  cases t with
  | nil => exact y
  | cons c t =>
      by_cases hc : isSpace c = true
      · rw [List.dropWhile_cons_of_pos hc]
        have hblanks : Begins (c :: t) ⟨0, .skip, c :: t.takeWhile isSpace⟩ := .blanks hc
        generalize hu : c :: t = u at y
        cases y with
        | nil => cases hu
        | @trivia i a u r ws h ha y =>
            cases h.unique (hu ▸ hblanks)
            have hrest : t.takeWhile isSpace ++ r = t := (List.cons.inj hu).2.symm
            have hsplit : t.takeWhile isSpace ++ t.dropWhile isSpace = t :=
              List.takeWhile_append_dropWhile
            rw [← List.append_cancel_left (hrest.trans hsplit.symm)]
            exact y
        | token h hk =>
            cases h.unique (hu ▸ hblanks)
            cases hk
      · rw [List.dropWhile_cons_of_neg hc]
        exact y

theorem of_space {c : Char} (hc : isSpace c = true) (y : Yields limits t ws) :
    Yields limits (c :: t) ws := by
  have hsplit : c :: t = c :: t.takeWhile isSpace ++ t.dropWhile isSpace := by
    rw [List.cons_append, List.takeWhile_append_dropWhile]
  have hblanks : Begins (c :: t) ⟨0, .skip, c :: t.takeWhile isSpace⟩ := .blanks hc
  rw [hsplit] at hblanks ⊢
  exact .trivia hblanks rfl y.dropSpaces

theorem of_lineFeed (y : Yields limits t ws) : Yields limits ('\n' :: t) ws :=
  .trivia (u := ['\n']) .lineFeed rfl y

theorem of_comment {body : Text} (hbody : '\n' ∉ body) (y : Yields limits t ws) :
    Yields limits (['/', '/'] ++ body ++ ['\n'] ++ t) ws := by
  have hline : restOfLine (body ++ ['\n'] ++ t) = body ++ ['\n'] := by
    have hall : ∀ c ∈ body, (c != '\n') = true := by
      intro c hc
      rw [bne_iff_ne]
      rintro rfl
      exact hbody hc
    rw [restOfLine, List.append_assoc, List.takeWhile_append_of_pos hall,
      List.dropWhile_append_of_pos hall]
    simp
  have hcomment : Begins ('/' :: '/' :: (body ++ ['\n'] ++ t)) _ := .comment
  rw [hline] at hcomment
  exact .trivia hcomment rfl y

end Yields

end Lexing
end Decaf
