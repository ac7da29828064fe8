/-
Lexing counted from another place.

What a step does depends on the text that is left.  The line and the offset of
a state are only copied into the pieces and counted on, so to begin with other
numbers is to add the same numbers everywhere (`step_shift`, `Steps.shift`).
Hence a run that comes to a state where the text left is a source, goes on as
lexing that source does, shifted (`result_of_steps`).
-/
import Decaf.Proofs.Lexing.Steps

namespace Decaf

/-- A position, some lines and bytes further on. -/
def Position.shift (pos : Position) (lines bytes : Nat) : Position :=
  ⟨pos.line + lines, pos.offset + bytes⟩

/-- A token, some lines and bytes further on. -/
def Token.shift (t : Token) (lines bytes : Nat) : Token :=
  { t with line := t.line + lines, offset := t.offset + bytes }

/-- A piece of trivia, some lines and bytes further on. -/
def Trivia.shift (v : Trivia) (lines bytes : Nat) : Trivia :=
  { v with line := v.line + lines, offset := v.offset + bytes }

/-- An error, some lines and bytes further on. -/
def LexError.shift (e : LexError) (lines bytes : Nat) : LexError :=
  { e with position := e.position.map (·.shift lines bytes) }

namespace Lexing

open Text Rule

/-- A piece, some lines and bytes further on. -/
def Piece.shift (lines bytes : Nat) : Piece → Piece
  | .token t => .token (t.shift lines bytes)
  | .trivia v => .trivia (v.shift lines bytes)

/-- A match, some lines further on. -/
def Matched.shift (lines : Nat) (m : Matched) : Matched := { m with line := m.line + lines }

/-- A state, some lines and bytes further on. -/
def State.shift (s : State) (lines bytes : Nat) : State :=
  { s with line := s.line + lines, offset := s.offset + bytes }

/-- A step, some lines and bytes further on. -/
def Step.shift (lines bytes : Nat) : Step → Step
  | .advanced m p s => .advanced (m.shift lines) (p.shift lines bytes) (s.shift lines bytes)
  | .failed m cause => .failed (m.map (Matched.shift lines)) cause

/-- Tokens and trivia, some lines and bytes further on. -/
def Lexed.shift (l : Lexed) (lines bytes : Nat) : Lexed where
  tokens := l.tokens.map (·.shift lines bytes)
  trivia := l.trivia.map (·.shift lines bytes)

/-- Tokens and trivia, and those behind them. -/
instance : Append Lexed where
  append l₁ l₂ := ⟨l₁.tokens ++ l₂.tokens, l₁.trivia ++ l₂.trivia⟩

variable {limits : Limits} {s s' : State} {ms : List Matched} {ps : List Piece}

/-! ## One step -/

theorem State.move_shift (s : State) (t : Text) (n lines bytes : Nat) :
    (s.shift lines bytes).move t n = (s.move t n).shift lines bytes := by
  rw [State.move, State.shift, State.move, State.shift, Nat.add_right_comm s.line,
    Nat.add_right_comm s.offset]

theorem act_shift (limits : Limits) (s : State) (m : Match) (lines bytes : Nat) :
    act limits (s.shift lines bytes) m =
      (act limits s m).map fun y => (y.1.shift lines bytes, y.2) := by
  obtain ⟨i, a, w⟩ := m
  have htoken : ∀ kind, tokenAt limits (s.shift lines bytes) kind w =
      (tokenAt limits s kind w).map fun y => (y.1.shift lines bytes, y.2) := by
    intro kind
    rw [tokenAt, tokenAt]
    split
    · rfl
    · rfl
  cases a with
  | skip | newline | comment | reject => rfl
  | word => exact htoken _
  | token kind => exact htoken kind

/-- A step made further on is the same step, further on. -/
theorem step_shift (limits : Limits) (s : State) (lines bytes : Nat) :
    step limits (s.shift lines bytes) = (step limits s).shift lines bytes := by
  have hrest : (s.shift lines bytes).rest = s.rest := rfl
  rw [step, step, hrest]
  cases select? table s.rest with
  | none => rfl
  | some m =>
      dsimp only
      split
      · rfl
      · rw [act_shift]
        cases act limits s m with
        | error cause => rfl
        | ok y => exact congrArg (Step.advanced _ _) (State.move_shift s m.text y.2 lines bytes)

/-! ## Runs -/

theorem Steps.shift (h : Steps limits s ms ps s') (lines bytes : Nat) :
    Steps limits (s.shift lines bytes) (ms.map (Matched.shift lines))
      (ps.map (Piece.shift lines bytes)) (s'.shift lines bytes) := by
  induction h with
  | refl => exact .refl
  | step h _ ih =>
      refine .step ?_ ih
      rw [step_shift, h]
      rfl

theorem tokens_shift (ps : List Piece) (lines bytes : Nat) :
    (ps.map (Piece.shift lines bytes)).filterMap Piece.token? =
      (ps.filterMap Piece.token?).map (·.shift lines bytes) := by
  rw [List.filterMap_map, List.map_filterMap]
  congr 1
  funext p
  cases p <;> rfl

theorem trivia_shift (ps : List Piece) (lines bytes : Nat) :
    (ps.map (Piece.shift lines bytes)).filterMap Piece.trivia? =
      (ps.filterMap Piece.trivia?).map (·.shift lines bytes) := by
  rw [List.filterMap_map, List.map_filterMap]
  congr 1
  funext p
  cases p <;> rfl

/-- A run that comes to the start of a source goes on as that source is lexed,
further on. -/
theorem result_of_steps {source : Text} {lines bytes : Nat}
    (h : Steps limits s ms ps ((State.start source).shift lines bytes)) :
    (runFrom limits [] [] s).result =
      match lex limits source with
      | .ok lexed => .ok (⟨ps.filterMap Piece.token?, ps.filterMap Piece.trivia?⟩ ++
          lexed.shift lines bytes)
      | .error e => .error (e.shift lines bytes) := by
  obtain ⟨ms', ps', s', t, hs | ⟨hs, m, cause, hf⟩⟩ := exists_steps limits (.start source)
  · rw [lex_eq_ok_iff.mpr ⟨ms', ps', s', t, hs, rfl⟩,
      (h.trans (t.shift lines bytes)).runFrom_of_nil hs]
    show Except.ok (Lexed.mk _ _) = _
    rw [Run.tokens, Run.trivia, List.filterMap_append, List.filterMap_append, tokens_shift,
      trivia_shift]
    rfl
  · have hf' := step_shift limits s' lines bytes
    rw [hf] at hf'
    rw [lex_eq_error_iff.mpr ⟨ms', ps', s', m, cause, t, hs, hf, rfl⟩,
      (h.trans (t.shift lines bytes)).runFrom_of_failed hs hf']
    rfl

/-- A run over a source that comes to the start of another source goes on as
that source is lexed, further on. -/
theorem lex_of_steps {source source' : Text} {lines bytes : Nat}
    (h : Steps limits (.start source) ms ps ((State.start source').shift lines bytes)) :
    lex limits source =
      match lex limits source' with
      | .ok lexed => .ok (⟨ps.filterMap Piece.token?, ps.filterMap Piece.trivia?⟩ ++
          lexed.shift lines bytes)
      | .error e => .error (e.shift lines bytes) :=
  result_of_steps h

end Lexing
end Decaf
