/-
The steps of a run, as a relation.

`Steps limits s ms ps s'` says that from the state `s` the matches `ms` are
made, one after another, and add the pieces `ps`, and that then the state `s'`
is reached.  The whole text that is still to be lexed is part of a state, so a
step sees what follows its match.  A run makes steps until the text is at its
end or a step fails (`exists_steps`), and its result can be read off the last
state (`lex_eq_ok_iff`, `lex_eq_error_iff`).  So what holds of all runs is
proved by induction on `Steps`, one step at a time.

A step is told by the match that the text begins with (`step_eq_advanced_iff`);
the table of rules is not looked at again.
-/
import Decaf.Lexing
import Decaf.Proofs.Rule.First

namespace Decaf
namespace Lexing

open Text Rule

variable {limits : Limits} {s s' : State} {m : Match} {p : Piece} {seen : Matched}

/-! ## Tokens and trivia among the pieces -/

theorem token?_eq_some {p : Piece} {t : Token} : p.token? = some t ↔ p = .token t := by
  cases p <;> simp [Piece.token?]

theorem trivia?_eq_some {p : Piece} {v : Trivia} : p.trivia? = some v ↔ p = .trivia v := by
  cases p <;> simp [Piece.trivia?]

theorem mem_token? {ps : List Piece} {t : Token} :
    t ∈ ps.filterMap Piece.token? ↔ .token t ∈ ps := by
  simp [token?_eq_some]

theorem mem_trivia? {ps : List Piece} {v : Trivia} :
    v ∈ ps.filterMap Piece.trivia? ↔ .trivia v ∈ ps := by
  simp [trivia?_eq_some]

/-! ## What a match yields -/

/-- The kind of token that an action makes of a word, if it makes one. -/
def tokenKind? : Action → Text → Option Token.Kind
  | .word, w => some (wordKind w)
  | .token kind, _ => some kind
  | _, _ => none

/-- What an action passes over, if it does, and the number of lines it begins. -/
def passed? : Action → Option (Trivia.Kind × Nat)
  | .skip => some (.whitespace, 0)
  | .newline => some (.newline, 1)
  | .comment => some (.comment, 1)
  | _ => none

theorem act_of_passed {kind : Trivia.Kind} {n : Nat} (h : passed? m.action = some (kind, n)) :
    act limits s m = .ok (.trivia ⟨kind, m.text, s.line, s.offset⟩, n) := by
  obtain ⟨i, a, w⟩ := m
  cases a with
  | skip | newline | comment =>
      cases h
      rfl
  | _ => cases h

theorem act_of_tokenKind {kind : Token.Kind} (h : tokenKind? m.action m.text = some kind)
    (hsize : byteSize m.text ≤ limits.lexeme) :
    act limits s m = .ok (.token ⟨kind, m.text, s.line, s.offset⟩, lineFeeds m.text) := by
  obtain ⟨i, a, w⟩ := m
  cases a with
  | word | token =>
      cases h
      exact if_pos hsize
  | _ => cases h

theorem tokenAt_eq_ok {kind : Token.Kind} {w : Text} {n : Nat}
    (h : tokenAt limits s kind w = .ok (p, n)) :
    byteSize w ≤ limits.lexeme ∧ p = .token ⟨kind, w, s.line, s.offset⟩ ∧ n = lineFeeds w := by
  rw [tokenAt] at h
  split at h
  · cases h
    exact ⟨‹_›, rfl, rfl⟩
  · cases h

/-- What an action yields is what it passes over, or a token of the kind that
it makes, at the place where the match was made. -/
theorem act_cases {n : Nat} (h : act limits s m = .ok (p, n)) :
    (∃ kind, passed? m.action = some (kind, n) ∧
      p = .trivia ⟨kind, m.text, s.line, s.offset⟩) ∨
    (∃ kind, tokenKind? m.action m.text = some kind ∧ byteSize m.text ≤ limits.lexeme ∧
      p = .token ⟨kind, m.text, s.line, s.offset⟩ ∧ n = lineFeeds m.text) := by
  obtain ⟨i, a, w⟩ := m
  cases a with
  | skip | newline | comment =>
      cases h
      exact .inl ⟨_, rfl, rfl⟩
  | reject => cases h
  | word | token => exact .inr ⟨_, rfl, tokenAt_eq_ok h⟩

theorem act_eq_ok {n : Nat} (h : act limits s m = .ok (p, n)) :
    p.text = m.text ∧ p.line = s.line ∧ p.offset = s.offset := by
  rcases act_cases h with ⟨kind, -, rfl⟩ | ⟨kind, -, -, rfl, -⟩
  · exact ⟨rfl, rfl, rfl⟩
  · exact ⟨rfl, rfl, rfl⟩

/-- What an action yields has the text of the match. -/
theorem exists_of_act {n : Nat} (h : act limits s m = .ok (p, n)) : ∃ i a, m = ⟨i, a, p.text⟩ := by
  obtain ⟨htext, -, -⟩ := act_eq_ok h
  rw [htext]
  exact ⟨m.index, m.action, rfl⟩

theorem act_eq_token {t : Token} {n : Nat} (h : act limits s m = .ok (.token t, n)) :
    tokenKind? m.action m.text = some t.kind ∧ byteSize m.text ≤ limits.lexeme := by
  rcases act_cases h with ⟨kind, -, ht⟩ | ⟨kind, hkind, hsize, ht, -⟩
  · cases ht
  · cases ht
    exact ⟨hkind, hsize⟩

theorem act_eq_trivia {v : Trivia} {n : Nat} (h : act limits s m = .ok (.trivia v, n)) :
    passed? m.action = some (v.kind, n) := by
  rcases act_cases h with ⟨kind, hpassed, hv⟩ | ⟨kind, -, -, hv, -⟩
  · cases hv
    exact hpassed
  · cases hv

/-- An action fails on a reserved word, and on a token that is too long. -/
theorem act_eq_error {cause : LexError.Cause} (h : act limits s m = .error cause) :
    (m.action = .reject ∧ cause = .reserved m.text) ∨
    (∃ kind, tokenKind? m.action m.text = some kind ∧ limits.lexeme < byteSize m.text ∧
      cause = .tooLong (byteSize m.text) limits.lexeme) := by
  obtain ⟨i, a, w⟩ := m
  cases a with
  | skip | newline | comment => cases h
  | reject =>
      cases h
      exact .inl ⟨rfl, rfl⟩
  | word | token =>
      refine .inr ⟨_, rfl, ?_⟩
      change tokenAt limits s _ w = .error cause at h
      rw [tokenAt] at h
      split at h
      · cases h
      · cases h
        exact ⟨Nat.lt_of_not_le ‹_›, rfl⟩

/-! ## One step -/

theorem State.move_of_append {t r : Text} (h : s.rest = t ++ r) (n : Nat) :
    s.move t n = ⟨r, s.line + n, s.offset + byteSize t⟩ := by
  rw [State.move, h, List.drop_left]

theorem step_of_ok {n : Nat} (hb : Begins s.rest m) (ha : act limits s m = .ok (p, n)) :
    step limits s = .advanced ⟨m.index, s.line, m.text⟩ p (s.move m.text n) := by
  simp [step, begins_iff.mpr hb, hb.text_ne_nil, ha]

theorem step_of_error {cause : LexError.Cause} (hb : Begins s.rest m)
    (ha : act limits s m = .error cause) :
    step limits s = .failed (some ⟨m.index, s.line, m.text⟩) cause := by
  simp [step, begins_iff.mpr hb, hb.text_ne_nil, ha]

theorem step_of_not_begins (h : ∀ m, ¬ Begins s.rest m) :
    step limits s = .failed none (.unexpected (s.rest.headD '\x00')) := by
  have hnone : select? table s.rest = none :=
    Option.eq_none_iff_forall_ne_some.mpr fun m hm => h m (begins_iff.mp hm)
  rw [step, hnone]

/-- A step that advances makes a match, and goes behind it. -/
theorem step_eq_advanced_iff :
    step limits s = .advanced seen p s' ↔
      ∃ m n, Begins s.rest m ∧ act limits s m = .ok (p, n) ∧
        seen = ⟨m.index, s.line, m.text⟩ ∧ s' = s.move m.text n := by
  constructor
  · intro h
    by_cases hb : ∃ m, Begins s.rest m
    · obtain ⟨m, hb⟩ := hb
      cases ha : act limits s m with
      | error cause =>
          rw [step_of_error hb ha] at h
          cases h
      | ok y =>
          obtain ⟨q, n⟩ := y
          rw [step_of_ok hb ha] at h
          cases h
          exact ⟨m, n, hb, ha, rfl, rfl⟩
    · rw [step_of_not_begins (not_exists.mp hb)] at h
      cases h
  · rintro ⟨m, n, hb, ha, rfl, rfl⟩
    exact step_of_ok hb ha

/-- What is passed over is trivia, wherever it stands. -/
theorem step_of_passed {i : Nat} {a : Action} {u r : Text} (h : Begins (u ++ r) ⟨i, a, u⟩)
    (ha : (passed? a).isSome) (line offset : Nat) :
    ∃ seen v line' offset', step limits ⟨u ++ r, line, offset⟩ =
      .advanced seen (.trivia v) ⟨r, line', offset'⟩ := by
  obtain ⟨⟨kind, n⟩, hpassed⟩ := Option.isSome_iff_exists.mp ha
  exact ⟨_, _, _, _, step_eq_advanced_iff.mpr
    ⟨_, n, h, act_of_passed hpassed, rfl, (State.move_of_append rfl n).symm⟩⟩

/-- What is made a token is one at the place where it stands. -/
theorem step_of_tokenKind {i : Nat} {a : Action} {w r : Text} {kind : Token.Kind}
    (h : Begins (w ++ r) ⟨i, a, w⟩) (hk : tokenKind? a w = some kind)
    (hw : byteSize w ≤ limits.lexeme) (line offset : Nat) :
    step limits ⟨w ++ r, line, offset⟩ =
      .advanced ⟨i, line, w⟩ (.token ⟨kind, w, line, offset⟩)
        ⟨r, line + lineFeeds w, offset + byteSize w⟩ :=
  step_eq_advanced_iff.mpr ⟨_, lineFeeds w, h, act_of_tokenKind hk hw, rfl,
    (State.move_of_append (s := ⟨w ++ r, line, offset⟩) (t := w) rfl _).symm⟩

/-- A step that fails makes a match that its action fails on, or none. -/
theorem step_eq_failed {seen : Option Matched} {cause : LexError.Cause}
    (h : step limits s = .failed seen cause) :
    (∃ m, Begins s.rest m ∧ act limits s m = .error cause ∧
      seen = some ⟨m.index, s.line, m.text⟩) ∨
    (select? table s.rest = none ∧ seen = none ∧
      cause = .unexpected (s.rest.headD '\x00')) := by
  cases hm : select? table s.rest with
  | none =>
      rw [step, hm] at h
      cases h
      exact .inr ⟨rfl, rfl, rfl⟩
  | some m =>
      have hb := begins_iff.mp hm
      cases ha : act limits s m with
      | ok y =>
          obtain ⟨p, n⟩ := y
          rw [step_of_ok hb ha] at h
          cases h
      | error e =>
          rw [step_of_error hb ha] at h
          cases h
          exact .inl ⟨m, hb, ha, rfl⟩

/-- A step that advances passes over the text of its piece. -/
theorem rest_of_step (h : step limits s = .advanced seen p s') :
    s.rest = p.text ++ s'.rest ∧ p.text ≠ [] ∧ p.line = s.line ∧ p.offset = s.offset ∧
      s'.offset = s.offset + byteSize p.text := by
  obtain ⟨m, n, hb, ha, -, rfl⟩ := step_eq_advanced_iff.mp h
  obtain ⟨htext, hline, hoffset⟩ := act_eq_ok ha
  obtain ⟨r, hr⟩ := hb.isPrefix
  rw [State.move_of_append hr.symm, htext]
  exact ⟨hr.symm, hb.text_ne_nil, hline, hoffset, rfl⟩

theorem rest_ne_nil_of_step (h : step limits s = .advanced seen p s') : s.rest ≠ [] := by
  obtain ⟨hrest, hne, -⟩ := rest_of_step h
  rw [hrest]
  exact List.append_ne_nil_of_left_ne_nil hne _

/-! ## Several steps -/

/-- Some matches are made from a state on and add some pieces, and then a state
is reached. -/
inductive Steps (limits : Limits) : State → List Matched → List Piece → State → Prop where
  | refl {s : State} : Steps limits s [] [] s
  | step {s s' s'' : State} {seen : Matched} {p : Piece} {ms : List Matched} {ps : List Piece}
      (h : step limits s = .advanced seen p s') (t : Steps limits s' ms ps s'') :
      Steps limits s (seen :: ms) (p :: ps) s''

namespace Steps

variable {ms : List Matched} {ps : List Piece}

/-- The texts of the pieces are what was passed over. -/
theorem rest_eq (h : Steps limits s ms ps s') : s.rest = ps.flatMap Piece.text ++ s'.rest := by
  induction h with
  | refl => rfl
  | step h _ ih => rw [(rest_of_step h).1, ih, List.flatMap_cons, List.append_assoc]

theorem rest_ne_nil (h : Steps limits s ms ps s') (hs : s'.rest ≠ []) : s.rest ≠ [] := by
  rw [h.rest_eq]
  exact List.append_ne_nil_of_right_ne_nil _ hs

theorem offset_eq (h : Steps limits s ms ps s') :
    s'.offset = s.offset + byteSize (ps.flatMap Piece.text) := by
  induction h with
  | refl => rfl
  | step h _ ih =>
      obtain ⟨-, -, -, -, hoffset⟩ := rest_of_step h
      rw [ih, hoffset, List.flatMap_cons, byteSize_append, Nat.add_assoc]

/-- From the start of a source, the texts of the pieces are what stands before
the offset reached. -/
theorem source_eq {source : Text} (h : Steps limits (.start source) ms ps s') :
    source = ps.flatMap Piece.text ++ s'.rest ∧ s'.offset = byteSize (ps.flatMap Piece.text) :=
  ⟨h.rest_eq, h.offset_eq.trans (Nat.zero_add _)⟩

theorem of_append {ps₁ ps₂ : List Piece} (h : Steps limits s ms (ps₁ ++ ps₂) s') :
    ∃ ms₁ ms₂ s'', Steps limits s ms₁ ps₁ s'' ∧ Steps limits s'' ms₂ ps₂ s' := by
  induction ps₁ generalizing s ms with
  | nil => exact ⟨[], ms, s, .refl, h⟩
  | cons p ps₁ ih =>
      cases h with
      | step h t =>
          obtain ⟨ms₁, ms₂, s'', t₁, t₂⟩ := ih t
          exact ⟨_ :: ms₁, ms₂, s'', .step h t₁, t₂⟩

theorem trans {ms' : List Matched} {ps' : List Piece} {s'' : State} (h : Steps limits s ms ps s')
    (h' : Steps limits s' ms' ps' s'') : Steps limits s (ms ++ ms') (ps ++ ps') s'' := by
  induction h with
  | refl => exact h'
  | step h _ ih => exact .step h (ih h')

/-- The step that adds the last piece. -/
theorem last_step (h : Steps limits s ms ps s') (hp : p ∈ ps.getLast?) :
    ∃ ms₁ ps₁ s₁ seen, Steps limits s ms₁ ps₁ s₁ ∧
      Lexing.step limits s₁ = .advanced seen p s' ∧ ps = ps₁ ++ [p] := by
  obtain ⟨ps₁, rfl⟩ := List.getLast?_eq_some_iff.mp hp
  obtain ⟨ms₁, ms₂, s₁, t₁, t₂⟩ := h.of_append
  cases t₂ with
  | step h₁ t₂ =>
      cases t₂
      exact ⟨ms₁, ps₁, s₁, _, t₁, h₁, rfl⟩

/-- A piece that was added was added by a step on the way. -/
theorem exists_step_of_mem (h : Steps limits s ms ps s') (hp : p ∈ ps) :
    ∃ ms₁ ps₁ s₁ seen s₂ ms₂ ps₂, Steps limits s ms₁ ps₁ s₁ ∧
      Lexing.step limits s₁ = .advanced seen p s₂ ∧ Steps limits s₂ ms₂ ps₂ s' ∧
      ps = ps₁ ++ p :: ps₂ := by
  obtain ⟨ps₁, ps₂, rfl⟩ := List.append_of_mem hp
  obtain ⟨ms₁, ms₂, s₁, t₁, t₂⟩ := h.of_append
  cases t₂ with
  | step h t₂ => exact ⟨ms₁, ps₁, s₁, _, _, _, ps₂, t₁, h, t₂, rfl⟩

/-! ## Runs -/

theorem runFrom_eq (h : Steps limits s ms ps s') (seen : List Matched) (pieces : List Piece) :
    runFrom limits seen pieces s =
      runFrom limits (ms.reverse ++ seen) (ps.reverse ++ pieces) s' := by
  induction h generalizing seen pieces with
  | refl => rfl
  | @step s s' s'' m p ms ps h t ih =>
      rw [runFrom, dif_neg (rest_ne_nil_of_step h)]
      split
      · rename_i h'
        rw [h] at h'
        cases h'
      · rename_i h'
        rw [h] at h'
        cases h'
        rw [ih, List.reverse_cons, List.reverse_cons, List.append_assoc, List.append_assoc]
        rfl

/-- A run that comes to the end of the text. -/
theorem runFrom_of_nil (h : Steps limits s ms ps s') (hs : s'.rest = []) :
    runFrom limits [] [] s = ⟨ms, ps, s', none⟩ := by
  rw [h.runFrom_eq, runFrom, dif_pos hs]
  simp

/-- A run that comes to a step that fails. -/
theorem runFrom_of_failed (h : Steps limits s ms ps s') (hs : s'.rest ≠ []) {m : Option Matched}
    {cause : LexError.Cause} (hf : Lexing.step limits s' = .failed m cause) :
    runFrom limits [] [] s = ⟨ms ++ m.toList, ps, s', some cause⟩ := by
  rw [h.runFrom_eq, runFrom, dif_neg hs]
  split
  · rename_i h'
    rw [hf] at h'
    cases h'
    cases m <;> simp
  · rename_i h'
    rw [hf] at h'
    cases h'

end Steps

/-- From every state steps lead to the end of the text, or to a step that
fails. -/
theorem exists_steps (limits : Limits) (s : State) :
    ∃ ms ps s', Steps limits s ms ps s' ∧
      (s'.rest = [] ∨ s'.rest ≠ [] ∧ ∃ m cause, step limits s' = .failed m cause) := by
  by_cases hs : s.rest = []
  · exact ⟨[], [], s, .refl, .inl hs⟩
  cases h : step limits s with
  | failed m cause => exact ⟨[], [], s, .refl, .inr ⟨hs, m, cause, h⟩⟩
  | advanced m p s' =>
      have := length_rest_lt_of_step hs h
      obtain ⟨ms, ps, s'', t, hend⟩ := exists_steps limits s'
      exact ⟨m :: ms, p :: ps, s'', .step h t, hend⟩
termination_by s.rest.length

theorem eq_ok_of_toOption {ε α : Type} {e : Except ε α} {a : α} (h : e.toOption = some a) :
    e = .ok a := by
  cases e with
  | error e => cases h
  | ok b =>
      cases h
      rfl

theorem lex_of_error? {source : Text} {e : LexError} (h : (run limits source).error? = some e) :
    lex limits source = .error e := by
  rw [lex, Run.result, h]

theorem lex_eq_ok_iff {source : Text} {lexed : Lexed} :
    lex limits source = .ok lexed ↔
      ∃ ms ps s', Steps limits (.start source) ms ps s' ∧ s'.rest = [] ∧
        lexed = ⟨ps.filterMap Piece.token?, ps.filterMap Piece.trivia?⟩ := by
  constructor
  · intro h
    obtain ⟨ms, ps, s', t, hs | ⟨hs, m, cause, hf⟩⟩ := exists_steps limits (.start source)
    · rw [lex, run, t.runFrom_of_nil hs] at h
      cases h
      exact ⟨ms, ps, s', t, hs, rfl⟩
    · rw [lex, run, t.runFrom_of_failed hs hf] at h
      cases h
  · rintro ⟨ms, ps, s', t, hs, rfl⟩
    rw [lex, run, t.runFrom_of_nil hs]
    rfl

theorem lex_eq_error_iff {source : Text} {e : LexError} :
    lex limits source = .error e ↔
      ∃ ms ps s' m cause, Steps limits (.start source) ms ps s' ∧ s'.rest ≠ [] ∧
        step limits s' = .failed m cause ∧ e = ⟨cause, some s'.position⟩ := by
  constructor
  · intro h
    obtain ⟨ms, ps, s', t, hs | ⟨hs, m, cause, hf⟩⟩ := exists_steps limits (.start source)
    · rw [lex, run, t.runFrom_of_nil hs] at h
      cases h
    · rw [lex, run, t.runFrom_of_failed hs hf] at h
      cases h
      exact ⟨ms, ps, s', m, cause, t, hs, hf, rfl⟩
  · rintro ⟨ms, ps, s', m, cause, t, hs, hf, rfl⟩
    rw [lex, run, t.runFrom_of_failed hs hf]
    rfl

theorem tokenize_eq_ok_iff {source : Text} {ts : List Token} :
    tokenize limits source = .ok ts ↔
      ∃ ms ps s', Steps limits (.start source) ms ps s' ∧ s'.rest = [] ∧
        ts = ps.filterMap Piece.token? := by
  constructor
  · intro h
    cases hl : lex limits source with
    | error e =>
        rw [tokenize, hl] at h
        cases h
    | ok lexed =>
        rw [tokenize, hl] at h
        cases h
        obtain ⟨ms, ps, s', t, hs, rfl⟩ := lex_eq_ok_iff.mp hl
        exact ⟨ms, ps, s', t, hs, rfl⟩
  · rintro ⟨ms, ps, s', t, hs, rfl⟩
    rw [tokenize, lex_eq_ok_iff.mpr ⟨ms, ps, s', t, hs, rfl⟩]
    rfl

theorem tokenize_eq_error_iff {source : Text} {e : LexError} :
    tokenize limits source = .error e ↔ lex limits source = .error e := by
  cases hl : lex limits source with
  | error e' =>
      rw [tokenize, hl]
      exact ⟨fun h => congrArg _ (Except.error.inj h), fun h => congrArg _ (Except.error.inj h)⟩
  | ok lexed =>
      rw [tokenize, hl]
      exact ⟨nofun, nofun⟩

end Lexing
end Decaf
