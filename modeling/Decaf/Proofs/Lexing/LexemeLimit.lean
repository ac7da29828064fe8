/-
The limit on lexemes is a filter.

A limit that no lexeme of a source can exceed leaves the lexer free.  Under a
lower limit each step is the free step, but for a token that is too long: there
the step fails in place of adding it (`step_eq_limited`).  Nothing else looks at
the limit, so until then both runs make the same matches, on the same lines and
at the same offsets, and of two errors the one that is met first is reported:

    no token of the free run is too long     the free result, error or not
    some token is                            an error at the first of them

Trivia and reserved words are never measured.
-/
import Decaf.Proofs.Lexing.Errors

namespace Decaf
namespace Lexing

open Text Rule

/-- Whether a piece is a token with a lexeme of more than `max` bytes. -/
def Piece.exceeds (max : Nat) (p : Piece) : Bool :=
  p.token?.any fun t => max < byteSize t.lexeme

/-- What a step becomes under a limit: a token that is too long is not added. -/
def Step.limited (max : Nat) : Step → Step
  | .advanced m p s =>
      if p.exceeds max then .failed (some m) (.tooLong (byteSize p.text) max)
      else .advanced m p s
  | .failed m cause => .failed m cause

variable {limits free : Limits} {s s' : State} {p : Piece} {seen : Matched} {ms : List Matched}
  {ps : List Piece}

/-! ## One step -/

theorem act_of_reject {m : Match} (h : m.action = .reject) :
    act limits s m = .error (.reserved m.text) := by
  obtain ⟨i, a, w⟩ := m
  cases h
  rfl

/-- A step under a limit is the free step, but for a token that is too long. -/
theorem step_eq_limited (hfree : byteSize s.rest ≤ free.lexeme) :
    step limits s = (step free s).limited limits.lexeme := by
  by_cases hb : ∃ m, Begins s.rest m
  · obtain ⟨m, hb⟩ := hb
    obtain ⟨r, hr⟩ := hb.isPrefix
    have hsize : byteSize m.text ≤ free.lexeme := by
      rw [← hr, byteSize_append] at hfree
      omega
    cases ha : act free s m with
    | error cause =>
        rw [step_of_error hb ha]
        rcases act_eq_error ha with ⟨hreject, rfl⟩ | ⟨kind, -, hlong, -⟩
        · exact step_of_error hb (act_of_reject hreject)
        · exact absurd hsize (Nat.not_le_of_lt hlong)
    | ok y =>
        obtain ⟨p, n⟩ := y
        rw [step_of_ok hb ha]
        rcases act_cases ha with ⟨kind, hpassed, rfl⟩ | ⟨kind, hkind, -, rfl, rfl⟩
        · exact step_of_ok hb (act_of_passed hpassed)
        by_cases hlong : limits.lexeme < byteSize m.text
        · refine (step_of_error hb (act_of_tooLong hkind hlong)).trans (if_pos ?_).symm
          exact decide_eq_true hlong
        · have hfits := act_of_tokenKind (s := s) hkind (Nat.le_of_not_lt hlong)
          refine (step_of_ok hb hfits).trans (if_neg ?_).symm
          exact fun h => hlong (of_decide_eq_true h)
  · rw [step_of_not_begins (not_exists.mp hb), step_of_not_begins (not_exists.mp hb)]
    rfl

theorem step_of_not_exceeds (hfree : byteSize s.rest ≤ free.lexeme)
    (h : step free s = .advanced seen p s') (hp : p.exceeds limits.lexeme = false) :
    step limits s = .advanced seen p s' := by
  rw [step_eq_limited hfree, h]
  exact if_neg (by rw [hp]; exact Bool.false_ne_true)

/-! ## Runs -/

/-- The text that is left is no larger than it was. -/
theorem Steps.byteSize_rest_le (h : Steps limits s ms ps s') :
    byteSize s'.rest ≤ byteSize s.rest := by
  rw [h.rest_eq, byteSize_append]
  omega

/-- Free steps that add no token that is too long are made under the limit. -/
theorem Steps.limited (h : Steps free s ms ps s') (hfree : byteSize s.rest ≤ free.lexeme)
    (hps : ∀ p ∈ ps, p.exceeds limits.lexeme = false) : Steps limits s ms ps s' := by
  induction h with
  | refl => exact .refl
  | @step s s₁ s' seen p ms ps h t ih =>
      have hrest : byteSize s₁.rest ≤ free.lexeme :=
        Nat.le_trans (Steps.step h .refl).byteSize_rest_le hfree
      refine .step (step_of_not_exceeds hfree h (hps p List.mem_cons_self)) (ih hrest ?_)
      intro q hq
      exact hps q (List.mem_cons_of_mem _ hq)

variable {source : Text}

/-- Under a limit the first token of the free run that is too long is an error
at its place. -/
theorem Steps.lex_of_exceeds {ps₁ ps₂ : List Piece} {t : Token}
    (h : Steps free (.start source) ms (ps₁ ++ .token t :: ps₂) s')
    (hfree : byteSize source ≤ free.lexeme)
    (hps : ∀ p ∈ ps₁, p.exceeds limits.lexeme = false)
    (ht : limits.lexeme < byteSize t.lexeme) :
    lex limits source =
      .error ⟨.tooLong (byteSize t.lexeme) limits.lexeme, some ⟨t.line, t.offset⟩⟩ := by
  obtain ⟨ms₁, ms₂, s₁, t₁, t₂⟩ := h.of_append
  cases t₂ with
  | @step _ s₂ _ seen _ _ _ h₁ t₂ =>
      have hrest : byteSize s₁.rest ≤ free.lexeme := Nat.le_trans t₁.byteSize_rest_le hfree
      have hfails : Lexing.step limits s₁ =
          .failed (some seen) (.tooLong (byteSize t.lexeme) limits.lexeme) := by
        rw [step_eq_limited hrest, h₁]
        exact if_pos (decide_eq_true ht)
      obtain ⟨-, -, hline, hoffset, -⟩ := rest_of_step h₁
      refine lex_eq_error_iff.mpr
        ⟨ms₁, ps₁, s₁, _, _, t₁.limited hfree hps, rest_ne_nil_of_step h₁, hfails, ?_⟩
      change t.line = s₁.line at hline
      change t.offset = s₁.offset at hoffset
      rw [hline, hoffset]
      rfl

/-- Where no token of the free run is too long, the limit changes nothing. -/
theorem lex_of_not_exceeds (hfree : byteSize source ≤ free.lexeme)
    (hps : ∀ p ∈ (run free source).pieces, p.exceeds limits.lexeme = false) :
    lex limits source = lex free source := by
  obtain ⟨ms, ps, s', t, hs | ⟨hs, m, cause, hf⟩⟩ := exists_steps free (.start source)
  · rw [run, t.runFrom_of_nil hs] at hps
    rw [lex_eq_ok_iff.mpr ⟨ms, ps, s', t, hs, rfl⟩]
    exact lex_eq_ok_iff.mpr ⟨ms, ps, s', t.limited hfree hps, hs, rfl⟩
  · rw [run, t.runFrom_of_failed hs hf] at hps
    have hfails : step limits s' = .failed m cause := by
      rw [step_eq_limited (Nat.le_trans t.byteSize_rest_le hfree), hf]
      rfl
    rw [lex_eq_error_iff.mpr ⟨ms, ps, s', m, cause, t, hs, hf, rfl⟩]
    exact lex_eq_error_iff.mpr ⟨ms, ps, s', m, cause, t.limited hfree hps, hs, hfails, rfl⟩

/-- The pieces of a run are those that its steps add. -/
theorem exists_steps_pieces (limits : Limits) (source : Text) :
    ∃ ms s', Steps limits (.start source) ms (run limits source).pieces s' := by
  obtain ⟨ms, ps, s', t, hs | ⟨hs, m, cause, hf⟩⟩ := exists_steps limits (.start source)
  · rw [run, t.runFrom_of_nil hs]
    exact ⟨ms, s', t⟩
  · rw [run, t.runFrom_of_failed hs hf]
    exact ⟨ms, s', t⟩

/-- Lexing under a limit yields what the free run does, or an error at the first
token of the free run that is too long. -/
theorem lex_eq_limited (hfree : byteSize source ≤ free.lexeme) :
    lex limits source =
      match (run free source).tokens.find? fun t => limits.lexeme < byteSize t.lexeme with
      | some t => .error ⟨.tooLong (byteSize t.lexeme) limits.lexeme, some ⟨t.line, t.offset⟩⟩
      | none => lex free source := by
  have htokens : ((run free source).tokens.find? fun t => limits.lexeme < byteSize t.lexeme) =
      ((run free source).pieces.find? (Piece.exceeds limits.lexeme)).bind Piece.token? :=
    List.find?_filterMap ..
  rw [htokens]
  cases hfind : (run free source).pieces.find? (Piece.exceeds limits.lexeme) with
  | none =>
      refine lex_of_not_exceeds hfree ?_
      intro p hp
      simpa using List.find?_eq_none.mp hfind p hp
  | some p =>
      obtain ⟨hp, ps₁, ps₂, hsplit, hps⟩ := List.find?_eq_some_iff_append.mp hfind
      obtain ⟨ms, s', t⟩ := exists_steps_pieces free source
      rw [hsplit] at t
      cases p with
      | token t' => exact t.lex_of_exceeds hfree (by simpa using hps) (of_decide_eq_true hp)
      | trivia v => cases hp

/-- The limit on lexemes only filters.  Under any limit the result is that of the
free run, or an error at its first token that is too long; so what is lexed
under a limit is lexed the same under every higher one.  The limit on sources
has no say. -/
theorem lex_limited (limits : Limits) (source : Text) :
    (∀ free : Limits, byteSize source ≤ free.lexeme →
      lex limits source =
        match (run free source).tokens.find? fun t => limits.lexeme < byteSize t.lexeme with
        | some t => .error ⟨.tooLong (byteSize t.lexeme) limits.lexeme, some ⟨t.line, t.offset⟩⟩
        | none => (run free source).result) ∧
    (∀ limits' lexed, limits.lexeme ≤ limits'.lexeme → lex limits source = .ok lexed →
      lex limits' source = .ok lexed) ∧
    ∀ size, lex { limits with source := size } source = lex limits source := by
  refine ⟨fun free => lex_eq_limited, ?_, ?_⟩
  all_goals obtain ⟨free, hfree⟩ : ∃ free : Limits, byteSize source ≤ free.lexeme :=
    ⟨⟨byteSize source, 0⟩, Nat.le_refl _⟩
  · intro limits' lexed hle h
    rw [lex_eq_limited hfree] at h ⊢
    cases hfind : (run free source).tokens.find? fun t => limits.lexeme < byteSize t.lexeme with
    | some t =>
        rw [hfind] at h
        cases h
    | none =>
        have hnone : ((run free source).tokens.find? fun t => limits'.lexeme < byteSize t.lexeme) =
            none := by
          rw [List.find?_eq_none] at hfind ⊢
          intro t ht hlong
          refine hfind t ht (decide_eq_true ?_)
          exact Nat.lt_of_le_of_lt hle (of_decide_eq_true hlong)
        rw [hfind] at h
        rw [hnone]
        exact h
  · intro size
    have h : lex limits source = _ := lex_eq_limited hfree
    rw [h]
    exact lex_eq_limited hfree

/-- A number that is too long in front of a character that no token begins with,
and behind a comment that is longer. -/
theorem lex_limited_of_two_errors :
    byteSize "//comment\nab 12345 ^".toList ≤ ({} : Limits).lexeme ∧
      lex {} "//comment\nab 12345 ^".toList = .error ⟨.unexpected '^', some ⟨2, 19⟩⟩ ∧
      lex ⟨4, 65536⟩ "//comment\nab 12345 ^".toList = .error ⟨.tooLong 5 4, some ⟨2, 13⟩⟩ ∧
      ∃ lexed, lex ⟨5, 0⟩ "ab 12345".toList = .ok lexed ∧ lex {} "ab 12345".toList = .ok lexed := by
  have hsize : byteSize "//comment\nab 12345 ^".toList ≤ ({} : Limits).lexeme := by decide
  have hfind : ((run {} "//comment\nab 12345 ^".toList).tokens.find? fun t =>
      4 < byteSize t.lexeme) = some ⟨.decimalLiteral, "12345".toList, 2, 13⟩ := by decide +kernel
  have hfree : lex {} "//comment\nab 12345 ^".toList = .error ⟨.unexpected '^', some ⟨2, 19⟩⟩ :=
    lex_of_error? (by decide +kernel)
  have hlexed : lex ⟨5, 0⟩ "ab 12345".toList = .ok
      ⟨[⟨.identifier, ['a', 'b'], 1, 0⟩, ⟨.decimalLiteral, "12345".toList, 1, 3⟩],
       [⟨.whitespace, [' '], 1, 2⟩]⟩ :=
    eq_ok_of_toOption (by decide +kernel)
  refine ⟨hsize, hfree, ?_, _, hlexed, (lex_limited _ _).2.1 {} _ (by decide) hlexed⟩
  have h := (lex_limited ⟨4, 65536⟩ "//comment\nab 12345 ^".toList).1 {} hsize
  rw [hfind] at h
  exact h

end Lexing
end Decaf
