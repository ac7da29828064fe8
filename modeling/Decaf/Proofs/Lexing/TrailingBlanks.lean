/-
Blanks at the end of a source do not matter.

Spaces, tabs and line feeds may be added at the end of a source, and its tokens
stay what they are, with their lines and offsets, or its error does.  Where text
was left behind a match, its first character is still the one that follows; and
where none was left, a blank comes instead of the end:

    a token         is ended by a blank as well, and no blank closes a literal
    a comment       goes on to the end of its line, still without a token
    blanks          run on
    no match        none either (`exists_begins_of_append`)

So the trivia at the end may change, and nothing else does.
-/
import Decaf.Proofs.Lexing.Context
import Decaf.Proofs.Lexing.Errors
import Decaf.Proofs.Lexing.Separators
import Decaf.Proofs.Rule.Scanner

namespace Decaf
namespace Lexing

open Text Rule

variable {limits : Limits} {s s' : State} {ms : List Matched} {ps : List Piece} {p : Piece}
  {seen : Matched} {t w : Text}

/-- What yields no token is passed over from every state. -/
theorem Yields.exists_steps (y : Yields limits t []) (s : State) :
    ∃ ms ps s', Steps limits (s.withRest t) ms ps s' ∧ s'.rest = [] ∧
      ps.filterMap Piece.token? = [] := by
  obtain ⟨ms, ps, s', steps, hs, hnone⟩ := y.steps s.line s.offset
  exact ⟨ms, ps, s', steps, hs, List.map_eq_nil_iff.mp hnone⟩

section Gaps

variable (hw : ∀ c ∈ w, isGap c = true)
include hw

/-! ## Gaps behind a text -/

theorem quote_not_mem_of_gaps : '"' ∉ w := by
  intro h
  cases hw _ h

theorem head?_append_gaps_iff {d : Char} (hd : isGap d = false) :
    (t ++ w).head? = some d ↔ t.head? = some d := by
  cases t with
  | cons c t => rfl
  | nil =>
      refine iff_of_false (fun h => ?_) nofun
      rw [hw d (List.mem_of_head? h)] at hd
      cases hd

theorem exists_cons_of_append_gaps {d : Char} (hd : isGap d = false) {r : Text}
    (h : t ++ w = d :: r) : ∃ u, t = d :: u := by
  have hhead : (t ++ w).head? = some d := by
    rw [h]
    rfl
  exact List.head?_eq_some_iff.mp ((head?_append_gaps_iff hw hd).mp hhead)

/-! ## Matches -/

/-- A match is made in front of more blanks, if text follows it already or it is
to be a token. -/
theorem begins_append_gaps {u r : Text} {i : Nat} {a : Action} (h : Begins (u ++ r) ⟨i, a, u⟩)
    (hr : r ≠ [] ∨ ∃ kind, tokenKind? a u = some kind) : Begins (u ++ (r ++ w)) ⟨i, a, u⟩ := by
  have hsame : r ≠ [] → (r ++ w).head? = r.head? := by
    intro hne
    obtain ⟨c, r, rfl⟩ := List.exists_cons_of_ne_nil hne
    rfl
  refine h.in_front_of ?follows ?run ?word ?literal
  case follows =>
    intro c hc
    by_cases hnil : r = []
    · subst hnil
      exact .inl (hw c (List.mem_of_head? hc))
    · exact .inr (hsame hnil ▸ hc)
  case run =>
    intro ha
    refine .inr (hsame (hr.resolve_right ?_))
    rintro ⟨kind, hkind⟩
    have hsub : [Action.skip, .comment] ⊆ [.skip, .newline, .comment, .reject] := by decide
    exact not_mem_of_tokenKind? hkind (hsub ha)
  case word =>
    rintro rfl hu
    refine hsame ?_
    rintro rfl
    -- A reserved word at the end of the text is no match of the rule of words.
    cases h.unique (begins_reserved hu rfl)
  case literal =>
    intro _ _ hnone
    exact literalRest_append_eq_none hnone (quote_not_mem_of_gaps hw)

/-- Where a match is made when blanks are added to a text, one is made without
them. -/
theorem exists_begins_of_append {c : Char} {m : Match} (h : Begins (c :: (t ++ w)) m) :
    ∃ m', Begins (c :: t) m' := by
  generalize hrest : t ++ w = r at h
  cases h with
  | blanks hc => exact ⟨_, .blanks hc⟩
  | lineFeed => exact ⟨_, .lineFeed⟩
  | comment =>
      obtain ⟨u, rfl⟩ := exists_cons_of_append_gaps hw rfl hrest
      exact ⟨_, .comment⟩
  | reserved hstarts =>
      obtain ⟨d, u, hd, halpha⟩ := exists_of_startsReserved hstarts
      cases hd
      exact ⟨_, begins_scanWord halpha t⟩
  | word halpha => exact ⟨_, begins_scanWord halpha t⟩
  | hexLiteral =>
      obtain ⟨u, rfl⟩ := exists_cons_of_append_gaps hw rfl hrest
      exact ⟨_, .hexLiteral⟩
  | zero hx =>
      rw [← hrest, ne_eq, head?_append_gaps_iff hw rfl] at hx
      exact ⟨_, .zero hx⟩
  | decimal hc hzero => exact ⟨_, .decimal hc hzero⟩
  | comparison hc =>
      obtain ⟨u, rfl⟩ := exists_cons_of_append_gaps hw rfl hrest
      exact ⟨_, .comparison hc⟩
  | punctuation hc => exact ⟨_, .punctuation hc⟩
  | doubled hc =>
      have hgap : isGap c = false := by
        simp only [List.mem_cons, List.not_mem_nil, or_false] at hc
        rcases hc with rfl | rfl <;> rfl
      obtain ⟨u, rfl⟩ := exists_cons_of_append_gaps hw hgap hrest
      exact ⟨_, .doubled hc⟩
  | operator hc hslash hequal =>
      rw [← hrest, head?_append_gaps_iff hw rfl] at hslash hequal
      exact ⟨_, .operator hc hslash hequal⟩
  | stringLiteral hu =>
      cases hv : literalRest t with
      | some v => exact ⟨_, .stringLiteral hv⟩
      | none =>
          rw [← hrest, literalRest_append_eq_none hv (quote_not_mem_of_gaps hw)] at hu
          cases hu

/-- What is met at the beginning of a text is met when blanks are added. -/
theorem MetAt.append_gaps {cause : LexError.Cause} (h : MetAt limits t cause) :
    MetAt limits (t ++ w) cause := by
  cases h with
  | @unexpected c t h =>
      refine .unexpected (select?_eq_none_iff.mp (Option.eq_none_iff_forall_ne_some.mpr ?_))
      intro m hm
      obtain ⟨m', hm'⟩ := exists_begins_of_append hw (begins_iff.mp hm)
      rw [← begins_iff, select?_eq_none_iff.mpr h] at hm'
      cases hm'
  | @reserved v t hv hend =>
      rw [List.append_assoc]
      refine .reserved hv ?_
      cases t with
      | cons c t => exact hend
      | nil =>
          have hstop : Stops isWordChar w := by
            intro c hc
            rcases eq_of_isGap (hw c (List.mem_of_head? hc)) with rfl | rfl | rfl <;> rfl
          exact stops_isWordChar_iff.mp hstop
  | @tooLong t m kind hm hkind hsize =>
      obtain ⟨i, a, u⟩ := m
      have hb := begins_iff.mp hm
      obtain ⟨r, rfl⟩ := hb.isPrefix
      have hb' := begins_append_gaps hw hb (.inr ⟨kind, hkind⟩)
      rw [← List.append_assoc] at hb'
      exact .tooLong (begins_iff.mpr hb') hkind hsize

/-! ## Steps -/

/-- A step is made in front of more blanks, if text is left behind it or it
makes a token. -/
theorem step_append_gaps (h : step limits s = .advanced seen p s')
    (hp : s'.rest ≠ [] ∨ ∃ t, p = .token t) :
    step limits (s.withRest (s.rest ++ w)) = .advanced seen p (s'.withRest (s'.rest ++ w)) := by
  rw [(rest_of_step h).1, List.append_assoc]
  refine step_in_front_of h ?_
  intro m n ha hb
  obtain ⟨i, a, rfl⟩ := exists_of_act ha
  refine begins_append_gaps hw hb (hp.imp_right ?_)
  rintro ⟨t, rfl⟩
  exact ⟨t.kind, (act_eq_token ha).1⟩

/-- The same steps are made in front of more blanks, while text is left. -/
theorem Steps.append_gaps (h : Steps limits s ms ps s') (hs : s'.rest ≠ []) :
    Steps limits (s.withRest (s.rest ++ w)) ms ps (s'.withRest (s'.rest ++ w)) := by
  induction h with
  | refl => exact .refl
  | step h t ih => exact .step (step_append_gaps hw h (.inl (t.rest_ne_nil hs))) (ih hs)

/-! ## The end of a source -/

theorem yields_gaps : Yields limits w [] := by
  induction w with
  | nil => exact .nil
  | cons c w ih =>
      obtain ⟨hc, htail⟩ := List.forall_mem_cons.mp hw
      rcases eq_of_isGap hc with rfl | rfl | rfl
      · exact .of_space rfl (ih htail)
      · exact .of_space rfl (ih htail)
      · exact .of_lineFeed (ih htail)

/-- What is passed over at the end of a text yields no token either with more
blanks behind it. -/
theorem yields_passed_append {m : Match} (h : Begins t m) (ht : m.text = t)
    (ha : (passed? m.action).isSome) : Yields limits (t ++ w) [] := by
  cases h with
  | @blanks c t hc =>
      have hspaces : ∀ d ∈ c :: t, isSpace d = true := by
        rw [← ht]
        exact List.forall_mem_cons.mpr ⟨hc, fun d hd => List.mem_takeWhile_imp hd⟩
      refine yields_gaps (List.forall_mem_append.mpr ⟨?_, hw⟩)
      exact fun d hd => Bool.or_eq_true_iff.mpr (.inl (hspaces d hd))
  | @lineFeed t =>
      obtain rfl : [] = t := (List.cons.inj ht).2
      exact .of_lineFeed (yields_gaps hw)
  | @comment t =>
      -- The comment takes what it took before, so nothing but blanks is left.
      have hline : restOfLine t = t := (List.cons.inj (List.cons.inj ht).2).2
      obtain ⟨r, hr⟩ := restOfLine_isPrefix (t ++ w)
      have hrest : r <:+ w := by
        refine List.suffix_of_suffix_length_le ⟨_, hr⟩ (List.suffix_append t w) ?_
        have hle := (restOfLine_prefix_append t w).length_le
        have hlength := congrArg List.length hr
        rw [List.length_append, List.length_append] at hlength
        rw [hline] at hle
        omega
      have hcomment : Begins ('/' :: '/' :: (t ++ w))
          ⟨2, .comment, ['/', '/'] ++ restOfLine (t ++ w)⟩ := .comment
      have hsplit : '/' :: '/' :: (t ++ w) = ['/', '/'] ++ restOfLine (t ++ w) ++ r := by
        rw [List.append_assoc, hr]
        rfl
      rw [hsplit] at hcomment
      show Yields limits ('/' :: '/' :: (t ++ w)) []
      rw [hsplit]
      exact .trivia hcomment rfl (yields_gaps fun c hc => hw c (hrest.subset hc))
  | _ => cases ha

/-- Steps to the end of a text make the same tokens when blanks are added. -/
theorem Steps.append_gaps_of_end (h : Steps limits s ms ps s') (hs : s'.rest = []) :
    ∃ ms' ps' s'', Steps limits (s.withRest (s.rest ++ w)) ms' ps' s'' ∧ s''.rest = [] ∧
      ps'.filterMap Piece.token? = ps.filterMap Piece.token? := by
  induction h with
  | @refl s =>
      rw [hs]
      exact (yields_gaps hw).exists_steps s
  | @step s s₁ s' seen p ms ps h t ih =>
      by_cases hp : s₁.rest ≠ [] ∨ ∃ t, p = .token t
      · obtain ⟨ms', ps', s'', steps, hend, htokens⟩ := ih hs
        refine ⟨_, _, s'', .step (step_append_gaps hw h hp) steps, hend, ?_⟩
        rw [List.filterMap_cons, htokens, List.filterMap_cons]
      · -- The last piece is trivia, and it may go on into the blanks.
        rw [not_or, not_not] at hp
        obtain ⟨hnil, hkind⟩ := hp
        obtain ⟨m, n, hb, ha, -, -⟩ := step_eq_advanced_iff.mp h
        cases p with
        | token t => exact absurd ⟨t, rfl⟩ hkind
        | trivia v =>
            have htext : m.text = s.rest := by
              rw [(rest_of_step h).1, hnil, List.append_nil]
              exact (act_eq_ok ha).1.symm
            have hpassed : (passed? m.action).isSome := by
              rw [act_eq_trivia ha]
              rfl
            cases t with
            | step h' => exact absurd hnil (rest_ne_nil_of_step h')
            | refl => exact (yields_passed_append hw hb htext hpassed).exists_steps s

end Gaps

/-! ## Sources -/

/-- Spaces, tabs and line feeds at the end of a source change none of its
tokens, nor its error. -/
theorem tokenize_append_blanks (limits : Limits) (source : Text) {w : Text}
    (hw : ∀ c ∈ w, c ∈ [' ', '\t', '\n']) :
    tokenize limits (source ++ w) = tokenize limits source := by
  have hgaps : ∀ c ∈ w, isGap c = true := by
    have hall : ∀ c ∈ [' ', '\t', '\n'], isGap c = true := List.all_eq_true.mp rfl
    exact fun c hc => hall c (hw c hc)
  cases h : tokenize limits source with
  | ok ts =>
      obtain ⟨ms, ps, s', steps, hs, rfl⟩ := tokenize_eq_ok_iff.mp h
      obtain ⟨ms', ps', s'', steps', hs', htokens⟩ := steps.append_gaps_of_end hgaps hs
      exact tokenize_eq_ok_iff.mpr ⟨ms', ps', s'', steps', hs', htokens.symm⟩
  | error e =>
      obtain ⟨ms, ps, s', seen, cause, steps, hs, hf, rfl⟩ :=
        lex_eq_error_iff.mp (tokenize_eq_error_iff.mp h)
      have hmet := (step_failed_iff hs).mp ⟨seen, hf⟩
      have hs' : s'.rest ++ w ≠ [] := List.append_ne_nil_of_left_ne_nil hs w
      obtain ⟨seen', hf'⟩ := (step_failed_iff (s := s'.withRest (s'.rest ++ w)) hs').mpr
        (hmet.append_gaps hgaps)
      exact tokenize_eq_error_iff.mpr (lex_eq_error_iff.mpr
        ⟨ms, ps, _, seen', cause, steps.append_gaps hgaps hs, hs', hf', rfl⟩)

/-- A literal that closes at a quote behind a backslash and a comment that is
not ended, and a literal that is not closed. -/
theorem tokenize_append_blanks_of_open :
    (∀ c ∈ "\n \t".toList, c ∈ [' ', '\t', '\n']) ∧
      tokenize {} ("x=\"\\\"//é".toList ++ "\n \t".toList) =
        .ok [⟨.identifier, ['x'], 1, 0⟩, ⟨.symbol, ['='], 1, 1⟩,
          ⟨.stringLiteral, ['"', '\\', '"'], 1, 2⟩] ∧
      tokenize {} ("y\n \"a".toList ++ "\n \t".toList) =
        .error ⟨.unexpected '"', some ⟨2, 3⟩⟩ := by
  have hw : ∀ c ∈ "\n \t".toList, c ∈ [' ', '\t', '\n'] := by simp
  refine ⟨hw, ?_, ?_⟩
  · rw [tokenize_append_blanks {} _ hw]
    exact eq_ok_of_toOption (by decide +kernel)
  · rw [tokenize_append_blanks {} _ hw]
    exact tokenize_eq_error_iff.mpr (lex_of_error? (by decide +kernel))

end Lexing
end Decaf
