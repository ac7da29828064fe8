/-
Sources one after another.

Where a source ends its last line, what comes behind it is lexed as it would be
alone, and counted from there.  The pieces of the first source stay what they
are:

    between two pieces          the next character is the same
    the last piece              ends with the line feed, so anything may follow
    "a\" before "b"             the first literal would go on to the last quote

The last case is the one exception, and it is ruled out: the first source has
no literal that closes at a quote behind a backslash, or there is no quote in
the second.
-/
import Decaf.Proofs.Lexing.Context
import Decaf.Proofs.Lexing.LineNumbers
import Decaf.Proofs.Lexing.Shift

namespace Decaf
namespace Lexing

open Text Rule

variable {limits : Limits} {s s' : State} {ms : List Matched} {ps : List Piece}

/-- The last piece ends as the pieces together do. -/
theorem Steps.getLast?_text (h : Steps limits s ms ps s') {p : Piece} (hp : p ∈ ps.getLast?) :
    p.text.getLast? = (ps.flatMap Piece.text).getLast? := by
  have hne := h.text_ne_nil (List.mem_of_getLast? hp)
  obtain ⟨ps₁, rfl⟩ := List.getLast?_eq_some_iff.mp hp
  rw [List.flatMap_append, List.getLast?_append, List.flatMap_singleton]
  cases hlast : p.text.getLast? with
  | none => exact absurd (List.getLast?_eq_none_iff.mp hlast) hne
  | some c => rfl

/-- The steps over a source that ends its last line are made in front of every
other source, if no literal can go on there. -/
theorem Steps.in_front_of_source {source₁ source₂ : Text}
    (h : Steps limits (.start source₁) ms ps s') (hs : s'.rest = [])
    (hend : source₁ = [] ∨ source₁.getLast? = some '\n')
    (hlit : (∀ t, .token t ∈ ps → ¬ ['\\', '"'] <:+ t.lexeme) ∨ '"' ∉ source₂) :
    Steps limits (.start (source₁ ++ source₂)) ms ps (s'.withRest source₂) := by
  obtain ⟨hsource, -⟩ := h.source_eq
  rw [hs, List.append_nil] at hsource
  have hsteps := h.in_front_of (r := source₂) ?_ ?_
  · rw [← hsource] at hsteps
    exact hsteps
  · intro t ht hquote v hv
    rw [hs, List.append_nil] at hv
    rcases hlit with hlit | hlit
    · exact absurd hquote (hlit t ht)
    · exact literalRest_append_eq_none hv hlit
  · intro p hp s m n ha hb
    have hlast : p.text.getLast? = some '\n' := by
      rw [h.getLast?_text hp, ← hsource]
      have hne := h.flatMap_text_ne_nil (List.ne_nil_of_mem (List.mem_of_getLast? hp))
      rw [← hsource] at hne
      exact hend.resolve_left hne
    obtain ⟨i, a, rfl⟩ := exists_of_act ha
    exact hb.in_front_of_any hlast source₂

/-- A source behind one that ends its last line is lexed as it is alone, with
its lines and offsets counted from there. -/
theorem lex_append {source₁ source₂ : Text} {lexed₁ : Lexed}
    (h : lex limits source₁ = .ok lexed₁)
    (hend : source₁ = [] ∨ source₁.getLast? = some '\n')
    (hlit : (∀ t ∈ lexed₁.tokens, ¬ ['\\', '"'] <:+ t.lexeme) ∨ '"' ∉ source₂) :
    lex limits (source₁ ++ source₂) =
      match lex limits source₂ with
      | .ok lexed₂ => .ok (lexed₁ ++ lexed₂.shift (lineFeeds source₁) (byteSize source₁))
      | .error e => .error (e.shift (lineFeeds source₁) (byteSize source₁)) := by
  obtain ⟨ms, ps, s', t, hs, rfl⟩ := lex_eq_ok_iff.mp h
  have hsteps := t.in_front_of_source hs hend
    (hlit.imp_left fun hlit t ht => hlit t (mem_token?.mpr ht))
  by_cases hnil : source₂ = []
  · -- The line that is reached is known only where text is left.
    subst hnil
    have hempty : lex limits [] = .ok ⟨[], []⟩ := lex_eq_ok_iff.mpr ⟨_, _, _, .refl, rfl, rfl⟩
    rw [List.append_nil, h, hempty]
    show _ = Except.ok (Lexed.mk (_ ++ []) (_ ++ []))
    rw [List.append_nil, List.append_nil]
  · obtain ⟨hsource, hoffset⟩ := hsteps.source_eq
    obtain rfl : source₁ = ps.flatMap Piece.text := List.append_cancel_right hsource
    have hline : s'.line = 1 + lineFeeds (ps.flatMap Piece.text) := hsteps.line_eq hnil
    have hstart : s'.withRest source₂ = (State.start source₂).shift
        (lineFeeds (ps.flatMap Piece.text)) (byteSize (ps.flatMap Piece.text)) := by
      change s'.offset = _ at hoffset
      rw [State.withRest, hline, hoffset, State.shift, State.start, Nat.zero_add]
    exact lex_of_steps (hstart ▸ hsteps)

/-- A source with a literal that closes at a quote behind a backslash, and one
without a quote that cannot be lexed. -/
theorem lex_append_of_error :
    ∃ lexed, lex {} "x=\"\\\"//é\n".toList = .ok lexed ∧
      lex {} "y\n ^".toList = .error ⟨.unexpected '^', some ⟨2, 3⟩⟩ ∧
      lex {} ("x=\"\\\"//é\n".toList ++ "y\n ^".toList) =
        .error ⟨.unexpected '^', some ⟨3, 13⟩⟩ := by
  have h₁ : lex {} "x=\"\\\"//é\n".toList = .ok
      ⟨[⟨.identifier, ['x'], 1, 0⟩, ⟨.symbol, ['='], 1, 1⟩,
        ⟨.stringLiteral, ['"', '\\', '"'], 1, 2⟩],
       [⟨.comment, ['/', '/', 'é', '\n'], 1, 5⟩]⟩ :=
    eq_ok_of_toOption (by decide +kernel)
  have h₂ : lex {} "y\n ^".toList = .error ⟨.unexpected '^', some ⟨2, 3⟩⟩ :=
    lex_of_error? (by decide +kernel)
  refine ⟨_, h₁, h₂, ?_⟩
  rw [lex_append h₁ (.inr rfl) (.inr (by decide)), h₂]
  rfl

end Lexing
end Decaf
