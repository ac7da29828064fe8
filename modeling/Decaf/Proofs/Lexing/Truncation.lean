/-
A source cut off where it fails.

Where a run fails, what was done before does not depend on the rest: the text
before the failing step is lexed to the very pieces that the run had added.
Cutting off what follows a match does not change it, but in one case.  The rule
of reserved words asks that no character of a word follows, and at the end of a
text none does:

    foré     the token for, and é is left     cut off in front of é
    for      the reserved word for            an error, where the token began

So either the text before the failure is lexed, or its last token was such an
identifier (`CutsWord`), and never both.
-/
import Decaf.Proofs.Lexing.Context
import Decaf.Proofs.Lexing.Errors
import Decaf.Proofs.Lexing.Words

namespace Decaf
namespace Lexing

open Text Rule

/-- A source that fails at the character `c` behind the text `u` is cut off
inside of a word: the last piece is a token `t` that `u` ends with, it is
reserved, and `c`, which goes on with the word, is not of ASCII.  Without `c`
the word is an error. -/
structure CutsWord (limits : Limits) (source u : Text) (c : Char) (t : Token) : Prop where
  last : (run limits source).pieces.getLast? = some (.token t)
  kind : t.kind = .identifier
  reserved : t.lexeme ∈ Vocabulary.reserved
  ends : t.offset + byteSize t.lexeme = byteSize u
  goesOn : isWordChar c = true ∧ 0x80 ≤ c.toNat
  rejects : lex limits u = .error ⟨.reserved t.lexeme, some ⟨t.line, t.offset⟩⟩

variable {limits : Limits} {s s' : State} {ms : List Matched} {ps : List Piece}

/-- The same steps are made when a part of what follows them is cut off.  If
nothing is left of it, the last piece must not be a reserved word. -/
theorem Steps.cut (h : Steps limits s ms ps s') {v r : Text} (hrest : s'.rest = v ++ r)
    (hv : v = [] → ∀ t, ps.getLast? = some (.token t) → t.lexeme ∉ Vocabulary.reserved) :
    Steps limits (s.withRest (ps.flatMap Piece.text ++ v)) ms ps (s'.withRest v) := by
  have hlit : ∀ u, literalRest (u ++ s'.rest) = none → literalRest (u ++ v) = none := by
    intro u hu
    rw [hrest, ← List.append_assoc] at hu
    exact literalRest_eq_none_of_append_eq_none hu
  refine h.in_front_of (fun _ _ _ => hlit) ?_
  intro p hp s m n ha hb
  by_cases hnil : v = []
  · subst hnil
    obtain ⟨i, a, rfl⟩ := exists_of_act ha
    rw [List.append_nil]
    refine hb.at_end ?_
    rintro rfl
    cases p with
    | token t => exact hv rfl t hp
    | trivia v => cases act_eq_trivia ha
  · obtain ⟨c, v', rfl⟩ := List.exists_cons_of_ne_nil hnil
    exact begins_in_front_of_same ha hb (by rw [hrest]; rfl) fun _ _ _ => hlit []

/-- The text that some steps pass is lexed to their pieces, if the last one is
no reserved word. -/
theorem Steps.lex_of_not_reserved {source : Text} (h : Steps limits (.start source) ms ps s')
    (hlast : ∀ t, ps.getLast? = some (.token t) → t.lexeme ∉ Vocabulary.reserved) :
    lex limits (ps.flatMap Piece.text) =
      .ok ⟨ps.filterMap Piece.token?, ps.filterMap Piece.trivia?⟩ := by
  have hcut := h.cut (v := []) rfl fun _ => hlast
  rw [List.append_nil] at hcut
  exact lex_eq_ok_iff.mpr ⟨ms, ps, _, hcut, rfl, rfl⟩

/-- The text that some steps pass is an error at its last token, if that was
made of a reserved word. -/
theorem Steps.lex_of_reserved {source : Text} {t : Token}
    (h : Steps limits (.start source) ms ps s')
    (hlast : ps.getLast? = some (.token t)) (hw : t.lexeme ∈ Vocabulary.reserved) :
    lex limits (ps.flatMap Piece.text) = .error ⟨.reserved t.lexeme, some ⟨t.line, t.offset⟩⟩ := by
  obtain ⟨ms₁, ps₁, s₁, seen, t₁, h₁, rfl⟩ := h.last_step hlast
  obtain ⟨hrest, hne, hline, hoffset, -⟩ := rest_of_step h₁
  have hcut := t₁.cut hrest fun hnil => absurd hnil hne
  have hmet : MetAt limits (t.lexeme ++ []) (.reserved t.lexeme) := .reserved hw rfl
  rw [List.append_nil] at hmet
  obtain ⟨seen', hf⟩ := (step_failed_iff (s := s₁.withRest t.lexeme) hne).mpr hmet
  rw [List.flatMap_append, List.flatMap_singleton]
  refine lex_eq_error_iff.mpr ⟨ms₁, ps₁, _, seen', _, hcut, hne, hf, ?_⟩
  change t.line = s₁.line at hline
  change t.offset = s₁.offset at hoffset
  rw [hline, hoffset]
  rfl

/-- The text before a failure is lexed to what the run had added, or it ends
with a reserved word that was no more than the beginning of a word. -/
theorem lex_before_error {source : Text} {e : LexError} (h : lex limits source = .error e) :
    ∃ u c r line, source = u ++ c :: r ∧ e.position = some ⟨line, byteSize u⟩ ∧
      Xor (lex limits u = .ok ⟨(run limits source).tokens, (run limits source).trivia⟩)
        (∃ t, CutsWord limits source u c t) := by
  obtain ⟨ms, ps, s', seen, cause, steps, hs, hf, rfl⟩ := lex_eq_error_iff.mp h
  have hrun : run limits source = _ := steps.runFrom_of_failed hs hf
  obtain ⟨hsource, hoffset⟩ := steps.source_eq
  obtain ⟨c, r, hrest⟩ := List.exists_cons_of_ne_nil hs
  rw [hrest] at hsource
  refine ⟨ps.flatMap Piece.text, c, r, s'.line, hsource, ?_, ?_⟩
  · rw [State.position, hoffset]
  by_cases hlast : ∃ t, ps.getLast? = some (.token t) ∧ t.lexeme ∈ Vocabulary.reserved
  · obtain ⟨t, hlast, hw⟩ := hlast
    have hlex := steps.lex_of_reserved hlast hw
    obtain ⟨ms₁, ps₁, s₁, seen₁, t₁, h₁, rfl⟩ := steps.last_step hlast
    obtain ⟨hkind, d, v, hd, hgoesOn⟩ := rest_of_reserved h₁ hw
    obtain ⟨rfl, rfl⟩ := List.cons.inj (hrest.symm.trans hd)
    have hends : t.offset + byteSize t.lexeme = s'.offset := by
      obtain ⟨-, -, -, htoken, hnext⟩ := rest_of_step h₁
      change t.offset = s₁.offset at htoken
      rw [hnext, htoken]
      rfl
    have hcuts : CutsWord limits source (List.flatMap Piece.text _) c t :=
      { last := by rw [hrun]; exact hlast
        kind := hkind
        reserved := hw
        ends := hends.trans hoffset
        goesOn := hgoesOn
        rejects := hlex }
    refine .inr ⟨⟨t, hcuts⟩, ?_⟩
    rw [hlex]
    nofun
  · have hlex := steps.lex_of_not_reserved fun t ht hw => hlast ⟨t, ht, hw⟩
    rw [hrun]
    refine .inl ⟨hlex, ?_⟩
    rintro ⟨t, hcuts⟩
    have hrejects := hcuts.rejects
    rw [hlex] at hrejects
    cases hrejects

/-- A token made of a reserved word, with a letter behind it that is not of
ASCII. -/
theorem lex_before_error_of_accent :
    lex {} "x=foré".toList = .error ⟨.unexpected 'é', some ⟨1, 5⟩⟩ ∧
      lex {} "x=for".toList = .error ⟨.reserved "for".toList, some ⟨1, 2⟩⟩ ∧
      ∃ t, CutsWord {} "x=foré".toList "x=for".toList 'é' t := by
  have h : lex {} "x=foré".toList = .error ⟨.unexpected 'é', some ⟨1, 5⟩⟩ :=
    lex_of_error? (by decide +kernel)
  have hcut : lex {} "x=for".toList = .error ⟨.reserved "for".toList, some ⟨1, 2⟩⟩ :=
    lex_of_error? (by decide +kernel)
  refine ⟨h, hcut, ?_⟩
  obtain ⟨u, c, r, line, hsource, hpos, hxor⟩ := lex_before_error h
  have hsize : byteSize u = 5 := (congrArg Position.offset (Option.some.inj hpos)).symm
  have hrest := dropBytes?_append u (c :: r)
  rw [← hsource, hsize] at hrest
  obtain ⟨rfl, rfl⟩ : 'é' = c ∧ [] = r := List.cons.inj (Option.some.inj hrest)
  change "x=for".toList ++ ['é'] = u ++ ['é'] at hsource
  obtain rfl := List.append_cancel_right hsource
  rcases hxor with ⟨hok, -⟩ | ⟨hcuts, -⟩
  · rw [hcut] at hok
    cases hok
  · exact hcuts

end Lexing
end Decaf
