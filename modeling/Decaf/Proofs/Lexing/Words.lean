/-
No reserved word leaves the lexer.

The rule of reserved words asks for the end of a word as all characters of a
word count, while the rule of words takes characters of ASCII only.  So where a
reserved word is followed by another character of a word, as by a letter with
an accent, one step does make a token of it:

    for       the rule of reserved words     an error
    forx      the rule of words              a word of its own
    foré      the rule of words              the token for, and é is left

No match begins with a character that is not of ASCII, so the step behind such
a token fails (`not_begins_of_reserved`), and a run that comes to the end of its
text has none of them.  A lexeme of a run is thus known without the run
(`IsLexeme`): it is the match at the beginning of some text, and no reserved
word.
-/
import Decaf.Proofs.Lexing.Steps

namespace Decaf
namespace Lexing

open Pattern Text Rule

variable {limits : Limits} {s s' : State} {t : Token} {seen : Matched} {ms : List Matched}
  {ps : List Piece}

/-! ## Reserved words as tokens -/

/-- A match that is a reserved word is rejected, or it is the whole run of word
characters and more of the word follows. -/
theorem action_of_mem_reserved {t : Text} {m : Match} (h : Begins t m)
    (hw : m.text ∈ Vocabulary.reserved) :
    m.action = .reject ∨ m.action = .word ∧ m.text = leadingWord t ∧ ¬ StartsReserved t := by
  obtain ⟨c, u, hcu, hc⟩ := exists_isAlpha_of_mem_reserved hw
  obtain ⟨r, hr⟩ := h.isPrefix
  rw [hcu] at hr
  subst hr
  by_cases ht : StartsReserved (c :: u ++ r)
  · rw [h.unique (.reserved ht)]
    exact .inl rfl
  · rw [h.unique (.word hc ht)]
    exact .inr ⟨rfl, rfl, ht⟩

/-- No reserved word is a keyword. -/
theorem wordKind_of_mem_reserved {w : Text} (hw : w ∈ Vocabulary.reserved) :
    wordKind w = .identifier := by
  have hall : ∀ w ∈ Vocabulary.reserved, wordKind w = .identifier := by decide +kernel
  exact hall w hw

/-- Where a step makes a token of a reserved word, it is an identifier, and a
character of a word follows that is not of ASCII. -/
theorem rest_of_reserved (h : step limits s = .advanced seen (.token t) s')
    (hw : t.lexeme ∈ Vocabulary.reserved) :
    t.kind = .identifier ∧ ∃ c u, s'.rest = c :: u ∧ isWordChar c = true ∧ 0x80 ≤ c.toNat := by
  obtain ⟨m, n, hb, ha, -, -⟩ := step_eq_advanced_iff.mp h
  obtain ⟨htext, -, -⟩ := act_eq_ok ha
  change t.lexeme = m.text at htext
  rw [htext] at hw
  obtain ⟨hkind, -⟩ := act_eq_token ha
  rcases action_of_mem_reserved hb hw with haction | ⟨haction, hlead, hstarts⟩
  · rw [haction] at hkind
    cases hkind
  · rw [haction] at hkind
    refine ⟨(Option.some.inj hkind).symm.trans (wordKind_of_mem_reserved hw), ?_⟩
    have hrest : s'.rest = afterWord s.rest := by
      have hsplit := (rest_of_step h).1
      change s.rest = t.lexeme ++ s'.rest at hsplit
      rw [htext, hlead] at hsplit
      exact List.append_cancel_left (hsplit.symm.trans (leadingWord_append_afterWord s.rest).symm)
    have hword : inWord (afterWord s.rest).head? = true := by
      rw [hlead] at hw
      simpa [StartsReserved, hw] using hstarts
    rw [hrest]
    cases hu : afterWord s.rest with
    | nil =>
        rw [hu] at hword
        cases hword
    | cons c u =>
        rw [hu] at hword
        change isWordChar c = true at hword
        refine ⟨c, u, rfl, hword, Nat.le_of_not_lt ?_⟩
        intro hascii
        have hstop := List.head?_dropWhile_not isAsciiWordChar s.rest
        rw [← afterWord, hu] at hstop
        rw [isWordChar_of_ascii hascii] at hword
        simp [hword] at hstop

/-- Behind such a token no match can be made. -/
theorem not_begins_of_reserved (h : step limits s = .advanced seen (.token t) s')
    (hw : t.lexeme ∈ Vocabulary.reserved) (m : Match) : ¬ Begins s'.rest m := by
  obtain ⟨-, c, u, hrest, -, hc⟩ := rest_of_reserved h hw
  intro hb
  rw [hrest] at hb
  exact Nat.not_lt_of_le hc hb.head_lt

example : (run {} "foré".toList).error? = some ⟨.unexpected 'é', some ⟨1, 3⟩⟩ := by
  decide +kernel

/-! ## Lexemes -/

/-- A text is a lexeme of a kind: somewhere it is the match that is made, its
rule makes a token of that kind of it, and it is neither too long nor a
reserved word. -/
structure IsLexeme (limits : Limits) (kind : Token.Kind) (w : Text) : Prop where
  begins : ∃ i a r, Begins (w ++ r) ⟨i, a, w⟩ ∧ tokenKind? a w = some kind
  size : byteSize w ≤ limits.lexeme
  not_reserved : w ∉ Vocabulary.reserved

/-- The tokens of a run to the end of its text are lexemes. -/
theorem Steps.isLexeme (h : Steps limits s ms ps s') (hs : s'.rest = [])
    (ht : .token t ∈ ps) : IsLexeme limits t.kind t.lexeme := by
  obtain ⟨ms₁, ps₁, s₁, seen, s₂, ms₂, ps₂, -, h₁, t₂, -⟩ := h.exists_step_of_mem ht
  obtain ⟨m, n, hb, ha, -, -⟩ := step_eq_advanced_iff.mp h₁
  obtain ⟨hkind, hsize⟩ := act_eq_token ha
  obtain ⟨htext, -, -⟩ := act_eq_ok ha
  change t.lexeme = m.text at htext
  obtain ⟨r, hr⟩ := hb.isPrefix
  rw [htext]
  refine ⟨⟨m.index, m.action, r, hr ▸ hb, hkind⟩, hsize, ?_⟩
  intro hw
  have hstuck := not_begins_of_reserved h₁ (htext ▸ hw)
  cases t₂ with
  | refl =>
      obtain ⟨-, c, u, hrest, -⟩ := rest_of_reserved h₁ (htext ▸ hw)
      rw [hs] at hrest
      cases hrest
  | step h =>
      obtain ⟨m', -, hb', -⟩ := step_eq_advanced_iff.mp h
      exact hstuck m' hb'

theorem isLexeme_of_tokenize {source : Text} {ts : List Token}
    (h : tokenize limits source = .ok ts) : ∀ t ∈ ts, IsLexeme limits t.kind t.lexeme := by
  obtain ⟨ms, ps, s', steps, hs, rfl⟩ := tokenize_eq_ok_iff.mp h
  exact fun t ht => steps.isLexeme hs (mem_token?.mp ht)

/-- Only words are keywords and identifiers. -/
theorem kind_eq_wordKind {t : Text} {m : Match} {kind : Token.Kind} (h : Begins t m)
    (hm : tokenKind? m.action m.text = some kind) (hk : kind = .keyword ∨ kind = .identifier) :
    kind = wordKind m.text := by
  rcases hk with rfl | rfl
  all_goals
    cases h with
    | word => exact (Option.some.inj hm).symm
    | _ => cases hm

/-- No token is a reserved word, the keywords are those of the language, and an
identifier is neither. -/
theorem not_mem_reserved {source : Text} {ts : List Token} (h : tokenize limits source = .ok ts) :
    ∀ t ∈ ts, t.lexeme ∉ Vocabulary.reserved ∧
      (t.kind = .keyword → t.lexeme ∈ Vocabulary.keywords) ∧
      (t.kind = .identifier → t.lexeme ∉ Vocabulary.keywords ∧ t.lexeme ∉ Vocabulary.reserved) := by
  intro t ht
  obtain ⟨ms, ps, s', steps, hs, rfl⟩ := tokenize_eq_ok_iff.mp h
  obtain ⟨⟨i, a, r, hb, hkind⟩, -, hreserved⟩ := steps.isLexeme hs (mem_token?.mp ht)
  refine ⟨hreserved, ?_, ?_⟩
  · intro hk
    have hw := kind_eq_wordKind hb hkind (.inl hk)
    rw [hk, wordKind] at hw
    split at hw
    · exact List.contains_iff_mem.mp ‹_›
    · cases hw
  · intro hk
    have hw := kind_eq_wordKind hb hkind (.inr hk)
    rw [hk, wordKind] at hw
    split at hw
    · cases hw
    · refine ⟨?_, hreserved⟩
      intro hmem
      exact absurd (List.contains_iff_mem.mpr hmem) ‹_›

theorem not_mem_reserved_forx :
    ∃ ts, tokenize {} "if(forx)".toList = .ok ts ∧
      ts.map Token.kind = [.keyword, .symbol, .identifier, .symbol] ∧
      ∀ t ∈ ts, t.lexeme ∉ Vocabulary.reserved := by
  have h : tokenize {} "if(forx)".toList = .ok
      [⟨.keyword, ['i', 'f'], 1, 0⟩, ⟨.symbol, ['('], 1, 2⟩,
        ⟨.identifier, ['f', 'o', 'r', 'x'], 1, 3⟩, ⟨.symbol, [')'], 1, 7⟩] :=
    eq_ok_of_toOption (by decide +kernel)
  exact ⟨_, h, rfl, fun t ht => (not_mem_reserved h t ht).1⟩

end Lexing
end Decaf
