/-
What an error says is there.

A run that fails stops in front of some text, and its error is about that
text.  `MetAt` tells for each cause what is met:

    unexpected c       no rule matches, and c is the first character
    reserved w         the word w, with no character of a word behind it
    tooLong n max      a match that would be a token of n bytes, and n > max

The other causes are not met in a source: no rule matches the empty text, and
the notations of the table are those of patterns (`compile_source`).  A step
fails for a cause exactly where the cause is met (`step_failed_iff`), so the
text is told by the error and the error by the text.
-/
import Decaf.Proofs.Lexing.Steps

namespace Decaf

namespace Lexing

open Pattern Text Rule

/-- A cause of an error is met at the beginning of a text. -/
inductive MetAt (limits : Limits) : Text → LexError.Cause → Prop where
  | unexpected {c : Char} {t : Text} (h : ∀ r ∈ table, r.pattern.find? (c :: t) = none) :
      MetAt limits (c :: t) (.unexpected c)
  | reserved {w t : Text} (hw : w ∈ Vocabulary.reserved) (ht : inWord t.head? = false) :
      MetAt limits (w ++ t) (.reserved w)
  | tooLong {t : Text} {m : Match} {kind : Token.Kind} (hm : select? table t = some m)
      (hkind : tokenKind? m.action m.text = some kind) (hsize : limits.lexeme < byteSize m.text) :
      MetAt limits t (.tooLong (byteSize m.text) limits.lexeme)

variable {limits : Limits} {s : State} {cause : LexError.Cause}

theorem begins_reserved {w t : Text} (hw : w ∈ Vocabulary.reserved) (ht : inWord t.head? = false) :
    Begins (w ++ t) ⟨3, .reject, w⟩ := by
  obtain ⟨hlead, hafter⟩ :=
    leadingWord_of_append (reserved_word hw).1 (any_isAsciiWordChar_of_inWord ht)
  have hstarts : StartsReserved (w ++ t) := by
    rw [StartsReserved, hlead, hafter]
    exact ⟨hw, ht⟩
  have hb := Begins.reserved hstarts
  rwa [hlead] at hb

/-- Only the rule of reserved words rejects what it matches. -/
theorem startsReserved_of_reject {t : Text} {m : Match} (h : Begins t m)
    (hm : m.action = .reject) : StartsReserved t ∧ m.text = leadingWord t := by
  cases h with
  | reserved ht => exact ⟨ht, rfl⟩
  | _ => cases hm

theorem metAt_of_act {m : Match} (hb : Begins s.rest m) (ha : act limits s m = .error cause) :
    MetAt limits s.rest cause := by
  rcases act_eq_error ha with ⟨haction, rfl⟩ | ⟨kind, hkind, hsize, rfl⟩
  · obtain ⟨⟨hw, hafter⟩, htext⟩ := startsReserved_of_reject hb haction
    have hmet : MetAt limits _ _ := .reserved hw hafter
    rwa [leadingWord_append_afterWord, ← htext] at hmet
  · exact .tooLong (begins_iff.mpr hb) hkind hsize

theorem act_of_tooLong {m : Match} {kind : Token.Kind} (h : tokenKind? m.action m.text = some kind)
    (hsize : limits.lexeme < byteSize m.text) :
    act limits s m = .error (.tooLong (byteSize m.text) limits.lexeme) := by
  obtain ⟨i, a, w⟩ := m
  cases a with
  | word | token => exact if_neg (Nat.not_le_of_lt hsize)
  | _ => cases h

/-- A step fails for what is met at the beginning of the text, and for nothing
else. -/
theorem step_failed_iff (hs : s.rest ≠ []) :
    (∃ seen, step limits s = .failed seen cause) ↔ MetAt limits s.rest cause := by
  constructor
  · rintro ⟨seen, h⟩
    rcases step_eq_failed h with ⟨m, hb, ha, -⟩ | ⟨hm, -, rfl⟩
    · exact metAt_of_act hb ha
    · obtain ⟨c, t, hrest⟩ := List.exists_cons_of_ne_nil hs
      rw [hrest] at hm ⊢
      exact .unexpected (select?_eq_none_iff.mp hm)
  · intro h
    generalize hrest : s.rest = t at h
    cases h with
    | @unexpected c t h =>
        have hnone : select? table s.rest = none := by
          rw [hrest]
          exact select?_eq_none_iff.mpr h
        exact ⟨none, by rw [step, hnone, hrest]; rfl⟩
    | reserved hw ht => exact ⟨_, step_of_error (hrest ▸ begins_reserved hw ht) rfl⟩
    | tooLong hm hkind hsize =>
        exact ⟨_, step_of_error (hrest ▸ begins_iff.mp hm) (act_of_tooLong hkind hsize)⟩

/-- The cause of an error is met in the source. -/
theorem exists_metAt_of_error {source : Text} {e : LexError} (h : lex limits source = .error e) :
    ∃ t, MetAt limits t e.cause := by
  obtain ⟨ms, ps, s', seen, cause, -, hs, hf, rfl⟩ := lex_eq_error_iff.mp h
  exact ⟨s'.rest, (step_failed_iff hs).mp ⟨seen, hf⟩⟩

/-- An error has a position in the source, on the boundary of a character, and
its cause is met there.  The table of rules causes none. -/
theorem error_metAt {source : Text} {e : LexError} (h : tokenize limits source = .error e) :
    (∃ pos t, e.position = some pos ∧ pos.offset < byteSize source ∧
      dropBytes? pos.offset source = some t ∧ MetAt limits t e.cause) ∧
    ∀ r ∈ table, Pattern.compile r.pattern.source = .ok r.pattern := by
  obtain ⟨ms, ps, s', seen, cause, steps, hs, hf, rfl⟩ :=
    lex_eq_error_iff.mp (tokenize_eq_error_iff.mp h)
  obtain ⟨hsource, hoffset⟩ := steps.source_eq
  have hleft : 0 < byteSize s'.rest :=
    Nat.lt_of_lt_of_le (List.length_pos_iff.mpr hs) (length_le_byteSize _)
  refine ⟨⟨s'.position, s'.rest, rfl, ?_, ?_, (step_failed_iff hs).mp ⟨seen, hf⟩⟩,
    fun r _ => Pattern.compile_source r.pattern⟩
  · show s'.offset < byteSize source
    rw [hsource, byteSize_append, hoffset]
    omega
  · show dropBytes? s'.offset source = some s'.rest
    rw [hsource, hoffset, dropBytes?_append]

/-- A number that is too long, behind a comment with a character of two bytes. -/
theorem error_metAt_of_tooLong :
    tokenize ⟨4, 65536⟩ "//é\n 12345;".toList = .error ⟨.tooLong 5 4, some ⟨2, 6⟩⟩ ∧
      dropBytes? 6 "//é\n 12345;".toList = some "12345;".toList ∧
      MetAt ⟨4, 65536⟩ "12345;".toList (.tooLong 5 4) := by
  have h : tokenize ⟨4, 65536⟩ "//é\n 12345;".toList = .error ⟨.tooLong 5 4, some ⟨2, 6⟩⟩ :=
    tokenize_eq_error_iff.mpr (lex_of_error? (by decide +kernel))
  have hrest : dropBytes? 6 "//é\n 12345;".toList = some "12345;".toList := by decide +kernel
  obtain ⟨⟨pos, t, hpos, -, ht, hmet⟩, -⟩ := error_metAt h
  obtain rfl := Option.some.inj hpos
  obtain rfl := Option.some.inj (hrest.symm.trans ht)
  exact ⟨h, hrest, hmet⟩

end Lexing
end Decaf
