/-
A match in front of another text.

A match is made at the beginning of a text, and what follows it has a say: a
run of characters has to end there, an operator must not get a second sign, a
word must not be reserved, and a string literal closes where it does because no
later quote can close it.  But for literals it is the next character alone that
counts, and there are two ways to be sure of it:

    the next character is the same       every match is kept
    a blank, a line feed or the end      a token is kept, if it is not reserved

`Begins.in_front_of` is proved once for both, one case a rule.  A literal that
closes at a quote behind a backslash asks for more than the next character, and
this is left to the one who changes what follows.
-/
import Mathlib.Data.List.TakeWhile
import Decaf.Proofs.Rule.First

namespace Decaf
namespace Rule

open Pattern Text

/-! ## Gaps -/

/-- Whether a character parts the tokens before and behind it. -/
def isGap (c : Char) : Bool := isSpace c || c == '\n'

/-- A text begins with a gap, or is at its end. -/
def StartsApart (r : Text) : Prop := ∀ c ∈ r.head?, isGap c = true

theorem eq_of_isGap {c : Char} (hc : isGap c = true) : c = ' ' ∨ c = '\t' ∨ c = '\n' := by
  simp only [isGap, isSpace, Bool.or_eq_true, List.contains_iff_mem, List.mem_cons,
    List.not_mem_nil, or_false, beq_iff_eq] at hc
  rcases hc with (rfl | rfl) | rfl
  · exact .inl rfl
  · exact .inr (.inl rfl)
  · exact .inr (.inr rfl)

/-! ## What follows a match -/

/-- A text begins like another one, or with a gap, or is at its end. -/
def FollowsLike (r r' : Text) : Prop := ∀ c ∈ r.head?, isGap c = true ∨ r'.head? = some c

/-- A run of characters of a kind ends in front of a text. -/
def Stops (p : Char → Bool) (r : Text) : Prop := ∀ c ∈ r.head?, p c = false

variable {p : Char → Bool} {t w r r' : Text}

theorem stops_nil : Stops p [] := nofun

theorem stops_isWordChar_iff : Stops isWordChar r ↔ inWord r.head? = false := by
  cases r <;> simp [Stops, inWord]

theorem FollowsLike.head?_ne (hr : FollowsLike r r') {c : Char} (hc : isGap c = false)
    (hr' : r'.head? ≠ some c) : r.head? ≠ some c := by
  intro h
  rcases hr c h with hgap | hhead
  · rw [hc] at hgap
    cases hgap
  · exact hr' hhead

theorem FollowsLike.stops (hr : FollowsLike r r')
    (hp : p ' ' = false ∧ p '\t' = false ∧ p '\n' = false) (hr' : Stops p r') : Stops p r := by
  obtain ⟨h₁, h₂, h₃⟩ := hp
  intro c hc
  rcases hr c hc with hgap | hhead
  · rcases eq_of_isGap hgap with rfl | rfl | rfl
    · exact h₁
    · exact h₂
    · exact h₃
  · exact hr' c hhead

/-- What follows the run at the beginning of a text does not go on with it. -/
theorem stops_of_takeWhile (h : t.takeWhile p ++ r = t) : Stops p r := by
  intro c hc
  obtain rfl : r = t.dropWhile p :=
    List.append_cancel_left (h.trans List.takeWhile_append_dropWhile.symm)
  have hstop := List.head?_dropWhile_not p t
  rw [Option.mem_def.mp hc] at hstop
  simpa using hstop

theorem takeWhile_append_of_stops (hw : ∀ c ∈ w, p c = true) (hr : Stops p r) :
    (w ++ r).takeWhile p = w := by
  rw [List.takeWhile_append_of_pos hw]
  cases r with
  | nil => exact List.append_nil w
  | cons c r => rw [List.takeWhile_cons_of_neg (by simp [hr c rfl]), List.append_nil]

/-- The run at the beginning of a text is the same in front of another text
that does not go on with it. -/
theorem takeWhile_takeWhile_append (hr : Stops p r) :
    (t.takeWhile p ++ r).takeWhile p = t.takeWhile p :=
  takeWhile_append_of_stops (fun _ => List.mem_takeWhile_imp) hr

theorem leadingWord_append (hr : Stops isAsciiWordChar r) :
    leadingWord (leadingWord t ++ r) = leadingWord t :=
  takeWhile_takeWhile_append hr

theorem startsReserved_append_iff (hr : Stops isAsciiWordChar r) :
    StartsReserved (leadingWord t ++ r) ↔
      leadingWord t ∈ Vocabulary.reserved ∧ inWord r.head? = false := by
  have hsplit := leadingWord_append_afterWord (leadingWord t ++ r)
  rw [leadingWord_append hr] at hsplit
  rw [StartsReserved, leadingWord_append hr, List.append_cancel_left hsplit]

/-! ## Matches in front of another text -/

variable {i : Nat} {a : Action}

/-- A match is made in front of a text that begins like the one that follows it.
Blanks and comments are not kept apart by a gap, and a word that is reserved is
a match of its own only where more of a word follows. -/
theorem Begins.in_front_of (h : Begins (w ++ r') ⟨i, a, w⟩) (hr : FollowsLike r r')
    (hrun : a ∈ [.skip, .comment] → r = [] ∨ r.head? = r'.head?)
    (hword : a = .word → w ∈ Vocabulary.reserved → r.head? = r'.head?)
    (hlit : a = .token .stringLiteral → ['\\', '"'] <:+ w →
      literalRest r' = none → literalRest r = none) :
    Begins (w ++ r) ⟨i, a, w⟩ := by
  generalize ht : w ++ r' = t at h
  cases h with
  | @blanks c t hc =>
      have hrest : t.takeWhile isSpace ++ r' = t := (List.cons.inj ht).2
      have hstop : Stops isSpace r := by
        rcases hrun (by decide) with rfl | hhead
        · exact stops_nil
        · rw [Stops, hhead]
          exact stops_of_takeWhile hrest
      have hb : Begins (c :: (t.takeWhile isSpace ++ r)) _ := .blanks hc
      rwa [takeWhile_takeWhile_append hstop] at hb
  | lineFeed => exact .lineFeed
  | @comment t =>
      have hrest : restOfLine t ++ r' = t := (List.cons.inj (List.cons.inj ht).2).2
      have hend : (restOfLine t).getLast? = some '\n' ∨ r = [] := by
        rcases hrun (by decide) with rfl | hhead
        · exact .inr rfl
        · -- A comment that has no line feed goes to the end of the text.
          refine (getLast?_restOfLine t).imp_right ?_
          intro hall
          rw [hall, List.append_right_eq_self] at hrest
          rw [hrest] at hhead
          exact List.head?_eq_none_iff.mp hhead
      have hb : Begins ('/' :: '/' :: (restOfLine t ++ r)) _ := .comment
      rwa [restOfLine_append hend] at hb
  | @reserved _ hstarts =>
      have hiff := startsReserved_append_iff (t := t) (stops_of_takeWhile ht)
      rw [ht] at hiff
      obtain ⟨hw, hword'⟩ := hiff.mp hstarts
      have hstop : Stops isAsciiWordChar r := hr.stops ⟨rfl, rfl, rfl⟩ (stops_of_takeWhile ht)
      have hend : Stops isWordChar r := hr.stops ⟨rfl, rfl, rfl⟩ (stops_isWordChar_iff.mpr hword')
      have hb : Begins (leadingWord t ++ r) _ :=
        .reserved ((startsReserved_append_iff hstop).mpr ⟨hw, stops_isWordChar_iff.mp hend⟩)
      rwa [leadingWord_append hstop] at hb
  | @hexLiteral t =>
      have hrest : t.takeWhile isHexDigit ++ r' = t := (List.cons.inj (List.cons.inj ht).2).2
      have hstop : Stops isHexDigit r := hr.stops ⟨rfl, rfl, rfl⟩ (stops_of_takeWhile hrest)
      have hb : Begins ('0' :: 'x' :: (t.takeWhile isHexDigit ++ r)) _ := .hexLiteral
      rwa [takeWhile_takeWhile_append hstop] at hb
  | @word c t hc hfree =>
      have hstop' : Stops isAsciiWordChar r' := stops_of_takeWhile ht
      have hstop : Stops isAsciiWordChar r := hr.stops ⟨rfl, rfl, rfl⟩ hstop'
      -- If it is reserved, more of a word follows, and it still does.
      have hfree' : ¬ StartsReserved (leadingWord (c :: t) ++ r) := by
        intro h
        obtain ⟨hw, hend⟩ := (startsReserved_append_iff hstop).mp h
        rw [hword rfl hw] at hend
        have hiff := startsReserved_append_iff (t := c :: t) hstop'
        rw [ht] at hiff
        exact hfree (hiff.mpr ⟨hw, hend⟩)
      have hrun := leadingWord_append (t := c :: t) hstop
      rw [leadingWord_of_isAlpha hc, List.cons_append] at hrun hfree' ⊢
      have hb := Begins.word hc hfree'
      rwa [hrun] at hb
  | zero hx => exact .zero (hr.head?_ne rfl (by cases ht; exact hx))
  | @decimal c t hc hzero =>
      have hrest : t.takeWhile Char.isDigit ++ r' = t := (List.cons.inj ht).2
      have hstop : Stops Char.isDigit r := hr.stops ⟨rfl, rfl, rfl⟩ (stops_of_takeWhile hrest)
      have hb : Begins (c :: (t.takeWhile Char.isDigit ++ r)) _ := .decimal hc hzero
      rwa [takeWhile_takeWhile_append hstop] at hb
  | comparison hc => exact .comparison hc
  | punctuation hc => exact .punctuation hc
  | doubled hc => exact .doubled hc
  | operator hc hslash hequal =>
      obtain rfl : r' = _ := (List.cons.inj ht).2
      refine .operator hc ?_ ?_
      · rintro ⟨rfl, h⟩
        exact hr.head?_ne rfl (fun h => hslash ⟨rfl, h⟩) h
      · rintro ⟨hc, h⟩
        exact hr.head?_ne rfl (fun h => hequal ⟨hc, h⟩) h
  | @stringLiteral t u hu =>
      obtain rfl : u ++ r' = t := (List.cons.inj ht).2
      refine .stringLiteral (literalRest_append hu ?_)
      intro hquote
      exact hlit rfl (hquote.trans (List.suffix_cons _ _)) (literalRest_eq_none_of_append hu hquote)

/-- A match is made in front of every text that begins with the same character
as the one that follows it. -/
theorem Begins.in_front_of_same (h : Begins (w ++ r') ⟨i, a, w⟩) (hhead : r.head? = r'.head?)
    (hlit : a = .token .stringLiteral → ['\\', '"'] <:+ w →
      literalRest r' = none → literalRest r = none) :
    Begins (w ++ r) ⟨i, a, w⟩ := by
  refine h.in_front_of ?_ (fun _ => .inr hhead) (fun _ _ => hhead) hlit
  intro c hc
  exact .inr (hhead ▸ hc)

/-- A match that is to be a token is made in front of every gap. -/
theorem Begins.in_front_of_gap (h : Begins (w ++ r') ⟨i, a, w⟩) (hr : StartsApart r)
    (ha : a ∉ [.skip, .newline, .comment, .reject]) (hw : w ∉ Vocabulary.reserved)
    (hlit : ['\\', '"'] <:+ w → literalRest r = none) : Begins (w ++ r) ⟨i, a, w⟩ := by
  refine h.in_front_of ?_ ?_ (fun _ h => absurd h hw) fun _ hquote _ => hlit hquote
  · intro c hc
    exact .inl (hr c hc)
  · intro hmem
    have hsub : [Action.skip, .comment] ⊆ [.skip, .newline, .comment, .reject] := by decide
    exact absurd (hsub hmem) ha

/-- A match is made at the end of a text, but for a word that is reserved. -/
theorem Begins.at_end (h : Begins (w ++ r') ⟨i, a, w⟩) (hw : a = .word → w ∉ Vocabulary.reserved) :
    Begins w ⟨i, a, w⟩ := by
  have hb := h.in_front_of (r := []) nofun (fun _ => .inl rfl) (fun ha h => absurd h (hw ha))
    fun _ _ _ => rfl
  rwa [List.append_nil] at hb

/-- A match that ends a line is made in front of every text. -/
theorem Begins.in_front_of_any (h : Begins (w ++ r') ⟨i, a, w⟩) (hw : w.getLast? = some '\n')
    (r : Text) : Begins (w ++ r) ⟨i, a, w⟩ := by
  have hmem := List.mem_of_getLast? hw
  generalize ht : w ++ r' = t at h
  cases h with
  | lineFeed => exact .lineFeed
  | @comment t =>
      have hend : (restOfLine t).getLast? = some '\n' := by
        cases hu : restOfLine t with
        | nil =>
            rw [hu] at hw
            cases hw
        | cons c u =>
            rw [hu] at hw
            exact hw
      have hb : Begins ('/' :: '/' :: (restOfLine t ++ r)) _ := .comment
      rwa [restOfLine_append (.inl hend)] at hb
  -- The others end with another character, or hold no line feed at all.
  | @stringLiteral t u hu =>
      rw [List.getLast?_cons, getLast?_of_literalRest hu] at hw
      cases hw
  | blanks hc =>
      rw [← List.takeWhile_cons_of_pos hc] at hmem
      have hchar := List.mem_takeWhile_imp hmem
      cases hchar
  | reserved | word =>
      have hchar := List.mem_takeWhile_imp hmem
      cases hchar
  | hexLiteral =>
      rcases List.mem_append.mp hmem with hmem | hmem
      · exact absurd hmem (by decide)
      · have hchar := List.mem_takeWhile_imp hmem
        cases hchar
  | decimal hc =>
      rw [← List.takeWhile_cons_of_pos hc] at hmem
      have hchar := List.mem_takeWhile_imp hmem
      cases hchar
  | zero | comparison => cases hw
  | punctuation hc | doubled hc | operator hc =>
      obtain rfl := Option.some.inj hw
      exact absurd hc (by decide)

end Rule
end Decaf
