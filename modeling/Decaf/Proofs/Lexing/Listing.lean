/-
A listing tells its tokens.

Entries of a listing are closed by line feeds, but a string literal may hold
line feeds itself, and text that looks like entries.  Where it ends is not told
by the next quote either, since a quote behind a backslash may close it or stand
in it.  So a listing might be read in two ways:

    STRLIT "a\"          a literal that is closed, and an entry behind it
    ID     b             or one literal that goes on over the next lines

But then the two readings part for good.  Where one has closed its literal and
the other goes on, the next quote is the first of an entry, for a space stands
before it and it can only close the other literal.  Now the second reading is
between two entries and the first is within a literal, and so on
(`listing_ne_of_open`): they never both come to the end of the listing.
-/
import Mathlib.Data.List.Chain
import Decaf.Proofs.Lexing.Yields

namespace Decaf
namespace Lexing

open Text Rule

/-! ## Lexemes in a listing -/

/-- A character may stand behind another one where a literal stays open: it is
no quote, or a backslash keeps it from closing the literal. -/
def KeepsOpen (b c : Char) : Prop := c = '"' → b = '\\'

/-- A lexeme as a listing may hold it.  A literal is open up to its last quote,
and the other lexemes have no quotes and stand on one line. -/
inductive IsListed : Token.Kind → Text → Prop where
  | literal {x : Text} (hx : ('"' :: x).IsChain KeepsOpen) :
      IsListed .stringLiteral ('"' :: (x ++ ['"']))
  | plain {kind : Token.Kind} {w : Text} (hkind : kind ≠ .stringLiteral) (hquote : '"' ∉ w)
      (hline : '\n' ∉ w) : IsListed kind w

theorem exists_isChain_of_literalRest {t u : Text} (h : literalRest t = some u) (b : Char) :
    ∃ x, u = x ++ ['"'] ∧ (b :: x).IsChain KeepsOpen := by
  fun_induction literalRest t generalizing u b with
  | case1 => cases h
  | case2 t =>
      cases h
      exact ⟨[], rfl, .singleton b⟩
  | case3 t ih =>
      cases h
      have hbackslash : KeepsOpen b '\\' := fun h => absurd h (by decide)
      cases hv : literalRest t with
      | none => exact ⟨['\\'], rfl, .cons_cons hbackslash (.singleton _)⟩
      | some v =>
          obtain ⟨x, rfl, hx⟩ := ih hv '"'
          exact ⟨'\\' :: '"' :: x, rfl, .cons_cons hbackslash (.cons_cons (fun _ => rfl) hx)⟩
  | case4 c t hquote hpair hbody ih =>
      obtain ⟨v, hv, rfl⟩ := Option.map_eq_some_iff.mp h
      obtain ⟨x, rfl, hx⟩ := ih hv c
      exact ⟨c :: x, rfl, .cons_cons (fun h => absurd h hquote) hx⟩
  | case5 => cases h

/-- A lexeme of characters of a kind that has no quotes and no line feeds. -/
theorem IsListed.of_all {kind : Token.Kind} {w : Text} (hkind : kind ≠ .stringLiteral)
    {p : Char → Bool} (hp : p '"' = false ∧ p '\n' = false) (hw : ∀ c ∈ w, p c = true) :
    IsListed kind w := by
  obtain ⟨hquote, hline⟩ := hp
  refine .plain hkind ?_ ?_
  · intro h
    rw [hw _ h] at hquote
    cases hquote
  · intro h
    rw [hw _ h] at hline
    cases hline

theorem wordKind_ne (w : Text) : wordKind w ≠ .stringLiteral := by
  rw [wordKind]
  split <;> decide

theorem IsLexeme.isListed {limits : Limits} {kind : Token.Kind} {w : Text}
    (h : IsLexeme limits kind w) : IsListed kind w := by
  obtain ⟨i, a, r, hb, hk⟩ := h.begins
  generalize w ++ r = t at hb
  cases hb with
  | blanks | lineFeed | comment | reserved => cases hk
  | hexLiteral =>
      cases hk
      refine .of_all (by decide) (p := fun c => c == 'x' || isHexDigit c) ⟨rfl, rfl⟩ ?_
      refine List.forall_mem_append.mpr ⟨List.all_eq_true.mp rfl, fun c hc => ?_⟩
      exact Bool.or_eq_true_iff.mpr (.inr (List.mem_takeWhile_imp hc))
  | word =>
      cases hk
      exact .of_all (wordKind_ne _) (p := isAsciiWordChar) ⟨rfl, rfl⟩
        fun c hc => List.mem_takeWhile_imp hc
  | zero =>
      cases hk
      exact .of_all (by decide) (p := Char.isDigit) ⟨rfl, rfl⟩ (List.forall_mem_singleton.mpr rfl)
  | decimal hc =>
      cases hk
      exact .of_all (by decide) (p := Char.isDigit) ⟨rfl, rfl⟩
        (List.forall_mem_cons.mpr ⟨hc, fun d hd => List.mem_takeWhile_imp hd⟩)
  | comparison hc =>
      cases hk
      refine .of_all (by decide) (p := ['=', '!', '<', '>'].contains) ⟨rfl, rfl⟩ ?_
      exact List.forall_mem_cons.mpr
        ⟨List.contains_iff_mem.mpr hc, List.forall_mem_singleton.mpr rfl⟩
  | doubled hc =>
      cases hk
      have hmem := List.contains_iff_mem.mpr hc
      exact .of_all (by decide) (p := ['&', '|'].contains) ⟨rfl, rfl⟩
        (List.forall_mem_cons.mpr ⟨hmem, List.forall_mem_singleton.mpr hmem⟩)
  | punctuation hc | operator hc =>
      cases hk
      exact .of_all (by decide) (p := List.contains _) ⟨rfl, rfl⟩
        (List.forall_mem_singleton.mpr (List.contains_iff_mem.mpr hc))
  | stringLiteral hu =>
      cases hk
      obtain ⟨x, rfl, hx⟩ := exists_isChain_of_literalRest hu '"'
      exact .literal hx

/-! ## Entries -/

/-- The first column of an entry. -/
def kindColumn (kind : Token.Kind) : Text := kind.code.rightpad 6 ' '

theorem length_kindColumn (kind : Token.Kind) : (kindColumn kind).length = 6 := by
  cases kind <;> decide

theorem kindColumn_inj {k₁ k₂ : Token.Kind} (h : kindColumn k₁ = kindColumn k₂) : k₁ = k₂ := by
  revert h
  cases k₁ <;> cases k₂ <;> decide

theorem quote_not_mem_kindColumn (kind : Token.Kind) : '"' ∉ kindColumn kind := by
  cases kind <;> decide

theorem listing_cons (t : Token) (ts : List Token) :
    Token.listing (t :: ts) =
      kindColumn t.kind ++ ' ' :: (t.lexeme ++ '\n' :: Token.listing ts) := by
  simp [Token.listing, Token.render, kindColumn]

theorem listing_cons_ne_nil (t : Token) (ts : List Token) : Token.listing (t :: ts) ≠ [] := by
  simp [listing_cons]

/-! ## Two readings of a listing -/

/-- A character that is not in the first part of a text is found behind it. -/
theorem exists_append_of_not_mem {p r x y : Text} {c : Char} (hp : c ∉ p)
    (h : p ++ r = x ++ c :: y) : ∃ z, x = p ++ z ∧ r = z ++ c :: y := by
  rcases List.append_eq_append_iff.mp h with ⟨z, hx, hr⟩ | ⟨z, hpz, hc⟩
  · exact ⟨z, hx, hr⟩
  · cases z with
    | nil => exact ⟨[], by simpa using hpz.symm, hc.symm⟩
    | cons d z =>
        obtain ⟨rfl, -⟩ := List.cons.inj hc
        exact absurd (by simp [hpz]) hp

/-- No quote stands behind a space where a literal stays open. -/
theorem not_isChain_space_quote (x z : Text) :
    ¬ (x ++ ' ' :: '"' :: z).IsChain KeepsOpen := by
  intro h
  cases (List.isChain_cons_cons.mp h.right_of_append).1 rfl

/-- Where one reading stands behind an entry and the other one is still within a
literal, they do not come to the end of the listing together. -/
theorem listing_ne_of_open {ts us : List Token} (hts : ∀ t ∈ ts, IsListed t.kind t.lexeme)
    (hus : ∀ u ∈ us, IsListed u.kind u.lexeme) {x : Text} (hx : x.IsChain KeepsOpen) :
    '\n' :: Token.listing ts ≠ x ++ '"' :: '\n' :: Token.listing us := by
  intro h
  match ts with
  | [] =>
      have hmem : '"' ∈ '\n' :: Token.listing [] := by simp [h]
      exact absurd hmem (by decide)
  | t :: ts =>
      obtain ⟨ht, hts⟩ := List.forall_mem_cons.mp hts
      rw [listing_cons] at h
      generalize hkind : t.kind = kind at ht h
      generalize hlexeme : t.lexeme = w at ht h
      cases ht with
      | plain _ hquote _ =>
          -- No quote comes before the next entry, so the literal is still open there.
          have hentry : '"' ∉ '\n' :: (kindColumn kind ++ ' ' :: w) := by
            simp [quote_not_mem_kindColumn, hquote]
          obtain ⟨z, rfl, hz⟩ := exists_append_of_not_mem (y := '\n' :: Token.listing us)
            (r := '\n' :: Token.listing ts) hentry (by simpa using h)
          exact listing_ne_of_open hts hus hx.right_of_append hz
      | @literal y hy =>
          have hcolumn : '"' ∉ '\n' :: (kindColumn .stringLiteral ++ [' ']) := by
            simp [quote_not_mem_kindColumn]
          obtain ⟨z, rfl, hz⟩ := exists_append_of_not_mem (y := '\n' :: Token.listing us)
            (r := '"' :: (y ++ '"' :: '\n' :: Token.listing ts)) hcolumn (by simpa using h)
          cases z with
          | nil =>
              -- The quote closes the literal that was open, and the two change places.
              have hrest := (List.cons.inj hz).2
              exact listing_ne_of_open hus hts hy.tail hrest.symm
          | cons d z =>
              obtain ⟨rfl, -⟩ := List.cons.inj hz
              exact not_isChain_space_quote ('\n' :: kindColumn _) z (by simpa using hx)
termination_by ts.length + us.length

theorem eq_nil_of_open {ts us : List Token} (hts : ∀ t ∈ ts, IsListed t.kind t.lexeme)
    (hus : ∀ u ∈ us, IsListed u.kind u.lexeme) {z : Text} (hz : z.IsChain KeepsOpen)
    (h : '"' :: '\n' :: Token.listing ts = z ++ '"' :: '\n' :: Token.listing us) : z = [] := by
  cases z with
  | nil => rfl
  | cons c z => exact absurd (List.cons.inj h).2 (listing_ne_of_open hts hus hz.tail)

/-- Two lexemes of a kind at the beginning of the same text, with a listing
behind each, are the same. -/
theorem lexeme_eq_of_append_listing {kind : Token.Kind} {v w : Text} {ts us : List Token}
    (hv : IsListed kind v) (hw : IsListed kind w) (hts : ∀ t ∈ ts, IsListed t.kind t.lexeme)
    (hus : ∀ u ∈ us, IsListed u.kind u.lexeme)
    (h : v ++ '\n' :: Token.listing ts = w ++ '\n' :: Token.listing us) : v = w := by
  cases hv with
  | plain hkind _ hline =>
      cases hw with
      | literal => exact absurd rfl hkind
      | plain _ _ hline' =>
          obtain ⟨z, rfl, hz⟩ := exists_append_of_not_mem hline h
          cases z with
          | nil => exact (List.append_nil v).symm
          | cons d z =>
              obtain ⟨rfl, -⟩ := List.cons.inj hz
              exact absurd (List.mem_append_right v List.mem_cons_self) hline'
  | @literal x hx =>
      cases hw with
      | plain hkind => exact absurd rfl hkind
      | @literal y hy =>
          have hbodies : x ++ '"' :: '\n' :: Token.listing ts =
              y ++ '"' :: '\n' :: Token.listing us := by simpa using h
          -- If one is shorter, it is closed and the other one is still open.
          rcases List.append_eq_append_iff.mp hbodies with ⟨z, rfl, hz⟩ | ⟨z, rfl, hz⟩
          · rw [eq_nil_of_open hts hus hy.tail.right_of_append hz, List.append_nil]
          · rw [eq_nil_of_open hus hts hx.tail.right_of_append hz, List.append_nil]

/-- A listing of lexemes tells their kinds and the lexemes themselves. -/
theorem map_spelling_eq_of_isListed {ts us : List Token}
    (hts : ∀ t ∈ ts, IsListed t.kind t.lexeme) (hus : ∀ u ∈ us, IsListed u.kind u.lexeme)
    (h : Token.listing ts = Token.listing us) : ts.map spelling = us.map spelling := by
  induction ts generalizing us with
  | nil =>
      cases us with
      | nil => rfl
      | cons u us => exact absurd h.symm (listing_cons_ne_nil u us)
  | cons t ts ih =>
      cases us with
      | nil => exact absurd h (listing_cons_ne_nil t ts)
      | cons u us =>
          obtain ⟨ht, hts⟩ := List.forall_mem_cons.mp hts
          obtain ⟨hu, hus⟩ := List.forall_mem_cons.mp hus
          rw [listing_cons, listing_cons] at h
          have hlength : (kindColumn t.kind).length = (kindColumn u.kind).length := by
            rw [length_kindColumn, length_kindColumn]
          obtain ⟨hcolumn, hentries⟩ := List.append_inj h hlength
          have hkind : t.kind = u.kind := kindColumn_inj hcolumn
          have hrest := (List.cons.inj hentries).2
          have hlexeme := lexeme_eq_of_append_listing ht (hkind ▸ hu) hts hus hrest
          rw [hlexeme] at hrest
          have htail := (List.cons.inj (List.append_cancel_left hrest)).2
          rw [List.map_cons, List.map_cons, ih hts hus htail, spelling, spelling, hkind, hlexeme]

/-- Two sources with the same listing have tokens of the same kinds and with the
same lexemes, whatever limits they were lexed with. -/
theorem map_spelling_eq_of_listing_eq {limits₁ limits₂ : Limits} {source₁ source₂ : Text}
    {ts us : List Token} (h₁ : tokenize limits₁ source₁ = .ok ts)
    (h₂ : tokenize limits₂ source₂ = .ok us) (h : Token.listing ts = Token.listing us) :
    ts.map spelling = us.map spelling ∧ ts.length = us.length := by
  have hspelling := map_spelling_eq_of_isListed
    (fun t ht => (isLexeme_of_tokenize h₁ t ht).isListed)
    (fun u hu => (isLexeme_of_tokenize h₂ u hu).isListed) h
  refine ⟨hspelling, ?_⟩
  rw [← List.length_map (f := spelling), hspelling, List.length_map]

/-- A literal that closes at a quote behind a backslash, and one that holds a
line like an entry, lexed from two sources. -/
theorem map_spelling_eq_of_listing_eq_of_escaped :
    ∃ ts us, tokenize {} "\"\\\"//\n\"\nID     x\n\"".toList = .ok ts ∧
      tokenize ⟨16, 0⟩ " \"\\\"//\"\n\n\"\nID     x\n\"\t".toList = .ok us ∧
      Token.listing ts = "STRLIT \"\\\"\nSTRLIT \"\nID     x\n\"\n".toList ∧
      Token.listing us = Token.listing ts ∧ ts.map spelling = us.map spelling ∧
      ts.length = us.length := by
  have h₁ : tokenize {} "\"\\\"//\n\"\nID     x\n\"".toList = .ok
      [⟨.stringLiteral, "\"\\\"".toList, 1, 0⟩,
        ⟨.stringLiteral, "\"\nID     x\n\"".toList, 2, 6⟩] :=
    eq_ok_of_toOption (by decide +kernel)
  have h₂ : tokenize ⟨16, 0⟩ " \"\\\"//\"\n\n\"\nID     x\n\"\t".toList = .ok
      [⟨.stringLiteral, "\"\\\"".toList, 1, 1⟩,
        ⟨.stringLiteral, "\"\nID     x\n\"".toList, 3, 9⟩] :=
    eq_ok_of_toOption (by decide +kernel)
  exact ⟨_, _, h₁, h₂, by decide, by decide, map_spelling_eq_of_listing_eq h₁ h₂ (by decide)⟩

end Lexing
end Decaf
