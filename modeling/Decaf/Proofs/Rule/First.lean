/-
The match that the table makes at the beginning of a text.

The rules of the table come one after another, so the first match is a chain
of conditions on the first characters, one condition a rule
(`select?_table_cons`).  Where a rule is reached at all, the first character
already excludes the rules before it, with a few exceptions.  The relation
`Begins` says this with one constructor a case, and each constructor lists the
exceptions that are left:

    a reserved word with a word character behind it     is a word
    a zero with no x behind it                          is a number of its own
    a slash with no slash behind it                     is an operator
    one of = ! < > with no = behind it                  is an operator

`begins_iff` says that the matches of the table are those of the relation.
-/
import Mathlib.Data.List.TakeWhile
import Decaf.Proofs.Rule.Literal

namespace Decaf
namespace Rule

open Pattern Text

/-! ## The table as a chain of conditions -/

theorem selectFrom_cons (i : Nat) (t : Text) (r : Rule) (rs : List Rule) :
    selectFrom i t (r :: rs) =
      ((r.pattern.find? t).map (⟨i, r.action, ·⟩)).or (selectFrom (i + 1) t rs) := by
  rw [selectFrom]
  cases r.pattern.find? t <;> rfl

theorem map_ite_or {α β : Type} {q : Prop} [Decidable q] (f : α → β) (a : α) (o : Option β) :
    ((if q then some a else none).map f).or o = if q then some (f a) else o := by
  split <;> rfl

theorem map_ite_ite_or {α β : Type} {q r : Prop} [Decidable q] [Decidable r] (f : α → β) (a b : α)
    (o : Option β) :
    ((if q then some a else if r then some b else none).map f).or o =
      if q then some (f a) else if r then some (f b) else o := by
  split
  · rfl
  · exact map_ite_or f b o

/-- Nothing is selected where no rule matches. -/
theorem selectFrom_eq_none_iff {i : Nat} {t : Text} {rs : List Rule} :
    selectFrom i t rs = none ↔ ∀ r ∈ rs, r.pattern.find? t = none := by
  induction rs generalizing i with
  | nil => exact ⟨fun _ r hr => absurd hr List.not_mem_nil, fun _ => rfl⟩
  | cons r rs ih =>
      rw [selectFrom_cons, Option.or_eq_none_iff, Option.map_eq_none_iff, ih, List.forall_mem_cons]

theorem select?_eq_none_iff {t : Text} {rs : List Rule} :
    select? rs t = none ↔ ∀ r ∈ rs, r.pattern.find? t = none :=
  selectFrom_eq_none_iff

/-- No rule matches at the end of a text. -/
theorem select?_table_nil : select? table [] = none := by
  refine select?_eq_none_iff.mpr ?_
  intro r hr
  simp only [table, List.mem_cons, List.not_mem_nil, or_false] at hr
  rcases hr with rfl | rfl | rfl | rfl | rfl | rfl | rfl | rfl | rfl | rfl | rfl <;>
    · rw [find?_eq_before _ rfl rfl]
      rfl

/-- A text begins with a reserved word, and no other character of a word
follows it. -/
def StartsReserved (t : Text) : Prop :=
  leadingWord t ∈ Vocabulary.reserved ∧ inWord (afterWord t).head? = false

instance (t : Text) : Decidable (StartsReserved t) := inferInstanceAs (Decidable (_ ∧ _))

theorem select?_table_cons (c : Char) (t : Text) :
    select? table (c :: t) =
      if isSpace c then some ⟨0, .skip, c :: t.takeWhile isSpace⟩
      else if c = '\n' then some ⟨1, .newline, ['\n']⟩
      else if c = '/' ∧ t.head? = some '/' then
        some ⟨2, .comment, ['/', '/'] ++ restOfLine t.tail⟩
      else if StartsReserved (c :: t) then some ⟨3, .reject, leadingWord (c :: t)⟩
      else if c = '0' ∧ t.head? = some 'x' then
        some ⟨4, .token .hexLiteral, ['0', 'x'] ++ t.tail.takeWhile isHexDigit⟩
      else if c.isAlpha then some ⟨5, .word, c :: t.takeWhile isAsciiWordChar⟩
      else if c = '0' then some ⟨6, .token .decimalLiteral, ['0']⟩
      else if c.isDigit then some ⟨6, .token .decimalLiteral, c :: t.takeWhile Char.isDigit⟩
      else if c ∈ ['=', '!', '<', '>'] ∧ t.head? = some '=' then
        some ⟨7, .token .symbol, [c, '=']⟩
      else if c ∈ ['(', ')', '\x7b', '\x7d', '[', ']', ',', ';'] then
        some ⟨8, .token .symbol, [c]⟩
      else if c ∈ ['&', '|'] ∧ t.head? = some c then some ⟨9, .token .symbol, [c, c]⟩
      else if c ∈ ['+', '-', '*', '/', '%', '!', '>', '<', '='] then
        some ⟨9, .token .symbol, [c]⟩
      else if c = '"' then
        (literalRest t).map fun u => ⟨10, .token .stringLiteral, '"' :: u⟩
      else none := by
  rw [select?, table]
  simp only [selectFrom_cons, find?_blanks, find?_lineFeed, find?_comment, find?_reserved,
    find?_hexLiteral, find?_word, find?_decimalLiteral, find?_comparison, find?_punctuation,
    find?_operator, find?_stringLiteral]
  rw [map_ite_or, map_ite_or, map_ite_or, map_ite_or, map_ite_or, map_ite_or, map_ite_ite_or,
    map_ite_or, map_ite_or, map_ite_ite_or, selectFrom, Option.or_none, apply_ite (Option.map _),
    Option.map_map]
  rfl

/-! ## The cases -/

/-- A text begins with a match of the table. -/
inductive Begins : Text → Match → Prop where
  | blanks {c : Char} {t : Text} (hc : isSpace c = true) :
      Begins (c :: t) ⟨0, .skip, c :: t.takeWhile isSpace⟩
  | lineFeed {t : Text} : Begins ('\n' :: t) ⟨1, .newline, ['\n']⟩
  | comment {t : Text} : Begins ('/' :: '/' :: t) ⟨2, .comment, ['/', '/'] ++ restOfLine t⟩
  | reserved {t : Text} (ht : StartsReserved t) : Begins t ⟨3, .reject, leadingWord t⟩
  | hexLiteral {t : Text} :
      Begins ('0' :: 'x' :: t) ⟨4, .token .hexLiteral, ['0', 'x'] ++ t.takeWhile isHexDigit⟩
  | word {c : Char} {t : Text} (hc : c.isAlpha = true) (ht : ¬ StartsReserved (c :: t)) :
      Begins (c :: t) ⟨5, .word, leadingWord (c :: t)⟩
  | zero {t : Text} (ht : t.head? ≠ some 'x') :
      Begins ('0' :: t) ⟨6, .token .decimalLiteral, ['0']⟩
  | decimal {c : Char} {t : Text} (hc : c.isDigit = true) (hzero : c ≠ '0') :
      Begins (c :: t) ⟨6, .token .decimalLiteral, c :: t.takeWhile Char.isDigit⟩
  | comparison {c : Char} {t : Text} (hc : c ∈ ['=', '!', '<', '>']) :
      Begins (c :: '=' :: t) ⟨7, .token .symbol, [c, '=']⟩
  | punctuation {c : Char} {t : Text}
      (hc : c ∈ ['(', ')', '\x7b', '\x7d', '[', ']', ',', ';']) :
      Begins (c :: t) ⟨8, .token .symbol, [c]⟩
  | doubled {c : Char} {t : Text} (hc : c ∈ ['&', '|']) :
      Begins (c :: c :: t) ⟨9, .token .symbol, [c, c]⟩
  | operator {c : Char} {t : Text}
      (hc : c ∈ ['+', '-', '*', '/', '%', '!', '>', '<', '='])
      (hslash : ¬ (c = '/' ∧ t.head? = some '/'))
      (hequal : ¬ (c ∈ ['=', '!', '<', '>'] ∧ t.head? = some '=')) :
      Begins (c :: t) ⟨9, .token .symbol, [c]⟩
  | stringLiteral {t u : Text} (hu : literalRest t = some u) :
      Begins ('"' :: t) ⟨10, .token .stringLiteral, '"' :: u⟩

theorem leadingWord_of_isAlpha {c : Char} (hc : c.isAlpha = true) (t : Text) :
    leadingWord (c :: t) = c :: t.takeWhile isAsciiWordChar := by
  rw [leadingWord, List.takeWhile_cons_of_pos]
  simp [isAsciiWordChar, Char.isAlphanum, hc]

/-- Letters and digits belong to none of the kinds of characters that are tried
first. -/
theorem ne_of_isAlphanum {c : Char} (hc : c.isAlphanum = true) :
    ¬ isSpace c = true ∧ c ≠ '\n' ∧ c ≠ '/' := by
  refine ⟨?_, ?_, ?_⟩
  · intro h
    simp only [isSpace, List.contains_iff_mem, List.mem_cons, List.not_mem_nil, or_false] at h
    rcases h with rfl | rfl <;> cases hc
  all_goals
    rintro rfl
    cases hc

theorem not_isAlpha_of_isDigit {c : Char} (hc : c.isDigit = true) : ¬ c.isAlpha = true := by
  intro h
  rw [isDigit_iff] at hc
  rw [isAlpha_iff] at h
  omega

theorem exists_isAlpha_of_mem_reserved {w : Text} (hw : w ∈ Vocabulary.reserved) :
    ∃ c u, w = c :: u ∧ c.isAlpha = true := by
  have hall : ∀ w ∈ Vocabulary.reserved, w.head?.any Char.isAlpha = true := by decide +kernel
  have hhead := hall w hw
  cases w with
  | nil => cases hhead
  | cons c u => exact ⟨c, u, rfl, hhead⟩

theorem exists_of_startsReserved {t : Text} (h : StartsReserved t) :
    ∃ c u, t = c :: u ∧ c.isAlpha = true := by
  obtain ⟨c, u, hcu, hc⟩ := exists_isAlpha_of_mem_reserved h.1
  refine ⟨c, u ++ afterWord t, ?_, hc⟩
  rw [← List.cons_append, ← hcu, leadingWord_append_afterWord]

theorem of_ite_eq_some {α : Type} {q : Prop} [Decidable q] {a b : α} {o : Option α}
    (h : (if q then some a else o) = some b) : q ∧ a = b ∨ ¬ q ∧ o = some b := by
  split at h
  · exact .inl ⟨‹q›, Option.some.inj h⟩
  · exact .inr ⟨‹¬ q›, h⟩

theorem begins_of_select? {t : Text} {m : Match} (h : select? table t = some m) : Begins t m := by
  cases t with
  | nil =>
      rw [select?_table_nil] at h
      cases h
  | cons c t =>
      rw [select?_table_cons] at h
      rcases of_ite_eq_some h with ⟨hc, rfl⟩ | ⟨-, h⟩
      · exact .blanks hc
      rcases of_ite_eq_some h with ⟨rfl, rfl⟩ | ⟨-, h⟩
      · exact .lineFeed
      rcases of_ite_eq_some h with ⟨⟨rfl, ht⟩, rfl⟩ | ⟨hslash, h⟩
      · obtain ⟨u, rfl⟩ := List.head?_eq_some_iff.mp ht
        exact .comment
      rcases of_ite_eq_some h with ⟨ht, rfl⟩ | ⟨hreserved, h⟩
      · exact .reserved ht
      rcases of_ite_eq_some h with ⟨⟨rfl, ht⟩, rfl⟩ | ⟨hhex, h⟩
      · obtain ⟨u, rfl⟩ := List.head?_eq_some_iff.mp ht
        exact .hexLiteral
      rcases of_ite_eq_some h with ⟨hc, rfl⟩ | ⟨-, h⟩
      · rw [← leadingWord_of_isAlpha hc]
        exact .word hc hreserved
      rcases of_ite_eq_some h with ⟨rfl, rfl⟩ | ⟨hzero, h⟩
      · exact .zero fun ht => hhex ⟨rfl, ht⟩
      rcases of_ite_eq_some h with ⟨hc, rfl⟩ | ⟨-, h⟩
      · exact .decimal hc hzero
      rcases of_ite_eq_some h with ⟨⟨hc, ht⟩, rfl⟩ | ⟨hequal, h⟩
      · obtain ⟨u, rfl⟩ := List.head?_eq_some_iff.mp ht
        exact .comparison hc
      rcases of_ite_eq_some h with ⟨hc, rfl⟩ | ⟨-, h⟩
      · exact .punctuation hc
      rcases of_ite_eq_some h with ⟨⟨hc, ht⟩, rfl⟩ | ⟨-, h⟩
      · obtain ⟨u, rfl⟩ := List.head?_eq_some_iff.mp ht
        exact .doubled hc
      rcases of_ite_eq_some h with ⟨hc, rfl⟩ | ⟨-, h⟩
      · exact .operator hc hslash hequal
      split at h
      · subst c
        obtain ⟨u, hu, rfl⟩ := Option.map_eq_some_iff.mp h
        exact .stringLiteral hu
      · cases h

theorem select?_of_begins {t : Text} {m : Match} (h : Begins t m) : select? table t = some m := by
  cases h with
  | blanks hc => rw [select?_table_cons, if_pos hc]
  | lineFeed => rw [select?_table_cons]; rfl
  | comment => rw [select?_table_cons]; rfl
  | @reserved t ht =>
      obtain ⟨c, u, rfl, hc⟩ := exists_of_startsReserved ht
      obtain ⟨hspace, hfeed, hslash⟩ := ne_of_isAlphanum (Bool.or_eq_true_iff.mpr (.inl hc))
      rw [select?_table_cons, if_neg hspace, if_neg hfeed, if_neg fun h => hslash h.1,
        if_pos ht]
  | hexLiteral => rw [select?_table_cons]; rfl
  | @word c t hc ht =>
      obtain ⟨hspace, hfeed, hslash⟩ := ne_of_isAlphanum (Bool.or_eq_true_iff.mpr (.inl hc))
      have hzero : c ≠ '0' := by
        rintro rfl
        cases hc
      rw [select?_table_cons, if_neg hspace, if_neg hfeed, if_neg fun h => hslash h.1,
        if_neg ht, if_neg fun h => hzero h.1, if_pos hc,
        leadingWord_of_isAlpha hc]
  | @zero t ht =>
      have hhex : ¬ ('0' = '0' ∧ t.head? = some 'x') := fun h => ht h.2
      rw [select?_table_cons]
      exact (if_neg hhex).trans rfl
  | @decimal c t hc hzero =>
      have halpha := not_isAlpha_of_isDigit hc
      obtain ⟨hspace, hfeed, hslash⟩ := ne_of_isAlphanum (Bool.or_eq_true_iff.mpr (.inr hc))
      have hreserved : ¬ StartsReserved (c :: t) := by
        intro h
        obtain ⟨d, u, hd, hletter⟩ := exists_of_startsReserved h
        cases hd
        exact halpha hletter
      rw [select?_table_cons, if_neg hspace, if_neg hfeed, if_neg fun h => hslash h.1,
        if_neg hreserved, if_neg fun h => hzero h.1, if_neg halpha, if_neg hzero, if_pos hc]
  | comparison hc =>
      simp only [List.mem_cons, List.not_mem_nil, or_false] at hc
      rcases hc with rfl | rfl | rfl | rfl <;> rw [select?_table_cons] <;> rfl
  | punctuation hc =>
      simp only [List.mem_cons, List.not_mem_nil, or_false] at hc
      rcases hc with rfl | rfl | rfl | rfl | rfl | rfl | rfl | rfl <;>
        rw [select?_table_cons] <;> rfl
  | doubled hc =>
      simp only [List.mem_cons, List.not_mem_nil, or_false] at hc
      rcases hc with rfl | rfl <;> rw [select?_table_cons] <;> rfl
  | @operator c t hc hslash hequal =>
      rw [select?_table_cons]
      simp only [List.mem_cons, List.not_mem_nil, or_false] at hc
      rcases hc with rfl | rfl | rfl | rfl | rfl | rfl | rfl | rfl | rfl
      · rfl
      · rfl
      · rfl
      · exact if_neg hslash
      · rfl
      · exact if_neg hequal
      · exact if_neg hequal
      · exact if_neg hequal
      · exact if_neg hequal
  | stringLiteral hu =>
      rw [select?_table_cons]
      exact congrArg (Option.map _) hu

theorem begins_iff {t : Text} {m : Match} : select? table t = some m ↔ Begins t m :=
  ⟨begins_of_select?, select?_of_begins⟩

/-! ## What every match has -/

namespace Begins

variable {t : Text} {m : Match}

/-- A match is a beginning of the text. -/
theorem isPrefix (h : Begins t m) : m.text <+: t := by
  cases h with
  | blanks => exact List.cons_prefix_cons.mpr ⟨rfl, List.takeWhile_prefix _⟩
  | lineFeed => exact ⟨_, rfl⟩
  | comment =>
      exact List.cons_prefix_cons.mpr ⟨rfl, List.cons_prefix_cons.mpr ⟨rfl, restOfLine_isPrefix _⟩⟩
  | reserved => exact List.takeWhile_prefix _
  | hexLiteral =>
      exact List.cons_prefix_cons.mpr
        ⟨rfl, List.cons_prefix_cons.mpr ⟨rfl, List.takeWhile_prefix _⟩⟩
  | word => exact List.takeWhile_prefix _
  | zero => exact ⟨_, rfl⟩
  | decimal => exact List.cons_prefix_cons.mpr ⟨rfl, List.takeWhile_prefix _⟩
  | comparison => exact ⟨_, rfl⟩
  | punctuation => exact ⟨_, rfl⟩
  | doubled => exact ⟨_, rfl⟩
  | operator => exact ⟨_, rfl⟩
  | stringLiteral hu => exact List.cons_prefix_cons.mpr ⟨rfl, isPrefix_of_literalRest hu⟩

/-- A text begins with one match at most. -/
theorem unique {m' : Match} (h : Begins t m) (h' : Begins t m') : m = m' :=
  Option.some.inj ((begins_iff.mpr h).symm.trans (begins_iff.mpr h'))

/-- No match is empty. -/
theorem text_ne_nil (h : Begins t m) : m.text ≠ [] := by
  cases h with
  | reserved ht =>
      obtain ⟨c, u, rfl, hc⟩ := exists_of_startsReserved ht
      rw [leadingWord_of_isAlpha hc]
      exact List.cons_ne_nil _ _
  | word hc =>
      rw [leadingWord_of_isAlpha hc]
      exact List.cons_ne_nil _ _
  | _ => exact List.cons_ne_nil _ _

/-- A match is of ASCII, or it is a comment, and that ends its line or the text. -/
theorem ascii_or_comment (h : Begins t m) :
    (∀ c ∈ m.text, c.toNat < 0x80) ∨
      m.action = .comment ∧ (m.text.getLast? = some '\n' ∨ m.text = t) := by
  have hrun : ∀ {p : Char → Bool} {u : Text}, (∀ {c}, p c = true → c.toNat < 0x80) →
      ∀ c ∈ u.takeWhile p, c.toNat < 0x80 :=
    fun hp c hc => hp (List.mem_takeWhile_imp hc)
  cases h with
  | blanks hc =>
      exact .inl (List.forall_mem_cons.mpr ⟨toNat_lt_of_isSpace hc, hrun toNat_lt_of_isSpace⟩)
  | @comment t =>
      refine .inr ⟨rfl, (getLast?_restOfLine t).imp ?_ ?_⟩
      · intro h
        rw [List.getLast?_append, h]
        rfl
      · intro h
        rw [h]
        rfl
  | reserved | word => exact .inl (hrun toNat_lt_of_isAsciiWordChar)
  | hexLiteral =>
      refine .inl (List.forall_mem_append.mpr ⟨?_, hrun toNat_lt_of_isHexDigit⟩)
      exact fun c hc => toNat_lt_of_mem (by decide) hc
  | decimal hc =>
      exact .inl (List.forall_mem_cons.mpr ⟨toNat_lt_of_isDigit hc, hrun toNat_lt_of_isDigit⟩)
  | lineFeed | zero => exact .inl fun c hc => toNat_lt_of_mem (by decide) hc
  | comparison hc =>
      refine .inl (List.forall_mem_cons.mpr ⟨toNat_lt_of_mem (by decide) hc, ?_⟩)
      exact List.forall_mem_singleton.mpr (by decide)
  | punctuation hc | operator hc =>
      exact .inl (List.forall_mem_singleton.mpr (toNat_lt_of_mem (by decide) hc))
  | doubled hc =>
      have hlt := toNat_lt_of_mem (by decide) hc
      exact .inl (List.forall_mem_cons.mpr ⟨hlt, List.forall_mem_singleton.mpr hlt⟩)
  | stringLiteral hu =>
      exact .inl (List.forall_mem_cons.mpr ⟨by decide, toNat_lt_of_literalRest hu⟩)

/-- A match begins with a character of ASCII. -/
theorem head_lt {c : Char} (h : Begins (c :: t) m) : c.toNat < 0x80 := by
  rcases h.ascii_or_comment with hascii | ⟨haction, -⟩
  · obtain ⟨d, u, hu⟩ := List.exists_cons_of_ne_nil h.text_ne_nil
    have hprefix := h.isPrefix
    rw [hu] at hascii hprefix
    obtain ⟨rfl, -⟩ := List.cons_prefix_cons.mp hprefix
    exact hascii d List.mem_cons_self
  · generalize ht : c :: t = u at h
    cases h with
    | comment =>
        cases ht
        decide
    | _ => cases haction

end Begins

end Rule
end Decaf
