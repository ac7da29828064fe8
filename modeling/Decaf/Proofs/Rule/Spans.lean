/-
What each rule of the table matches.

For every rule there is one equation that tells its match at the beginning of
a text without mentioning a pattern: whether the first characters are those of
the rule, and how far the match goes.  Nearly all matches are a fixed number
of characters and then a run of characters of one kind.  A reserved word has to
be a whole run of word characters with no other word character behind it
(`find?_reserved`).  String literals have a module of their own.
-/
import Decaf.Proofs.Pattern.Emission
import Decaf.Proofs.Pattern.Joining
import Decaf.Text.Lines

namespace Decaf
namespace Rule

open Pattern Pattern.Expr Text

/-! ## Kinds of characters -/

/-- Whether a character is a space or a tab. -/
def isSpace (c : Char) : Bool := [' ', '\t'].contains c

/-- Whether a character is a digit of a hexadecimal number. -/
def isHexDigit (c : Char) : Bool := c.isDigit || ('a' ≤ c && c ≤ 'f')

/-- Whether a character may stand in a string literal as it is. -/
def isPlain (c : Char) : Bool := c.isAlphanum || [' ', '\t', '\n', '#', '_', ':'].contains c

theorem le_and_le_eq_beq (a c : Char) : (a ≤ c && c ≤ a) = (c == a) := by
  rw [Bool.eq_iff_iff, Bool.and_eq_true, decide_eq_true_eq, decide_eq_true_eq, beq_iff_eq]
  constructor
  · rintro ⟨h₁, h₂⟩
    exact Char.toNat_inj.mp (Nat.le_antisymm h₂ h₁)
  · rintro rfl
    exact ⟨Nat.le_refl _, Nat.le_refl _⟩

theorem contains_singles (cs : Text) : (CharSet.ofRanges (singles cs)).contains = cs.contains := by
  funext c
  rw [CharSet.contains_ofRanges (by simp [singles, Char.le_def]), singles, List.any_map,
    List.contains_eq_any_beq]
  congr 1
  funext a
  exact le_and_le_eq_beq a c

theorem isAlpha_eq (c : Char) : c.isAlpha = ('a' ≤ c && c ≤ 'z' || 'A' ≤ c && c ≤ 'Z') := by
  rw [Bool.eq_iff_iff, isAlpha_iff, Bool.or_eq_true_iff, Bool.and_eq_true_iff,
    Bool.and_eq_true_iff, decide_eq_true_iff, decide_eq_true_iff, decide_eq_true_iff,
    decide_eq_true_iff, or_comm]
  rfl

theorem contains_digits : (CharSet.ofRanges [('0', '9')]).contains = Char.isDigit := by
  funext c
  rw [CharSet.contains_ofRanges (by decide)]
  simp [Char.isDigit, Char.le_def]

theorem contains_letters : (CharSet.ofRanges letters).contains = Char.isAlpha := by
  funext c
  rw [CharSet.contains_ofRanges (by decide), isAlpha_eq]
  simp [letters]

theorem contains_wordRest : (CharSet.ofRanges wordRest).contains = isAsciiWordChar := by
  funext c
  rw [CharSet.contains_ofRanges (by decide), isAsciiWordChar, Char.isAlphanum, isAlpha_eq,
    ← le_and_le_eq_beq]
  simp [letters, wordRest, Char.isDigit, Char.le_def, Bool.or_assoc]

theorem contains_hexDigits :
    (CharSet.ofRanges [('0', '9'), ('a', 'f')]).contains = isHexDigit := by
  funext c
  rw [CharSet.contains_ofRanges (by decide)]
  simp [isHexDigit, Char.isDigit, Char.le_def]

theorem contains_plainInString : (CharSet.ofRanges plainInString).contains = isPlain := by
  funext c
  rw [CharSet.contains_ofRanges (by decide), isPlain, Char.isAlphanum, isAlpha_eq,
    List.contains_eq_any_beq]
  simp [letters, plainInString, Char.isDigit, Char.le_def, Bool.or_assoc, ← le_and_le_eq_beq]

/-! ## Characters of ASCII -/

theorem toNat_lt_of_mem {cs : Text} {c : Char} (hcs : (cs.all fun a => a.toNat < 0x80) = true)
    (hc : c ∈ cs) : c.toNat < 0x80 :=
  of_decide_eq_true (List.all_eq_true.mp hcs c hc)

theorem toNat_lt_of_isAlphanum {c : Char} (h : c.isAlphanum = true) : c.toNat < 0x80 :=
  toNat_lt_of_isAsciiWordChar (Bool.or_eq_true_iff.mpr (.inl h))

theorem toNat_lt_of_isDigit {c : Char} (h : c.isDigit = true) : c.toNat < 0x80 :=
  toNat_lt_of_isAlphanum (Bool.or_eq_true_iff.mpr (.inr h))

theorem toNat_lt_of_isSpace {c : Char} (h : isSpace c = true) : c.toNat < 0x80 :=
  toNat_lt_of_mem (by decide) (List.contains_iff_mem.mp h)

theorem toNat_lt_of_isHexDigit {c : Char} (h : isHexDigit c = true) : c.toNat < 0x80 := by
  rcases Bool.or_eq_true_iff.mp h with h | h
  · exact toNat_lt_of_isDigit h
  · have hle : c.toNat ≤ 'f'.toNat := of_decide_eq_true (Bool.and_eq_true_iff.mp h).2
    exact Nat.lt_of_le_of_lt hle (by decide)

theorem toNat_lt_of_isPlain {c : Char} (h : isPlain c = true) : c.toNat < 0x80 := by
  rcases Bool.or_eq_true_iff.mp h with h | h
  · exact toNat_lt_of_isAlphanum h
  · exact toNat_lt_of_mem (by decide) (List.contains_iff_mem.mp h)

/-! ## Rules that match a run -/

/-- A pattern that is tied to the start of the text finds what the expression
prefers that is tied. -/
theorem find?_tied (p : Pattern) (a : Expr) (hp : p.expr = tied a) (ha : a.isProductive = true)
    (t : Text) : p.find? t = a.before .accept none t := by
  rw [find?_eq_before p (by rw [hp, isProductive_tied, ha]) (by rw [hp, isTiedToStart_tied]), hp,
    before_tied]

/-- A run to the end of a match takes all the characters that it can. -/
theorem star_oneOf_accept (ranges : List (Char × Char)) (prev : Option Char) (t : Text) :
    (star (oneOf ranges)).before .accept prev t =
      some (t.takeWhile (CharSet.ofRanges ranges).contains) := by
  have h : Goal.star .greedy (Goal.take (CharSet.ofRanges ranges).contains) .accept prev t =
      some (t.takeWhile (CharSet.ofRanges ranges).contains ++ []) := Goal.star_take fun _ => rfl
  rwa [List.append_nil] at h

theorem find?_blanks (c : Char) (t : Text) :
    blanks.pattern.find? (c :: t) =
      if isSpace c then some (c :: t.takeWhile isSpace) else none := by
  rw [find?_tied _ (.rep .greedy 1 none (oneOf (singles [' ', '\t']))) rfl rfl]
  show Goal.take _ ((star (oneOf _)).before .accept) none (c :: t) = _
  rw [Goal.take, star_oneOf_accept, contains_singles]
  rfl

theorem before_char_accept (a c : Char) (prev : Option Char) (t : Text) :
    (char a).before .accept prev (c :: t) = if c = a then some [a] else none := by
  refine (Goal.text_single a c t).trans ?_
  split
  · rename_i hc
    rw [hc]
    rfl
  · rfl

theorem before_pair_accept (a b c : Char) (t : Text) :
    (Pattern.Expr.text [a, b]).before .accept none (c :: t) =
      if c = a ∧ t.head? = some b then some [a, b] else none :=
  Goal.text_pair a b c t

theorem before_oneOf_accept (cs : Text) (c : Char) (t : Text) :
    (oneOf (singles cs)).before .accept none (c :: t) = if c ∈ cs then some [c] else none := by
  show Goal.take (CharSet.ofRanges (singles cs)).contains .accept none (c :: t) = _
  rw [contains_singles, Goal.take]
  simp only [List.contains_iff_mem, Goal.accept, Option.map_some]

theorem find?_lineFeed (c : Char) (t : Text) :
    lineFeed.pattern.find? (c :: t) = if c = '\n' then some ['\n'] else none := by
  rw [find?_tied _ (char '\n') rfl rfl, before_char_accept]

theorem find?_word (c : Char) (t : Text) :
    word.pattern.find? (c :: t) =
      if c.isAlpha then some (c :: t.takeWhile isAsciiWordChar) else none := by
  rw [find?_tied _ (inOrder [oneOf letters, star (oneOf wordRest)]) rfl rfl, before_inOrder]
  show Goal.take _ ((star (oneOf _)).before .accept) none (c :: t) = _
  rw [Goal.take, star_oneOf_accept, contains_letters, contains_wordRest]
  rfl

theorem find?_hexLiteral (c : Char) (t : Text) :
    hexLiteral.pattern.find? (c :: t) =
      if c = '0' ∧ t.head? = some 'x' then some (['0', 'x'] ++ t.tail.takeWhile isHexDigit)
      else none := by
  rw [find?_tied _ (inOrder [.text ['0', 'x'], star (oneOf [('0', '9'), ('a', 'f')])]) rfl rfl,
    before_inOrder]
  show Goal.text _ ((star (oneOf _)).before .accept) none (c :: t) = _
  rw [Goal.text_pair, star_oneOf_accept, contains_hexDigits]
  rfl

theorem find?_decimalLiteral (c : Char) (t : Text) :
    decimalLiteral.pattern.find? (c :: t) =
      if c = '0' then some ['0']
      else if c.isDigit then some (c :: t.takeWhile Char.isDigit) else none := by
  rw [find?_tied _ (choice [char '0', inOrder [oneOf [('1', '9')], star (oneOf [('0', '9')])]])
    rfl rfl, before_choice_cons, before_choice_cons, before_choice_nil, Option.or_none,
    before_inOrder, before_char_accept]
  show Option.or _ (Goal.take _ ((star (oneOf _)).before .accept) none (c :: t)) = _
  rw [Goal.take, star_oneOf_accept, contains_digits, CharSet.contains_ofRanges (by decide)]
  split
  · rfl
  · rename_i hc
    have hdigit : ([('1', '9')].any fun r => r.1 ≤ c && c ≤ r.2) = c.isDigit := by
      have hne : c.toNat ≠ 48 := fun h => hc (Char.toNat_inj.mp h)
      rw [Bool.eq_iff_iff, isDigit_iff]
      simp only [List.any_cons, List.any_nil, Bool.or_false, Bool.and_eq_true, decide_eq_true_eq]
      show 49 ≤ c.toNat ∧ c.toNat ≤ 57 ↔ _
      omega
    rw [hdigit]
    rfl

/-! ## Rules that match a few characters -/

theorem find?_comparison (c : Char) (t : Text) :
    comparison.pattern.find? (c :: t) =
      if c ∈ ['=', '!', '<', '>'] ∧ t.head? = some '=' then some [c, '='] else none := by
  rw [find?_tied _ (choice [.text ['=', '='], .text ['!', '='], .text ['<', '='], .text ['>', '=']])
    rfl rfl]
  simp only [before_choice_cons, before_choice_nil, before_pair_accept, Option.or_none]
  by_cases ht : t.head? = some '='
  · by_cases hc : c ∈ ['=', '!', '<', '>']
    · simp only [List.mem_cons, List.not_mem_nil, or_false] at hc
      rcases hc with rfl | rfl | rfl | rfl <;> simp [ht]
    · simp_all
  · simp [ht]

theorem find?_punctuation (c : Char) (t : Text) :
    punctuation.pattern.find? (c :: t) =
      if c ∈ ['(', ')', '\x7b', '\x7d', '[', ']', ',', ';'] then some [c] else none := by
  rw [find?_tied _ (oneOf (singles _)) rfl rfl, before_oneOf_accept]

theorem find?_operator (c : Char) (t : Text) :
    operator.pattern.find? (c :: t) =
      if c ∈ ['&', '|'] ∧ t.head? = some c then some [c, c]
      else if c ∈ ['+', '-', '*', '/', '%', '!', '>', '<', '='] then some [c] else none := by
  rw [find?_tied _ (choice [.text ['&', '&'], .text ['|', '|'],
    oneOf (singles ['+', '-', '*', '/', '%', '!', '>', '<', '='])]) rfl rfl]
  simp only [before_choice_cons, before_choice_nil, before_pair_accept, before_oneOf_accept,
    Option.or_none]
  by_cases hc : c ∈ ['&', '|'] ∧ t.head? = some c
  · rw [if_pos hc]
    obtain ⟨hc, ht⟩ := hc
    simp only [List.mem_cons, List.not_mem_nil, or_false] at hc
    rcases hc with rfl | rfl <;> simp [ht]
  · rw [if_neg hc, if_neg, if_neg]
    · simp
    · rintro ⟨rfl, ht⟩
      exact hc ⟨by simp, ht⟩
    · rintro ⟨rfl, ht⟩
      exact hc ⟨by simp, ht⟩

/-- A comment goes to the end of its line. -/
theorem find?_comment (c : Char) (t : Text) :
    comment.pattern.find? (c :: t) =
      if c = '/' ∧ t.head? = some '/' then some (['/', '/'] ++ restOfLine t.tail) else none := by
  rw [find?_tied _ (inOrder [.text ['/', '/'], star (.set .dot),
    .rep .greedy 0 (some 1) (char '\n')]) rfl rfl, before_inOrder]
  have hdot : CharSet.dot.contains = (· != '\n') := funext CharSet.contains_dot
  have hend : ∀ p, (Expr.rep .greedy 0 (some 1) (char '\n')).before .accept p
      (t.tail.dropWhile (· != '\n')) = some ((t.tail.dropWhile (· != '\n')).take 1) := by
    intro p
    cases hu : t.tail.dropWhile (· != '\n') with
    | nil => rfl
    | cons d u =>
        -- What is dropped ends in front of a line feed.
        obtain rfl : d = '\n' := by
          have := List.head?_dropWhile_not (· != '\n') t.tail
          simpa [hu] using this
        rfl
  show Goal.text _ (Goal.star .greedy (Goal.take CharSet.dot.contains)
    ((Expr.rep .greedy 0 (some 1) (char '\n')).before .accept)) none (c :: t) = _
  rw [Goal.text_pair, hdot, Goal.star_take hend]
  rfl

/-! ## Reserved words -/

/-- The run of word characters of ASCII at the beginning of a text. -/
def leadingWord (t : Text) : Text := t.takeWhile isAsciiWordChar

/-- What follows that run. -/
def afterWord (t : Text) : Text := t.dropWhile isAsciiWordChar

theorem leadingWord_append_afterWord (t : Text) : leadingWord t ++ afterWord t = t :=
  List.takeWhile_append_dropWhile

/-- A word with no word character behind it is the whole run. -/
theorem leadingWord_of_append {w u : Text} (hw : ∀ c ∈ w, isAsciiWordChar c = true)
    (hu : u.head?.any isAsciiWordChar = false) :
    leadingWord (w ++ u) = w ∧ afterWord (w ++ u) = u := by
  rw [leadingWord, afterWord, List.takeWhile_append_of_pos hw, List.dropWhile_append_of_pos hw]
  cases u with
  | nil => simp
  | cons c u => simp_all

theorem any_isAsciiWordChar_of_inWord {u : Text} (h : inWord u.head? = false) :
    u.head?.any isAsciiWordChar = false := by
  cases u with
  | nil => rfl
  | cons c u =>
      cases hc : isAsciiWordChar c with
      | false => simp [hc]
      | true => simp [inWord, isWordChar_of_isAsciiWordChar hc] at h

theorem reserved_word {w : Text} (hw : w ∈ Vocabulary.reserved) :
    (∀ c ∈ w, isAsciiWordChar c = true) ∧ inWord w.getLast? = true := by
  have hall : ∀ w ∈ Vocabulary.reserved,
      w.all isAsciiWordChar = true ∧ inWord w.getLast? = true := by decide +kernel
  exact ⟨List.all_eq_true.mp (hall w hw).1, (hall w hw).2⟩

/-- A reserved word is matched where it is the whole run of word characters,
and no other word character follows. -/
theorem before_reserved {w : Text} (hw : w ∈ Vocabulary.reserved) (t : Text) :
    (Pattern.Expr.text w).before ((Expr.look .boundary).before .accept) none t =
      if leadingWord t = w ∧ inWord (afterWord t).head? = false then some w else none := by
  obtain ⟨hword, hlast⟩ := reserved_word hw
  by_cases hp : w <+: t
  · obtain ⟨u, rfl⟩ := hp
    have htext := Goal.text_of_append w ((Expr.look .boundary).before .accept) none u
    refine htext.trans ?_
    rw [Option.or_none]
    cases hu : inWord u.head? with
    | false =>
        obtain ⟨h₁, h₂⟩ := leadingWord_of_append hword (any_isAsciiWordChar_of_inWord hu)
        rw [if_pos ⟨h₁, by rw [h₂, hu]⟩]
        simp [before, Anchor.holds, hlast, hu, Goal.accept]
    | true =>
        rw [if_neg]
        · simp [before, Anchor.holds, hlast, hu]
        · rintro ⟨h₁, h₂⟩
          have happend := leadingWord_append_afterWord (w ++ u)
          rw [h₁, List.append_cancel_left_eq] at happend
          rw [happend, hu] at h₂
          cases h₂
  · rw [if_neg]
    · exact Goal.text_of_not_prefix hp
    · rintro ⟨rfl, -⟩
      exact hp ⟨_, leadingWord_append_afterWord t⟩

theorem findSome?_eq_ite {w : Text} {q : Prop} [Decidable q] {f : Text → Option Text}
    {ws : List Text} (hf : ∀ v ∈ ws, f v = if w = v ∧ q then some v else none) :
    ws.findSome? f = if w ∈ ws ∧ q then some w else none := by
  induction ws with
  | nil => simp
  | cons v ws ih =>
      rw [List.findSome?_cons, hf v List.mem_cons_self,
        ih fun u hu => hf u (List.mem_cons_of_mem _ hu)]
      by_cases hv : w = v
      · subst hv
        by_cases hq : q <;> simp [hq]
      · simp [hv]

theorem find?_reserved (t : Text) :
    reserved.pattern.find? t =
      if leadingWord t ∈ Vocabulary.reserved ∧ inWord (afterWord t).head? = false
      then some (leadingWord t) else none := by
  rw [find?_tied _ (inOrder [choice (Vocabulary.reserved.map .text), .look .boundary]) rfl rfl,
    before_inOrder, List.foldr_cons, before_choice, List.findSome?_map]
  exact findSome?_eq_ite fun w hw => before_reserved hw t

end Rule
end Decaf
