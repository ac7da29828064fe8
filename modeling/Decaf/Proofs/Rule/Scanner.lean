/-
The table as a scanner.

The table tries eleven patterns one after another, each from the beginning of
the text.  `scan` finds the same match in one pass: the first character, and in
a few cases the second, tell which rule it is, and a run of characters of one
kind tells how far the match goes.  Reserved words and other words are one case
of it, since both begin with a letter; the whole word is read before it is
known whether it is rejected.

    [ \t]  [\n]  [//]  letter  [0x]  [0]  digit  [== != <= >=]  bracket  operator  ["]
      0      1     2    3, 5     4    6     6          7            8         9      10

For a string literal the pattern of its rule is asked, which alone can look
further ahead.
-/
import Decaf.Proofs.Rule.First

namespace Decaf
namespace Rule

open Pattern Text

/-- The match at the beginning of a text that begins with a letter.  The whole
run of word characters is rejected if it is reserved and no other character of
a word follows it. -/
def scanWord (t : Text) : Match :=
  if StartsReserved t then ⟨3, .reject, leadingWord t⟩ else ⟨5, .word, leadingWord t⟩

/-- The match at the beginning of a text, found in one pass over it. -/
def scan : Text → Option Match
  | [] => none
  | c :: t =>
      if isSpace c then some ⟨0, .skip, (c :: t).takeWhile isSpace⟩
      else if c = '\n' then some ⟨1, .newline, ['\n']⟩
      else if c = '/' ∧ t.head? = some '/' then some ⟨2, .comment, restOfLine (c :: t)⟩
      else if c.isAlpha then some (scanWord (c :: t))
      else if c = '0' ∧ t.head? = some 'x' then
        some ⟨4, .token .hexLiteral, ['0', 'x'] ++ t.tail.takeWhile isHexDigit⟩
      else if c = '0' then some ⟨6, .token .decimalLiteral, ['0']⟩
      else if c.isDigit then some ⟨6, .token .decimalLiteral, (c :: t).takeWhile Char.isDigit⟩
      else if c ∈ ['=', '!', '<', '>'] ∧ t.head? = some '=' then
        some ⟨7, .token .symbol, [c, '=']⟩
      else if c ∈ ['(', ')', '\x7b', '\x7d', '[', ']', ',', ';'] then
        some ⟨8, .token .symbol, [c]⟩
      else if c ∈ ['&', '|'] ∧ t.head? = some c then some ⟨9, .token .symbol, [c, c]⟩
      else if c ∈ ['+', '-', '*', '/', '%', '!', '>', '<', '='] then
        some ⟨9, .token .symbol, [c]⟩
      else if c = '"' then
        (stringLiteral.pattern.find? (c :: t)).map (⟨10, .token .stringLiteral, ·⟩)
      else none

/-- What begins with a letter is matched as a word, reserved or not. -/
theorem begins_scanWord {c : Char} (hc : c.isAlpha = true) (t : Text) :
    Begins (c :: t) (scanWord (c :: t)) := by
  rw [scanWord]
  split
  · exact .reserved ‹_›
  · exact .word hc ‹_›

/-- The first rule that matches is the one that the scanner tells. -/
theorem select_table_eq_scan (t : Text) : select? table t = scan t := by
  cases t with
  | nil => exact select?_table_nil
  | cons c t =>
      by_cases hc : c.isAlpha = true
      · obtain ⟨hspace, hfeed, hslash⟩ := ne_of_isAlphanum (Bool.or_eq_true_iff.mpr (.inl hc))
        rw [scan, if_neg hspace, if_neg hfeed, if_neg fun h => hslash h.1, if_pos hc]
        exact begins_iff.mpr (begins_scanWord hc t)
      · have hreserved : ¬ StartsReserved (c :: t) := by
          intro h
          obtain ⟨d, u, hd, hletter⟩ := exists_of_startsReserved h
          cases hd
          exact hc hletter
        -- Without letters the two try the same cases in the same order.
        rw [select?_table_cons, scan]
        simp only [if_neg hreserved, if_neg hc]
        refine ite_congr rfl ?blanks fun _ => ite_congr rfl (fun _ => rfl) fun _ =>
          ite_congr rfl ?comment fun _ => ite_congr rfl (fun _ => rfl) fun _ =>
          ite_congr rfl (fun _ => rfl) fun _ => ite_congr rfl ?digits fun _ =>
          ite_congr rfl (fun _ => rfl) fun _ => ite_congr rfl (fun _ => rfl) fun _ =>
          ite_congr rfl (fun _ => rfl) fun _ => ite_congr rfl (fun _ => rfl) fun _ =>
          ite_congr rfl ?literal fun _ => rfl
        case blanks =>
          intro h
          rw [List.takeWhile_cons_of_pos h]
        case comment =>
          rintro ⟨rfl, h⟩
          obtain ⟨u, rfl⟩ := List.head?_eq_some_iff.mp h
          rw [restOfLine_cons_of_ne (by decide), restOfLine_cons_of_ne (by decide)]
          rfl
        case digits =>
          intro h
          rw [List.takeWhile_cons_of_pos h]
        case literal =>
          intro h
          rw [find?_stringLiteral, if_pos h, Option.map_map]
          rfl

end Rule
end Decaf
