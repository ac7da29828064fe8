/-
Characters and texts in visible form, for messages.

Two forms are in use.  `escaped` shows one character in printable ASCII: what
has a short escape gets it, both quotes included, and what is not printable
ASCII is shown by its code.  `quoted` shows a text between double quotes: only
the double quote and the backslash are escaped among the printable characters,
and only a character that prints no mark of its own is shown by its code.
-/
import Decaf.Text.Basic
import Decaf.Text.Unmarked

namespace Decaf
namespace Text

/-- A character shown by its code point: `\u`, and the hexadecimal digits in
braces. -/
def codeForm (c : Char) : Text :=
  '\\' :: 'u' :: '\x7b' :: hexadecimal c.toNat ++ ['\x7d']

/-- A character in printable ASCII. -/
def escaped (c : Char) : Text :=
  match c with
  | '\t' => ['\\', 't']
  | '\r' => ['\\', 'r']
  | '\n' => ['\\', 'n']
  | '\'' => ['\\', '\'']
  | '"' => ['\\', '"']
  | '\\' => ['\\', '\\']
  | c => if 0x20 ≤ c.toNat && c.toNat ≤ 0x7E then [c] else codeForm c

@[simp] theorem lineFeed_not_mem_codeForm (c : Char) : '\n' ∉ codeForm c := by
  simp [codeForm]

/-- A character in printable ASCII stands on one line. -/
@[simp] theorem lineFeed_not_mem_escaped (c : Char) : '\n' ∉ escaped c := by
  unfold escaped
  split
  case h_7 hlf _ _ _ =>
    split
    · exact mt List.mem_singleton.mp (Ne.symm hlf)
    · exact lineFeed_not_mem_codeForm c
  all_goals decide

/-- A character as it is written inside a quoted text. -/
def quotedChar (c : Char) : Text :=
  match c with
  | '\x00' => ['\\', '0']
  | '\t' => ['\\', 't']
  | '\r' => ['\\', 'r']
  | '\n' => ['\\', 'n']
  | '"' => ['\\', '"']
  | '\\' => ['\\', '\\']
  | c => if isUnmarked c then codeForm c else [c]

@[simp] theorem lineFeed_not_mem_quotedChar (c : Char) : '\n' ∉ quotedChar c := by
  unfold quotedChar
  split
  case h_7 hlf _ _ =>
    split
    · exact lineFeed_not_mem_codeForm c
    · exact mt List.mem_singleton.mp (Ne.symm hlf)
  all_goals decide

/-- A text between double quotes, with escapes where a character would not
show or would end the quotation. -/
def quoted (t : Text) : Text := '"' :: t.flatMap quotedChar ++ ['"']

/-- A quoted text stands on one line. -/
@[simp] theorem lineFeed_not_mem_quoted (t : Text) : '\n' ∉ quoted t := by
  simp [quoted]

end Text
end Decaf
