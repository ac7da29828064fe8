/-
Errors drawn under the line they were met on.

A diagnostic names the error and the file, and, if the error lies in the
source, shows its line and a caret under its column:

    Error: Invalid token! (Unexpected character `^`)
    -> test.decaf
      |
    3 | int x = ^;
      | --------^

Blanks at the beginning and the end of the line are not shown.  The column is
counted in bytes, from where the shown part begins.  A caret can stand no
further than in column `maxColumn`; an error behind it cannot be drawn.
-/
import Decaf.LexError
import Decaf.Text.Blank
import Decaf.Text.Lines

namespace Decaf
namespace Diagnostic

open Text

/-- The furthest column of a caret. -/
def maxColumn : Nat := 65535

/-- Whether a character is cut from the beginning of a line. -/
def isIndent (c : Char) : Bool := c == ' ' || c == '\t'

/-- The size of the indentation of a line. -/
def indent (line : Text) : Nat := (line.takeWhile isIndent).length

/-- The part of a line that is shown. -/
def shown (line : Text) : Text := trimEnd (line.dropWhile isIndent)

/-- The column of the caret, counted from one. -/
def caretColumn (l : Line) : Nat := l.column - indent l.text + 1

/-- The bar of the margin, under a line number of `digits` digits. -/
def margin (digits : Nat) : Text := ['|'].leftpad (digits + 2) ' '

/-- The line of an error, with the caret under it. -/
def excerpt (l : Line) : Option Text :=
  let number := decimal l.number
  if caretColumn l ≤ maxColumn then
    some (margin number.length ++ "\n".toList ++
      number ++ " | ".toList ++ shown l.text ++ "\n".toList ++
      margin number.length ++ " ".toList ++ ['^'].leftpad (caretColumn l) '-' ++ "\n".toList)
  else none

/-- The lines that name the error and the file. -/
def heading (e : LexError) (file : Text) : Text :=
  let tip := match e.tip with
    | some tip => " (".toList ++ tip ++ ")".toList
    | none => []
  "Error: ".toList ++ e.message ++ tip ++ "\n-> ".toList ++ file ++ "\n".toList

/-- The line of the source that an error was met on, if there is one. -/
def line? (e : LexError) (source : Text) : Option Line :=
  e.position.bind fun p => lineAt? source p.offset

/-- The diagnostic of an error, if it can be drawn. -/
def render (e : LexError) (source file : Text) : Option Text :=
  match line? e source with
  | some l => (excerpt l).map (heading e file ++ ·)
  | none => some (heading e file)

end Diagnostic
end Decaf
