/-
The rules of the lexer.

A rule is a pattern and what to do with the text that it matches.  The rules
stand in a table in order of priority: at each place of a source the first
rule that matches decides, even where a later one would match more.  Each
pattern of the table is given with its notation and its expression, and the
kernel checks that the one is read as the other.
-/
import Decaf.Pattern.Basic
import Decaf.Token
import Decaf.Vocabulary

namespace Decaf

namespace Pattern
namespace Expr

/-! ## Building expressions -/

/-- An expression tied to the start of the text. -/
def tied (a : Expr) : Expr := .cons (.look .start) a

/-- An expression as often as possible. -/
def star (a : Expr) : Expr := .rep .greedy 0 none a

/-- One character of some ranges. -/
def oneOf (ranges : List (Char × Char)) : Expr := .set (.ofRanges ranges)

end Expr
end Pattern

/-- What is done with the text that a rule matches.  Blanks, line feeds and
comments are passed over, and the latter two begin a new line; a reserved word
is refused; a word is a keyword or an identifier. -/
inductive Rule.Action where
  | skip
  | newline
  | comment
  | reject
  | word
  | token (kind : Token.Kind)
deriving DecidableEq, Repr

/-- A rule. -/
structure Rule where
  pattern : Pattern
  action : Rule.Action

namespace Rule

open Pattern.Expr

/-! ## The table -/

/-- The ranges of the letters. -/
def letters : List (Char × Char) := [('a', 'z'), ('A', 'Z')]

/-- The ranges of the characters of a word behind the first. -/
def wordRest : List (Char × Char) := letters ++ [('0', '9'), ('_', '_')]

/-- The ranges of the characters that a string literal may hold as they are. -/
def plainInString : List (Char × Char) :=
  letters ++
    [('0', '9'), (' ', ' '), ('\t', '\t'), ('\n', '\n'), ('#', '#'), ('_', '_'), (':', ':')]

/-- Each of some characters as a range of its own. -/
def singles (cs : Text) : List (Char × Char) := cs.map fun c => (c, c)

/-- Spaces and tabs. -/
def blanks : Rule where
  pattern := {
    source := "[ \\t]+".toList
    expr := tied (.rep .greedy 1 none (oneOf (singles [' ', '\t'])))
    reads := rfl }
  action := .skip

/-- A line feed. -/
def lineFeed : Rule where
  pattern := {
    source := "\\n".toList
    expr := tied (char '\n')
    reads := rfl }
  action := .newline

/-- A comment, up to and including the end of its line. -/
def comment : Rule where
  pattern := {
    source := "//[^\\n]*\\n?".toList
    expr := tied (inOrder [.text ['/', '/'], star (.set .dot), .rep .greedy 0 (some 1) (char '\n')])
    reads := rfl }
  action := .comment

/-- A reserved word that is not the beginning of a longer word. -/
def reserved : Rule where
  pattern := {
    source := "(?:".toList ++ ['|'].intercalate Vocabulary.reserved ++ ")\\b".toList
    expr := tied (inOrder [choice (Vocabulary.reserved.map .text), .look .boundary])
    reads := rfl }
  action := .reject

/-- A number in hexadecimal digits. -/
def hexLiteral : Rule where
  pattern := {
    source := "0x[0-9a-f]*".toList
    expr := tied (inOrder [.text ['0', 'x'], star (oneOf [('0', '9'), ('a', 'f')])])
    reads := rfl }
  action := .token .hexLiteral

/-- A word. -/
def word : Rule where
  pattern := {
    source := "[a-zA-Z][a-zA-Z0-9_]*".toList
    expr := tied (inOrder [oneOf letters, star (oneOf wordRest)])
    reads := rfl }
  action := .word

/-- A number in decimal digits. -/
def decimalLiteral : Rule where
  pattern := {
    source := "0|[1-9][0-9]*".toList
    expr := tied (choice [char '0', inOrder [oneOf [('1', '9')], star (oneOf [('0', '9')])]])
    reads := rfl }
  action := .token .decimalLiteral

/-- An operator of comparison with two signs. -/
def comparison : Rule where
  pattern := {
    source := "==|!=|<=|>=".toList
    expr := tied (choice [.text ['=', '='], .text ['!', '='], .text ['<', '='], .text ['>', '=']])
    reads := rfl }
  action := .token .symbol

/-- A bracket, a comma or a semicolon. -/
def punctuation : Rule where
  pattern := {
    source := "[()\x7b\x7d\\[\\],;]".toList
    expr := tied (oneOf (singles ['(', ')', '\x7b', '\x7d', '[', ']', ',', ';']))
    reads := rfl }
  action := .token .symbol

/-- Any other operator. -/
def operator : Rule where
  pattern := {
    source := "&&|\\|\\||[+\\-*/%!><=]".toList
    expr := tied (choice [.text ['&', '&'], .text ['|', '|'],
      oneOf (singles ['+', '-', '*', '/', '%', '!', '>', '<', '='])])
    reads := rfl }
  action := .token .symbol

/-- A string literal.  A backslash may stand in it by itself, and before a
double quote. -/
def stringLiteral : Rule where
  pattern := {
    source := "\"(?:[a-zA-Z0-9 \\t\\n#_:]|\\\\\"|\\\\)*\"".toList
    expr := tied (inOrder [char '"',
      star (choice [oneOf plainInString, .text ['\\', '"'], char '\\']), char '"'])
    reads := rfl }
  action := .token .stringLiteral

/-- The rules in order of priority.  Reserved words come before words, and
comments, hexadecimal numbers and comparisons before what they begin with. -/
def table : List Rule :=
  [blanks, lineFeed, comment, reserved, hexLiteral, word, decimalLiteral, comparison,
    punctuation, operator, stringLiteral]

/-! ## The first match -/

/-- A match of a rule: the place of the rule in its table, what it does, and
the text that it matched. -/
structure Match where
  index : Nat
  action : Action
  text : Text
deriving DecidableEq, Repr

/-- The match of the first of some rules that has one, where the first of
them has the place `index`. -/
def selectFrom (index : Nat) (t : Text) : List Rule → Option Match
  | [] => none
  | r :: rs =>
      match r.pattern.find? t with
      | some m => some ⟨index, r.action, m⟩
      | none => selectFrom (index + 1) t rs

/-- The match of the first rule that has one at the start of a text. -/
def select? (rules : List Rule) (t : Text) : Option Match := selectFrom 0 t rules

end Rule
end Decaf
