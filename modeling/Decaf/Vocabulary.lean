/-
The words of the language that are not identifiers.
-/
import Decaf.Text.Basic

namespace Decaf
namespace Vocabulary

/-- The words set aside for features of the language that are not supported.
A source that uses one of them cannot be lexed. -/
def reserved : List Text :=
  ["for".toList, "callout".toList, "class".toList, "interface".toList, "extends".toList,
    "implements".toList, "new".toList, "this".toList, "string".toList, "float".toList,
    "double".toList, "null".toList]

/-- The keywords, in alphabetical order. -/
def keywords : List Text :=
  ["bool".toList, "break".toList, "continue".toList, "def".toList, "else".toList,
    "false".toList, "if".toList, "int".toList, "return".toList, "true".toList, "void".toList,
    "while".toList]

/-- Whether a word is a keyword. -/
def isKeyword (word : Text) : Bool := keywords.contains word

end Vocabulary
end Decaf
