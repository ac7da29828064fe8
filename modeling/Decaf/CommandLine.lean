/-
The command line.

Arguments are read from left to right, and the first one that asks for help
or for the version, or that is bad, decides (`Command.parse`).  What a command
does is a function of the file that it names: it prints a listing of the
tokens, or an error and nothing else.
-/
import Decaf.Diagnostic
import Decaf.Lexing
import Decaf.Source

namespace Decaf

/-- What it takes to list the tokens of a file. -/
structure Invocation where
  file : Text
  limits : Limits
  verbose : Bool
deriving DecidableEq, Repr

/-- What the arguments ask for. -/
inductive Command where
  | help
  | version
  | list (i : Invocation)
  | misuse
deriving DecidableEq, Repr

namespace Command

/-! ## Reading the arguments -/

/-- What the arguments read so far have set. -/
structure Given where
  file : Option Text := none
  lexeme : Option Nat := none
  source : Option Nat := none
  verbose : Bool := false
deriving DecidableEq, Repr

/-- The command of all arguments. -/
def Given.toCommand (g : Given) : Command :=
  match g.file with
  | none => .misuse
  | some file =>
      let limits : Limits := {}
      .list ⟨file, ⟨g.lexeme.getD limits.lexeme, g.source.getD limits.source⟩, g.verbose⟩

/-- The largest number that a limit can be, and one more. -/
def numberLimit : Nat := Nat.pow 2 64

/-- The value of some digits. -/
def valueOf (digits : Text) : Nat :=
  digits.foldl (fun n c => 10 * n + (c.toNat - '0'.toNat)) 0

/-- The number that a text is: digits, behind a plus sign or without one. -/
def number? (t : Text) : Option Nat :=
  let digits := if t.head? = some '+' then t.tail else t
  if digits.isEmpty || !digits.all Char.isDigit then none
  else if valueOf digits < numberLimit then some (valueOf digits) else none

/-- The options that take a number. -/
inductive Setting where
  | lexeme
  | source
deriving DecidableEq, Repr

/-- Sets a limit, unless it is set already or the text is no number. -/
def Given.set? (g : Given) (s : Setting) (value : Text) : Option Given :=
  match s, g.lexeme, g.source, number? value with
  | .lexeme, none, _, some n => some { g with lexeme := some n }
  | .source, _, none, some n => some { g with source := some n }
  | _, _, _, _ => none

/-- Asks for the log, unless that has been done already. -/
def Given.setVerbose? (g : Given) : Option Given :=
  if g.verbose then none else some { g with verbose := true }

/-- Names the file, unless one is named already or the name is empty. -/
def Given.setFile? (g : Given) (file : Text) : Option Given :=
  if g.file.isSome || file.isEmpty then none else some { g with file := some file }

/-- What an argument is, taken by itself. -/
inductive Argument where
  /-- All arguments behind it name files. -/
  | separator
  | file (name : Text)
  /-- A flag by its long name. -/
  | flag (letter : Char)
  /-- An option with its value, which may be the next argument. -/
  | option (s : Setting) (value : Option Text)
  | letters (ls : Text)
  | unknown
deriving DecidableEq, Repr

/-- The argument with a long name and perhaps a value. -/
def Argument.ofLong (name : Text) (value : Option Text) : Argument :=
  if name = "max-lexeme-len".toList then .option .lexeme value
  else if name = "max-source-len".toList then .option .source value
  else if value.isSome then .unknown
  else if name = "help".toList then .flag 'h'
  else if name = "version".toList then .flag 'V'
  else if name = "verbose".toList then .flag 'v'
  else .unknown

/-- What an argument is.  A single hyphen is the name of a file. -/
def Argument.ofText : Text → Argument
  | ['-', '-'] => .separator
  | '-' :: '-' :: t =>
      let value := t.dropWhile (· != '=')
      .ofLong (t.takeWhile (· != '=')) (if value.isEmpty then none else some value.tail)
  | '-' :: c :: t => .letters (c :: t)
  | t => .file t

/-- Whether an argument can be the value of an option that goes before it. -/
def isValue (t : Text) : Bool :=
  match Argument.ofText t with
  | .file _ => true
  | _ => false

/-- Reads flags by their letters: what they set, or the command they decide
on. -/
def readLetters (g : Given) : Text → Given ⊕ Command
  | [] => .inl g
  | 'h' :: _ => .inr .help
  | 'V' :: _ => .inr .version
  | 'v' :: ls =>
      match g.setVerbose? with
      | some g => readLetters g ls
      | none => .inr .misuse
  | _ :: _ => .inr .misuse

/-- Reads arguments that are files. -/
def readFiles (g : Given) : List Text → Command
  | [] => g.toCommand
  | a :: as =>
      match g.setFile? a with
      | some g => readFiles g as
      | none => .misuse

/-- Reads arguments, after those that have set `g`. -/
def readArgs (g : Given) : List Text → Command
  | [] => g.toCommand
  | a :: as =>
      match Argument.ofText a with
      | .separator => readFiles g as
      | .file name =>
          match g.setFile? name with
          | some g => readArgs g as
          | none => .misuse
      | .flag letter =>
          match readLetters g [letter] with
          | .inl g => readArgs g as
          | .inr command => command
      | .letters ls =>
          match readLetters g ls with
          | .inl g => readArgs g as
          | .inr command => command
      | .option s (some value) =>
          match g.set? s value with
          | some g => readArgs g as
          | none => .misuse
      | .option s none =>
          match as with
          | [] => .misuse
          | value :: as =>
              if isValue value then
                match g.set? s value with
                | some g => readArgs g as
                | none => .misuse
              else .misuse
      | .unknown => .misuse

/-- The command that some arguments give. -/
def parse (args : List Text) : Command := readArgs {} args

end Command

/-! ## What a command does -/

/-- What a command leaves behind: the exit code, and the texts on standard output
and on standard error. -/
structure Output where
  exit : Nat
  out : Text
  err : Text
deriving DecidableEq, Repr

namespace CommandLine

/-- The text that explains the command line. -/
def helpText : Text :=
  "Tokenize a Decaf source file and print its tokens

Usage: decaf-lexer [OPTIONS] <FILE>

Arguments:
  <FILE>  Source file to tokenize

Options:
      --max-lexeme-len <MAX_LEXEME_LEN>  Longest token accepted, in bytes [default: 256]
      --max-source-len <MAX_SOURCE_LEN>  Largest source file accepted, in bytes [default: 65536]
  -v, --verbose                          Log each lexing step to stderr
  -h, --help                             Print help
  -V, --version                          Print version
".toList

/-- The text that names the version. -/
def versionText : Text := "decaf-lexer 0.1.0\n".toList

/-- Lists the tokens of a file, where `entry` is what its path leads to.
There is no output if the error cannot be drawn. -/
def list (i : Invocation) (entry : Option Entry) : Option Output :=
  match Source.read i.limits i.file entry with
  | .error e => some ⟨1, [], e.message ++ ['\n']⟩
  | .ok source =>
      match tokenize i.limits source with
      | .ok tokens => some ⟨0, Token.listing tokens, []⟩
      | .error e => (Diagnostic.render e source i.file).map fun d => ⟨1, [], d⟩

/-- What comes of running the command line: the command runs, the arguments are
bad, or an error cannot be drawn. -/
inductive Outcome where
  | ran (o : Output)
  | misused
  | undrawable
deriving DecidableEq, Repr

/-- Runs the command line in a directory. -/
def run (d : Directory) (args : List Text) : Outcome :=
  match Command.parse args with
  | .help => .ran ⟨0, helpText, []⟩
  | .version => .ran ⟨0, versionText, []⟩
  | .misuse => .misused
  | .list i =>
      match list i (d.lookup? i.file) with
      | some o => .ran o
      | none => .undrawable

end CommandLine
end Decaf
