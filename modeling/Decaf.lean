import Decaf.Cursor
import Decaf.Main
import Decaf.Proofs.Pattern.Preference
import Decaf.Proofs.Pattern.Threads
import Decaf.Proofs.Pattern.Emission
import Decaf.Proofs.Pattern.Joining
import Decaf.Proofs.Rule.Spans
import Decaf.Proofs.Rule.Literal
import Decaf.Proofs.Rule.First
import Decaf.Proofs.Lexing.Steps
import Decaf.Proofs.Lexing.Tiling
import Decaf.Proofs.Lexing.LineNumbers
import Decaf.Proofs.Lexing.Words
import Decaf.Proofs.Rule.Context
import Decaf.Proofs.Lexing.Yields
import Decaf.Proofs.Lexing.Separators
import Decaf.Proofs.Rule.Scanner
import Decaf.Proofs.Lexing.Errors
import Decaf.Proofs.Lexing.Concatenation
import Decaf.Proofs.Lexing.Truncation
import Decaf.Proofs.Lexing.LexemeLimit
import Decaf.Proofs.Lexing.Replay
import Decaf.Proofs.Lexing.Columns
import Decaf.Proofs.Diagnostic.Caret
import Decaf.Proofs.Diagnostic.Width
import Decaf.Proofs.Pattern.Anchoring
import Decaf.Proofs.Rule.Closing
import Decaf.Proofs.Rule.Overlap
import Decaf.Proofs.CommandLine.Arrangement
import Decaf.Proofs.CommandLine.Paths
import Decaf.Proofs.CommandLine.Ending
import Decaf.Proofs.Text.Addressing
import Decaf.Proofs.Lexing.Resumption
import Decaf.Proofs.Lexing.TrailingBlanks
import Decaf.Proofs.Lexing.Listing
import Decaf.Proofs.Pattern.Taking
import Decaf.Proofs.Lexing.Progress
import Decaf.Proofs.Pattern.Relocation
import Decaf.Proofs.Pattern.Beside
import Decaf.Proofs.Pattern.Found
import Decaf.Proofs.Pattern.NormalForm
import Decaf.Proofs.Pattern.Factoring
import Decaf.Proofs.Pattern.Classes
import Decaf.Proofs.Pattern.Nesting
import Decaf.Proofs.Pattern.Reaching
import Decaf.Proofs.Pattern.Alternation
