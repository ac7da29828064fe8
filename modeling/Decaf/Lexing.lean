/-
Lexing.

A source is lexed from left to right.  `step` takes the first matching rule
at the place reached and either adds a piece, a token or trivia, and moves
behind it, or fails and leaves everything as it was.  `run` repeats this to
the end of the source or to the first failure.  It keeps what was seen on the
way: the matches in the order they were made, the pieces, and the state where
it stopped.  `lex` and `tokenize` are what the outside asks of a run.

Every step that does not fail consumes text (`length_rest_lt_of_step`), so a
run ends.
-/
import Decaf.LexError
import Decaf.Limits
import Decaf.Rule
import Decaf.Text.Lines

namespace Decaf
namespace Lexing

open Text

/-! ## Pieces and states -/

/-- A piece of a source: a token, or trivia. -/
inductive Piece where
  | token (t : Token)
  | trivia (t : Trivia)
deriving DecidableEq, Repr

namespace Piece

/-- The text of a piece. -/
def text : Piece → Text
  | .token t => t.lexeme
  | .trivia t => t.text

/-- The line a piece starts on. -/
def line : Piece → Nat
  | .token t => t.line
  | .trivia t => t.line

/-- The byte offset of a piece. -/
def offset : Piece → Nat
  | .token t => t.offset
  | .trivia t => t.offset

/-- The token that a piece is, if it is one. -/
def token? : Piece → Option Token
  | .token t => some t
  | .trivia _ => none

/-- The trivia that a piece is, if it is. -/
def trivia? : Piece → Option Trivia
  | .token _ => none
  | .trivia t => some t

end Piece

/-- A place in a source, while it is lexed: the text still to come, the line,
counted from one, and the byte offset. -/
structure State where
  rest : Text
  line : Nat
  offset : Nat
deriving DecidableEq, Repr

namespace State

/-- The start of a source. -/
def start (source : Text) : State := ⟨source, 1, 0⟩

/-- The position of a state. -/
def position (s : State) : Position := ⟨s.line, s.offset⟩

/-- The state behind a text that begins `lines` new lines. -/
def move (s : State) (t : Text) (lines : Nat) : State :=
  ⟨s.rest.drop t.length, s.line + lines, s.offset + byteSize t⟩

end State

/-! ## One step -/

/-- A match that was made: the place of the rule in the table, the line it was
made on, and the text matched. -/
structure Matched where
  rule : Nat
  line : Nat
  lexeme : Text
deriving DecidableEq, Repr

/-- What a step does: it adds a piece and moves on, or it fails, perhaps on
account of a match that it made. -/
inductive Step where
  | advanced (m : Matched) (p : Piece) (next : State)
  | failed (m : Option Matched) (cause : LexError.Cause)
deriving DecidableEq, Repr

/-- A token at a place, and the number of lines it begins, if it is not too
long.  A token that runs over several lines belongs to its first line. -/
def tokenAt (limits : Limits) (s : State) (kind : Token.Kind) (lexeme : Text) :
    Except LexError.Cause (Piece × Nat) :=
  if byteSize lexeme ≤ limits.lexeme then
    .ok (.token ⟨kind, lexeme, s.line, s.offset⟩, lineFeeds lexeme)
  else
    .error (.tooLong (byteSize lexeme) limits.lexeme)

/-- The kind of token that a word is. -/
def wordKind (word : Text) : Token.Kind :=
  if Vocabulary.isKeyword word then .keyword else .identifier

/-- The piece that a match yields, and the number of lines it begins. -/
def act (limits : Limits) (s : State) (m : Rule.Match) : Except LexError.Cause (Piece × Nat) :=
  match m.action with
  | .skip => .ok (.trivia ⟨.whitespace, m.text, s.line, s.offset⟩, 0)
  | .newline => .ok (.trivia ⟨.newline, m.text, s.line, s.offset⟩, 1)
  | .comment => .ok (.trivia ⟨.comment, m.text, s.line, s.offset⟩, 1)
  | .reject => .error (.reserved m.text)
  | .word => tokenAt limits s (wordKind m.text) m.text
  | .token kind => tokenAt limits s kind m.text

/-- One step: the first rule of the table that matches is applied. -/
def step (limits : Limits) (s : State) : Step :=
  match Rule.select? Rule.table s.rest with
  | none => .failed none (.unexpected (s.rest.headD '\x00'))
  | some m =>
      if m.text.isEmpty then .failed none (.emptyMatch m.index)
      else
        let seen : Matched := ⟨m.index, s.line, m.text⟩
        match act limits s m with
        | .error cause => .failed (some seen) cause
        | .ok (piece, lines) => .advanced seen piece (s.move m.text lines)

/-- A step that adds a piece consumes text. -/
theorem length_rest_lt_of_step {limits : Limits} {s s' : State} {m : Matched} {p : Piece}
    (hs : s.rest ≠ []) (h : step limits s = .advanced m p s') :
    s'.rest.length < s.rest.length := by
  unfold step at h
  split at h
  · cases h
  · rename_i r _
    split at h
    · cases h
    · rename_i hne
      split at h
      · cases h
      · cases h
        have hr : r.text ≠ [] := by simpa using hne
        have h₁ := List.length_pos_iff.2 hr
        have h₂ := List.length_pos_iff.2 hs
        simp only [State.move, List.length_drop]
        omega

/-! ## Runs -/

/-- What a run has seen and done: its matches and pieces in the order in which
they were made, the state where it stopped, and why it stopped there, if not at
the end of the source. -/
structure Run where
  matched : List Matched
  pieces : List Piece
  final : State
  cause : Option LexError.Cause
deriving DecidableEq, Repr

/-- The run from a state on, where `matched` and `pieces` are what was seen
before, last first. -/
def runFrom (limits : Limits) (matched : List Matched) (pieces : List Piece) (s : State) : Run :=
  if _hs : s.rest = [] then ⟨matched.reverse, pieces.reverse, s, none⟩
  else
    match _h : step limits s with
    | .failed m cause => ⟨(m.toList ++ matched).reverse, pieces.reverse, s, some cause⟩
    | .advanced m p s' => runFrom limits (m :: matched) (p :: pieces) s'
termination_by s.rest.length
decreasing_by exact length_rest_lt_of_step _hs _h

/-- The tokens and the trivia of a source. -/
structure Lexed where
  tokens : List Token
  trivia : List Trivia
deriving DecidableEq, Repr

namespace Run

/-- The tokens of a run. -/
def tokens (r : Run) : List Token := r.pieces.filterMap Piece.token?

/-- The trivia of a run. -/
def trivia (r : Run) : List Trivia := r.pieces.filterMap Piece.trivia?

/-- The error that a run stopped with, if any. -/
def error? (r : Run) : Option LexError := r.cause.map fun cause => ⟨cause, some r.final.position⟩

/-- What a run yields: all tokens and trivia, or the error alone. -/
def result (r : Run) : Except LexError Lexed :=
  match r.error? with
  | some e => .error e
  | none => .ok ⟨r.tokens, r.trivia⟩

end Run

/-- The run over a source. -/
def run (limits : Limits) (source : Text) : Run := runFrom limits [] [] (.start source)

end Lexing

open Lexing

/-- The tokens and the trivia of a source. -/
def lex (limits : Limits) (source : Text) : Except LexError Lexed := (run limits source).result

/-- The tokens of a source. -/
def tokenize (limits : Limits) (source : Text) : Except LexError (List Token) :=
  (lex limits source).map Lexed.tokens

end Decaf
