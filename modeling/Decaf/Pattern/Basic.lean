/-
Patterns that are ready for use.

A pattern is its notation together with the regular expression that the
notation, wrapped as `^(?:` … `)`, stands for.  The wrapping ties a pattern
that is well formed on its own to the start of the text, as a whole.  It is
done on the notation, so what counts is that the wrapped text can be read.
-/
import Decaf.LexError
import Decaf.Pattern.Reading
import Decaf.Pattern.Search
import Decaf.Pattern.Weight

namespace Decaf

namespace Pattern

/-- The notation of a pattern, wrapped in a group behind the anchor for the
start of the text. -/
def anchored (source : Text) : Text := "^(?:".toList ++ source ++ [')']

/-- The regular expression of a wrapped pattern, if the wrapped text can be
read, is not nested too deeply and does not weigh too much. -/
def Expr.ofSource? (source : Text) : Option Expr :=
  match Form.read? (anchored source) with
  | some f => if f.depth ≤ Form.maxDepth && f.expr.isModest then some f.expr else none
  | none => none

end Pattern

/-- A pattern: its notation, the expression that this is read as, and the program
that finds its matches. -/
structure Pattern where
  source : Text
  expr : Pattern.Expr
  reads : Pattern.Expr.ofSource? source = some expr
  program : Pattern.Program := expr.program
  program_eq : program = expr.program := by rfl

namespace Pattern

/-- The pattern with a given notation. -/
def compile (source : Text) : Except LexError Pattern :=
  match h : Expr.ofSource? source with
  | some e => .ok { source, expr := e, reads := h }
  | none =>
      .error ⟨.malformed source "not a well-formed pattern of moderate size".toList, none⟩

/-- The text that the pattern matches in `t`, if there is a match. -/
def find? (p : Pattern) (t : Text) : Option Text := p.program.find? t

/-- The notation of a pattern is compiled to the pattern. -/
theorem compile_source (p : Pattern) : compile p.source = .ok p := by
  obtain ⟨source, expr, reads, program, rfl⟩ := p
  rw [compile]
  split
  · rename_i e h
    obtain rfl : e = expr := Option.some.inj (h.symm.trans reads)
    rfl
  · rename_i h
    rw [reads] at h
    cases h

/-- A pattern is compiled from its notation only. -/
theorem source_of_compile {source : Text} {p : Pattern} (h : compile source = .ok p) :
    p.source = source := by
  rw [compile] at h
  split at h
  · cases h
    rfl
  · cases h

end Pattern
end Decaf
