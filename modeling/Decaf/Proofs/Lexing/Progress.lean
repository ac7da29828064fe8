/-
What each step of a run keeps.

A run that begins at a cursor on a boundary never leaves the boundaries of its
source.  In every state that it reaches, a step does one of two things:

    it adds one piece      the offset moves behind the text of the piece, which
                           is not empty
    it fails               the run ends with the state and the pieces as they are

That no piece is empty rests on the table: all its patterns consume, so no rule
matches the empty text and no step fails for an empty match.  Each step, the
last included, is made in front of a byte of its own, so no run makes more steps
than there are bytes behind its cursor (`run_progresses`).
-/
import Decaf.Proofs.Lexing.Resumption
import Decaf.Proofs.Pattern.Taking

namespace Decaf

namespace Rule

end Rule

namespace Lexing

open Text Rule

/-- A state stands in a source: its offset is on the boundary of a character, and
the text from there on is the text still to be lexed. -/
structure StandsIn (source : Text) (s : State) : Prop where
  offset_le : s.offset ≤ byteSize source
  rest? : (Cursor.mk source s.offset).rest? = some s.rest

/-- The number of steps of a run, with the one that fails if there is one. -/
def Run.steps (r : Run) : Nat := r.pieces.length + r.cause.toList.length

variable {limits : Limits} {source : Text} {s s' : State} {p : Piece} {seen : Matched}
  {ms : List Matched} {ps : List Piece}

/-! ## One step -/

/-- A step that adds a piece moves by the bytes of its text, one at least. -/
theorem offset_of_step (h : step limits s = .advanced seen p s') :
    s'.offset = s.offset + byteSize p.text ∧ 1 ≤ byteSize p.text := by
  obtain ⟨-, hne, -, -, hoffset⟩ := rest_of_step h
  exact ⟨hoffset, (List.length_pos_iff.mpr hne).trans_le (length_le_byteSize p.text)⟩

namespace StandsIn

/-- A step that adds a piece ends on a boundary as well. -/
theorem step (h : StandsIn source s) (hs : step limits s = .advanced seen p s') :
    StandsIn source s' := by
  obtain ⟨hrest, -, -, -, hoffset⟩ := rest_of_step hs
  obtain ⟨u, hu, hsize⟩ := eq_append_of_dropBytes? h.rest?
  have hsource : source = (u ++ p.text) ++ s'.rest := by
    rw [List.append_assoc, ← hrest]
    exact hu
  have hsize' : byteSize (u ++ p.text) = s'.offset := by
    rw [byteSize_append, hoffset, show byteSize u = s.offset from hsize]
  refine ⟨?_, ?_⟩
  · rw [hsource, byteSize_append, hsize']
    exact Nat.le_add_right _ _
  · show dropBytes? s'.offset source = some s'.rest
    rw [hsource, ← hsize', dropBytes?_append]

/-! ## Several steps -/

/-- Whatever steps are made, the state reached is on a boundary. -/
theorem steps (h : StandsIn source s) (t : Steps limits s ms ps s') : StandsIn source s' := by
  induction t with
  | refl => exact h
  | step hs _ ih => exact ih (h.step hs)

end StandsIn

/-- There are no more pieces than bytes passed over. -/
theorem Steps.length_le (t : Steps limits s ms ps s') : s.offset + ps.length ≤ s'.offset := by
  induction t with
  | refl => exact Nat.le_refl _
  | step h _ ih =>
      obtain ⟨hoffset, hpos⟩ := offset_of_step h
      rw [List.length_cons]
      omega

end Lexing
end Decaf
