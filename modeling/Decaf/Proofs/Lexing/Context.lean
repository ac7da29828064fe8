/-
Steps in front of another text.

The text that is still to be lexed is part of a state, so the same steps behind
which another text follows are steps from other states.  They are the same
steps all the way to the last one: between two pieces the next character is
that of the second piece, whatever follows in the end.  What is left to ask is
that the last match is made in front of the new text too, and that no literal
that closes at a quote behind a backslash is closed later by it.
-/
import Decaf.Proofs.Lexing.Steps
import Decaf.Proofs.Rule.Context

namespace Decaf
namespace Lexing

open Text Rule

/-- The state with another text to be lexed. -/
def State.withRest (s : State) (r : Text) : State := { s with rest := r }

variable {limits : Limits} {s s' : State} {ms : List Matched} {ps : List Piece} {p : Piece}
  {seen : Matched}

theorem State.move_withRest (s : State) (t r : Text) (n : Nat) :
    (s.withRest (t ++ r)).move t n = (s.move t n).withRest r :=
  State.move_of_append rfl n

theorem Steps.text_ne_nil (h : Steps limits s ms ps s') (hp : p ∈ ps) : p.text ≠ [] := by
  obtain ⟨ms₁, ps₁, s₁, seen, s₂, ms₂, ps₂, -, h₁, -, -⟩ := h.exists_step_of_mem hp
  exact (rest_of_step h₁).2.1

theorem Steps.flatMap_text_ne_nil (h : Steps limits s ms ps s') (hps : ps ≠ []) :
    ps.flatMap Piece.text ≠ [] := by
  obtain ⟨p, ps', rfl⟩ := List.exists_cons_of_ne_nil hps
  rw [List.flatMap_cons]
  exact List.append_ne_nil_of_left_ne_nil (h.text_ne_nil List.mem_cons_self) _

/-- A step is made in front of another text if its match is. -/
theorem step_in_front_of {r : Text} (h : step limits s = .advanced seen p s')
    (hb : ∀ m n, act limits s m = .ok (p, n) → Begins (p.text ++ s'.rest) m →
      Begins (p.text ++ r) m) :
    step limits (s.withRest (p.text ++ r)) = .advanced seen p (s'.withRest r) := by
  have hrest := (rest_of_step h).1
  obtain ⟨m, n, hm, ha, rfl, rfl⟩ := step_eq_advanced_iff.mp h
  obtain ⟨i, a, rfl⟩ := exists_of_act ha
  have hnext := State.move_withRest s p.text r n
  exact step_eq_advanced_iff.mpr ⟨_, n, hb _ n ha (hrest ▸ hm), ha, rfl, hnext.symm⟩

/-- A match that adds a piece is made in front of every text that begins with
the same character as the one that follows it. -/
theorem begins_in_front_of_same {m : Match} {n : Nat} {r r' : Text}
    (ha : act limits s m = .ok (p, n)) (hb : Begins (p.text ++ r') m) (hhead : r.head? = r'.head?)
    (hlit : ∀ t, p = .token t → ['\\', '"'] <:+ t.lexeme →
      literalRest r' = none → literalRest r = none) : Begins (p.text ++ r) m := by
  obtain ⟨i, a, rfl⟩ := exists_of_act ha
  refine hb.in_front_of_same hhead ?_
  rintro rfl hquote
  cases p with
  | token t => exact hlit t rfl hquote
  | trivia v => cases act_eq_trivia ha

/-- The same steps are made in front of another text. -/
theorem Steps.in_front_of (h : Steps limits s ms ps s') {r : Text}
    (hlit : ∀ t, .token t ∈ ps → ['\\', '"'] <:+ t.lexeme →
      ∀ v, literalRest (v ++ s'.rest) = none → literalRest (v ++ r) = none)
    (hlast : ∀ p ∈ ps.getLast?, ∀ s m n, act limits s m = .ok (p, n) →
      Begins (p.text ++ s'.rest) m → Begins (p.text ++ r) m) :
    Steps limits (s.withRest (ps.flatMap Piece.text ++ r)) ms ps (s'.withRest r) := by
  induction h with
  | refl => exact .refl
  | @step s s₁ s' seen p ms ps h t ih =>
      rw [List.flatMap_cons, List.append_assoc]
      refine .step (step_in_front_of h ?_) (ih ?_ ?_)
      · intro m n ha hb
        by_cases hps : ps = []
        · cases t with
          | refl => exact hlast p rfl s m n ha hb
          | step => cases hps
        · -- The next character is that of the next piece.
          obtain ⟨c, v, hv⟩ := List.exists_cons_of_ne_nil (t.flatMap_text_ne_nil hps)
          rw [t.rest_eq] at hb
          refine begins_in_front_of_same ha hb ?_ ?_
          · rw [hv]
            rfl
          · rintro u rfl hquote
            exact hlit u List.mem_cons_self hquote _
      · intro u hu
        exact hlit u (List.mem_cons_of_mem _ hu)
      · intro q hq
        refine hlast q ?_
        rw [Option.mem_def, List.getLast?_cons, Option.mem_def.mp hq]
        rfl

end Lexing
end Decaf
