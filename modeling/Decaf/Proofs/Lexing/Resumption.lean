/-
Lexing from the middle of a source.

Rules look at the text that is left and never behind it.  So to lex from a
cursor is to lex the text from there on as a source of its own, with all
offsets counted from the cursor's and all lines counted from one:

    the cursor on a boundary       the rest of the source, further on
    the cursor behind the end      nothing, and no error

A place where a piece of a lexed source begins is no different: what is lexed
from there on is that piece and all that come behind it, though their lines and
offsets are counted anew (`lex_from_cursor`).
-/
import Mathlib.Algebra.GroupWithZero.Nat
import Decaf.Cursor
import Decaf.Proofs.Lexing.LineNumbers
import Decaf.Proofs.Lexing.Shift
import Decaf.Proofs.Lexing.Tiling

namespace Decaf

open Text Lexing

/-! ## Cursors -/

namespace Cursor

variable {c : Cursor} {limits : Limits}

/-- A cursor that is moved several times is moved by their sum, as long as no
offset comes to the limit. -/
theorem foldl_advance {ns : List Nat} (h : c.offset + ns.sum < offsetLimit) :
    ns.foldl advance c = { c with offset := c.offset + ns.sum } := by
  induction ns generalizing c with
  | nil => rfl
  | cons n ns ih =>
      rw [List.sum_cons, ← Nat.add_assoc] at h
      have hadvance : c.advance n = { c with offset := c.offset + n } := by
        rw [advance, Nat.mod_eq_of_lt (by omega)]
      rw [List.foldl_cons, hadvance, ih h, List.sum_cons, ← Nat.add_assoc]

/-- Where nothing of the source is left, nothing is lexed. -/
theorem lex?_of_atEnd (h : byteSize c.source ≤ c.offset) : c.lex? limits = some (.ok ⟨[], []⟩) := by
  have hend : c.atEnd = true := decide_eq_true h
  rw [lex?, run?, if_pos hend]
  rfl

/-- From a boundary the run is one over the text from there on. -/
theorem run?_of_rest {t : Text} (h : c.rest? = some t) :
    c.run? limits = some (runFrom limits [] [] ⟨t, c.line, c.offset⟩) := by
  by_cases hend : byteSize c.source ≤ c.offset
  · obtain ⟨u, hu, hsize⟩ := eq_append_of_dropBytes? h
    have hnil : t = [] := by
      rw [hu, byteSize_append, hsize] at hend
      refine List.eq_nil_of_length_eq_zero (Nat.le_zero.mp ?_)
      exact (length_le_byteSize t).trans (by omega)
    subst hnil
    have hatEnd : c.atEnd = true := decide_eq_true hend
    rw [run?, if_pos hatEnd, Steps.refl.runFrom_of_nil rfl]
  · rw [run?, if_neg (by rwa [atEnd, decide_eq_true_eq]), h]
    rfl

/-- From a boundary the rest of the source is lexed, further on by the offset. -/
theorem lex?_of_rest {t : Text} (h : c.rest? = some t) :
    c.lex? limits = some (match lex limits t with
      | .ok lexed => .ok (lexed.shift 0 c.offset)
      | .error e => .error (e.shift 0 c.offset)) := by
  have hstart : (⟨t, c.line, c.offset⟩ : State) = (State.start t).shift 0 c.offset := by
    rw [State.shift, State.start, Nat.zero_add]
    rfl
  have hsteps : Steps limits ⟨t, c.line, c.offset⟩ [] [] ((State.start t).shift 0 c.offset) :=
    hstart ▸ .refl
  rw [lex?, run?_of_rest h]
  exact congrArg some (result_of_steps hsteps)

end Cursor

namespace Lexing

/-! ## Pieces -/

/-- The tokens and the trivia among some pieces. -/
def Lexed.ofPieces (ps : List Piece) : Lexed :=
  ⟨ps.filterMap Piece.token?, ps.filterMap Piece.trivia?⟩

variable {limits : Limits} {source : Text} {s s' : State} {ms : List Matched} {ps : List Piece}

/-- While text is left, a state is the start of a source of its own, further on. -/
theorem Steps.eq_start_shift (h : Steps limits (.start source) ms ps s') (hs : s'.rest ≠ []) :
    s' = (State.start s'.rest).shift (s'.line - 1) s'.offset := by
  have hline : s'.line = 1 + lineFeeds (ps.flatMap Piece.text) := h.line_eq hs
  have hlines : 1 + (s'.line - 1) = s'.line := Nat.add_sub_cancel' (by omega)
  show s' = ⟨s'.rest, 1 + (s'.line - 1), 0 + s'.offset⟩
  rw [hlines, Nat.zero_add]

/-- What is lexed from the start of a piece on is that piece and all behind it. -/
theorem lex_from_piece {lexed : Lexed} (h : lex limits source = .ok lexed)
    {before after : List Piece} {p : Piece} (hp : lexed.pieces = before ++ p :: after) :
    ∃ t later, dropBytes? p.offset source = some t ∧ lex limits t = .ok later ∧
      later.shift (p.line - 1) p.offset = .ofPieces (p :: after) := by
  obtain ⟨ms, ps, s', steps, hs, rfl⟩ := lex_eq_ok_iff.mp h
  rw [steps.pieces_eq] at hp
  subst hp
  obtain ⟨ms₁, ms₂, s₁, t₁, t₂⟩ := steps.of_append
  cases t₂ with
  | step hstep t₂ =>
      obtain ⟨-, -, hline, hoffset, -⟩ := rest_of_step hstep
      obtain ⟨hsource, hstart⟩ := t₁.source_eq
      have hdrop : dropBytes? s₁.offset source = some s₁.rest := by
        rw [hsource, hstart, dropBytes?_append]
      have hshift := t₁.eq_start_shift (rest_ne_nil_of_step hstep)
      have hlex := lex_of_steps (hshift ▸ t₁)
      rw [h] at hlex
      cases hlater : lex limits s₁.rest with
      | error e =>
          rw [hlater] at hlex
          cases hlex
      | ok later =>
          rw [hlater] at hlex
          have hall := Except.ok.inj hlex
          rw [List.filterMap_append, List.filterMap_append] at hall
          rw [hline, hoffset]
          refine ⟨s₁.rest, later, hdrop, hlater, ?_⟩
          have htokens := List.append_cancel_left (congrArg Lexed.tokens hall)
          have htrivia := List.append_cancel_left (congrArg Lexed.trivia hall)
          rw [Lexed.ofPieces, htokens, htrivia]

/-- Lexing from a cursor, however it was moved there, is lexing what follows it
as a source of its own, with the offsets counted on and the lines from one; and
behind the end there is nothing.  Lexing from the start of a piece yields that
piece and all later ones, counted anew. -/
theorem lex_from_cursor (limits : Limits) (source : Text) :
    (∀ ns : List Nat, ns.sum < Cursor.offsetLimit →
      (∀ t, dropBytes? ns.sum source = some t →
        (ns.foldl Cursor.advance (.start source)).lex? limits =
          some (match lex limits t with
            | .ok lexed => .ok (lexed.shift 0 ns.sum)
            | .error e => .error (e.shift 0 ns.sum))) ∧
      (byteSize source < ns.sum →
        (ns.foldl Cursor.advance (.start source)).lex? limits = some (.ok ⟨[], []⟩))) ∧
    ∀ lexed, lex limits source = .ok lexed →
      ∀ before p after, lexed.pieces = before ++ p :: after →
        ∃ t later, dropBytes? p.offset source = some t ∧ lex limits t = .ok later ∧
          later.shift (p.line - 1) p.offset = .ofPieces (p :: after) := by
  refine ⟨?_, fun lexed h before p after hp => lex_from_piece h hp⟩
  intro ns hns
  have hmoved : ns.foldl Cursor.advance (.start source) = ⟨source, ns.sum⟩ := by
    rw [Cursor.foldl_advance (by rwa [Cursor.start, Nat.zero_add]), Cursor.start, Nat.zero_add]
  rw [hmoved]
  exact ⟨fun t ht => Cursor.lex?_of_rest ht, fun hlt => Cursor.lex?_of_atEnd (Nat.le_of_lt hlt)⟩

/-- A cursor that is moved twice, into the middle of a word behind a character
of two bytes, and a piece on the second line. -/
theorem lex_from_cursor_of_accent :
    (((Cursor.start "//é\nab ^".toList).advance 5).advance 1).lex? {} =
        some (.error ⟨.unexpected '^', some ⟨1, 8⟩⟩) ∧
      ∃ lexed later, lex {} "//é\nab".toList = .ok lexed ∧
        lex {} "ab".toList = .ok later ∧ later.shift 1 5 = ⟨lexed.tokens, []⟩ := by
  have hsuffix : lex {} "b ^".toList = .error ⟨.unexpected '^', some ⟨1, 2⟩⟩ :=
    lex_of_error? (by decide +kernel)
  have hlex : lex {} "//é\nab".toList = .ok
      ⟨[⟨.identifier, ['a', 'b'], 2, 5⟩], [⟨.comment, ['/', '/', 'é', '\n'], 1, 0⟩]⟩ :=
    eq_ok_of_toOption (by decide +kernel)
  constructor
  · have hcursor := ((lex_from_cursor {} "//é\nab ^".toList).1 [5, 1] (by decide)).1
      "b ^".toList (by decide)
    rw [hsuffix] at hcursor
    exact hcursor
  · obtain ⟨t, later, ht, hlater, hshift⟩ := (lex_from_cursor {} "//é\nab".toList).2 _ hlex
      [.trivia ⟨.comment, ['/', '/', 'é', '\n'], 1, 0⟩]
      (.token ⟨.identifier, ['a', 'b'], 2, 5⟩) [] (by simp [Lexed.pieces, Piece.offset])
    have hrest : dropBytes? 5 "//é\nab".toList = some "ab".toList := by decide
    obtain rfl := Option.some.inj (hrest.symm.trans ht)
    exact ⟨_, later, hlex, hlater, hshift⟩

end Lexing
end Decaf
