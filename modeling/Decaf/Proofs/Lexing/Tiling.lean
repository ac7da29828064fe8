/-
The pieces of a source tile it.

A lexed source is given as two lists, its tokens and its trivia.  Merged by
offset they are the pieces in the order in which the run added them
(`pieces_eq`): on the way the offset only grows, so the merge never has to
choose between two of the same offset.  And in that order every piece begins
where the one before it ended, since a step moves behind its piece.
-/
import Mathlib.Data.List.Chain
import Decaf.Proofs.Lexing.Steps

namespace Decaf
namespace Lexing

open Text

/-! ## Pieces in order -/

/-- The tokens and the trivia in the order of their offsets. -/
def Lexed.pieces (l : Lexed) : List Piece :=
  List.merge (l.tokens.map .token) (l.trivia.map .trivia) fun p q => p.offset ≤ q.offset

/-- Pieces cover a source from its start to its end, without a gap and without
an overlap. -/
structure IsTiling (source : Text) (ps : List Piece) : Prop where
  starts : ∀ p ∈ ps.head?, p.offset = 0
  adjoins : ps.IsChain fun p q => q.offset = p.offset + byteSize p.text
  ends : ∀ p ∈ ps.getLast?, p.offset + byteSize p.text = byteSize source
  nonempty : ∀ p ∈ ps, p.text ≠ []
  slices : ∀ p ∈ ps, ∃ r, dropBytes? p.offset source = some (p.text ++ r)
  rebuilds : ps.flatMap Piece.text = source

variable {limits : Limits} {s s' : State} {ms : List Matched} {ps : List Piece}

namespace Steps

theorem offset_head (h : Steps limits s ms ps s') : ∀ p ∈ ps.head?, p.offset = s.offset := by
  intro p hp
  cases h with
  | refl => cases hp
  | step h =>
      obtain rfl := Option.some.inj hp
      exact (rest_of_step h).2.2.2.1

theorem isChain (h : Steps limits s ms ps s') :
    ps.IsChain fun p q => q.offset = p.offset + byteSize p.text := by
  induction h with
  | refl => exact .nil
  | step h t ih =>
      obtain ⟨-, -, -, hoffset, hnext⟩ := rest_of_step h
      refine List.isChain_cons.mpr ⟨?_, ih⟩
      intro q hq
      rw [t.offset_head q hq, hnext, hoffset]

theorem offset_getLast (h : Steps limits s ms ps s') :
    ∀ p ∈ ps.getLast?, p.offset + byteSize p.text = s'.offset := by
  intro p hp
  obtain ⟨ms₁, ps₁, s₁, seen, -, h₁, -⟩ := h.last_step hp
  obtain ⟨-, -, -, hoffset, hnext⟩ := rest_of_step h₁
  rw [hnext, hoffset]

/-- What stands at a piece, and what stands before it. -/
theorem exists_append_of_mem (h : Steps limits s ms ps s') {p : Piece} (hp : p ∈ ps) :
    ∃ u r, s.rest = u ++ (p.text ++ r) ∧ p.offset = s.offset + byteSize u ∧ p.text ≠ [] := by
  obtain ⟨ms₁, ps₁, s₁, seen, s₂, ms₂, ps₂, t₁, h₁, -, -⟩ := h.exists_step_of_mem hp
  obtain ⟨hrest, hne, -, hoffset, -⟩ := rest_of_step h₁
  refine ⟨ps₁.flatMap Piece.text, s₂.rest, ?_, ?_, hne⟩
  · rw [t₁.rest_eq, hrest]
  · rw [hoffset, t₁.offset_eq]

/-- Offsets grow from piece to piece. -/
theorem pairwise_offset (h : Steps limits s ms ps s') :
    ps.Pairwise fun p q => p.offset < q.offset := by
  induction h with
  | refl => exact .nil
  | step h t ih =>
      refine List.pairwise_cons.mpr ⟨?_, ih⟩
      intro q hq
      obtain ⟨-, hne, -, hoffset, hnext⟩ := rest_of_step h
      obtain ⟨u, r, -, hq, -⟩ := t.exists_append_of_mem hq
      have hpos : 0 < byteSize _ :=
        Nat.lt_of_lt_of_le (List.length_pos_iff.mpr hne) (length_le_byteSize _)
      rw [hq, hnext, hoffset]
      omega

end Steps

theorem cons_merge_of_le {α : Type} {le : α → α → Bool} {x : α} {xs ys : List α}
    (h : ∀ y ∈ ys, le x y = true) : List.merge (x :: xs) ys le = x :: List.merge xs ys le := by
  cases ys with
  | nil => rw [List.merge_right, List.merge_right]
  | cons y ys => exact List.cons_merge_cons_pos le xs ys (h y List.mem_cons_self)

theorem merge_cons_of_not_le {α : Type} {le : α → α → Bool} {y : α} {xs ys : List α}
    (h : ∀ x ∈ xs, ¬ le x y = true) : List.merge xs (y :: ys) le = y :: List.merge xs ys le := by
  cases xs with
  | nil => rw [List.nil_merge, List.nil_merge]
  | cons x xs => exact List.cons_merge_cons_neg le xs ys (h x List.mem_cons_self)

/-- Pieces in order are the merge of the tokens and the trivia among them. -/
theorem merge_of_pairwise (hps : ps.Pairwise fun p q => p.offset < q.offset) :
    List.merge ((ps.filterMap Piece.token?).map .token) ((ps.filterMap Piece.trivia?).map .trivia)
      (fun p q => p.offset ≤ q.offset) = ps := by
  induction ps with
  | nil => rw [List.filterMap_nil, List.map_nil, List.nil_merge]; rfl
  | cons p ps ih =>
      obtain ⟨hp, hincr⟩ := List.pairwise_cons.mp hps
      cases p with
      | token t =>
          refine (cons_merge_of_le ?_).trans (congrArg _ (ih hincr))
          intro q hq
          obtain ⟨v, hv, rfl⟩ := List.mem_map.mp hq
          exact decide_eq_true (Nat.le_of_lt (hp _ (mem_trivia?.mp hv)))
      | trivia v =>
          refine (merge_cons_of_not_le ?_).trans (congrArg _ (ih hincr))
          intro q hq
          obtain ⟨t, ht, rfl⟩ := List.mem_map.mp hq
          rw [decide_eq_true_eq]
          exact Nat.not_le_of_lt (hp _ (mem_token?.mp ht))

/-- The pieces of a lexed source are those that the run added. -/
theorem Steps.pieces_eq (h : Steps limits s ms ps s') :
    Lexed.pieces ⟨ps.filterMap Piece.token?, ps.filterMap Piece.trivia?⟩ = ps :=
  merge_of_pairwise h.pairwise_offset

/-! ## The tiling -/

/-- The pieces of a lexed source tile it, and no two of them share an offset. -/
theorem isTiling_pieces {source : Text} {lexed : Lexed} (h : lex limits source = .ok lexed) :
    IsTiling source lexed.pieces ∧
      lexed.tokens.Pairwise (fun t u => t.offset < u.offset) ∧
      lexed.trivia.Pairwise (fun v w => v.offset < w.offset) ∧
      ∀ t ∈ lexed.tokens, ∀ v ∈ lexed.trivia, t.offset ≠ v.offset := by
  obtain ⟨ms, ps, s', t, hs, rfl⟩ := lex_eq_ok_iff.mp h
  have hrest : ps.flatMap Piece.text = source := by
    have hall := t.rest_eq
    rw [hs, List.append_nil] at hall
    exact hall.symm
  have hend : s'.offset = byteSize source := by
    rw [t.offset_eq, hrest]
    exact Nat.zero_add _
  have hslice : ∀ p ∈ ps, p.text ≠ [] ∧ ∃ r, dropBytes? p.offset source = some (p.text ++ r) := by
    intro p hp
    obtain ⟨u, r, hu, hoffset, hne⟩ := t.exists_append_of_mem hp
    refine ⟨hne, r, ?_⟩
    change source = u ++ (p.text ++ r) at hu
    change p.offset = 0 + byteSize u at hoffset
    rw [hoffset, hu, Nat.zero_add, dropBytes?_append]
  have htiling : IsTiling source ps :=
    { starts := t.offset_head
      adjoins := t.isChain
      ends := by
        intro p hp
        rw [← hend]
        exact t.offset_getLast p hp
      nonempty := fun p hp => (hslice p hp).1
      slices := fun p hp => (hslice p hp).2
      rebuilds := hrest }
  have hincr := t.pairwise_offset
  rw [t.pieces_eq]
  refine ⟨htiling, List.pairwise_filterMap.mpr (hincr.imp ?_),
    List.pairwise_filterMap.mpr (hincr.imp ?_), ?_⟩
  · intro p q hpq t ht u hu
    rwa [token?_eq_some.mp ht, token?_eq_some.mp hu] at hpq
  · intro p q hpq v hv w hw
    rwa [trivia?_eq_some.mp hv, trivia?_eq_some.mp hw] at hpq
  · intro t ht v hv
    have : Std.Symm fun p q : Piece => p.offset ≠ q.offset := ⟨fun _ _ => Ne.symm⟩
    have hne : ps.Pairwise fun p q => p.offset ≠ q.offset := hincr.imp Nat.ne_of_lt
    exact hne.forall (mem_token?.mp ht) (mem_trivia?.mp hv) (fun h => by cases h)

/-- A comment with a character of two bytes, and a literal that closes at a
quote behind a backslash. -/
theorem isTiling_pieces_of_comment :
    ∃ lexed, lex {} "x=1;//é\n \"a\\\"".toList = .ok lexed ∧ lexed.tokens.length = 5 ∧
      lexed.trivia.length = 2 ∧ IsTiling "x=1;//é\n \"a\\\"".toList lexed.pieces := by
  have h : lex {} "x=1;//é\n \"a\\\"".toList = .ok
      ⟨[⟨.identifier, ['x'], 1, 0⟩, ⟨.symbol, ['='], 1, 1⟩, ⟨.decimalLiteral, ['1'], 1, 2⟩,
        ⟨.symbol, [';'], 1, 3⟩, ⟨.stringLiteral, ['"', 'a', '\\', '"'], 2, 10⟩],
       [⟨.comment, ['/', '/', 'é', '\n'], 1, 4⟩, ⟨.whitespace, [' '], 2, 9⟩]⟩ :=
    eq_ok_of_toOption (by decide +kernel)
  exact ⟨_, h, rfl, rfl, (isTiling_pieces h).1⟩

end Lexing
end Decaf
