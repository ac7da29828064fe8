/-
Where a string literal can close.

A quote can close a literal if all that stands between it and the opening quote
can stand in the body.  Of these places the literal takes the last: it is never
shorter than it could be, although its rule prefers alternatives and not
lengths (`stringLiteral_longest`).

    "a\"b"c      a quote with no backslash before it is the last place
    "a\"b;       the quote behind the backslash closes, since nothing later can
    "a;b"        there is no place, and no literal

What closes a literal is told by looking at each character and the one before
it.  The body is read differently, in pairs where a backslash comes before a
quote, so the two readings agree only if the text that is left does not begin
in the middle of a pair; that is the hypothesis of the two inductions.
-/
import Mathlib.Order.Bounds.Basic
import Decaf.Proofs.Rule.First

namespace Decaf
namespace Rule

open Pattern Text

/-! ## Places -/

/-- A character may stand behind another one in the body of a literal. -/
def MayFollow (b c : Char) : Prop := isPlain c = true ∨ c = '\\' ∨ c = '"' ∧ b = '\\'

/-- A literal that begins with the text may close at an index: a quote stands
there, and what lies between it and the beginning may stand in a body. -/
def MayClose (t : Text) (j : Nat) : Prop :=
  0 < j ∧ t[j]? = some '"' ∧
    ∀ i, 0 < i → i < j → ∃ b c, t[i - 1]? = some b ∧ t[i]? = some c ∧ MayFollow b c

/-- A quote stands at an index, and no backslash before it. -/
def IsBareQuote (t : Text) (i : Nat) : Prop :=
  0 < i ∧ t[i]? = some '"' ∧ t[i - 1]? ≠ some '\\'

/-- No pair of a backslash and a quote is parted where a text begins behind a
character. -/
def PartsNoPair (b : Char) (t : Text) : Prop := b = '\\' → t.head? ≠ some '"'

variable {b c : Char} {t u : Text} {i j : Nat}

theorem partsNoPair_quote : PartsNoPair '"' t := by
  intro h
  cases h

theorem partsNoPair_of_ne_cons (h : ∀ r, c = '\\' → t ≠ '"' :: r) : PartsNoPair c t := by
  intro hc hhead
  obtain ⟨r, hr⟩ := List.head?_eq_some_iff.mp hhead
  exact h r hc hr

theorem mayFollow_quote_iff : MayFollow b '"' ↔ b = '\\' := by
  constructor
  · rintro (h | h | ⟨-, h⟩)
    · cases h
    · cases h
    · exact h
  · intro h
    exact .inr (.inr ⟨rfl, h⟩)

theorem mayFollow_iff_of_ne (hc : c ≠ '"') :
    MayFollow b c ↔ (isPlain c || c = '\\') = true := by
  rw [MayFollow, Bool.or_eq_true, decide_eq_true_eq]
  constructor
  · rintro (h | h | ⟨h, -⟩)
    · exact .inl h
    · exact .inr h
    · exact absurd h hc
  · rintro (h | h)
    · exact .inl h
    · exact .inr (.inl h)

theorem mayClose_one_iff : MayClose (b :: t) 1 ↔ t.head? = some '"' := by
  rw [MayClose, List.getElem?_cons_succ, ← List.head?_eq_getElem?]
  constructor
  · rintro ⟨-, h, -⟩
    exact h
  · intro h
    exact ⟨Nat.one_pos, h, fun i hi hlt => by omega⟩

theorem mayClose_cons_cons_iff :
    MayClose (b :: c :: t) (j + 2) ↔ MayFollow b c ∧ MayClose (c :: t) (j + 1) := by
  constructor
  · rintro ⟨-, hquote, hbody⟩
    refine ⟨?_, Nat.succ_pos j, hquote, ?_⟩
    · obtain ⟨b', c', hb, hc, hfollow⟩ := hbody 1 Nat.one_pos (by omega)
      cases hb
      cases hc
      exact hfollow
    · intro i hi hlt
      obtain ⟨i, rfl⟩ : ∃ k, i = k + 1 := ⟨i - 1, by omega⟩
      exact hbody (i + 2) (by omega) (by omega)
  · rintro ⟨hfollow, -, hquote, hbody⟩
    refine ⟨Nat.succ_pos _, hquote, ?_⟩
    intro i hi hlt
    match i, hi with
    | 1, _ => exact ⟨b, c, rfl, rfl, hfollow⟩
    | i + 2, _ => exact hbody (i + 1) (by omega) (by omega)

theorem not_mayClose_singleton : ¬ MayClose [b] j := by
  rintro ⟨hpos, hquote, -⟩
  rw [List.getElem?_eq_none hpos] at hquote
  cases hquote

/-- Behind a character that is no quote and may stand in a body, the places are
those of the text behind it. -/
theorem mayClose_cons_iff (hc : c ≠ '"') (hbody : (isPlain c || c = '\\') = true) :
    MayClose (b :: c :: t) (j + 1) ↔ MayClose (c :: t) j := by
  cases j with
  | zero =>
      rw [mayClose_one_iff]
      constructor
      · intro h
        exact absurd (Option.some.inj h) hc
      · rintro ⟨h, -⟩
        cases h
  | succ j => rw [mayClose_cons_cons_iff, mayFollow_iff_of_ne hc, and_iff_right hbody]

/-! ## The last place -/

/-- The end of a literal is a place where it may close. -/
theorem mayClose_of_literalRest (hb : PartsNoPair b t)
    (h : literalRest t = some u) : MayClose (b :: t) u.length := by
  fun_induction literalRest t generalizing b u with
  | case1 => cases h
  | case2 t =>
      cases h
      exact mayClose_one_iff.mpr rfl
  | case3 t ih =>
      cases h
      refine (mayClose_cons_iff (by decide) rfl).mpr ?_
      cases hu : literalRest t with
      | none => exact mayClose_one_iff.mpr rfl
      | some v =>
          have hv : MayClose ('"' :: t) v.length := ih partsNoPair_quote hu
          obtain ⟨n, hn⟩ : ∃ n, v.length = n + 1 := ⟨v.length - 1, by have := hv.1; omega⟩
          rw [hn] at hv
          simp only [Option.getD_some, List.length_cons, hn]
          exact mayClose_cons_cons_iff.mpr ⟨mayFollow_quote_iff.mpr rfl, hv⟩
  | case4 c t hquote hpair hbody ih =>
      obtain ⟨v, hv, rfl⟩ := Option.map_eq_some_iff.mp h
      have hnext : PartsNoPair c t := partsNoPair_of_ne_cons hpair
      exact (mayClose_cons_iff hquote hbody).mpr (ih hnext hv)
  | case5 => cases h

/-- A literal goes as far as any place where it may close. -/
theorem le_length_of_mayClose (hb : PartsNoPair b t) (h : MayClose (b :: t) j) :
    ∃ u, literalRest t = some u ∧ j ≤ u.length := by
  obtain ⟨j, rfl⟩ : ∃ k, j = k + 1 := ⟨j - 1, by have := h.1; omega⟩
  fun_induction literalRest t generalizing b j with
  | case1 => exact absurd h not_mayClose_singleton
  | case2 t =>
      cases j with
      | zero => exact ⟨['"'], rfl, Nat.le_refl 1⟩
      | succ j =>
          -- A bare quote cannot stand in front of the place.
          have hfollow := (mayClose_cons_cons_iff.mp h).1
          exact absurd rfl (hb (mayFollow_quote_iff.mp hfollow))
  | case3 t ih =>
      rw [mayClose_cons_iff (by decide) rfl] at h
      refine ⟨_, rfl, ?_⟩
      rcases j with _ | _ | j
      · simp
      · simp
      · obtain ⟨v, hv, hle⟩ := ih partsNoPair_quote j (mayClose_cons_cons_iff.mp h).2
        simp only [hv, Option.getD_some, List.length_cons]
        omega
  | case4 c t hquote hpair hbody ih =>
      rw [mayClose_cons_iff hquote hbody] at h
      obtain ⟨j, rfl⟩ : ∃ k, j = k + 1 := ⟨j - 1, by have := h.1; omega⟩
      have hnext : PartsNoPair c t := partsNoPair_of_ne_cons hpair
      obtain ⟨v, hv, hle⟩ := ih hnext j h
      exact ⟨c :: v, by rw [hv]; rfl, by simpa using hle⟩
  | case5 c t hquote hpair hbody =>
      cases j with
      | zero => exact absurd (Option.some.inj (mayClose_one_iff.mp h)) hquote
      | succ j =>
          have hfollow := (mayClose_cons_cons_iff.mp h).1
          exact absurd ((mayFollow_iff_of_ne hquote).mp hfollow) hbody

theorem literalRest_eq_none_iff : literalRest t = none ↔ ∀ j, ¬ MayClose ('"' :: t) j := by
  constructor
  · intro h j hj
    obtain ⟨u, hu, -⟩ := le_length_of_mayClose partsNoPair_quote hj
    rw [h] at hu
    cases hu
  · intro h
    cases hu : literalRest t with
    | none => rfl
    | some u => exact absurd (mayClose_of_literalRest partsNoPair_quote hu) (h u.length)

/-- What is left of a literal ends at the last place where it may close. -/
theorem literalRest_eq_some_iff :
    literalRest t = some u ↔
      ∃ j, IsGreatest {j | MayClose ('"' :: t) j} j ∧ '"' :: u = ('"' :: t).take (j + 1) := by
  have hend {v : Text} (hv : literalRest t = some v) :
      IsGreatest {j | MayClose ('"' :: t) j} v.length ∧
        '"' :: v = ('"' :: t).take (v.length + 1) := by
    refine ⟨⟨mayClose_of_literalRest partsNoPair_quote hv, ?_⟩, ?_⟩
    · intro j hj
      obtain ⟨w, hw, hle⟩ := le_length_of_mayClose partsNoPair_quote hj
      cases hv.symm.trans hw
      exact hle
    · rw [List.take_succ_cons, ← List.prefix_iff_eq_take.mp (isPrefix_of_literalRest hv)]
  constructor
  · intro hu
    exact ⟨u.length, hend hu⟩
  · rintro ⟨j, hj, hu⟩
    obtain ⟨v, hv, -⟩ := le_length_of_mayClose partsNoPair_quote hj.1
    obtain ⟨hgreatest, hprefix⟩ := hend hv
    rw [hj.unique hgreatest, ← hprefix] at hu
    cases hu
    exact hv

/-! ## Bare quotes -/

/-- No bare quote stands in front of a place where a literal may close. -/
theorem MayClose.le_of_isBareQuote (h : MayClose t j) (hi : IsBareQuote t i) : j ≤ i := by
  obtain ⟨-, -, hbody⟩ := h
  obtain ⟨hpos, hquote, hbare⟩ := hi
  by_contra hlt
  obtain ⟨b, c, hb, hc, hfollow⟩ := hbody i hpos (by omega)
  cases hquote.symm.trans hc
  exact hbare (by rw [hb, mayFollow_quote_iff.mp hfollow])

/-- The first bare quote is the last place, if the literal may close there. -/
theorem IsBareQuote.isGreatest (hi : IsBareQuote t i) (h : MayClose t i) :
    IsGreatest {j | MayClose t j} i :=
  ⟨h, fun _ hj => hj.le_of_isBareQuote hi⟩

/-- If the literal may not close at the first bare quote, the last place is a
quote behind a backslash. -/
theorem isGreatest_escaped (h : ¬ ∃ i, IsLeast {i | IsBareQuote t i} i ∧ MayClose t i)
    (hj : IsGreatest {j | MayClose t j} j) :
    IsGreatest {j | MayClose t j ∧ t[j - 1]? = some '\\'} j := by
  have hescaped : t[j - 1]? = some '\\' := by
    by_contra hbare
    have hquote : IsBareQuote t j := ⟨hj.1.1, hj.1.2.1, hbare⟩
    have hfirst : IsLeast {i | IsBareQuote t i} j := ⟨hquote, fun _ hi => hj.1.le_of_isBareQuote hi⟩
    exact h ⟨j, hfirst, hj.1⟩
  refine ⟨⟨hj.1, hescaped⟩, ?_⟩
  intro k hk
  exact hj.2 hk.1

/-! ## The rule of string literals -/

theorem find?_quote (t : Text) :
    stringLiteral.pattern.find? ('"' :: t) = (literalRest t).map ('"' :: ·) := by
  rw [find?_stringLiteral, if_pos rfl]

theorem select?_table_quote (t : Text) :
    select? table ('"' :: t) =
      (literalRest t).map fun u => ⟨10, .token .stringLiteral, '"' :: u⟩ := by
  rw [select?_table_cons]
  rfl

theorem find?_quote_eq_some_iff {m : Text} :
    stringLiteral.pattern.find? ('"' :: t) = some m ↔
      ∃ j, IsGreatest {j | MayClose ('"' :: t) j} j ∧ m = ('"' :: t).take (j + 1) := by
  rw [find?_quote, Option.map_eq_some_iff]
  constructor
  · rintro ⟨u, hu, rfl⟩
    exact literalRest_eq_some_iff.mp hu
  · rintro ⟨j, hj, rfl⟩
    exact ⟨t.take j, literalRest_eq_some_iff.mpr ⟨j, hj, rfl⟩, rfl⟩

/-- A literal has as many bytes as characters. -/
theorem byteSize_eq_of_find?_quote {m : Text}
    (h : stringLiteral.pattern.find? ('"' :: t) = some m) : byteSize m = m.length := by
  rw [find?_quote, Option.map_eq_some_iff] at h
  obtain ⟨u, hu, rfl⟩ := h
  exact byteSize_eq_length (List.forall_mem_cons.mpr ⟨by decide, toNat_lt_of_literalRest hu⟩)

theorem length_take_of_mayClose (h : MayClose t j) : (t.take (j + 1)).length = j + 1 := by
  obtain ⟨hlt, -⟩ := List.getElem?_eq_some_iff.mp h.2.1
  exact List.length_take_of_le hlt

/-- A string literal ends at the last place where it may close, and there is
none where there is no such place; then no rule matches.  That place is the
first bare quote if the literal may close there, and otherwise the last quote
behind a backslash where it may.  Indices count characters; a literal is of
ASCII, so they are byte offsets as well. -/
theorem stringLiteral_longest (t : Text) (ht : t.head? = some '"') :
    (∀ m, stringLiteral.pattern.find? t = some m ↔
      ∃ j, IsGreatest {j | MayClose t j} j ∧ m = t.take (j + 1) ∧ byteSize m = j + 1) ∧
    (stringLiteral.pattern.find? t = none ↔ ∀ j, ¬ MayClose t j) ∧
    (select? table t = none ↔ ∀ j, ¬ MayClose t j) ∧
    (∀ i, IsLeast {i | IsBareQuote t i} i → MayClose t i →
      stringLiteral.pattern.find? t = some (t.take (i + 1))) ∧
    ((¬ ∃ i, IsLeast {i | IsBareQuote t i} i ∧ MayClose t i) →
      ∀ m, stringLiteral.pattern.find? t = some m ↔
        ∃ j, IsGreatest {j | MayClose t j ∧ t[j - 1]? = some '\\'} j ∧ m = t.take (j + 1)) := by
  obtain ⟨r, rfl⟩ := List.head?_eq_some_iff.mp ht
  refine ⟨?_, ?_, ?_, ?_, ?_⟩
  · intro m
    constructor
    · intro hm
      obtain ⟨j, hj, rfl⟩ := find?_quote_eq_some_iff.mp hm
      have hsize := byteSize_eq_of_find?_quote hm
      rw [length_take_of_mayClose hj.1] at hsize
      exact ⟨j, hj, rfl, hsize⟩
    · rintro ⟨j, hj, hm, -⟩
      exact find?_quote_eq_some_iff.mpr ⟨j, hj, hm⟩
  · rw [find?_quote, Option.map_eq_none_iff, literalRest_eq_none_iff]
  · rw [select?_table_quote, Option.map_eq_none_iff, literalRest_eq_none_iff]
  · intro i hi hclose
    exact find?_quote_eq_some_iff.mpr ⟨i, hi.1.isGreatest hclose, rfl⟩
  · intro hescaped m
    rw [find?_quote_eq_some_iff]
    constructor
    · rintro ⟨j, hj, rfl⟩
      exact ⟨j, isGreatest_escaped hescaped hj, rfl⟩
    · rintro ⟨j, hj, rfl⟩
      -- There is a last place at all, and it is that one.
      obtain ⟨u, hu, -⟩ := le_length_of_mayClose partsNoPair_quote hj.1.1
      obtain ⟨k, hk, -⟩ := literalRest_eq_some_iff.mp hu
      rw [hj.unique (isGreatest_escaped hescaped hk)]
      exact ⟨k, hk, rfl⟩

/-- The literal passes a quote that could close it, and ends at a later one, as
no other can be reached behind it. -/
theorem stringLiteral_longest_of_escaped :
    ['"', '\\', '"', 'a', '\\', '"', ';', '"'].head? = some '"' ∧
      stringLiteral.pattern.find? ['"', '\\', '"', 'a', '\\', '"', ';', '"'] =
        some ['"', '\\', '"', 'a', '\\', '"'] ∧
      IsGreatest {j | MayClose ['"', '\\', '"', 'a', '\\', '"', ';', '"'] j} 5 := by
  have hfind : stringLiteral.pattern.find? ['"', '\\', '"', 'a', '\\', '"', ';', '"'] =
      some ['"', '\\', '"', 'a', '\\', '"'] := find?_quote _
  refine ⟨rfl, hfind, ?_⟩
  obtain ⟨hspan, -⟩ := stringLiteral_longest ['"', '\\', '"', 'a', '\\', '"', ';', '"'] rfl
  obtain ⟨j, hj, -, hsize⟩ := (hspan _).mp hfind
  obtain rfl : 5 = j := Nat.succ.inj hsize
  exact hj

end Rule
end Decaf
