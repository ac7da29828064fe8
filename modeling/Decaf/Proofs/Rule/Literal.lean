/-
What a string literal is.

The body of a literal is ambiguous: a backslash may stand for itself, and in
front of a quote it may keep the quote from closing the literal.  So where a
literal ends depends on what follows, as far as its body could go on.
`literalRest` finds the end by going through the body once, and
`find?_stringLiteral` says that this is what the rule of string literals
matches.
-/
import Decaf.Proofs.Rule.Spans

namespace Decaf
namespace Rule

open Pattern Pattern.Expr Text

/-! ## The end of a literal -/

/-- What is left to take of a string literal behind its opening quote, if the
literal can be closed.  A quote behind a backslash is the end only if no other
end can be reached behind it. -/
def literalRest : Text → Option Text
  | [] => none
  | '"' :: _ => some ['"']
  | '\\' :: '"' :: t => some ('\\' :: '"' :: (literalRest t).getD [])
  | c :: t => if isPlain c || c = '\\' then (literalRest t).map (c :: ·) else none

-- Made once, for all proofs that go along with `literalRest`.
attribute [elab_as_elim] literalRest.induct_unfolding

theorem isPrefix_of_literalRest {t u : Text} (h : literalRest t = some u) : u <+: t := by
  fun_induction literalRest t generalizing u with
  | case1 => cases h
  | case2 t =>
      cases h
      exact ⟨t, rfl⟩
  | case3 t ih =>
      cases h
      cases hu : literalRest t with
      | none => exact ⟨t, rfl⟩
      | some u =>
          obtain ⟨r, rfl⟩ := ih hu
          exact ⟨r, rfl⟩
  | case4 c t hquote hb hc ih =>
      obtain ⟨v, hv, rfl⟩ := Option.map_eq_some_iff.mp h
      obtain ⟨r, rfl⟩ := ih hv
      exact ⟨r, rfl⟩
  | case5 => cases h

/-- A literal is of ASCII. -/
theorem toNat_lt_of_literalRest {t u : Text} (h : literalRest t = some u) :
    ∀ c ∈ u, c.toNat < 0x80 := by
  fun_induction literalRest t generalizing u with
  | case1 => cases h
  | case2 t =>
      cases h
      exact fun c hc => toNat_lt_of_mem (by decide) hc
  | case3 t ih =>
      cases h
      refine List.forall_mem_cons.mpr ⟨by decide, List.forall_mem_cons.mpr ⟨by decide, ?_⟩⟩
      cases hu : literalRest t with
      | none => nofun
      | some v => exact ih hu
  | case4 c t hquote hb hc ih =>
      obtain ⟨v, hv, rfl⟩ := Option.map_eq_some_iff.mp h
      refine List.forall_mem_cons.mpr ⟨?_, ih hv⟩
      rcases Bool.or_eq_true_iff.mp hc with hc | hc
      · exact toNat_lt_of_isPlain hc
      · rw [of_decide_eq_true hc]
        decide
  | case5 => cases h

/-- What stands in the body of a string literal. -/
def literalBody : Expr := choice [oneOf plainInString, .text ['\\', '"'], char '\\']

theorem before_literalBody (k : Goal) (prev : Option Char) (c : Char) (t : Text) :
    literalBody.before k prev (c :: t) =
      (if isPlain c then (k (some c) t).map (c :: ·) else none).or
        ((if c = '\\' ∧ t.head? = some '"' then (k (some '"') t.tail).map (['\\', '"'] ++ ·)
          else none).or
        (if c = '\\' then (k (some c) t).map (c :: ·) else none)) := by
  rw [literalBody, before_choice_cons, before_choice_cons, before_choice_cons, before_choice_nil,
    Option.or_none]
  show (Goal.take (CharSet.ofRanges plainInString).contains k prev (c :: t)).or
    ((Goal.text _ k prev (c :: t)).or (Goal.text _ k prev (c :: t))) = _
  rw [contains_plainInString, Goal.text_pair, Goal.text_single, Goal.take]

/-- The goal to go through the body of a literal and to close it. -/
def toClose : Goal := Goal.star .greedy literalBody.before ((char '"').before .accept)

theorem toClose_cons (prev : Option Char) (c : Char) (t : Text) :
    toClose prev (c :: t) =
      (literalBody.before toClose prev (c :: t)).or (if c = '"' then some ['"'] else none) := by
  rw [toClose, Goal.star_eq literalBody.local_before, Goal.choose, before_char_accept]

theorem toClose_quote (prev : Option Char) (t : Text) : toClose prev ('"' :: t) = some ['"'] := by
  rw [toClose_cons, before_literalBody]
  rfl

theorem toClose_eq_literalRest (prev : Option Char) (t : Text) :
    toClose prev t = literalRest t := by
  fun_induction literalRest t generalizing prev with
  | case1 => rfl
  | case2 t => exact toClose_quote prev t
  | case3 t ih =>
      -- The quote is tried as a part of the body before it closes the literal.
      rw [toClose_cons, before_literalBody, toClose_quote, List.tail_cons, ih]
      cases literalRest t <;> rfl
  | case4 c t hquote hb hc ih =>
      have hpair : ¬ (c = '\\' ∧ t.head? = some '"') := by
        rintro ⟨rfl, ht⟩
        obtain ⟨u, rfl⟩ := List.head?_eq_some_iff.mp ht
        exact hb u rfl rfl
      rw [toClose_cons, before_literalBody, ih, if_neg hquote, if_neg hpair, Option.or_none]
      rcases Bool.or_eq_true_iff.mp hc with hc | hc
      · have hne : c ≠ '\\' := by rintro rfl; exact absurd hc (by decide)
        rw [if_pos hc, if_neg hne]
        simp
      · rw [if_pos (of_decide_eq_true hc), if_neg (by rw [of_decide_eq_true hc]; decide)]
        rfl
  | case5 c t hquote hb hc =>
      simp only [Bool.or_eq_true, decide_eq_true_eq, not_or] at hc
      rw [toClose_cons, before_literalBody, if_neg hc.1, if_neg hc.2, if_neg hquote,
        if_neg fun h => hc.2 h.1]
      rfl

theorem find?_stringLiteral (c : Char) (t : Text) :
    stringLiteral.pattern.find? (c :: t) =
      if c = '"' then (literalRest t).map ('"' :: ·) else none := by
  rw [find?_tied _ (inOrder [char '"', star literalBody, char '"']) rfl rfl, before_inOrder]
  show Goal.text ['"'] toClose none (c :: t) = _
  rw [Goal.text_single, toClose_eq_literalRest]
  split
  · rename_i hc
    rw [hc]
  · rfl

example : literalRest ['\\', '"', ' ', '"'] = some ['\\', '"', ' ', '"'] := rfl

example : literalRest ['\\', '"', ';', '"'] = some ['\\', '"'] := rfl

/-! ## The end of a literal in another text -/

theorem literalRest_cons {c : Char} {t : Text} (hquote : c ≠ '"')
    (hpair : c = '\\' → t.head? ≠ some '"') :
    literalRest (c :: t) =
      if isPlain c || c = '\\' then (literalRest t).map (c :: ·) else none := by
  rw [literalRest]
  · exact hquote
  · rintro u rfl rfl
    exact hpair rfl rfl

theorem ne_nil_of_literalRest {t u : Text} (h : literalRest t = some u) : u ≠ [] := by
  rintro rfl
  fun_induction literalRest t with
  | case4 => simp at h
  | _ => cases h

/-- A literal closes at the same place in front of another text.  Only where it
closes at a quote behind a backslash has the other text to be such that no
literal can be closed there. -/
theorem literalRest_append {u r r' : Text} (h : literalRest (u ++ r') = some u)
    (hr : ['\\', '"'] <:+ u → literalRest r = none) : literalRest (u ++ r) = some u := by
  generalize ht : u ++ r' = t at h
  fun_induction literalRest t generalizing u with
  | case1 => cases h
  | case2 t =>
      cases h
      rfl
  | case3 t ih =>
      cases h
      cases hv : literalRest t with
      | none =>
          rw [hv] at hr
          show some ('\\' :: '"' :: (literalRest r).getD []) = _
          rw [hr (List.suffix_refl _)]
      | some v =>
          rw [hv] at ht hr
          have hrest : v ++ r' = t := by
            cases ht
            rfl
          show some ('\\' :: '"' :: (literalRest (v ++ r)).getD []) = _
          rw [ih (fun h => hr (h.trans ⟨['\\', '"'], rfl⟩)) hrest hv]
  | case4 c t hquote hb hc ih =>
      obtain ⟨v, hv, rfl⟩ := Option.map_eq_some_iff.mp h
      obtain rfl : v ++ r' = t := by
        cases ht
        rfl
      have hpair : c = '\\' → (v ++ r).head? ≠ some '"' := by
        rintro rfl hhead
        cases v with
        | nil => exact ne_nil_of_literalRest hv rfl
        | cons d v =>
            obtain rfl := Option.some.inj hhead
            exact hb (v ++ r') rfl rfl
      rw [List.cons_append, literalRest_cons hquote hpair, if_pos hc,
        ih (fun h => hr (h.trans (List.suffix_cons c v))) rfl hv]
      rfl
  | case5 => cases h

/-! ## Where no literal is closed -/

/-- Behind a literal that closes at a quote behind a backslash, there is none
that could close it. -/
theorem literalRest_eq_none_of_append {u r : Text} (h : literalRest (u ++ r) = some u)
    (hu : ['\\', '"'] <:+ u) : literalRest r = none := by
  generalize ht : u ++ r = t at h
  fun_induction literalRest t generalizing u with
  | case1 => cases h
  | case2 t =>
      cases h
      exact absurd hu (by decide)
  | case3 t ih =>
      cases h
      cases hv : literalRest t with
      | none =>
          rw [hv] at ht
          obtain rfl : r = t := by
            cases ht
            rfl
          exact hv
      | some v =>
          rw [hv] at ht hu
          have hrest : v ++ r = t := by
            cases ht
            rfl
          refine ih ?_ hrest hv
          rcases List.suffix_cons_iff.mp hu with hu | hu
          · cases hu
            exact absurd rfl (ne_nil_of_literalRest hv)
          · exact (List.suffix_cons_iff.mp hu).resolve_left (by simp)
  | case4 c t hquote hb hc ih =>
      obtain ⟨v, hv, rfl⟩ := Option.map_eq_some_iff.mp h
      obtain rfl : v ++ r = t := by
        cases ht
        rfl
      refine ih ?_ rfl hv
      rcases List.suffix_cons_iff.mp hu with hu | hu
      · cases hu
        exact absurd rfl (hb r rfl)
      · exact hu
  | case5 => cases h

/-- What could not be closed in front of another text cannot be closed without
it. -/
theorem literalRest_eq_none_of_append_eq_none {t r : Text} (h : literalRest (t ++ r) = none) :
    literalRest t = none := by
  fun_induction literalRest t with
  | case1 => rfl
  | case2 => cases h
  | case3 => cases h
  | case4 c t hquote hb hc ih =>
      rw [ih, Option.map_none]
      by_cases hpair : c = '\\' ∧ (t ++ r).head? = some '"'
      · obtain ⟨rfl, hhead⟩ := hpair
        obtain ⟨w, hw⟩ := List.head?_eq_some_iff.mp hhead
        rw [List.cons_append, hw] at h
        cases h
      · rw [List.cons_append, literalRest_cons hquote fun hc h => hpair ⟨hc, h⟩, if_pos hc] at h
        exact Option.map_eq_none_iff.mp h
  | case5 => rfl

/-- A literal ends with its closing quote. -/
theorem getLast?_of_literalRest {t u : Text} (h : literalRest t = some u) :
    u.getLast? = some '"' := by
  fun_induction literalRest t generalizing u with
  | case1 => cases h
  | case2 =>
      cases h
      rfl
  | case3 t ih =>
      cases h
      cases hv : literalRest t with
      | none => rfl
      | some v =>
          show (['\\', '"'] ++ v).getLast? = _
          rw [List.getLast?_append, ih hv]
          rfl
  | case4 c t hquote hb hc ih =>
      obtain ⟨v, hv, rfl⟩ := Option.map_eq_some_iff.mp h
      rw [List.getLast?_cons, ih hv]
      rfl
  | case5 => cases h

theorem literalRest_eq_none_of_not_mem {t : Text} (h : '"' ∉ t) : literalRest t = none := by
  cases hu : literalRest t with
  | none => rfl
  | some u =>
      have hmem := List.mem_of_getLast? (getLast?_of_literalRest hu)
      exact absurd ((isPrefix_of_literalRest hu).subset hmem) h

/-- What could not be closed cannot be closed by a text without a quote. -/
theorem literalRest_append_eq_none {t r : Text} (h : literalRest t = none) (hr : '"' ∉ r) :
    literalRest (t ++ r) = none := by
  fun_induction literalRest t with
  | case1 => exact literalRest_eq_none_of_not_mem hr
  | case2 => cases h
  | case3 => cases h
  | case4 c t hquote hb hc ih =>
      have hpair : c = '\\' → (t ++ r).head? ≠ some '"' := by
        rintro rfl hhead
        cases t with
        | nil => exact hr (List.mem_of_head? hhead)
        | cons d t =>
            obtain rfl := Option.some.inj hhead
            exact hb t rfl rfl
      rw [List.cons_append, literalRest_cons hquote hpair, ih (Option.map_eq_none_iff.mp h)]
      exact ite_self none
  | case5 c t hquote hb hc =>
      have hplain : c ≠ '\\' := by
        rintro rfl
        exact hc (by decide)
      rw [List.cons_append, literalRest_cons hquote fun h => absurd h hplain, if_neg hc]

end Rule
end Decaf
