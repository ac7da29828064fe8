/-
Rules that match the same text.

The table takes the first rule that matches, and does not ask which rule matches
most.  Here it is shown that this comes to the same.  The first character of a
text leaves one rule, or one of four pairs (`candidates`):

    /              comment, operator
    a letter       reserved, word
    0              hexLiteral, decimalLiteral
    = ! < >        comparison, operator
    all others     one rule or none

In each pair the rule that stands first in the table matches more, but for a
reserved word, which is a word as well (`longer_of_overlaps`).  So the order of
the table counts within these pairs only.  What a table selects depends on the
rules that match and on their order alone (`map_select?`), so a table that has
the same rules and keeps the pairs in order selects the same.
-/
import Mathlib.Data.List.Nodup
import Mathlib.Data.List.Perm.Subperm
import Decaf.Proofs.Rule.First

namespace Decaf
namespace Rule

open Pattern Text

/-! ## The rules that match -/

/-- The rules that match at the beginning of a text, in their order. -/
def matching (rules : List Rule) (t : Text) : List Rule :=
  rules.filter fun r => (r.pattern.find? t).isSome

/-- The pairs of rules that can match the same text, as they stand in the
table. -/
def overlaps : List (Rule × Rule) :=
  [(comment, operator), (reserved, word), (hexLiteral, decimalLiteral), (comparison, operator)]

/-- What a rule does with its match. -/
def outcome? (t : Text) (r : Rule) : Option (Action × Text) :=
  (r.pattern.find? t).map (r.action, ·)

variable {c : Char} {t v w : Text} {r : Rule} {rules : List Rule}

theorem mem_matching : r ∈ matching rules t ↔ r ∈ rules ∧ (r.pattern.find? t).isSome := by
  rw [matching, List.mem_filter]

theorem matching_cons :
    matching (r :: rules) t =
      (if (r.pattern.find? t).isSome then [r] else []) ++ matching rules t := by
  rw [matching, List.filter_cons]
  split <;> rfl

/-- The first rule that matches is selected. -/
theorem map_selectFrom (i : Nat) :
    (selectFrom i t rules).map (fun m => (m.action, m.text)) =
      (matching rules t).head?.bind (outcome? t) := by
  induction rules generalizing i with
  | nil => rfl
  | cons r rs ih =>
      rw [selectFrom_cons, matching_cons]
      cases hr : r.pattern.find? t with
      | none => exact ih (i + 1)
      | some m => simp [outcome?, hr]

theorem map_select? :
    (select? rules t).map (fun m => (m.action, m.text)) =
      (matching rules t).head?.bind (outcome? t) :=
  map_selectFrom 0

/-- Nothing is selected only where no rule matches. -/
theorem select?_eq_none_iff_matching : select? rules t = none ↔ matching rules t = [] := by
  rw [select?_eq_none_iff, matching, List.filter_eq_nil_iff]
  simp only [Option.not_isSome_iff_eq_none]

/-- What is selected is the match of the first rule that has one. -/
theorem exists_of_select? {m : Match} (h : select? rules t = some m) :
    ∃ r others, matching rules t = r :: others ∧ r.action = m.action ∧
      r.pattern.find? t = some m.text := by
  have hfirst : some (m.action, m.text) = (matching rules t).head?.bind (outcome? t) := by
    rw [← map_select?, h, Option.map_some]
  cases hrs : matching rules t with
  | nil =>
      rw [hrs] at hfirst
      cases hfirst
  | cons r others =>
      rw [hrs] at hfirst
      obtain ⟨w, hw, hm⟩ := Option.map_eq_some_iff.mp hfirst.symm
      obtain ⟨haction, rfl⟩ := Prod.mk.inj hm
      exact ⟨r, others, rfl, haction, hw⟩

/-! ## What the first character leaves -/

/-- The rules that can match a text, by its first character. -/
def candidates (c : Char) : List Rule :=
  if isSpace c then [blanks]
  else if c = '\n' then [lineFeed]
  else if c = '/' then [comment, operator]
  else if c.isAlpha then [reserved, word]
  else if c = '0' then [hexLiteral, decimalLiteral]
  else if c.isDigit then [decimalLiteral]
  else if c ∈ ['=', '!', '<', '>'] then [comparison, operator]
  else if c ∈ ['(', ')', '\x7b', '\x7d', '[', ']', ',', ';'] then [punctuation]
  else if c ∈ ['&', '|', '+', '-', '*', '%'] then [operator]
  else if c = '"' then [stringLiteral]
  else []

theorem candidates_of_isAlpha (hc : c.isAlpha = true) : candidates c = [reserved, word] := by
  obtain ⟨hspace, hfeed, hslash⟩ := ne_of_isAlphanum (Bool.or_eq_true_iff.mpr (.inl hc))
  rw [candidates, if_neg hspace, if_neg hfeed, if_neg hslash, if_pos hc]

theorem decimalLiteral_mem_candidates (hc : c.isDigit = true) : decimalLiteral ∈ candidates c := by
  obtain ⟨hspace, hfeed, hslash⟩ := ne_of_isAlphanum (Bool.or_eq_true_iff.mpr (.inr hc))
  have halpha := not_isAlpha_of_isDigit hc
  by_cases hzero : c = '0'
  · rw [hzero]
    exact List.mem_cons_of_mem _ List.mem_cons_self
  · rw [candidates, if_neg hspace, if_neg hfeed, if_neg hslash, if_neg halpha, if_neg hzero,
      if_pos hc]
    exact List.mem_cons_self

/-- A rule that matches is one of those that the first character leaves. -/
theorem mem_candidates (hr : r ∈ table) (h : (r.pattern.find? (c :: t)).isSome = true) :
    r ∈ candidates c := by
  simp only [table, List.mem_cons, List.not_mem_nil, or_false] at hr
  rcases hr with rfl | rfl | rfl | rfl | rfl | rfl | rfl | rfl | rfl | rfl | rfl
  · rw [find?_blanks] at h
    rw [candidates, if_pos (Option.isSome_ite.mp h)]
    exact List.mem_cons_self
  · rw [find?_lineFeed] at h
    obtain rfl := Option.isSome_ite.mp h
    exact List.mem_cons_self
  · rw [find?_comment] at h
    obtain ⟨rfl, -⟩ := Option.isSome_ite.mp h
    exact List.mem_cons_self
  · rw [find?_reserved] at h
    obtain ⟨d, u, hd, hletter⟩ := exists_of_startsReserved (Option.isSome_ite.mp h)
    cases hd
    rw [candidates_of_isAlpha hletter]
    exact List.mem_cons_self
  · rw [find?_hexLiteral] at h
    obtain ⟨rfl, -⟩ := Option.isSome_ite.mp h
    exact List.mem_cons_self
  · rw [find?_word] at h
    rw [candidates_of_isAlpha (Option.isSome_ite.mp h)]
    exact List.mem_cons_of_mem _ List.mem_cons_self
  · rw [find?_decimalLiteral] at h
    split at h
    · rename_i hzero
      exact decimalLiteral_mem_candidates (by rw [hzero]; rfl)
    · exact decimalLiteral_mem_candidates (Option.isSome_ite.mp h)
  · rw [find?_comparison] at h
    obtain ⟨hc, -⟩ := Option.isSome_ite.mp h
    simp only [List.mem_cons, List.not_mem_nil, or_false] at hc
    rcases hc with rfl | rfl | rfl | rfl <;> exact List.mem_cons_self
  · rw [find?_punctuation] at h
    have hc := Option.isSome_ite.mp h
    simp only [List.mem_cons, List.not_mem_nil, or_false] at hc
    rcases hc with rfl | rfl | rfl | rfl | rfl | rfl | rfl | rfl <;> exact List.mem_cons_self
  · have hc : c ∈ ['&', '|', '+', '-', '*', '/', '%', '!', '>', '<', '='] := by
      rw [find?_operator] at h
      split at h
      · rename_i hdoubled
        exact List.mem_append_left _ hdoubled.1
      · exact List.mem_append_right ['&', '|'] (Option.isSome_ite.mp h)
    simp only [List.mem_cons, List.not_mem_nil, or_false] at hc
    rcases hc with rfl | rfl | rfl | rfl | rfl | rfl | rfl | rfl | rfl | rfl | rfl <;>
      exact List.mem_of_getLast? rfl
  · rw [find?_stringLiteral] at h
    split at h
    · subst c
      exact List.mem_cons_self
    · cases h

/-! ## Single rules and pairs -/

theorem pair_sublist {r s : Rule} (i j : Nat) (hij : i < j) (hr : rules[i]? = some r)
    (hs : rules[j]? = some s) : [r, s].Sublist rules := by
  have hfront : r ∈ rules.take j :=
    List.mem_of_getElem? ((List.getElem?_take_of_lt hij).trans hr)
  have hback : s ∈ rules.drop j := by
    refine List.mem_of_getElem? (i := 0) ?_
    rwa [List.getElem?_drop]
  have happend := (List.singleton_sublist.mpr hfront).append (List.singleton_sublist.mpr hback)
  rwa [List.take_append_drop] at happend

/-- The table keeps the pairs in order. -/
theorem overlaps_sublist_table {p : Rule × Rule} (hp : p ∈ overlaps) :
    [p.1, p.2].Sublist table := by
  simp only [overlaps, List.mem_cons, List.not_mem_nil, or_false] at hp
  rcases hp with rfl | rfl | rfl | rfl
  · exact pair_sublist 2 9 (by omega) rfl rfl
  · exact pair_sublist 3 5 (by omega) rfl rfl
  · exact pair_sublist 4 6 (by omega) rfl rfl
  · exact pair_sublist 7 9 (by omega) rfl rfl

/-- Some rules are none, a single rule of the table, or a pair. -/
def SingleOrPair (rs : List Rule) : Prop :=
  rs = [] ∨ (∃ r ∈ table, rs = [r]) ∨ ∃ p ∈ overlaps, rs = [p.1, p.2]

theorem SingleOrPair.single {r : Rule} (hr : r ∈ table) : SingleOrPair [r] :=
  .inr (.inl ⟨r, hr, rfl⟩)

theorem SingleOrPair.pair {r s : Rule} (hp : (r, s) ∈ overlaps) : SingleOrPair [r, s] :=
  .inr (.inr ⟨(r, s), hp, rfl⟩)

theorem SingleOrPair.sublist_table {rs : List Rule} (h : SingleOrPair rs) : rs.Sublist table := by
  rcases h with rfl | ⟨r, hr, rfl⟩ | ⟨p, hp, rfl⟩
  · exact List.nil_sublist table
  · exact List.singleton_sublist.mpr hr
  · exact overlaps_sublist_table hp

theorem SingleOrPair.length_le {rs : List Rule} (h : SingleOrPair rs) : rs.length ≤ 2 := by
  rcases h with rfl | ⟨r, -, rfl⟩ | ⟨p, -, rfl⟩ <;> simp

theorem SingleOrPair.of_sublist {rs ss : List Rule} (h : SingleOrPair rs) (hs : ss.Sublist rs) :
    SingleOrPair ss := by
  have hsub := hs.trans h.sublist_table
  match ss with
  | [] => exact .inl rfl
  | [r] => exact .single (List.singleton_sublist.mp hsub)
  | r :: s :: ss =>
      -- Two rules are left only of a pair, and then they are the pair.
      rcases h with rfl | ⟨r', -, rfl⟩ | ⟨p, hp, rfl⟩
      · cases hs
      · exact absurd hs.length_le (by simp)
      · have hlength : (r :: s :: ss).length = [p.1, p.2].length :=
          Nat.le_antisymm hs.length_le (Nat.le_add_left 2 ss.length)
        exact .inr (.inr ⟨p, hp, hs.eq_of_length hlength⟩)

theorem SingleOrPair.ite {b : Prop} [Decidable b] {rs ss : List Rule} (hr : SingleOrPair rs)
    (hs : SingleOrPair ss) : SingleOrPair (if b then rs else ss) := by
  split
  · exact hr
  · exact hs

theorem singleOrPair_candidates (c : Char) : SingleOrPair (candidates c) := by
  unfold candidates
  -- The positions are those of the table and of the pairs.
  refine .ite (.single (List.mem_of_getElem? (i := 0) rfl)) ?_
  refine .ite (.single (List.mem_of_getElem? (i := 1) rfl)) ?_
  refine .ite (.pair (List.mem_of_getElem? (i := 0) rfl)) ?_
  refine .ite (.pair (List.mem_of_getElem? (i := 1) rfl)) ?_
  refine .ite (.pair (List.mem_of_getElem? (i := 2) rfl)) ?_
  refine .ite (.single (List.mem_of_getElem? (i := 6) rfl)) ?_
  refine .ite (.pair (List.mem_of_getElem? (i := 3) rfl)) ?_
  refine .ite (.single (List.mem_of_getElem? (i := 8) rfl)) ?_
  refine .ite (.single (List.mem_of_getElem? (i := 9) rfl)) ?_
  refine .ite (.single (List.mem_of_getElem? (i := 10) rfl)) ?_
  exact .inl rfl

/-! ## Rules that match together -/

/-- The rules of the table are told apart by their notation. -/
theorem nodup_table : table.Nodup := by
  have hsources : (table.map fun r => r.pattern.source).Nodup := by decide +kernel
  exact List.Nodup.of_map _ hsources

theorem matching_sublist_candidates (c : Char) (t : Text) :
    (matching table (c :: t)).Sublist (candidates c) := by
  have hsub : (matching table (c :: t)).Sublist table := List.filter_sublist
  have hcandidates := (singleOrPair_candidates c).sublist_table
  have hmem : matching table (c :: t) ⊆ candidates c := by
    intro r hr
    obtain ⟨hr, h⟩ := mem_matching.mp hr
    exact mem_candidates hr h
  obtain ⟨rs, hperm, hrs⟩ := List.subperm_of_subset (nodup_table.sublist hsub) hmem
  rwa [← (nodup_table.perm_iff_eq_of_sublist (hrs.trans hcandidates) hsub).mp hperm]

theorem find?_nil (hr : r ∈ table) : r.pattern.find? [] = none :=
  select?_eq_none_iff.mp select?_table_nil r hr

/-- No rule matches, or one does, or the two of a pair. -/
theorem singleOrPair_matching (t : Text) : SingleOrPair (matching table t) := by
  cases t with
  | nil =>
      refine .inl (List.filter_eq_nil_iff.mpr ?_)
      intro r hr
      rw [find?_nil hr]
      exact Bool.false_ne_true
  | cons c t => exact (singleOrPair_candidates c).of_sublist (matching_sublist_candidates c t)

/-- Where the two of a pair match, no other rule does. -/
theorem matching_eq_of_overlaps {p : Rule × Rule} (hp : p ∈ overlaps)
    (hv : p.1.pattern.find? t = some v) (hw : p.2.pattern.find? t = some w) :
    matching table t = [p.1, p.2] := by
  have hsub : (matching [p.1, p.2] t).Sublist (matching table t) :=
    (overlaps_sublist_table hp).filter _
  have hboth : matching [p.1, p.2] t = [p.1, p.2] := by
    simp [matching, hv, hw]
  rw [hboth] at hsub
  exact (hsub.eq_of_length_le (singleOrPair_matching t).length_le).symm

/-- An operator that begins another rule's match is a single sign. -/
theorem eq_singleton_of_find?_operator (hc : c ∈ ['/', '=', '!', '<', '>'])
    (h : operator.pattern.find? (c :: t) = some w) : w = [c] := by
  have hdoubled : ¬ (c ∈ ['&', '|'] ∧ t.head? = some c) := by
    rintro ⟨hc', -⟩
    rcases List.mem_pair.mp hc' with rfl | rfl <;> exact absurd hc (by decide)
  rw [find?_operator, if_neg hdoubled] at h
  exact (Option.ite_some_none_eq_some.mp h).2.symm

/-- In each pair the first rule matches more than the second, but for a reserved
word, of which both match the whole. -/
theorem longer_of_overlaps {p : Rule × Rule} (hp : p ∈ overlaps)
    (hv : p.1.pattern.find? t = some v) (hw : p.2.pattern.find? t = some w) :
    w <+: v ∧ (w.length = v.length → p = (reserved, word)) := by
  cases t with
  | nil =>
      rw [find?_nil ((overlaps_sublist_table hp).subset List.mem_cons_self)] at hv
      cases hv
  | cons c t =>
      simp only [overlaps, List.mem_cons, List.not_mem_nil, or_false] at hp
      rcases hp with rfl | rfl | rfl | rfl
      · rw [find?_comment] at hv
        obtain ⟨⟨rfl, -⟩, rfl⟩ := Option.ite_some_none_eq_some.mp hv
        obtain rfl := eq_singleton_of_find?_operator (by decide) hw
        exact ⟨⟨_, rfl⟩, fun h => by simp at h⟩
      · rw [find?_reserved] at hv
        rw [find?_word] at hw
        obtain ⟨-, rfl⟩ := Option.ite_some_none_eq_some.mp hv
        obtain ⟨hc, rfl⟩ := Option.ite_some_none_eq_some.mp hw
        rw [leadingWord_of_isAlpha hc]
        exact ⟨List.prefix_refl _, fun _ => rfl⟩
      · rw [find?_hexLiteral] at hv
        obtain ⟨⟨rfl, -⟩, rfl⟩ := Option.ite_some_none_eq_some.mp hv
        rw [find?_decimalLiteral, if_pos rfl] at hw
        cases hw
        exact ⟨⟨_, rfl⟩, fun h => by simp at h⟩
      · rw [find?_comparison] at hv
        obtain ⟨⟨hc, -⟩, rfl⟩ := Option.ite_some_none_eq_some.mp hv
        obtain rfl := eq_singleton_of_find?_operator (List.mem_cons_of_mem _ hc) hw
        exact ⟨⟨_, rfl⟩, fun h => by simp at h⟩

/-! ## The order of the rules -/

/-- A table with the same rules that keeps the pairs in order has the same rules
match, in the same order. -/
theorem matching_eq_of_perm (hperm : rules.Perm table)
    (horder : ∀ p ∈ overlaps, [p.1, p.2].Sublist rules) (t : Text) :
    matching rules t = matching table t := by
  have hmatch : (matching rules t).Perm (matching table t) := hperm.filter _
  rcases singleOrPair_matching t with h | ⟨r, -, h⟩ | ⟨p, hp, h⟩
  · rw [h] at hmatch ⊢
    exact hmatch.eq_nil
  · rw [h] at hmatch ⊢
    exact List.perm_singleton.mp hmatch
  · rw [h] at hmatch ⊢
    have hsub : (matching [p.1, p.2] t).Sublist (matching rules t) := (horder p hp).filter _
    have hboth : matching [p.1, p.2] t = [p.1, p.2] := by
      refine List.filter_eq_self.mpr ?_
      intro r hr
      exact (mem_matching.mp (h ▸ hr)).2
    rw [hboth] at hsub
    exact (hsub.eq_of_length hmatch.length_eq.symm).symm

/-- No rule of the table matches a text, or one does, or the two of a pair.  If
any matches, the first that does is selected, and no other matches more, or as
much unless the two are those for reserved words and for words.  A table with
the same rules in which each pair stands in order selects the same. -/
theorem select?_maximal :
    (∀ t, matching table t = [] ∨ (∃ r ∈ table, matching table t = [r]) ∨
      ∃ p ∈ overlaps, matching table t = [p.1, p.2]) ∧
    (∀ t, select? table t = none ↔ matching table t = []) ∧
    (∀ t m, select? table t = some m →
      ∃ r others, matching table t = r :: others ∧ r.action = m.action ∧
        r.pattern.find? t = some m.text ∧
        ∀ s ∈ others, ∀ w, s.pattern.find? t = some w →
          w <+: m.text ∧ (w.length = m.text.length → r = reserved ∧ s = word)) ∧
    ∀ rules, rules.Perm table → (∀ p ∈ overlaps, [p.1, p.2].Sublist rules) →
      ∀ t, (select? rules t).map (fun m => (m.action, m.text)) =
        (select? table t).map fun m => (m.action, m.text) := by
  refine ⟨singleOrPair_matching, fun t => select?_eq_none_iff_matching, ?_, ?_⟩
  · intro t m hm
    obtain ⟨r, others, hmatch, haction, hfind⟩ := exists_of_select? hm
    refine ⟨r, others, hmatch, haction, hfind, ?_⟩
    intro s hs w hw
    rcases singleOrPair_matching t with h | ⟨r', -, h⟩ | ⟨p, hp, h⟩
    · rw [hmatch] at h
      cases h
    · rw [hmatch] at h
      cases h
      cases hs
    · rw [hmatch] at h
      cases h
      obtain rfl := List.mem_singleton.mp hs
      obtain ⟨hpre, hequal⟩ := longer_of_overlaps hp hfind hw
      exact ⟨hpre, fun hlength => Prod.ext_iff.mp (hequal hlength)⟩
  · intro rules hperm horder t
    rw [map_select?, map_select?, matching_eq_of_perm hperm horder]

/-- Of the two rules that match in front of three equals signs the first is selected,
which matches two, also by a table that has blanks and line feeds at the end. -/
theorem select?_maximal_of_blanks_last :
    (table.drop 2 ++ table.take 2).Perm table ∧
      (∀ p ∈ overlaps, [p.1, p.2].Sublist (table.drop 2 ++ table.take 2)) ∧
      matching table ['=', '=', '='] = [comparison, operator] ∧
      select? table ['=', '=', '='] = some ⟨7, .token .symbol, ['=', '=']⟩ ∧
      (∃ w, operator.pattern.find? ['=', '=', '='] = some w ∧ w <+: ['=', '='] ∧ w.length < 2) ∧
      (select? (table.drop 2 ++ table.take 2) ['=', '=', '=']).map (fun m => (m.action, m.text)) =
        some (.token .symbol, ['=', '=']) := by
  have hperm : (table.drop 2 ++ table.take 2).Perm table := by
    have hswap : (table.drop 2 ++ table.take 2).Perm (table.take 2 ++ table.drop 2) :=
      List.perm_append_comm
    rwa [List.take_append_drop] at hswap
  have horder : ∀ p ∈ overlaps, [p.1, p.2].Sublist (table.drop 2 ++ table.take 2) := by
    intro p hp
    simp only [overlaps, List.mem_cons, List.not_mem_nil, or_false] at hp
    rcases hp with rfl | rfl | rfl | rfl
    · exact pair_sublist 0 7 (by omega) rfl rfl
    · exact pair_sublist 1 3 (by omega) rfl rfl
    · exact pair_sublist 2 4 (by omega) rfl rfl
    · exact pair_sublist 5 7 (by omega) rfl rfl
  have hcomparison : comparison.pattern.find? ['=', '=', '='] = some ['=', '='] := by
    rw [find?_comparison]
    rfl
  have hoperator : operator.pattern.find? ['=', '=', '='] = some ['='] := by
    rw [find?_operator]
    rfl
  have hmatch : matching table ['=', '=', '='] = [comparison, operator] :=
    matching_eq_of_overlaps (List.mem_of_getElem? (i := 3) rfl) hcomparison hoperator
  obtain ⟨-, hnone, hfirst, hselect⟩ := select?_maximal
  obtain ⟨m, hm⟩ : ∃ m, select? table ['=', '=', '='] = some m := by
    refine Option.ne_none_iff_exists'.mp fun h => ?_
    rw [hnone, hmatch] at h
    cases h
  obtain ⟨r, others, hrs, -, -, hothers⟩ := hfirst _ _ hm
  obtain rfl : m = ⟨7, .token .symbol, ['=', '=']⟩ :=
    Option.some.inj (hm.symm.trans (select?_of_begins (.comparison List.mem_cons_self)))
  obtain ⟨rfl, rfl⟩ := List.cons.inj (hmatch.symm.trans hrs)
  obtain ⟨hbegins, -⟩ := hothers operator List.mem_cons_self _ hoperator
  refine ⟨hperm, horder, hmatch, hm, ⟨_, hoperator, hbegins, by decide⟩, ?_⟩
  rw [hselect _ hperm horder, hm]
  rfl

end Rule
end Decaf
