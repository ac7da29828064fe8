/-
Expressions in the form that joining brings about.

A sequence is a chain to the right in which no member is empty or a sequence and
no two texts meet, and the ranges of a set go up from one character to another
(`Expr.IsNormal`).  Joining expressions of this form leads to expressions of this
form again, so whatever a form stands for has it (`isNormal_options`), as long as
the members of its classes are in order (`Form.IsOrdered`).  What the form is good
for: a sequence is made of its members, and nothing else (`inOrder_items`), and the
set of a choice between characters has the characters of each (`contains_union`).
-/
import Decaf.Pattern.Form
import Decaf.Proofs.Pattern.Joining
import Mathlib.Data.List.Forall2

namespace Decaf
namespace Pattern

/-! ## Sets -/

namespace CharSet

/-- A range of code points that goes up from one character to another. -/
structure IsSpan (r : Nat × Nat) : Prop where
  le : r.1 ≤ r.2
  first : r.1.isValidChar
  last : r.2.isValidChar

/-- A set of which all ranges go up from one character to another. -/
def IsProper (s : CharSet) : Prop := ∀ r ∈ s.ranges, IsSpan r

theorem isSpan_toNat {a b : Char} (h : a ≤ b) : IsSpan (a.toNat, b.toNat) :=
  ⟨h, a.valid, b.valid⟩

theorem isSpan_insert {a b : Nat} {rs : Ranges} (h : IsSpan (a, b)) (hrs : ∀ r ∈ rs, IsSpan r) :
    ∀ r ∈ Ranges.insert a b rs, IsSpan r := by
  fun_induction Ranges.insert a b rs with
  | case1 a b => exact fun r hr => List.mem_singleton.mp hr ▸ h
  | case2 a b c d rs hlt => exact List.forall_mem_cons.mpr ⟨h, hrs⟩
  | case3 a b c d rs hle hlt ih =>
      obtain ⟨hr, hrs⟩ := List.forall_mem_cons.mp hrs
      exact List.forall_mem_cons.mpr ⟨hr, ih h hrs⟩
  | case4 a b c d rs hle hle' ih =>
      obtain ⟨⟨hcd, hc, hd⟩, hrs⟩ := List.forall_mem_cons.mp hrs
      obtain ⟨hab, ha, hb⟩ := h
      refine ih ⟨?_, ?_, ?_⟩ hrs
      · simp only at hab hcd ⊢
        omega
      · rcases Nat.le_total a c with hac | hca
        · rwa [Nat.min_eq_left hac]
        · rwa [Nat.min_eq_right hca]
      · rcases Nat.le_total b d with hbd | hdb
        · rwa [Nat.max_eq_right hbd]
        · rwa [Nat.max_eq_left hdb]

theorem isSpan_ofList {rs : List (Nat × Nat)} (hrs : ∀ r ∈ rs, IsSpan r) :
    ∀ r ∈ Ranges.ofList rs, IsSpan r := by
  suffices h : ∀ s : Ranges, (∀ r ∈ s, IsSpan r) →
      ∀ r ∈ rs.foldl (fun s r => Ranges.insert r.1 r.2 s) s, IsSpan r from h [] nofun
  induction rs with
  | nil => exact fun s hs => hs
  | cons r rs ih =>
      obtain ⟨hr, hrs⟩ := List.forall_mem_cons.mp hrs
      exact fun s hs => ih hrs _ (isSpan_insert hr hs)

theorem isProper_single (c : Char) : (single c).IsProper := fun _ hr =>
  List.mem_singleton.mp hr ▸ isSpan_toNat (Char.le_refl c)

theorem isProper_ofRanges {rs : List (Char × Char)} (hrs : ∀ r ∈ rs, r.1 ≤ r.2) :
    (ofRanges rs).IsProper := by
  refine isSpan_ofList fun r hr => ?_
  obtain ⟨s, hs, rfl⟩ := List.mem_map.mp hr
  exact isSpan_toNat (hrs s hs)

theorem isSpan_gapsFrom {next : Nat} {rs : Ranges} (hnext : next ≤ 0x10FFFF → next.isValidChar)
    (hrs : ∀ r ∈ rs, IsSpan r) : ∀ r ∈ gapsFrom next rs, IsSpan r := by
  fun_induction gapsFrom next rs with
  | case1 next hle =>
      exact fun r hr => List.mem_singleton.mp hr ▸
        ⟨hle, hnext hle, .inr ⟨by simp only; omega, by simp only; omega⟩⟩
  | case2 => exact nofun
  | case3 next a b rs hlt ih =>
      obtain ⟨⟨-, ha, hb⟩, hrs⟩ := List.forall_mem_cons.mp hrs
      have hvalid : next.isValidChar := hnext (by
        unfold Nat.isValidChar at ha
        simp only at ha
        omega)
      refine List.forall_mem_cons.mpr ⟨⟨?_, hvalid, ?_⟩, ih (isValidChar_codeAfter hb) hrs⟩
      · exact (le_codeBefore hvalid (by omega)).mpr hlt
      · exact isValidChar_codeBefore ha (by omega)
  | case4 next a b rs hle ih =>
      obtain ⟨⟨-, -, hb⟩, hrs⟩ := List.forall_mem_cons.mp hrs
      exact ih (isValidChar_codeAfter hb) hrs

theorem IsProper.complement {s : CharSet} (hs : s.IsProper) : s.complement.IsProper :=
  isSpan_gapsFrom (fun _ => .inl (by decide)) hs

theorem isProper_union {ss : List CharSet} (hss : ∀ s ∈ ss, s.IsProper) : (union ss).IsProper := by
  refine isSpan_ofList fun r hr => ?_
  obtain ⟨s, hs, hr⟩ := List.mem_flatMap.mp hr
  exact hss s hs r hr

/-- The characters of some sets are those of each. -/
theorem contains_union {ss : List CharSet} (hss : ∀ s ∈ ss, s.IsProper) (c : Char) :
    (union ss).contains c = ss.any fun s => s.contains c := by
  rw [contains, union, Ranges.contains_ofList, Ranges.contains, List.any_flatMap]
  · rfl
  · intro r hr
    obtain ⟨s, hs, hr⟩ := List.mem_flatMap.mp hr
    exact (hss s hs r hr).le

/-- The only character of a set is its only member. -/
theorem contains_of_char? {s : CharSet} (hs : s.IsProper) {a : Char} (h : s.char? = some a)
    (c : Char) : s.contains c = (a == c) := by
  obtain ⟨ranges⟩ := s
  rw [char?] at h
  split at h
  · rename_i n m hranges
    obtain ⟨rfl, rfl⟩ := Option.ite_some_none_eq_some.mp h
    obtain rfl := hranges
    have hn : n.isValidChar := (hs (n, n) List.mem_cons_self).first
    have ha : (Char.ofNat n).toNat = n := by
      rw [Char.ofNat, dif_pos hn]
      exact UInt32.toNat_ofNatLT
    rw [← contains_single, single, ha]
  · cases h

end CharSet

/-! ## Expressions -/

namespace Expr

/-- The form into which joining brings expressions: a member of a sequence is not
empty, nor a sequence, and does not meet what follows it; sets are proper. -/
def IsNormal : Expr → Prop
  | .set s => s.IsProper
  | .seq a b => a.IsNormal ∧ b.IsNormal ∧ a.isSeq = false ∧ a ≠ .empty ∧ cons a b = .seq a b
  | .alt a b => a.IsNormal ∧ b.IsNormal
  | .empty | .text _ | .look _ | .group _ | .rep _ _ _ _ => True

variable {a b : Expr} {es : List Expr}

theorem isNormal_ofSet {s : CharSet} (hs : s.IsProper) : (ofSet s).IsNormal := by
  rw [ofSet]
  split
  · trivial
  · exact hs

/-! ## Sequences -/

/-- Whether a text meets what follows it does not depend on the text. -/
theorem cons_text_eq_seq {v w : Text} (h : cons (.text v) b = .seq (.text v) b) :
    cons (.text w) b = .seq (.text w) b := by
  fun_cases cons (.text w) b with
  | case1 | case2 => cases h
  | case3 x b =>
      -- What follows would be a part of itself.
      rw [cons] at h
      injection h with _ h
      cases h
  | case4 => rfl

theorem isNormal_cons (ha : a.IsNormal) (hb : b.IsNormal) (hseq : a.isSeq = false)
    (hne : a ≠ .empty) : (cons a b).IsNormal := by
  fun_cases cons a b with
  | case1 => exact ha
  | case2 => trivial
  | case3 v w b =>
      obtain ⟨-, hb, -, -, hmeet⟩ := hb
      exact ⟨trivial, hb, rfl, by simp, cons_text_eq_seq hmeet⟩
  | case4 h₁ h₂ h₃ => exact ⟨ha, hb, hseq, hne, by rw [cons] <;> assumption⟩

/-- What is not a sequence is put in front as it is. -/
theorem andThen_eq_cons (hseq : a.isSeq = false) (hne : a ≠ .empty) (b : Expr) :
    andThen a b = cons a b := by
  cases a with
  | empty => exact absurd rfl hne
  | seq => cases hseq
  | _ => rfl

theorem isNormal_andThen (ha : a.IsNormal) (hb : b.IsNormal) : (andThen a b).IsNormal := by
  fun_induction andThen a b with
  | case1 => exact hb
  | case2 b a a' ih =>
      obtain ⟨ha, ha', hseq, hne, -⟩ := ha
      exact isNormal_cons ha (ih ha' hb) hseq hne
  | case3 a b hne hseq =>
      refine isNormal_cons ha hb ?_ hne
      cases a with
      | seq a a' => exact absurd rfl (hseq a a')
      | _ => rfl

theorem isNormal_inOrder (hes : ∀ e ∈ es, e.IsNormal) : (inOrder es).IsNormal := by
  induction es with
  | nil => trivial
  | cons e es ih =>
      obtain ⟨he, hes⟩ := List.forall_mem_cons.mp hes
      exact isNormal_andThen he (ih hes)

theorem IsNormal.of_mem_items (ha : a.IsNormal) : ∀ e ∈ a.items, e.IsNormal := by
  induction a with
  | empty => exact nofun
  | seq a b _ ihb => exact List.forall_mem_cons.mpr ⟨ha.1, ihb ha.2.1⟩
  | _ => exact fun e he => List.mem_singleton.mp he ▸ ha

/-- No member of a sequence is a sequence or empty. -/
theorem IsNormal.isSeq_of_mem_items (ha : a.IsNormal) :
    ∀ e ∈ a.items, e.isSeq = false ∧ e ≠ .empty := by
  induction a with
  | empty => exact nofun
  | seq a b _ ihb =>
      obtain ⟨-, hb, hseq, hne, -⟩ := ha
      exact List.forall_mem_cons.mpr ⟨⟨hseq, hne⟩, ihb hb⟩
  | _ => exact fun e he => List.mem_singleton.mp he ▸ ⟨rfl, nofun⟩

/-- A sequence is made of its members. -/
theorem inOrder_items (ha : a.IsNormal) : inOrder a.items = a := by
  induction a with
  | seq a b _ ihb =>
      obtain ⟨-, hb, hseq, hne, hmeet⟩ := ha
      rw [items, inOrder, List.foldr_cons, ← inOrder, ihb hb, andThen_eq_cons hseq hne, hmeet]
  | _ => rfl

theorem andThen_empty (ha : a.IsNormal) : andThen a .empty = a := by
  induction a with
  | seq a b _ ihb =>
      obtain ⟨-, hb, -, -, hmeet⟩ := ha
      rw [andThen, ihb hb, hmeet]
  | _ => rfl

/-! ## Choices and repeats -/

theorem IsNormal.of_mem_branches (ha : a.IsNormal) : ∀ e ∈ a.branches, e.IsNormal := by
  induction a with
  | alt a b _ ihb => exact List.forall_mem_cons.mpr ⟨ha.1, ihb ha.2⟩
  | _ => exact fun e he => List.mem_singleton.mp he ▸ ha

theorem isNormal_of_mem_flatMap (hes : ∀ e ∈ es, e.IsNormal) :
    ∀ e ∈ es.flatMap branches, e.IsNormal := by
  intro e he
  obtain ⟨e', he', he⟩ := List.mem_flatMap.mp he
  exact (hes e' he').of_mem_branches e he

theorem isNormal_choice (hes : ∀ e ∈ es, e.IsNormal) : (choice es).IsNormal := by
  fun_induction choice es with
  | case1 => exact nofun
  | case2 e => exact hes e List.mem_cons_self
  | case3 e es hne ih =>
      obtain ⟨he, hes⟩ := List.forall_mem_cons.mp hes
      exact ⟨he, ih hes⟩

/-- The expression finds what one character of a set does. -/
inductive Denotes : Expr → CharSet → Prop
  | char (c : Char) : Denotes (.text [c]) (.single c)
  | set {s : CharSet} : s.IsProper → Denotes (.set s) s

theorem Denotes.isProper {s : CharSet} (h : Denotes a s) : s.IsProper := by
  cases h with
  | char c => exact CharSet.isProper_single c
  | set hs => exact hs

theorem denotes_of_charSet? {s : CharSet} (h : a.charSet? = some s) : Denotes a s := by
  unfold charSet? at h
  split at h
  · cases h
    exact .char _
  · cases h

theorem denotes_of_set? {s : CharSet} (ha : a.IsNormal) (h : a.set? = some s) : Denotes a s := by
  unfold set? at h
  split at h
  · cases h
    exact .set ha
  · cases h

theorem forall₂_of_mapM {f : Expr → Option CharSet} {ss : List CharSet}
    (hf : ∀ e ∈ es, ∀ s, f e = some s → Denotes e s) (h : es.mapM f = some ss) :
    List.Forall₂ Denotes es ss := by
  induction es generalizing ss with
  | nil =>
      cases h
      exact .nil
  | cons e es ih =>
      obtain ⟨he, hes⟩ := List.forall_mem_cons.mp hf
      rw [List.mapM_cons] at h
      obtain ⟨s, hs, h⟩ := Option.bind_eq_some_iff.mp h
      obtain ⟨ss', hss, h⟩ := Option.bind_eq_some_iff.mp h
      cases h
      exact .cons (he s hs) (ih hes hss)

/-- If all of some expressions are characters, or all are sets, each stands for one
character of its set. -/
theorem forall₂_of_sets {ss : List CharSet} (hes : ∀ e ∈ es, e.IsNormal)
    (h : (es.mapM charSet? <|> es.mapM set?) = some ss) : List.Forall₂ Denotes es ss := by
  rcases Option.or_eq_some_iff.mp (Option.or_eq_orElse.trans h) with h | ⟨-, h⟩
  · exact forall₂_of_mapM (fun e _ s => denotes_of_charSet?) h
  · exact forall₂_of_mapM (fun e he s => denotes_of_set? (hes e he)) h

theorem isProper_of_forall₂ {ss : List CharSet} (h : List.Forall₂ Denotes es ss) :
    ∀ s ∈ ss, s.IsProper := by
  induction h with
  | nil => exact nofun
  | cons h _ ih => exact List.forall_mem_cons.mpr ⟨h.isProper, ih⟩

theorem isNormal_merged (hes : ∀ e ∈ es, e.IsNormal) : (merged es).IsNormal := by
  have hbranches := isNormal_of_mem_flatMap hes
  rw [merged]
  split
  · rename_i e he
    exact hbranches e (he ▸ List.mem_cons_self)
  · split
    · rename_i ss hss
      have hproper := isProper_of_forall₂ (forall₂_of_sets hbranches hss)
      exact isNormal_ofSet (CharSet.isProper_union hproper)
    · exact isNormal_choice hbranches

theorem inOrder_merged (hes : ∀ e ∈ es, e.IsNormal) : inOrder [merged es] = merged es :=
  andThen_empty (isNormal_merged hes)

/-! ## What is taken out in front -/

/-- What is left of an expression behind its first members. -/
def behind (n : Nat) (e : Expr) : Expr := inOrder (e.items.drop n)

theorem commonItems_isPrefix_left (as bs : List Expr) : commonItems as bs <+: as := by
  fun_induction commonItems as bs with
  | case1 a as b bs h ih => exact List.cons_prefix_cons.mpr ⟨rfl, ih⟩
  | case2 | case3 => exact List.nil_prefix

theorem commonItems_isPrefix_right (as bs : List Expr) : commonItems as bs <+: bs := by
  fun_induction commonItems as bs with
  | case1 a as b bs h ih =>
      exact List.cons_prefix_cons.mpr ⟨of_decide_eq_true (Bool.and_eq_true_iff.mp h).1, ih⟩
  | case2 | case3 => exact List.nil_prefix

theorem foldl_commonItems_isPrefix (es : List Expr) (shared : List Expr) :
    es.foldl (fun shared e => commonItems shared e.items) shared <+: shared ∧
      ∀ e ∈ es, es.foldl (fun shared e => commonItems shared e.items) shared <+: e.items := by
  induction es generalizing shared with
  | nil => exact ⟨List.prefix_refl shared, nofun⟩
  | cons e es ih =>
      obtain ⟨hshared, hes⟩ := ih (commonItems shared e.items)
      exact ⟨hshared.trans (commonItems_isPrefix_left shared e.items),
        List.forall_mem_cons.mpr ⟨hshared.trans (commonItems_isPrefix_right shared e.items), hes⟩⟩

/-- All alternatives begin with what is taken out of them. -/
theorem sharedItems_isPrefix : ∀ e ∈ es, sharedItems es <+: e.items := by
  fun_cases sharedItems es with
  | case1 e e' es hseq =>
      obtain ⟨he, hes⟩ := foldl_commonItems_isPrefix (e' :: es) e.items
      exact List.forall_mem_cons.mpr ⟨he, hes⟩
  | case2 | case3 => exact fun e _ => List.nil_prefix

/-- What is taken out of some alternatives is a member of one of them. -/
theorem exists_of_mem_sharedItems {x : Expr} (hx : x ∈ sharedItems es) : ∃ e ∈ es, x ∈ e.items := by
  cases es with
  | nil => cases hx
  | cons e es =>
      have hprefix : sharedItems (e :: es) <+: e.items := sharedItems_isPrefix e List.mem_cons_self
      exact ⟨e, List.mem_cons_self, hprefix.subset hx⟩

theorem isNormal_sharedItems (hes : ∀ e ∈ es, e.IsNormal) : ∀ x ∈ sharedItems es, x.IsNormal := by
  intro x hx
  obtain ⟨e, he, hx⟩ := exists_of_mem_sharedItems hx
  exact (hes e he).of_mem_items x hx

theorem isNormal_of_mem_behind (hes : ∀ e ∈ es, e.IsNormal) (n : Nat) :
    ∀ e ∈ es.map (behind n), e.IsNormal := by
  intro e he
  obtain ⟨a, ha, rfl⟩ := List.mem_map.mp he
  exact isNormal_inOrder fun e he => (hes a ha).of_mem_items e (List.mem_of_mem_drop he)

theorem isNormal_anyOf (hes : ∀ e ∈ es, e.IsNormal) : (anyOf es).IsNormal := by
  have hbranches := isNormal_of_mem_flatMap hes
  fun_cases anyOf es with
  | case1 e => exact hes e List.mem_cons_self
  | case2 => exact isNormal_merged hes
  | case3 es hne shared rests =>
      refine isNormal_inOrder fun e he => ?_
      rcases List.mem_append.mp he with he | he
      · exact isNormal_sharedItems hbranches e he
      · obtain rfl := List.mem_singleton.mp he
        exact isNormal_merged (isNormal_of_mem_behind hbranches _)

theorem isNormal_repeated {g : Greed} {min : Nat} {max : Option Nat} (ha : a.IsNormal) :
    (repeated g min max a).IsNormal := by
  fun_cases repeated g min max a with
  | case1 | case3 => trivial
  | case2 => exact ha

end Expr

/-! ## What forms stand for -/

/-- The members of all classes of the form are in order. -/
def Form.IsOrdered : Form → Prop
  | .bracket _ members => ∀ r ∈ members, r.1 ≤ r.2
  | .seq a b | .alt a b => a.IsOrdered ∧ b.IsOrdered
  | .group _ a | .rep _ _ _ a => a.IsOrdered
  | .empty | .char _ | .dot | .look _ => True

/-- What a form stands for is in the form that joining brings about. -/
theorem Form.isNormal_options {f : Form} (hf : f.IsOrdered) : ∀ e ∈ f.options, e.IsNormal := by
  induction f with
  | empty | char | look => exact fun e he => List.mem_singleton.mp he ▸ trivial
  | dot =>
      refine fun e he => List.mem_singleton.mp he ▸ Expr.isNormal_ofSet ?_
      exact (CharSet.isProper_single '\n').complement
  | bracket negated members =>
      refine fun e he => List.mem_singleton.mp he ▸ Expr.isNormal_ofSet ?_
      rw [bracketSet]
      split
      · exact (CharSet.isProper_ofRanges hf).complement
      · exact CharSet.isProper_ofRanges hf
  | seq a b iha ihb =>
      exact fun e he => List.mem_singleton.mp he ▸ Expr.isNormal_andThen
        (Expr.isNormal_anyOf (iha hf.1)) (Expr.isNormal_anyOf (ihb hf.2))
  | alt a b iha ihb =>
      intro e he
      rcases List.mem_append.mp he with he | he
      · exact iha hf.1 e he
      · exact ihb hf.2 e he
  | group own a ih =>
      intro e he
      rw [options] at he
      split at he
      · exact List.mem_singleton.mp he ▸ trivial
      · exact List.mem_singleton.mp he ▸ Expr.isNormal_anyOf (ih hf)
  | rep g min max a ih =>
      intro e he
      obtain rfl := List.mem_singleton.mp he
      exact Expr.isNormal_repeated (Expr.isNormal_anyOf (ih hf))

end Pattern
end Decaf
