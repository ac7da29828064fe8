/-
Classes as they are read.

A range in a class is refused if its ends are not in order, so the members of every
class that is read are in order (`isOrdered_read?`), and what a notation stands for
has the form that joining brings about.
-/
import Decaf.Proofs.Pattern.Anchoring
import Decaf.Proofs.Pattern.NormalForm

namespace Decaf
namespace Pattern

/-! ## Brackets -/

namespace Bracket

variable {b : Bracket} {c : Char} {x : Bracket ⊕ Form}

/-- All members so far are in order. -/
def IsOrdered (b : Bracket) : Prop := ∀ r ∈ b.members, r.1 ≤ r.2

theorem IsOrdered.add (hb : b.IsOrdered) (c : Char) : (b.add c).IsOrdered :=
  List.forall_mem_cons.mpr ⟨Char.le_refl c, hb⟩

theorem IsOrdered.addRange (hb : b.IsOrdered) {first last : Char} {b' : Bracket}
    (h : b.addRange first last = some b') : b'.IsOrdered := by
  obtain ⟨hle, rfl⟩ := Option.ite_some_none_eq_some.mp h
  exact List.forall_mem_cons.mpr ⟨hle, hb⟩

theorem IsOrdered.toForm (hb : b.IsOrdered) : b.toForm.IsOrdered := fun r hr =>
  hb r (List.mem_reverse.mp hr)

theorem IsOrdered.feedMember (hb : b.IsOrdered) (h : b.feedMember c = some x) :
    x.elim IsOrdered Form.IsOrdered := by
  unfold Bracket.feedMember at h
  split at h <;> cases h
  · exact hb.toForm
  · exact hb
  · exact hb

theorem IsOrdered.feedFirst (hb : b.IsOrdered) (h : b.feedFirst c = some x) :
    x.elim IsOrdered Form.IsOrdered := by
  unfold Bracket.feedFirst at h
  split at h
  · cases h
    exact hb.add '-'
  · cases h
    exact hb.add ']'
  · exact hb.feedMember h

theorem IsOrdered.feed (hb : b.IsOrdered) (h : b.feed c = some x) :
    x.elim IsOrdered Form.IsOrdered := by
  unfold Bracket.feed at h
  split at h
  · split at h
    · cases h
      exact hb
    · exact hb.feedFirst h
  · exact hb.feedFirst h
  · split at h
    · cases h
      exact hb.add '-'
    · exact hb.feedMember h
  · exact hb.feedMember h
  · rename_i a bare hplace
    split at h
    · cases h
    · split at h
      · cases h
        exact hb
      · exact (hb.add a).feedMember h
  · rename_i a hplace
    split at h
    · cases h
      exact ((hb.add a).add '-').toForm
    · cases h
    · cases h
      exact hb
    · obtain ⟨b', hb', rfl⟩ := Option.map_eq_some_iff.mp h
      exact hb.addRange hb'
  · obtain ⟨e, he, rfl⟩ := Option.map_eq_some_iff.mp h
    exact hb
  · obtain ⟨e, he, h⟩ := Option.bind_eq_some_iff.mp h
    obtain ⟨b', hb', rfl⟩ := Option.map_eq_some_iff.mp h
    exact hb.addRange hb'

end Bracket

/-! ## Groups -/

namespace Frame

/-- All forms that have been read of a group have their classes in order. -/
structure IsOrdered (f : Frame) : Prop where
  branches : ∀ g ∈ f.branches, g.IsOrdered
  items : ∀ g ∈ f.items, g.IsOrdered

theorem isOrdered_start : start.IsOrdered := ⟨nofun, nofun⟩

theorem isOrdered_sequence {fs : List Form} (h : ∀ f ∈ fs, f.IsOrdered) :
    (sequence fs).IsOrdered := by
  fun_induction sequence fs with
  | case1 => trivial
  | case2 f => exact h f List.mem_cons_self
  | case3 f fs hne ih =>
      obtain ⟨hf, hfs⟩ := List.forall_mem_cons.mp h
      exact ⟨hf, ih hfs⟩

theorem isOrdered_choice {fs : List Form} {f : Form} (hf : f.IsOrdered)
    (h : ∀ f ∈ fs, f.IsOrdered) : (choice f fs).IsOrdered := by
  induction fs generalizing f with
  | nil => exact hf
  | cons g fs ih =>
      obtain ⟨hg, hfs⟩ := List.forall_mem_cons.mp h
      exact ⟨hf, ih hg hfs⟩

variable {f : Frame}

theorem IsOrdered.branch (hf : f.IsOrdered) : f.branch.IsOrdered :=
  isOrdered_sequence fun g hg => hf.items g (List.mem_reverse.mp hg)

theorem IsOrdered.bar (hf : f.IsOrdered) : f.bar.IsOrdered :=
  ⟨List.forall_mem_cons.mpr ⟨hf.branch, hf.branches⟩, nofun⟩

theorem IsOrdered.push (hf : f.IsOrdered) {item : Form} (h : item.IsOrdered) :
    (f.push item).IsOrdered :=
  ⟨hf.branches, List.forall_mem_cons.mpr ⟨h, hf.items⟩⟩

theorem IsOrdered.toForm (hf : f.IsOrdered) : f.toForm.IsOrdered := by
  have hall : ∀ g ∈ (f.branch :: f.branches).reverse, g.IsOrdered := fun g hg =>
    List.forall_mem_cons.mpr ⟨hf.branch, hf.branches⟩ g (List.mem_reverse.mp hg)
  rw [Frame.toForm]
  split
  · trivial
  · rename_i g gs h
    rw [h] at hall
    obtain ⟨hg, hgs⟩ := List.forall_mem_cons.mp hall
    exact isOrdered_choice hg hgs

theorem IsOrdered.repeatLast (hf : f.IsOrdered) {min : Nat} {max : Option Nat} {f' : Frame}
    (h : f.repeatLast min max = some f') : f'.IsOrdered := by
  rw [Frame.repeatLast] at h
  split at h
  · cases h
  · rename_i item items hitems
    cases h
    obtain ⟨hitem, hrest⟩ := List.forall_mem_cons.mp (hitems ▸ hf.items)
    exact ⟨hf.branches, List.forall_mem_cons.mpr ⟨hitem, hrest⟩⟩

theorem IsOrdered.lazyLast (hf : f.IsOrdered) : f.lazyLast.IsOrdered := by
  rw [Frame.lazyLast]
  split
  · rename_i hitems
    obtain ⟨hitem, hrest⟩ := List.forall_mem_cons.mp (hitems ▸ hf.items)
    exact ⟨hf.branches, List.forall_mem_cons.mpr ⟨hitem, hrest⟩⟩
  · exact hf

end Frame

/-! ## Readings -/

namespace Reading

/-- All classes that have been read have their members in order. -/
structure IsOrdered (r : Reading) : Prop where
  frame : r.frame.IsOrdered
  outer : ∀ f ∈ r.outer, f.IsOrdered
  bracket : ∀ b, r.mode = .bracket b → b.IsOrdered

variable {r s : Reading} {c : Char} {t : Text}

theorem isOrdered_start : start.IsOrdered := ⟨Frame.isOrdered_start, nofun, nofun⟩

theorem IsOrdered.push (hr : r.IsOrdered) {item : Form} (h : item.IsOrdered) :
    (r.push item).IsOrdered :=
  ⟨hr.frame.push h, hr.outer, nofun⟩

theorem IsOrdered.repeatLast (hr : r.IsOrdered) {min : Nat} {max : Option Nat}
    (h : r.repeatLast min max = some s) : s.IsOrdered := by
  obtain ⟨f, hf, rfl⟩ := Option.map_eq_some_iff.mp h
  exact ⟨hr.frame.repeatLast hf, hr.outer, nofun⟩

theorem IsOrdered.feedPlain (hr : r.IsOrdered) (h : r.feedPlain c = some s) : s.IsOrdered := by
  unfold Reading.feedPlain at h
  split at h
  · cases h
    exact ⟨Frame.isOrdered_start, List.forall_mem_cons.mpr ⟨hr.frame, hr.outer⟩, nofun⟩
  · split at h
    · cases h
    · rename_i f outer houter
      cases h
      obtain ⟨hf, hrest⟩ := List.forall_mem_cons.mp (houter ▸ hr.outer)
      exact ⟨hf.push hr.frame.toForm, hrest, nofun⟩
  · cases h
    exact ⟨hr.frame.bar, hr.outer, nofun⟩
  · cases h
    exact ⟨hr.frame, hr.outer, fun b hb => by cases hb; exact nofun⟩
  · cases h
    exact ⟨hr.frame, hr.outer, nofun⟩
  · cases h
    exact hr.push trivial
  · cases h
    exact hr.push trivial
  · cases h
    exact hr.push trivial
  · exact hr.repeatLast h
  · exact hr.repeatLast h
  · exact hr.repeatLast h
  · split at h
    · cases h
    · cases h
      exact ⟨hr.frame, hr.outer, nofun⟩
  · cases h
    exact hr.push trivial

theorem IsOrdered.feed (hr : r.IsOrdered) (h : r.feed c = some s) : s.IsOrdered := by
  unfold Reading.feed at h
  split at h
  · exact hr.feedPlain h
  · split at h
    · cases h
      exact ⟨hr.frame, hr.outer, nofun⟩
    · exact hr.feedPlain h
  · split at h
    · cases h
      exact ⟨⟨hr.frame.branches, hr.frame.items⟩, hr.outer, nofun⟩
    · cases h
  · split at h
    · cases h
      exact ⟨hr.frame.lazyLast, hr.outer, nofun⟩
    · exact hr.feedPlain h
  · split at h
    · cases h
      exact hr.push trivial
    · obtain ⟨e, -, rfl⟩ := Option.map_eq_some_iff.mp h
      exact hr.push trivial
  · rename_i b hmode
    obtain ⟨x, hx, rfl⟩ := Option.map_eq_some_iff.mp h
    have hx := (hr.bracket b hmode).feed hx
    cases x with
    | inl b' => exact ⟨hr.frame, hr.outer, fun b'' hb => by cases hb; exact hx⟩
    | inr f => exact hr.push hx
  · obtain ⟨x, -, hs⟩ := Option.bind_eq_some_iff.mp h
    cases x with
    | inl b =>
        cases hs
        exact ⟨hr.frame, hr.outer, nofun⟩
    | inr bounds => exact hr.repeatLast hs

theorem IsOrdered.feedAll (hr : r.IsOrdered) (h : r.feedAll t = some s) : s.IsOrdered := by
  induction t generalizing r with
  | nil =>
      cases h
      exact hr
  | cons c t ih =>
      obtain ⟨r', hc, ht⟩ := Option.bind_eq_some_iff.mp h
      exact ih (hr.feed hc) ht

end Reading

/-- A notation is read as a form whose classes have their members in order. -/
theorem isOrdered_read? {u : Text} {f : Form} (h : Form.read? u = some f) : f.IsOrdered := by
  obtain ⟨r, hr, hfinish⟩ := Option.bind_eq_some_iff.mp h
  obtain ⟨-, rfl⟩ := Reading.finish_eq_some hfinish
  exact (Reading.isOrdered_start.feedAll hr).frame.toForm

end Pattern
end Decaf
