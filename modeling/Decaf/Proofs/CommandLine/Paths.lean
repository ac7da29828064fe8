/-
What a path leads to.

A path that starts in a directory is read part by part.  Of the parts, an empty one and
a single dot lead nowhere else, the name of an entry leads to it, and two dots lead
back, but only from a further directory; what such a directory holds is not known:

    x   ./x   .//x         the entry x
    d/   d/.               the directory d
    d/../x                 the entry x, if d is a directory
    x/y   ../x   /x        nothing

`LeadsTo` says so without following the path.  It is what following the path finds
(`follow_none_eq_some_iff`), so a path without a slash finds just the entry of its name
(`lookup?_of_not_mem`).
-/
import Decaf.Source

namespace Decaf
namespace Directory

variable {d : Directory} {name path : Text} {parts heres rest : List Text} {e : Entry}

/-! ## The parts of a path -/

/-- The parts of a path lead from the directory itself to an entry. -/
inductive LeadsTo (d : Directory) : List Text → Entry → Prop
  | itself : LeadsTo d [] .directory
  | here {part : Text} {parts : List Text} {e : Entry} : isHere part = true →
      LeadsTo d parts e → LeadsTo d (part :: parts) e
  | entry {name : Text} {heres : List Text} {e : Entry} : isHere name = false →
      d.entry? name = some e → (∀ part ∈ heres, isHere part = true) →
      heres = [] ∨ e = .directory → LeadsTo d (name :: heres) e
  | back {name : Text} {heres parts : List Text} {e : Entry} : isHere name = false →
      d.entry? name = some .directory → (∀ part ∈ heres, isHere part = true) →
      LeadsTo d parts e → LeadsTo d (name :: (heres ++ ['.', '.'] :: parts)) e

/-- Behind the name of a directory, a part that leads nowhere else may stand. -/
theorem LeadsTo.insert {part : Text} (h : LeadsTo d (name :: parts) e)
    (hname : isHere name = false) (hdir : d.entry? name = some .directory)
    (hpart : isHere part = true) : LeadsTo d (name :: part :: parts) e := by
  cases h with
  | here hhere _ =>
      rw [hname] at hhere
      cases hhere
  | entry _ hentry hheres _ =>
      obtain rfl : Entry.directory = e := Option.some.inj (hdir.symm.trans hentry)
      exact .entry hname hdir (List.forall_mem_cons.mpr ⟨hpart, hheres⟩) (.inr rfl)
  | @back _ heres parts _ _ _ hheres hback =>
      change LeadsTo d (name :: ((part :: heres) ++ ['.', '.'] :: parts)) e
      exact .back hname hdir (List.forall_mem_cons.mpr ⟨hpart, hheres⟩) hback

/-- A name by itself leads to its entry alone. -/
theorem LeadsTo.entry?_eq (h : LeadsTo d [name] e) (hname : isHere name = false) :
    d.entry? name = some e := by
  generalize hparts : [name] = parts at h
  cases h with
  | itself => cases hparts
  | here hhere _ =>
      cases hparts
      rw [hname] at hhere
      cases hhere
  | entry _ hentry _ _ =>
      cases hparts
      exact hentry
  | back =>
      -- Two dots stand behind the name that they lead back from.
      obtain ⟨-, hnil⟩ := List.cons.inj hparts
      exact absurd hnil.symm (List.append_ne_nil_of_right_ne_nil _ (List.cons_ne_nil _ _))

/-- What the parts lead to from a place is what they lead to behind the name of that
place. -/
theorem leadsTo_of_follow {place : Option Text} (h : d.follow place parts = some e)
    (hplace : ∀ name ∈ place, isHere name = false) : LeadsTo d (place.toList ++ parts) e := by
  fun_induction Directory.follow d place parts with
  | case1 =>
      cases h
      exact .itself
  | case2 name => exact .entry (hplace name rfl) h nofun (.inl rfl)
  | case3 part parts hpart ih => exact .here hpart (ih h nofun)
  | case4 part parts hpart hentry ih =>
      refine ih h ?_
      rintro name ⟨⟩
      exact Bool.eq_false_iff.mpr hpart
  | case5 => cases h
  | case6 name part parts hdir hpart ih =>
      exact (ih h hplace).insert (hplace name rfl) hdir hpart
  | case7 name parts hdir _ ih =>
      change LeadsTo d (name :: ([] ++ ['.', '.'] :: parts)) e
      exact .back (hplace name rfl) hdir nofun (ih h nofun)
  | case8 => cases h
  | case9 => cases h

theorem follow_some_append (hdir : d.entry? name = some .directory)
    (hheres : ∀ part ∈ heres, isHere part = true) :
    d.follow (some name) (heres ++ rest) = d.follow (some name) rest := by
  induction heres with
  | nil => rfl
  | cons part heres ih =>
      obtain ⟨hpart, hheres⟩ := List.forall_mem_cons.mp hheres
      rw [List.cons_append, Directory.follow, if_pos hdir, if_pos hpart, ih hheres]

theorem follow_none_cons (hname : isHere name = false) (hentry : d.entry? name = some e) :
    d.follow none (name :: parts) = d.follow (some name) parts := by
  rw [Directory.follow, if_neg (Bool.eq_false_iff.mp hname), hentry]
  rfl

/-- The parts of a path are followed to where they lead. -/
theorem follow_none_eq_some_iff : d.follow none parts = some e ↔ LeadsTo d parts e := by
  constructor
  · exact fun h => leadsTo_of_follow h nofun
  · intro h
    induction h with
    | itself => rfl
    | here hpart _ ih => rw [Directory.follow, if_pos hpart, ih]
    | @entry name heres e hname hentry hheres hkind =>
        rw [follow_none_cons hname hentry]
        rcases hkind with rfl | rfl
        · exact hentry
        · rw [← List.append_nil heres, follow_some_append hentry hheres]
          exact hentry
    | back hname hdir hheres _ ih =>
        rw [follow_none_cons hname hdir, follow_some_append hdir hheres, Directory.follow,
          if_pos hdir]
        exact ih

/-! ## Paths -/

/-- A path finds the entry of that name, or else, if it does not start at the root, what
its parts lead to. -/
theorem lookup?_eq_some_iff : d.lookup? path = some e ↔
    d.entry? path = some e ∨ d.entry? path = none ∧ path ≠ [] ∧ path.head? ≠ some '/' ∧
      LeadsTo d (path.splitOn '/') e := by
  rw [lookup?, Option.or_eq_some_iff, ← follow_none_eq_some_iff]
  refine or_congr Iff.rfl (and_congr_right fun _ => ?_)
  split
  · rename_i h
    refine iff_of_false nofun ?_
    rintro ⟨hne, hhead, -⟩
    simp [hne, hhead] at h
  · rename_i h
    simp only [Bool.or_eq_true, List.isEmpty_iff, decide_eq_true_eq, not_or] at h
    exact ⟨fun hfollow => ⟨h.1, h.2, hfollow⟩, fun hfollow => hfollow.2.2⟩

/-- A name finds its entry. -/
theorem lookup?_of_entry? (h : d.entry? path = some e) : d.lookup? path = some e :=
  lookup?_eq_some_iff.mpr (.inl h)

/-- A path without a slash finds the entry of that name, or nothing if there is none. -/
theorem lookup?_of_not_mem (hslash : '/' ∉ path) (hdot : path ≠ ['.']) :
    d.lookup? path = d.entry? path := by
  cases hentry : d.entry? path with
  | some e => exact lookup?_of_entry? hentry
  | none =>
      refine Option.eq_none_iff_forall_ne_some.mpr fun e he => ?_
      rcases lookup?_eq_some_iff.mp he with hsome | ⟨-, hne, -, hleads⟩
      · rw [hentry] at hsome
        cases hsome
      · have hparts : path.splitOn '/' = [path] :=
          List.splitOnP_eq_singleton fun c hc => beq_eq_false_iff_ne.mpr fun h => hslash (h ▸ hc)
        have hname : isHere path = false := by simp [isHere, hne, hdot]
        rw [hparts] at hleads
        rw [hleads.entry?_eq hname] at hentry
        cases hentry

end Directory
end Decaf
