/-
What a pattern with a bar finds.

A bar between two notations, each of which can be read by itself, makes a pattern
that is tied to the start of the text as a whole.  It finds a match exactly if one of
the two does, and then what the first finds, or else what the second finds, even if
that is longer.  Only the last can fail, and only where something that can be taken in
several ways is taken out in front of alternatives (`find?_bar`):

    [ab]a|[ab]ab    [ab](?:a|ab)    finds "ba" in "bab", as [ab]a does
    .*a|.*b         .*[ab]          finds "ab" in "ab", although .*a finds "a"

In the second, `.*` has its turn before the alternatives do, and prefers the longer
text.  The law fails in no other way, but it need not fail in this one: `a*b|a*c`
becomes `a*[bc]`, and still finds what its first alternative does, or else what its
second does.
-/
import Decaf.Proofs.Pattern.Classes
import Decaf.Proofs.Pattern.Nesting
import Decaf.Proofs.Pattern.Reaching

namespace Decaf
namespace Pattern

/-- Something that can be taken in several ways is taken out in front of some
alternatives.  Which match is preferred may change by that, and need not. -/
def Expr.takesOutLoose (es : List Expr) : Bool := (takenOut es).any fun x => !x.isRigid

variable {u v t : Text} {f g : Form} {p q r : Pattern}

/-- A pattern whose notation can be read by itself finds something exactly if one of its
alternatives does at the start of the text. -/
theorem isSome_find?_iff (hf : Form.read? u = some f) (hp : compile u = .ok p) :
    (p.find? t).isSome = true ↔ ∃ e ∈ f.options, (e.found none t).isSome = true := by
  rw [find?_eq_found (expr_of_compile hf hp)]
  exact Expr.isSome_found_anyOf (Form.isNormal_options (isOrdered_read? hf))

/-- It finds what the first of its alternatives finds that finds anything, unless
something loose is taken out of these. -/
theorem find?_eq_findSome? (hf : Form.read? u = some f) (hp : compile u = .ok p)
    (hloose : Expr.takesOutLoose f.options = false) :
    p.find? t = f.options.findSome? fun e => e.found none t := by
  rw [find?_eq_found (expr_of_compile hf hp)]
  refine Expr.found_anyOf (Form.isNormal_options (isOrdered_read? hf)) fun x hx => ?_
  simpa using List.any_eq_false.mp hloose x hx

/-- It finds a beginning of the text. -/
theorem isPrefix_of_read? (hf : Form.read? u = some f) (hp : compile u = .ok p) :
    ∀ m ∈ p.find? t, m <+: t := by
  intro m hm
  refine isPrefix_of_isTiedToStart ?_ hm
  rw [expr_of_compile hf hp]
  exact Expr.isTiedToStart_tied _

/-- A bar between two notations makes a pattern that finds a beginning of the text, if
one of the two patterns finds one.  It is what the first of them finds, or else what the
second finds, unless something loose is taken out in front of the alternatives of one
of them or of both together; that is needed for another match, but does not always
lead to one. -/
theorem find?_bar (hf : Form.read? u = some f) (hg : Form.read? v = some g)
    (hp : compile u = .ok p) (hq : compile v = .ok q) (hr : compile (u ++ '|' :: v) = .ok r) :
    (∀ m ∈ r.find? t, m <+: t) ∧
      ((r.find? t).isSome = true ↔ (p.find? t).isSome = true ∨ (q.find? t).isSome = true) ∧
      (r.find? t = (p.find? t).or (q.find? t) ∨
        ∃ es ∈ [f.options, g.options, f.options ++ g.options], Expr.takesOutLoose es = true) := by
  obtain ⟨h, hh, hoptions⟩ := options_bar hf hg
  refine ⟨isPrefix_of_read? hh hr, ?_, ?_⟩
  · rw [isSome_find?_iff hf hp, isSome_find?_iff hg hq, isSome_find?_iff hh hr, hoptions]
    simp only [List.mem_append, or_and_right, exists_or]
  · by_cases hloose : ∃ es ∈ [f.options, g.options, f.options ++ g.options],
        Expr.takesOutLoose es = true
    · exact .inr hloose
    · have hrigid : ∀ es ∈ [f.options, g.options, f.options ++ g.options],
          Expr.takesOutLoose es = false :=
        fun es hes => Bool.eq_false_iff.mpr fun h => hloose ⟨es, hes, h⟩
      refine .inl ?_
      rw [find?_eq_findSome? hf hp (hrigid _ (by simp)),
        find?_eq_findSome? hg hq (hrigid _ (by simp)),
        find?_eq_findSome? hh hr (hoptions ▸ hrigid _ (by simp)), hoptions, List.findSome?_append]

/-! ## Alternatives that begin alike -/

/-- An `a` or a `b`, as a class. -/
def aOrB : Form := .bracket false [('a', 'a'), ('b', 'b')]

def shorter : Pattern where
  source := "[ab]a".toList
  expr := .tied (.seq (.set ⟨[(97, 98)]⟩) (.char 'a'))
  reads := rfl

def longer : Pattern where
  source := "[ab]ab".toList
  expr := .tied (.seq (.set ⟨[(97, 98)]⟩) (.text "ab".toList))
  reads := rfl

def shorterOrLonger : Pattern where
  source := "[ab]a|[ab]ab".toList
  expr := .tied (.seq (.set ⟨[(97, 98)]⟩) (.alt (.char 'a') (.text "ab".toList)))
  reads := rfl

/-- Of two alternatives that begin alike the first is taken, even where the second
matches more. -/
theorem find?_shorterOrLonger :
    compile ("[ab]a".toList ++ '|' :: "[ab]ab".toList) = .ok shorterOrLonger ∧
      longer.find? "bab".toList = some "bab".toList ∧
      shorterOrLonger.find? "bab".toList = some "ba".toList := by
  have hshorter : shorter.find? "bab".toList = some "ba".toList := by
    rw [find?_eq_before shorter rfl rfl]
    rfl
  have hlonger : longer.find? "bab".toList = some "bab".toList := by
    rw [find?_eq_before longer rfl rfl]
    rfl
  obtain ⟨-, -, hfind | hloose⟩ := find?_bar (u := "[ab]a".toList) (v := "[ab]ab".toList)
    (t := "bab".toList) (f := .seq aOrB (.char 'a'))
    (g := .seq aOrB (.seq (.char 'a') (.char 'b'))) rfl rfl (compile_source shorter)
    (compile_source longer) (compile_source shorterOrLonger)
  · refine ⟨compile_source shorterOrLonger, hlonger, ?_⟩
    rw [hfind, hshorter]
    rfl
  · exact absurd hloose (by decide)

def untilA : Pattern where
  source := ".*a".toList
  expr := .tied (.seq (.rep .greedy 0 none (.set .dot)) (.char 'a'))
  reads := rfl

def untilB : Pattern where
  source := ".*b".toList
  expr := .tied (.seq (.rep .greedy 0 none (.set .dot)) (.char 'b'))
  reads := rfl

def untilAOrB : Pattern where
  source := ".*a|.*b".toList
  expr := .tied (.seq (.rep .greedy 0 none (.set .dot)) (.set ⟨[(97, 98)]⟩))
  reads := rfl

/-- Of two alternatives that begin alike with something loose the second is taken where
the first is found as well. -/
theorem find?_untilAOrB :
    (Form.read? ".*a".toList).isSome = true ∧ (Form.read? ".*b".toList).isSome = true ∧
      compile ".*a".toList = .ok untilA ∧ compile ".*b".toList = .ok untilB ∧
      compile (".*a".toList ++ '|' :: ".*b".toList) = .ok untilAOrB ∧
      untilA.find? "ab".toList = some "a".toList ∧
      untilAOrB.find? "ab".toList = some "ab".toList ∧
      untilAOrB.find? "ab".toList ≠ (untilA.find? "ab".toList).or (untilB.find? "ab".toList) := by
  have hfirst : untilA.find? "ab".toList = some "a".toList := by
    rw [find?_eq_before untilA rfl rfl]
    rfl
  have hboth : untilAOrB.find? "ab".toList = some "ab".toList := by
    rw [find?_eq_before untilAOrB rfl rfl]
    rfl
  refine ⟨rfl, rfl, compile_source untilA, compile_source untilB, compile_source untilAOrB,
    hfirst, hboth, ?_⟩
  rw [hfirst, hboth, Option.some_or]
  decide

end Pattern
end Decaf
