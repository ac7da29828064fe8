/-
Reading a notation within another one.

What a notation that can be read by itself stands for does not change where it is
read behind a bar, or within a group: the groups that it opens are closed by it, so
what was read before only stands below these, untouched (`feed_within`).  So a bar
between two notations gives the choice between what both stand for (`options_bar`),
and the wrapping ties what the notation stands for to the start of the text
(`expr_of_compile`).
-/
import Decaf.Proofs.Pattern.Anchoring

namespace Decaf
namespace Pattern

/-! ## What a group stands for -/

namespace Frame

theorem options_choice (f : Form) (fs : List Form) :
    (choice f fs).options = (f :: fs).flatMap Form.options := by
  induction fs generalizing f with
  | nil => exact (List.flatMap_singleton Form.options f).symm
  | cons g fs ih =>
      rw [choice, Form.options, ih g]
      rfl

/-- A group gives the choice between what its alternatives stand for. -/
theorem options_toForm (f : Frame) :
    f.toForm.options = (f.branch :: f.branches).reverse.flatMap Form.options := by
  rw [toForm]
  split
  · rename_i h
    exact absurd (List.reverse_eq_nil_iff.mp h) (List.cons_ne_nil _ _)
  · rename_i g gs h
    rw [h, options_choice]

end Frame

/-! ## Parentheses that are pending -/

namespace Reading

variable {r r' : Reading} {c : Char} {t : Text}

/-- An opening parenthesis is pending only within the group that it opens. -/
def OpensWithin (r : Reading) : Prop := r.outer = [] → r.mode ≠ .opened ∧ r.mode ≠ .marked

theorem movePlain_ne_marked : movePlain c ≠ .within .marked := by
  intro h
  unfold movePlain at h
  split at h <;> cases h

theorem move_eq_marked {m : Mode} (h : move m c = .within .marked) : m = .opened := by
  unfold move at h
  split at h
  · exact absurd h movePlain_ne_marked
  · rfl
  · cases h
  · split at h
    · cases h
    · exact absurd h movePlain_ne_marked
  · cases h
  · split at h <;> cases h
  · split at h <;> cases h

theorem OpensWithin.feed (hr : r.OpensWithin) (h : r.feed c = some r') : r'.OpensWithin := by
  have hmoves := moves_feed h
  generalize hmove : move r.mode c = k at hmoves
  cases hmoves with
  | within =>
      refine fun houter => ⟨?_, ?_⟩
      · rintro rfl
        exact move_ne_opened hmove
      · rintro rfl
        exact (hr houter).1 (move_eq_marked hmove)
  | opens => exact nofun
  | bar | closes => exact fun _ => ⟨nofun, nofun⟩

/-- Where a form has been read, nothing or no more than a question mark is pending. -/
theorem mode_of_finish {f : Form} (h : r.finish = some f) :
    r.mode = .plain ∨ r.mode = .repeated := by
  unfold finish at h
  split at h
  · exact .inl ‹_›
  · exact .inr ‹_›
  · cases h

theorem finish_of_mode (houter : r.outer = []) (hr : r.mode = .plain ∨ r.mode = .repeated) :
    r.finish = some r.frame.toForm := by
  rcases hr with hr | hr
  · rw [finish, houter, hr]
  · rw [finish, houter, hr]

theorem feed_eq_feedPlain (hr : r.mode = .plain ∨ r.mode = .repeated) (hc : c ≠ '?') :
    r.feed c = r.feedPlain c := by
  rcases hr with hr | hr
  · rw [feed, hr]
  · rw [feed, hr]
    exact if_neg hc

end Reading

/-! ## Groups that are begun -/

/-- What is read before a notation: of the innermost group, some alternatives, and
the groups around it. -/
structure Context where
  own : Bool
  branches : List Form
  outer : List Frame

namespace Context

variable (k : Context) {r s : Reading} {c : Char} {t : Text}

/-- The innermost group of the context, once more is read of it. -/
def frame (f : Frame) : Frame := ⟨k.own, f.branches ++ k.branches, f.items⟩

/-- The groups around the innermost one, in the context. -/
def stack : List Frame → List Frame
  | [] => k.outer
  | [f] => k.frame f :: k.outer
  | f :: g :: fs => f :: stack (g :: fs)

/-- A reading, in the context. -/
def within (r : Reading) : Reading :=
  match r.outer with
  | [] => ⟨k.frame r.frame, k.outer, r.mode⟩
  | f :: fs => ⟨r.frame, k.stack (f :: fs), r.mode⟩

theorem within_of_outer (hr : r.outer = []) : k.within r = ⟨k.frame r.frame, k.outer, r.mode⟩ := by
  rw [within, hr]

theorem mode_within (r : Reading) : (k.within r).mode = r.mode := by
  rw [within]
  split <;> rfl

/-- What is done to the innermost group alone is done alike in the context. -/
theorem within_update (r : Reading) (g : Frame → Frame) (hg : ∀ f, g (k.frame f) = k.frame (g f))
    (m : Mode) : { k.within r with frame := g (k.within r).frame, mode := m } =
      k.within { r with frame := g r.frame, mode := m } := by
  obtain ⟨f, outer, m'⟩ := r
  cases outer with
  | nil => exact congrArg (Reading.mk · k.outer m) (hg f)
  | cons f' fs => rfl

theorem within_mode (r : Reading) (m : Mode) :
    { k.within r with mode := m } = k.within { r with mode := m } :=
  k.within_update r id (fun _ => rfl) m

theorem within_push (r : Reading) (item : Form) : (k.within r).push item = k.within (r.push item) :=
  k.within_update r (·.push item) (fun _ => rfl) .plain

theorem within_bar (r : Reading) :
    { k.within r with frame := (k.within r).frame.bar, mode := .plain } =
      k.within { r with frame := r.frame.bar, mode := .plain } :=
  k.within_update r Frame.bar (fun _ => rfl) .plain

theorem within_lazyLast (r : Reading) :
    { k.within r with frame := (k.within r).frame.lazyLast, mode := .plain } =
      k.within { r with frame := r.frame.lazyLast, mode := .plain } := by
  refine k.within_update r Frame.lazyLast (fun f => ?_) .plain
  obtain ⟨own, branches, items⟩ := f
  simp only [Frame.lazyLast, frame]
  split <;> rfl

theorem items_within (r : Reading) : (k.within r).frame.items = r.frame.items := by
  rw [within]
  split <;> rfl

theorem within_repeatLast {min : Nat} {max : Option Nat} (h : r.repeatLast min max = some s) :
    (k.within r).repeatLast min max = some (k.within s) := by
  obtain ⟨f, hf, rfl⟩ := Option.map_eq_some_iff.mp h
  rw [Frame.repeatLast] at hf
  split at hf
  · cases hf
  · rename_i item items hitems
    cases hf
    rw [Reading.repeatLast, Frame.repeatLast, items_within, hitems]
    exact congrArg some (k.within_update r
      (fun f => { f with items := .rep .greedy min max item :: items }) (fun _ => rfl) .repeated)

theorem feedPlain_within (h : r.feedPlain c = some s) :
    (k.within r).feedPlain c = some (k.within s) := by
  unfold Reading.feedPlain at h ⊢
  split at h
  · cases h
    obtain ⟨f, outer, m⟩ := r
    cases outer <;> rfl
  · obtain ⟨f, outer, m⟩ := r
    match outer, h with
    | [g], h => cases h; rfl
    | g :: g' :: outer, h => cases h; rfl
  · cases h
    exact congrArg some (k.within_bar r)
  · cases h
    exact congrArg some (k.within_mode r _)
  · cases h
    exact congrArg some (k.within_mode r _)
  · cases h
    exact congrArg some (k.within_push r _)
  · cases h
    exact congrArg some (k.within_push r _)
  · cases h
    exact congrArg some (k.within_push r _)
  · exact k.within_repeatLast h
  · exact k.within_repeatLast h
  · exact k.within_repeatLast h
  · rw [items_within]
    split at h
    · cases h
    · rename_i hitems
      cases h
      rw [if_neg hitems]
      exact congrArg some (k.within_mode r _)
  · cases h
    exact congrArg some (k.within_push r _)

/-- A character is read in the context as it is by itself. -/
theorem feed_within (hr : r.OpensWithin) (h : r.feed c = some s) :
    (k.within r).feed c = some (k.within s) := by
  unfold Reading.feed at h ⊢
  rw [mode_within]
  split at h
  · exact k.feedPlain_within h
  · split at h
    · rename_i hc
      cases h
      rw [if_pos hc]
      exact congrArg some (k.within_mode r .marked)
    · rename_i hc
      rw [if_neg hc]
      exact k.feedPlain_within h
  · rename_i hmode
    split at h
    · rename_i hc
      cases h
      rw [if_pos hc]
      obtain ⟨f, outer, m⟩ := r
      cases outer with
      | nil => exact absurd hmode (hr rfl).2
      | cons g outer => rfl
    · cases h
  · split at h
    · rename_i hc
      cases h
      rw [if_pos hc]
      exact congrArg some (k.within_lazyLast r)
    · rename_i hc
      rw [if_neg hc]
      exact k.feedPlain_within h
  · split at h
    · rename_i hc
      cases h
      rw [if_pos hc]
      exact congrArg some (k.within_push r _)
    · rename_i hc
      obtain ⟨e, he, rfl⟩ := Option.map_eq_some_iff.mp h
      rw [if_neg hc, he]
      exact congrArg some (k.within_push r _)
  · obtain ⟨x, hx, rfl⟩ := Option.map_eq_some_iff.mp h
    rw [hx]
    cases x with
    | inl b => exact congrArg some (k.within_mode r _)
    | inr f => exact congrArg some (k.within_push r f)
  · obtain ⟨x, hx, hs⟩ := Option.bind_eq_some_iff.mp h
    rw [hx]
    cases x with
    | inl b =>
        cases hs
        exact congrArg some (k.within_mode r _)
    | inr bounds => exact k.within_repeatLast hs

/-- A text is read in the context as it is by itself. -/
theorem feedAll_within (hr : r.OpensWithin) (h : r.feedAll t = some s) :
    (k.within r).feedAll t = some (k.within s) := by
  induction t generalizing r with
  | nil =>
      cases h
      rfl
  | cons c t ih =>
      obtain ⟨r', hc, ht⟩ := Option.bind_eq_some_iff.mp h
      exact Option.bind_eq_some_iff.mpr
        ⟨k.within r', k.feed_within hr hc, ih (hr.feed hc) ht⟩

end Context

/-! ## Bars and wrappers -/

variable {u v : Text} {f g : Form}

theorem opensWithin_start : Reading.start.OpensWithin := fun _ => ⟨nofun, nofun⟩

theorem exists_of_read? (h : Form.read? u = some f) :
    ∃ r, Reading.start.feedAll u = some r ∧ r.finish = some f :=
  Option.bind_eq_some_iff.mp h

/-- A bar between two notations gives the choice between what the first stands for
and what the second stands for. -/
theorem options_bar (hf : Form.read? u = some f) (hg : Form.read? v = some g) :
    ∃ h, Form.read? (u ++ '|' :: v) = some h ∧ h.options = f.options ++ g.options := by
  obtain ⟨r, hr, hrf⟩ := exists_of_read? hf
  obtain ⟨s, hs, hsg⟩ := exists_of_read? hg
  obtain ⟨hr₀, hrform⟩ := Reading.finish_eq_some hrf
  obtain ⟨hs₀, hsform⟩ := Reading.finish_eq_some hsg
  let k : Context := ⟨r.frame.own, r.frame.bar.branches, []⟩
  have hbar : r.feed '|' = some (k.within .start) := by
    rw [Reading.feed_eq_feedPlain (Reading.mode_of_finish hrf) (by decide), Reading.feedPlain, hr₀]
    rfl
  have hread : r.feedAll ('|' :: v) = some (k.within s) :=
    Option.bind_eq_some_iff.mpr ⟨_, hbar, k.feedAll_within opensWithin_start hs⟩
  refine ⟨(k.frame s.frame).toForm, ?_, ?_⟩
  · rw [Form.read?, Reading.feedAll_append, hr, Option.bind_some, hread, Option.bind_some,
      k.within_of_outer hs₀]
    have hmode := Reading.mode_of_finish hsg
    exact Reading.finish_of_mode rfl hmode
  · -- The alternatives are kept last first.
    rw [← hrform, ← hsform, Frame.options_toForm, Frame.options_toForm, Frame.options_toForm,
      ← List.flatMap_append, ← List.reverse_append]
    rfl

/-- A notation that can be read by itself is read within the wrapper as it is by
itself. -/
theorem read?_anchored (hf : Form.read? u = some f) :
    Form.read? (anchored u) = some (.seq (.look .start) (.group false f)) := by
  obtain ⟨r, hr, hrf⟩ := exists_of_read? hf
  obtain ⟨hr₀, hrform⟩ := Reading.finish_eq_some hrf
  let k : Context := ⟨false, [], [⟨true, [], [.look .start]⟩]⟩
  have hinner : wrapped.feedAll u = some (k.within r) := k.feedAll_within opensWithin_start hr
  have hform : (k.frame r.frame).toForm = f := by
    rw [Context.frame, List.append_nil]
    exact hrform
  have hclose : (k.within r).feedAll [')'] =
      some ⟨⟨true, [], [.group false f, .look .start]⟩, [], .plain⟩ := by
    have hmode : (k.within r).mode = .plain ∨ (k.within r).mode = .repeated :=
      k.mode_within r ▸ Reading.mode_of_finish hrf
    rw [Reading.feedAll, List.foldlM_cons, Reading.feed_eq_feedPlain hmode (by decide),
      k.within_of_outer hr₀, ← hform]
    rfl
  rw [anchored, List.append_assoc, read?_wrapped, Reading.feedAll_append, hinner, Option.bind_some,
    hclose]
  rfl

/-- A pattern whose notation can be read by itself is tied to the start of the text
as a whole. -/
theorem expr_of_compile {p : Pattern} (hf : Form.read? u = some f) (hp : compile u = .ok p) :
    p.expr = .tied (.anyOf f.options) := by
  have hreads : Expr.ofSource? u = some p.expr := source_of_compile hp ▸ p.reads
  rw [Expr.ofSource?, read?_anchored hf] at hreads
  obtain ⟨-, hexpr⟩ := Option.ite_some_none_eq_some.mp hreads
  exact hexpr.symm

end Pattern
end Decaf
