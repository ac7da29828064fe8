/-
Where a pattern finds its matches.

A pattern is tied to the start of the text by wrapping its notation as
`^(?:` … `)`.  The wrapping is done on the notation, so it holds a pattern
together only if the group that it opens is closed by it as well:

    a|b          ^(?:a|b)           found at the start only
    a)(?:b       ^(?:a)(?:b)        found at the start only
    a)|(?:b      ^(?:a)|(?:b)       the second alternative is found anywhere

Reading the wrapped notation keeps the anchor as the first member of the only
alternative, one character after another, until a bar is met where no group is
open (`Tied.feed`).  A pattern without such a bar finds nothing but beginnings
of the text (`isPrefix_or_breaksOut`).  A pattern that can be read by itself
has none, since reading it with or without the wrapping opens and closes the
same groups (`lockstep_feed`).
-/
import Decaf.Proofs.Pattern.Joining

namespace Decaf
namespace Pattern

open Text

/-! ## What one character does -/

namespace Reading

/-- What a character does to the groups of a reading. -/
inductive Move where
  /-- It goes on with the innermost group and leaves something pending. -/
  | within (m : Mode)
  | bar
  | opens
  | closes

/-- What a character does of which nothing before is pending. -/
def movePlain : Char → Move
  | '(' => .opens
  | ')' => .closes
  | '|' => .bar
  | '[' => .within (.bracket .start)
  | '\\' => .within .escaped
  | '*' | '+' | '?' => .within .repeated
  | '\x7b' => .within (.bounds .start)
  | _ => .within .plain

/-- What a character does, if it can be read at all.  It depends on what is
pending alone. -/
def move (m : Mode) (c : Char) : Move :=
  match m with
  | .plain => movePlain c
  | .opened => if c = '?' then .within .marked else movePlain c
  | .marked => .within .plain
  | .repeated => if c = '?' then .within .plain else movePlain c
  | .escaped => .within .plain
  | .bracket b =>
      match b.feed c with
      | some (.inl b') => .within (.bracket b')
      | _ => .within .plain
  | .bounds b =>
      match b.feed c with
      | some (.inl b') => .within (.bounds b')
      | _ => .within .repeated

/-- A reading is another one after a move.  Within a group all members are kept
but for the last. -/
inductive Moves (r : Reading) : Move → Reading → Prop
  | within {f : Frame} {m : Mode} : f.branches = r.frame.branches →
      r.frame.items.tail <:+ f.items.tail → Moves r (.within m) ⟨f, r.outer, m⟩
  | bar : Moves r .bar ⟨r.frame.bar, r.outer, .plain⟩
  | opens : Moves r .opens ⟨.start, r.frame :: r.outer, .opened⟩
  | closes {f : Frame} {outer : List Frame} {item : Form} : r.outer = f :: outer →
      Moves r .closes ⟨f.push item, outer, .plain⟩

variable {r r' : Reading} {c : Char} {t : Text}

theorem moves_pending (m : Mode) : Moves r (.within m) { r with mode := m } :=
  .within rfl (List.suffix_refl _)

theorem moves_push (item : Form) : Moves r (.within .plain) (r.push item) :=
  .within rfl (List.tail_suffix _)

theorem moves_repeatLast {min : Nat} {max : Option Nat} (h : r.repeatLast min max = some r') :
    Moves r (.within .repeated) r' := by
  obtain ⟨f, hf, rfl⟩ := Option.map_eq_some_iff.mp h
  rw [Frame.repeatLast] at hf
  split at hf
  · cases hf
  · rename_i item items hitems
    cases hf
    refine .within rfl ?_
    rw [hitems]
    exact List.suffix_refl items

theorem moves_lazyLast :
    Moves r (.within .plain) { r with frame := r.frame.lazyLast, mode := .plain } := by
  refine .within ?_ ?_
  · unfold Frame.lazyLast
    split <;> rfl
  · unfold Frame.lazyLast
    split
    · rename_i hitems
      rw [hitems]
      exact List.suffix_refl _
    · exact List.suffix_refl _

theorem moves_feedPlain (h : r.feedPlain c = some r') : Moves r (movePlain c) r' := by
  unfold feedPlain at h
  split at h
  · cases h
    exact .opens
  · split at h
    · cases h
    · cases h
      exact .closes ‹_›
  · cases h
    exact .bar
  · cases h
    exact moves_pending _
  · cases h
    exact moves_pending _
  · cases h
    exact moves_push _
  · cases h
    exact moves_push _
  · cases h
    exact moves_push _
  · exact moves_repeatLast h
  · exact moves_repeatLast h
  · exact moves_repeatLast h
  · split at h
    · cases h
    · cases h
      exact moves_pending _
  · have hplain : movePlain c = .within .plain := by
      unfold movePlain
      split <;> first | rfl | contradiction
    cases h
    rw [hplain]
    exact moves_push _

theorem moves_feed (h : r.feed c = some r') : Moves r (move r.mode c) r' := by
  unfold feed at h
  split at h
  · rename_i hmode
    rw [hmode]
    exact moves_feedPlain h
  · rename_i hmode
    rw [hmode, move]
    split at h
    · cases h
      rw [if_pos ‹_›]
      exact moves_pending _
    · rw [if_neg ‹_›]
      exact moves_feedPlain h
  · rename_i hmode
    rw [hmode]
    split at h
    · cases h
      exact .within rfl (List.suffix_refl _)
    · cases h
  · rename_i hmode
    rw [hmode, move]
    split at h
    · cases h
      rw [if_pos ‹_›]
      exact moves_lazyLast
    · rw [if_neg ‹_›]
      exact moves_feedPlain h
  · rename_i hmode
    rw [hmode]
    split at h
    · cases h
      exact moves_push _
    · obtain ⟨e, -, rfl⟩ := Option.map_eq_some_iff.mp h
      exact moves_push _
  · rename_i b hmode
    obtain ⟨x, hx, rfl⟩ := Option.map_eq_some_iff.mp h
    rw [hmode, move, hx]
    cases x with
    | inl b' => exact moves_pending _
    | inr f => exact moves_push f
  · rename_i b hmode
    obtain ⟨x, hx, hr⟩ := Option.bind_eq_some_iff.mp h
    rw [hmode, move, hx]
    cases x with
    | inl b' =>
        cases hr
        exact moves_pending _
    | inr bounds => exact moves_repeatLast hr

theorem movePlain_eq_bar (h : movePlain c = .bar) : c = '|' := by
  unfold movePlain at h
  split at h <;> first | rfl | cases h

theorem movePlain_ne_opened : movePlain c ≠ .within .opened := by
  intro h
  unfold movePlain at h
  split at h <;> cases h

/-- Another alternative begins with a bar, where nothing or no more than a
question mark is pending. -/
theorem move_eq_bar {m : Mode} (h : move m c = .bar) :
    c = '|' ∧ (m = .plain ∨ m = .opened ∨ m = .repeated) := by
  unfold move at h
  split at h
  · exact ⟨movePlain_eq_bar h, .inl rfl⟩
  · split at h
    · cases h
    · exact ⟨movePlain_eq_bar h, .inr (.inl rfl)⟩
  · cases h
  · split at h
    · cases h
    · exact ⟨movePlain_eq_bar h, .inr (.inr rfl)⟩
  · cases h
  · split at h <;> cases h
  · split at h <;> cases h

theorem move_ne_opened {m : Mode} : move m c ≠ .within .opened := by
  intro h
  unfold move at h
  split at h
  · exact movePlain_ne_opened h
  · split at h
    · cases h
    · exact movePlain_ne_opened h
  · cases h
  · split at h
    · cases h
    · exact movePlain_ne_opened h
  · cases h
  · split at h <;> cases h
  · split at h <;> cases h

/-! ## The anchor in front -/

/-- The outermost group has one alternative, which begins with the anchor for
the start of the text.  Its last member is another one, unless the innermost
group lies within it. -/
inductive Tied : Reading → Prop
  | outside {f : Frame} {m : Mode} : f.branches = [] → [.look .start] <:+ f.items.tail →
      m ≠ .opened → Tied ⟨f, [], m⟩
  | inside {f g : Frame} {outer : List Frame} {m : Mode} : outer.getLast? = some g →
      g.branches = [] → [.look .start] <:+ g.items → Tied ⟨f, outer, m⟩

/-- A character keeps the anchor in front, but for a bar where no group is
open. -/
theorem Tied.feed (hr : r.Tied) (h : r.feed c = some r') :
    r'.Tied ∨ c = '|' ∧ r.finish.isSome = true := by
  have hmoves := moves_feed h
  generalize hmove : move r.mode c = k at hmoves
  cases hr with
  | @outside f m hbranches hitems hopened =>
      cases hmoves with
      | within hb hi =>
          refine .inl (.outside (hb.trans hbranches) (hitems.trans hi) ?_)
          rintro rfl
          exact move_ne_opened hmove
      | bar =>
          obtain ⟨hc, hmode⟩ := move_eq_bar hmove
          refine .inr ⟨hc, ?_⟩
          rcases hmode with rfl | rfl | rfl
          · rfl
          · exact absurd rfl hopened
          · rfl
      | opens => exact .inl (.inside rfl hbranches (hitems.trans (List.tail_suffix _)))
      | closes houter => cases houter
  | @inside f g outer m hlast hbranches hitems =>
      cases hmoves with
      | within | bar => exact .inl (.inside hlast hbranches hitems)
      | opens =>
          refine .inl (.inside ?_ hbranches hitems)
          rw [List.getLast?_cons, hlast]
          rfl
      | @closes f' outer' item houter =>
          obtain rfl : outer = f' :: outer' := houter
          cases outer' with
          | nil =>
              cases hlast
              exact .inl (.outside hbranches hitems nofun)
          | cons g' outer' => exact .inl (.inside hlast hbranches hitems)

/-- A text keeps the anchor in front, unless it has a bar where no group is
open. -/
theorem Tied.feedAll (hr : r.Tied) (h : r.feedAll t = some r') :
    r'.Tied ∨ ∃ u v r₁, t = u ++ '|' :: v ∧ r.feedAll u = some r₁ ∧ r₁.finish.isSome = true := by
  induction t generalizing r with
  | nil =>
      cases h
      exact .inl hr
  | cons c t ih =>
      obtain ⟨r₁, hc, ht⟩ := Option.bind_eq_some_iff.mp h
      rcases hr.feed hc with hr₁ | ⟨rfl, hfinish⟩
      · refine (ih hr₁ ht).imp_right ?_
        rintro ⟨u, v, r₂, rfl, hu, hfinish⟩
        refine ⟨c :: u, v, r₂, rfl, ?_, hfinish⟩
        exact Option.bind_eq_some_iff.mpr ⟨r₁, hc, hu⟩
      · exact .inr ⟨[], t, r, rfl, rfl, hfinish⟩

/-- What has been read is a form only if no group is open. -/
theorem finish_eq_some {f : Form} (h : r.finish = some f) :
    r.outer = [] ∧ r.frame.toForm = f := by
  unfold finish at h
  split at h
  · exact ⟨‹_›, Option.some.inj h⟩
  · exact ⟨‹_›, Option.some.inj h⟩
  · cases h

/-- The form that is read with the anchor in front begins with it. -/
theorem Tied.exists_seq {f : Form} (hr : r.Tied) (h : r.finish = some f) :
    ∃ a, f = .seq (.look .start) a := by
  obtain ⟨houter, hform⟩ := finish_eq_some h
  cases hr with
  | @outside g m hbranches hitems =>
      obtain ⟨front, hfront⟩ := hitems
      obtain ⟨x, hx⟩ : ∃ x, g.items = x :: (front ++ [.look .start]) := by
        cases hg : g.items with
        | nil => simp [hg] at hfront
        | cons x items => exact ⟨x, by rw [hfront, hg, List.tail_cons]⟩
      -- The members are kept last first.
      have hreverse : g.items.reverse = .look .start :: (front.reverse ++ [x]) := by
        simp [hx]
      have hne : front.reverse ++ [x] ≠ [] :=
        List.append_ne_nil_of_right_ne_nil front.reverse (List.cons_ne_nil x [])
      obtain ⟨y, ys, hys⟩ := List.exists_cons_of_ne_nil hne
      rw [hys] at hreverse
      refine ⟨Frame.sequence (y :: ys), ?_⟩
      rw [← hform, Frame.toForm, hbranches, Frame.branch, hreverse]
      rfl
  | inside hlast =>
      obtain rfl := houter
      cases hlast

/-! ## Reading with and without the wrapper -/

variable {r₁ r₁' : Reading}

/-- Two readings in the same mode that can both read a character are in the same
mode behind it, and one has as many open groups more than the other as
before. -/
theorem lockstep_feed (hmode : r.mode = r₁.mode) (h : r.feed c = some r')
    (h₁ : r₁.feed c = some r₁') :
    r'.mode = r₁'.mode ∧ r'.outer.length + r₁.outer.length = r₁'.outer.length + r.outer.length := by
  have hmoves := moves_feed h
  have hmoves₁ := moves_feed h₁
  rw [← hmode] at hmoves₁
  generalize move r.mode c = k at hmoves hmoves₁
  cases hmoves with
  | within | bar =>
      cases hmoves₁
      exact ⟨rfl, Nat.add_comm _ _⟩
  | opens =>
      cases hmoves₁
      exact ⟨rfl, by simp only [List.length_cons]; omega⟩
  | closes houter =>
      cases hmoves₁ with
      | closes houter₁ =>
          rw [houter, houter₁]
          exact ⟨rfl, by simp only [List.length_cons]; omega⟩

/-- Two readings that begin in the same mode and can both read a text have as
many groups more or less than each other behind it as before. -/
theorem lockstep_feedAll (hmode : r.mode = r₁.mode) (h : r.feedAll t = some r')
    (h₁ : r₁.feedAll t = some r₁') :
    r'.outer.length + r₁.outer.length = r₁'.outer.length + r.outer.length := by
  induction t generalizing r r₁ with
  | nil =>
      cases h
      cases h₁
      exact Nat.add_comm _ _
  | cons c t ih =>
      obtain ⟨s, hc, ht⟩ := Option.bind_eq_some_iff.mp h
      obtain ⟨s₁, hc₁, ht₁⟩ := Option.bind_eq_some_iff.mp h₁
      obtain ⟨hmode', houter⟩ := lockstep_feed hmode hc hc₁
      have hrest := ih hmode' ht ht₁
      omega

end Reading

/-! ## Patterns that are tied to the start -/

theorem Form.isTiedToStart_expr (a : Form) :
    (Form.seq (.look .start) a).expr.isTiedToStart = true :=
  Expr.isTiedToStart_tied (.anyOf a.options)

/-- The reading of a notation that is wrapped begins in a group, behind the
anchor. -/
def wrapped : Reading := ⟨⟨false, [], []⟩, [⟨true, [], [.look .start]⟩], .plain⟩

theorem feedAll_wrapper : Reading.start.feedAll "^(?:".toList = some wrapped := rfl

theorem tied_wrapped : wrapped.Tied := .inside rfl rfl (List.suffix_refl _)

/-- A bar of the notation stands where no group is open, not even the one that
the notation is wrapped in. -/
def BreaksOut (source : Text) : Prop :=
  ∃ u v, source = u ++ '|' :: v ∧ (Form.read? ("^(?:".toList ++ u)).isSome = true

variable {source t m : Text} {p : Pattern}

theorem read?_wrapped (u : Text) :
    Form.read? ("^(?:".toList ++ u) = (wrapped.feedAll u).bind Reading.finish := by
  rw [Form.read?, Reading.feedAll_append, feedAll_wrapper]
  rfl

/-- A notation that is wrapped stands for an expression that is tied to the
start of the text, unless a bar breaks out. -/
theorem isTiedToStart_or_breaksOut (hp : compile source = .ok p) :
    p.expr.isTiedToStart = true ∨ BreaksOut source := by
  have hreads : Expr.ofSource? source = some p.expr := source_of_compile hp ▸ p.reads
  rw [Expr.ofSource?] at hreads
  split at hreads
  · rename_i f hf
    rw [anchored, List.append_assoc, read?_wrapped] at hf
    obtain ⟨r, hr, hfinish⟩ := Option.bind_eq_some_iff.mp hf
    rw [Reading.feedAll_append] at hr
    obtain ⟨r₁, hr₁, hclose⟩ := Option.bind_eq_some_iff.mp hr
    rcases tied_wrapped.feedAll hr₁ with htied | ⟨u, v, r₂, rfl, hu, hsome⟩
    · rcases htied.feedAll hclose with htied | ⟨u, v, -, hbar, -⟩
      · obtain ⟨a, rfl⟩ := htied.exists_seq hfinish
        obtain ⟨-, hexpr⟩ := Option.ite_some_none_eq_some.mp hreads
        exact .inl (hexpr ▸ Form.isTiedToStart_expr a)
      · have hmem : '|' ∈ [')'] := hbar ▸ List.mem_append_right u List.mem_cons_self
        exact absurd hmem (by decide)
    · refine .inr ⟨u, v, rfl, ?_⟩
      rw [read?_wrapped, hu]
      exact hsome
  · cases hreads

/-- A match of a pattern that is tied to the start of the text is a beginning of
the text. -/
theorem isPrefix_of_isTiedToStart (hp : p.expr.isTiedToStart = true) (h : p.find? t = some m) :
    m <+: t := by
  have hp : p.program.isTied = true := p.program_eq ▸ hp
  rw [find?, Program.find?, if_pos hp, Program.matchAt?] at h
  obtain ⟨n, -, rfl⟩ := Option.map_eq_some_iff.mp h
  exact List.take_prefix n t

/-- No bar breaks out of a notation that can be read by itself. -/
theorem read?_eq_none_of_breaksOut (h : BreaksOut source) : Form.read? source = none := by
  obtain ⟨u, v, rfl, hu⟩ := h
  obtain ⟨f, hf⟩ := Option.isSome_iff_exists.mp hu
  rw [read?_wrapped] at hf
  obtain ⟨r, hr, hfinish⟩ := Option.bind_eq_some_iff.mp hf
  rw [Form.read?, Reading.feedAll_append]
  cases hr₁ : Reading.start.feedAll u with
  | none => rfl
  | some r₁ =>
      -- Where the wrapped notation has no open group, one too many is closed.
      have hgroups : r₁.outer.length + wrapped.outer.length =
          r.outer.length + Reading.start.outer.length := Reading.lockstep_feedAll rfl hr₁ hr
      rw [(Reading.finish_eq_some hfinish).1] at hgroups
      cases hgroups

/-- A match of a pattern is a beginning of the text, unless a bar of the notation
breaks out of the group that it is wrapped in; such a notation cannot be read by
itself. -/
theorem isPrefix_or_breaksOut (hp : compile source = .ok p) (h : p.find? t = some m) :
    m <+: t ∨ BreaksOut source ∧ Form.read? source = none := by
  rcases isTiedToStart_or_breaksOut hp with htied | hbreaks
  · exact .inl (isPrefix_of_isTiedToStart htied h)
  · exact .inr ⟨hbreaks, read?_eq_none_of_breaksOut hbreaks⟩

/-- The two alternatives of a number in decimal digits are both found at the
start only. -/
theorem isPrefix_or_breaksOut_of_decimal :
    compile "0|[1-9][0-9]*".toList = .ok Rule.decimalLiteral.pattern ∧
      Rule.decimalLiteral.pattern.find? "120;7".toList = some "120".toList ∧
      "120".toList <+: "120;7".toList := by
  have hp : compile "0|[1-9][0-9]*".toList = .ok Rule.decimalLiteral.pattern :=
    compile_source Rule.decimalLiteral.pattern
  have hfind : Rule.decimalLiteral.pattern.find? "120;7".toList = some "120".toList := by
    decide +kernel
  refine ⟨hp, hfind, ?_⟩
  rcases isPrefix_or_breaksOut hp hfind with hprefix | ⟨-, hnone⟩
  · exact hprefix
  · cases hnone

/-- A pattern of which a bar breaks out. -/
def brokenOut : Pattern where
  source := "a)|(?:b".toList
  expr := .alt (.tied (.char 'a')) (.char 'b')
  reads := rfl

/-- An alternative behind a bar that breaks out is found further on in the
text. -/
theorem not_isPrefix_of_brokenOut :
    compile "a)|(?:b".toList = .ok brokenOut ∧ brokenOut.find? "xb".toList = some "b".toList ∧
      ¬ "b".toList <+: "xb".toList :=
  ⟨compile_source brokenOut, by decide +kernel, by decide⟩

end Pattern
end Decaf
