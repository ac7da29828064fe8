/-
Lines of a text, addressed by byte offset.

A line runs up to and including its line feed; the last line may lack one.
`lineAt?` finds the line that holds a byte offset, its number counted from
one, and the column of the offset in it, counted in bytes from zero.  The
offset may lie inside a character.
-/
import Decaf.Text.Basic

namespace Decaf
namespace Text

/-- The number of line feeds in a text. -/
def lineFeeds (t : Text) : Nat := t.count '\n'

@[simp] theorem lineFeeds_nil : lineFeeds [] = 0 := rfl

@[simp] theorem lineFeeds_append (s t : Text) :
    lineFeeds (s ++ t) = lineFeeds s + lineFeeds t :=
  List.count_append

/-- The rest of the current line, its line feed included. -/
def restOfLine (t : Text) : Text :=
  t.takeWhile (· != '\n') ++ (t.dropWhile (· != '\n')).take 1

@[simp] theorem restOfLine_lineFeed (t : Text) : restOfLine ('\n' :: t) = ['\n'] := rfl

theorem restOfLine_cons_of_ne {c : Char} (hc : c ≠ '\n') (t : Text) :
    restOfLine (c :: t) = c :: restOfLine t := by
  simp [restOfLine, hc]

/-- A line has a line feed nowhere but at its end. -/
theorem lineFeed_not_mem_dropLast_restOfLine (t : Text) : '\n' ∉ (restOfLine t).dropLast := by
  induction t with
  | nil => exact List.not_mem_nil
  | cons c t ih =>
    by_cases hc : c = '\n'
    · subst hc
      exact List.not_mem_nil
    · rw [restOfLine_cons_of_ne hc]
      cases h : restOfLine t with
      | nil => exact List.not_mem_nil
      | cons d u =>
        rw [h] at ih
        rw [List.dropLast_cons_cons]
        exact List.not_mem_cons_of_ne_of_not_mem (Ne.symm hc) ih

/-- The rest of a line begins with the character it stands at. -/
theorem exists_restOfLine_eq_cons (c : Char) (t : Text) : ∃ u, restOfLine (c :: t) = c :: u := by
  by_cases hc : c = '\n'
  · exact ⟨[], hc ▸ rfl⟩
  · exact ⟨restOfLine t, restOfLine_cons_of_ne hc t⟩

theorem restOfLine_isPrefix (t : Text) : restOfLine t <+: t := by
  refine ⟨(t.dropWhile (· != '\n')).drop 1, ?_⟩
  rw [restOfLine, List.append_assoc, List.take_append_drop, List.takeWhile_append_dropWhile]

/-- The rest of a line ends with a line feed, or else with the text. -/
theorem getLast?_restOfLine (t : Text) :
    (restOfLine t).getLast? = some '\n' ∨ restOfLine t = t := by
  induction t with
  | nil => exact .inr rfl
  | cons c t ih =>
    by_cases hc : c = '\n'
    · subst hc
      exact .inl rfl
    · rw [restOfLine_cons_of_ne hc]
      rcases ih with h | h
      · exact .inl (by rw [List.getLast?_cons, h]; rfl)
      · exact .inr (congrArg _ h)

/-- The rest of a line only grows when text is added. -/
theorem restOfLine_prefix_append (t r : Text) : restOfLine t <+: restOfLine (t ++ r) := by
  induction t with
  | nil => exact List.nil_prefix
  | cons c t ih =>
    by_cases hc : c = '\n'
    · subst hc
      exact List.prefix_refl _
    · rw [List.cons_append, restOfLine_cons_of_ne hc, restOfLine_cons_of_ne hc]
      exact List.cons_prefix_cons.mpr ⟨rfl, ih⟩

/-- The rest of a line is what holds no line feed but at its end, and ends with
one if more text follows. -/
theorem restOfLine_eq_of_append {t r : Text} (ht : '\n' ∉ t.dropLast)
    (h : t.getLast? = some '\n' ∨ r = []) : restOfLine (t ++ r) = t := by
  induction t with
  | nil =>
    obtain rfl := h.resolve_left nofun
    rfl
  | cons c t ih =>
    cases t with
    | nil =>
      rcases h with hlast | rfl
      · obtain rfl := Option.some.inj hlast
        rfl
      · by_cases hc : c = '\n'
        · subst hc
          rfl
        · exact restOfLine_cons_of_ne hc []
    | cons d t =>
      rw [List.dropLast_cons_cons, List.mem_cons, not_or] at ht
      rw [List.cons_append, restOfLine_cons_of_ne (Ne.symm ht.1), ih ht.2 h]

/-- The rest of a line stays what it is in front of another text, if it has its
line feed. -/
theorem restOfLine_append {t r : Text} (h : (restOfLine t).getLast? = some '\n' ∨ r = []) :
    restOfLine (restOfLine t ++ r) = restOfLine t :=
  restOfLine_eq_of_append (lineFeed_not_mem_dropLast_restOfLine t) h

/-- A line of a text and a place in it: the number of the line, counted from one,
its text, the line feed included, and the place, in bytes from the start of the
line. -/
structure Line where
  number : Nat
  text : Text
  column : Nat
deriving DecidableEq, Repr

/-- The line that holds the byte `offset` of what is left, where `before` is
the part of the current line already passed (last character first), `column`
its size in bytes and `number` the current line's number. -/
def locate (number : Nat) (before : Text) (column offset : Nat) : Text → Option Line
  | [] => none
  | c :: t =>
      if offset < c.utf8Size then
        some ⟨number, before.reverse ++ restOfLine (c :: t), column + offset⟩
      else if c = '\n' then
        locate (number + 1) [] 0 (offset - c.utf8Size) t
      else
        locate number (c :: before) (column + c.utf8Size) (offset - c.utf8Size) t

/-- The line that holds a byte offset, if the offset lies in the text. -/
def lineAt? (t : Text) (offset : Nat) : Option Line := locate 1 [] 0 offset t

/-- Every text is a number of lines that are ended, and the part of a line. -/
theorem exists_lines (u : Text) :
    ∃ a b, u = a ++ b ∧ (a = [] ∨ a.getLast? = some '\n') ∧ '\n' ∉ b := by
  induction u with
  | nil => exact ⟨[], [], rfl, .inl rfl, List.not_mem_nil⟩
  | cons c u ih =>
    obtain ⟨a, b, rfl, ha, hb⟩ := ih
    rcases ha with rfl | ha
    · by_cases hc : c = '\n'
      · exact ⟨[c], b, rfl, .inr (congrArg some hc), hb⟩
      · exact ⟨[], c :: b, rfl, .inl rfl, List.not_mem_cons_of_ne_of_not_mem (Ne.symm hc) hb⟩
    · exact ⟨c :: a, b, rfl, .inr (by rw [List.getLast?_cons, ha]; rfl), hb⟩

/-- Lines that are ended and hold no line feed are none. -/
theorem eq_nil_of_lineFeeds_eq_zero {a : Text} (ha : a = [] ∨ a.getLast? = some '\n')
    (h : lineFeeds a = 0) : a = [] :=
  ha.resolve_right fun hlast => List.count_eq_zero.mp h (List.mem_of_getLast? hlast)

/-- Behind lines that are ended, the search begins a new line. -/
theorem locate_lines {number column n : Nat} {before a t : Text} (ha : a.getLast? = some '\n') :
    locate number before column (byteSize a + n) (a ++ t) =
      locate (number + lineFeeds a) [] 0 n t := by
  induction a generalizing number before column with
  | nil => cases ha
  | cons c a ih =>
    have hsize : byteSize (c :: a) + n - c.utf8Size = byteSize a + n := by
      rw [byteSize_cons]
      omega
    rw [List.cons_append, locate, if_neg (by rw [byteSize_cons]; omega), hsize]
    cases a with
    | nil =>
      obtain rfl := Option.some.inj ha
      rw [if_pos rfl, byteSize_nil, Nat.zero_add]
      rfl
    | cons d a =>
      have ha' : (d :: a).getLast? = some '\n' := ha
      by_cases hc : c = '\n'
      · subst hc
        rw [if_pos rfl, ih ha', lineFeeds, lineFeeds, List.count_cons_self, Nat.add_assoc,
          Nat.add_comm 1]
      · rw [if_neg hc, ih ha', lineFeeds, lineFeeds, List.count_cons_of_ne hc]

/-- Within a line, the search takes what it has passed and the rest of the line.
The offset may lie `k` bytes inside of a character. -/
theorem locate_on_line {number column k : Nat} {before b r : Text} {c : Char} (hb : '\n' ∉ b)
    (hk : k < c.utf8Size) :
    locate number before column (byteSize b + k) (b ++ c :: r) =
      some ⟨number, before.reverse ++ (b ++ restOfLine (c :: r)), column + (byteSize b + k)⟩ := by
  induction b generalizing before column with
  | nil =>
    rw [byteSize_nil, Nat.zero_add]
    exact if_pos hk
  | cons d b ih =>
    have hd : d ≠ '\n' := fun h => hb (h ▸ List.mem_cons_self)
    have hsize : byteSize (d :: b) + k - d.utf8Size = byteSize b + k := by
      rw [byteSize_cons]
      omega
    rw [List.cons_append, locate, if_neg (by rw [byteSize_cons]; omega), hsize, if_neg hd,
      ih fun h => hb (List.mem_cons_of_mem _ h)]
    simp [Nat.add_assoc]

/-- The line of a place inside of a character, behind lines that are ended and
the part `b` of a line. -/
theorem lineAt?_inside {a b r : Text} {c : Char} {k : Nat}
    (ha : a = [] ∨ a.getLast? = some '\n') (hb : '\n' ∉ b) (hk : k < c.utf8Size) :
    lineAt? (a ++ (b ++ c :: r)) (byteSize (a ++ b) + k) =
      some ⟨1 + lineFeeds a, b ++ restOfLine (c :: r), byteSize b + k⟩ := by
  have hline : locate (1 + lineFeeds a) [] 0 (byteSize b + k) (b ++ c :: r) =
      some ⟨1 + lineFeeds a, b ++ restOfLine (c :: r), byteSize b + k⟩ := by
    rw [locate_on_line hb hk, Nat.zero_add]
    rfl
  rw [lineAt?, byteSize_append, Nat.add_assoc]
  rcases ha with rfl | ha
  · rw [byteSize_nil, Nat.zero_add]
    exact hline
  · rw [locate_lines ha]
    exact hline

/-- The line of a place behind lines that are ended and the part `b` of a line. -/
theorem lineAt?_behind {a b r : Text} (ha : a = [] ∨ a.getLast? = some '\n') (hb : '\n' ∉ b)
    (hr : r ≠ []) :
    lineAt? (a ++ (b ++ r)) (byteSize (a ++ b)) =
      some ⟨1 + lineFeeds a, b ++ restOfLine r, byteSize b⟩ := by
  obtain ⟨c, r, rfl⟩ := List.exists_cons_of_ne_nil hr
  exact lineAt?_inside ha hb c.utf8Size_pos

/-- The line at the end of a leading part is counted by the line feeds of that
part. -/
theorem lineAt?_append (u : Text) {r : Text} (hr : r ≠ []) :
    ∃ l, lineAt? (u ++ r) (byteSize u) = some l ∧ l.number = 1 + lineFeeds u := by
  obtain ⟨a, b, rfl, ha, hb⟩ := exists_lines u
  refine ⟨_, by rw [List.append_assoc, lineAt?_behind ha hb hr], ?_⟩
  rw [lineFeeds_append, lineFeeds, lineFeeds, List.count_eq_zero.mpr hb]
  rfl

end Text
end Decaf
