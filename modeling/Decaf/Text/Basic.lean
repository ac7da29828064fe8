/-
Text as lists of characters.

Every text of the library is a list of characters, so that definitions and
proofs go by recursion on it.  Sizes and offsets count UTF-8 bytes:
`byteSize` measures a text, and `dropBytes?` cuts one at a byte offset, which
is possible only on a character boundary.
-/

namespace Decaf

/-- A text is the list of its characters. -/
abbrev Text := List Char

namespace Text

/-- The number of bytes a text takes in UTF-8. -/
def byteSize (t : Text) : Nat := t.foldr (fun c n => c.utf8Size + n) 0

@[simp] theorem byteSize_nil : byteSize [] = 0 := rfl

@[simp] theorem byteSize_cons (c : Char) (t : Text) :
    byteSize (c :: t) = c.utf8Size + byteSize t := rfl

@[simp] theorem byteSize_append (s t : Text) :
    byteSize (s ++ t) = byteSize s + byteSize t := by
  induction s with
  | nil => exact (Nat.zero_add _).symm
  | cons c s ih => rw [List.cons_append, byteSize_cons, byteSize_cons, ih, Nat.add_assoc]

/-- No text has more characters than bytes. -/
theorem length_le_byteSize : ∀ t : Text, t.length ≤ byteSize t
  | [] => Nat.le_refl _
  | c :: t => by
    have hc := c.utf8Size_pos
    have ht := length_le_byteSize t
    simp only [List.length_cons, byteSize_cons]
    omega

/-- A text of ASCII has as many bytes as characters. -/
theorem byteSize_eq_length {t : Text} (h : ∀ c ∈ t, c.toNat < 0x80) : byteSize t = t.length := by
  induction t with
  | nil => rfl
  | cons c t ih =>
    have hc : c.utf8Size = 1 := by
      rw [Char.utf8Size_eq_one_iff, UInt32.le_iff_toNat_le]
      exact Nat.le_of_lt_succ (h c List.mem_cons_self)
    rw [byteSize_cons, hc, ih fun d hd => h d (List.mem_cons_of_mem _ hd), List.length_cons,
      Nat.add_comm]

/-- The size of a text is that of its bytes. -/
theorem size_utf8Encode (t : Text) : t.utf8Encode.size = byteSize t := by
  induction t with
  | nil => rfl
  | cons c t ih =>
    rw [List.utf8Encode_cons, ByteArray.size_append, ih, List.utf8Encode_singleton,
      List.size_toByteArray, String.length_utf8EncodeChar, byteSize_cons]

/-! ## Leading parts -/

/-- What is taken from a text ends before a character that is not taken. -/
theorem takeWhile_append_cons {p : Char → Bool} {c : Char} (hc : p c = false) (s t : Text) :
    (s ++ c :: t).takeWhile p = s.takeWhile p := by
  rw [List.takeWhile_append, List.takeWhile_cons_of_neg (Bool.eq_false_iff.mp hc), List.append_nil]
  split
  · rename_i h
    exact ((List.takeWhile_prefix p).eq_of_length h).symm
  · rfl

/-- What is dropped from a text ends before a character that is not dropped. -/
theorem dropWhile_append_cons {p : Char → Bool} {c : Char} (hc : p c = false) (s t : Text) :
    (s ++ c :: t).dropWhile p = s.dropWhile p ++ c :: t := by
  rw [List.dropWhile_append, List.dropWhile_cons_of_neg (Bool.eq_false_iff.mp hc)]
  split
  · rename_i h
    rw [List.isEmpty_iff.mp h, List.nil_append]
  · rfl

/-- The text from a byte offset on, if the offset is a character boundary of
the text or its end. -/
def dropBytes? : Nat → Text → Option Text
  | 0, t => some t
  | _ + 1, [] => none
  | n + 1, c :: t => if c.utf8Size ≤ n + 1 then dropBytes? (n + 1 - c.utf8Size) t else none

@[simp] theorem dropBytes?_zero (t : Text) : dropBytes? 0 t = some t := by
  cases t <;> rfl

/-- Dropping the bytes of a leading part leaves what follows it. -/
theorem dropBytes?_append (s t : Text) : dropBytes? (byteSize s) (s ++ t) = some t := by
  induction s with
  | nil => simp
  | cons c s ih =>
    have hc := c.utf8Size_pos
    obtain ⟨n, hn⟩ : ∃ n, byteSize (c :: s) = n + 1 :=
      ⟨byteSize (c :: s) - 1, by simp only [byteSize_cons]; omega⟩
    rw [hn, List.cons_append, dropBytes?, ← hn]
    simp [ih]

/-- A cut that succeeds splits the text after exactly that many bytes. -/
theorem eq_append_of_dropBytes? {n : Nat} {t r : Text} (h : dropBytes? n t = some r) :
    ∃ s, t = s ++ r ∧ byteSize s = n := by
  fun_induction dropBytes? n t with
  | case1 t => exact ⟨[], by simpa using h⟩
  | case2 n => cases h
  | case3 n c t hc ih =>
    obtain ⟨s, hs, hn⟩ := ih h
    refine ⟨c :: s, by simp [hs], ?_⟩
    simp only [byteSize_cons]
    omega
  | case4 n c t hc => cases h

/-! ## Numbers -/

/-- A number in decimal digits. -/
def decimal (n : Nat) : Text := Nat.toDigits 10 n

/-- A number in lower-case hexadecimal digits. -/
def hexadecimal (n : Nat) : Text := Nat.toDigits 16 n

/-- The digits of a number stand on one line. -/
theorem lineFeed_not_mem_toDigits {base : Nat} (hbase : 1 < base) (n : Nat) :
    '\n' ∉ Nat.toDigits base n := by
  have hdigit (d : Nat) : d.digitChar ≠ '\n' := Nat.digitChar_ne '\n' rfl
  induction n using Nat.strongRecOn with
  | ind n ih =>
    rw [Nat.toDigits_eq_if hbase]
    split
    · exact mt List.mem_singleton.mp (hdigit n).symm
    · have hlt : n / base < n := Nat.div_lt_self (by omega) hbase
      rw [List.mem_append, List.mem_singleton, not_or]
      exact ⟨ih _ hlt, (hdigit _).symm⟩

@[simp] theorem lineFeed_not_mem_decimal (n : Nat) : '\n' ∉ decimal n :=
  lineFeed_not_mem_toDigits (by decide) n

@[simp] theorem lineFeed_not_mem_hexadecimal (n : Nat) : '\n' ∉ hexadecimal n :=
  lineFeed_not_mem_toDigits (by decide) n

end Text
end Decaf
