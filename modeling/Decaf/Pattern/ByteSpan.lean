/-
The encodings of ranges of characters.

A machine that reads UTF-8 byte by byte knows a range of characters by the
sequences of byte ranges that their encodings go through.  `ofRange` cuts a
range of code points where the encodings change their length and, within a
length, so that in each sequence every choice of bytes is the encoding of a
character of the range.
-/
import Decaf.Text.Ranges

namespace Decaf
namespace Pattern

/-- A sequence of closed ranges of bytes. -/
abbrev ByteSpan := List (Nat × Nat)

namespace ByteSpan

/-- The sequences for the numbers from `first` to `last` in base 64, with `n`
digits behind the leading one, where the byte of a leading zero is `lead`.
Between the numbers that share a leading digit with an end, all digits can
stand behind the leading one. -/
def ofDigits (lead : Nat) : Nat → Nat → Nat → List ByteSpan
  | 0, first, last => [[(lead + first, lead + last)]]
  | n + 1, first, last =>
      let unit := 64 ^ (n + 1)
      let under (digit first last : Nat) : List ByteSpan :=
        (ofDigits 0x80 n first last).map ((lead + digit, lead + digit) :: ·)
      if first / unit = last / unit then under (first / unit) (first % unit) (last % unit)
      else
        let a := (first + (unit - 1)) / unit
        let b := (last + 1) / unit
        (if first % unit = 0 then [] else under (first / unit) (first % unit) (unit - 1)) ++
          (if a < b then
            [(lead + a, lead + (b - 1)) :: List.replicate (n + 1) (0x80, 0xBF)]
          else []) ++
          if (last + 1) % unit = 0 then [] else under (last / unit) 0 (last % unit)

/-- The code points whose encodings have the same length, from the first to
the last: with the byte of a leading zero, and the number of bytes behind the
leading one. -/
def lengths : List (Nat × Nat × Nat × Nat) :=
  [(0, 0x7F, 0, 0), (0x80, 0x7FF, 0xC0, 1), (0x800, 0xD7FF, 0xE0, 2), (0xE000, 0xFFFF, 0xE0, 2),
    (0x10000, 0x10FFFF, 0xF0, 3)]

/-- The sequences for the characters of a range of code points, in order. -/
def ofRange (first last : Nat) : List ByteSpan :=
  lengths.flatMap fun (low, high, lead, n) =>
    if max first low ≤ min last high then ofDigits lead n (max first low) (min last high) else []

/-- The sequences for the characters of some ranges. -/
def ofRanges (rs : Ranges) : List ByteSpan := rs.flatMap fun r => ofRange r.1 r.2

end ByteSpan
end Pattern
end Decaf
