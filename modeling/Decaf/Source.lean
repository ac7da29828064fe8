/-
Reading sources from a directory.

A directory holds files and further directories under their names.  A source
is read by its path; it has to be a file that holds text in UTF-8, and no
larger than the limit.
-/
import Decaf.Limits
import Decaf.Text.Basic

namespace Decaf

/-- What a directory holds under a name. -/
inductive Entry where
  | file (bytes : ByteArray)
  /-- A directory, of which nothing is known but that it is there. -/
  | directory

instance : DecidableEq Entry
  | .file a, .file b =>
      decidable_of_iff (a.data = b.data)
        ⟨fun h => congrArg _ (ByteArray.ext h), fun h => by cases h; rfl⟩
  | .directory, .directory => .isTrue rfl
  | .file _, .directory | .directory, .file _ => .isFalse nofun

/-- A directory: names and what is held under them. -/
abbrev Directory := List (Text × Entry)

namespace Directory

/-- What the directory holds under a name. -/
def entry? (d : Directory) (name : Text) : Option Entry := List.lookup name d

/-- Whether a part of a path leads to where one already is. -/
def isHere (part : Text) : Bool := part.isEmpty || part == ['.']

/-- What a path leads to, given in its parts.  One starts in the directory
itself (`none`) or at the entry of a name.  From a file no path leads on, and
from the directory itself none leads up. -/
def follow (d : Directory) : Option Text → List Text → Option Entry
  | none, [] => some .directory
  | some name, [] => d.entry? name
  | none, part :: parts =>
      if isHere part then d.follow none parts
      else if (d.entry? part).isSome then d.follow (some part) parts
      else none
  | some name, part :: parts =>
      if d.entry? name = some .directory then
        if isHere part then d.follow (some name) parts
        else if part = ['.', '.'] then d.follow none parts
        else none
      else none

/-- What a path leads to: the entry of that name, or what its parts lead to,
if it does not start at the root. -/
def lookup? (d : Directory) (path : Text) : Option Entry :=
  (d.entry? path).or <|
    if path.isEmpty || path.head? = some '/' then none else d.follow none (path.splitOn '/')

end Directory

/-- Why a source cannot be read: there is no such file, or it is not in UTF-8; or
else it has more bytes than are allowed. -/
inductive ReadError where
  | unreadable (path : Text)
  | tooLarge (path : Text) (size max : Nat)
deriving DecidableEq, Repr

namespace ReadError

open Text

/-- What went wrong. -/
def message : ReadError → Text
  | .unreadable path => "Could not read file: ".toList ++ path
  | .tooLarge path size max =>
      "source file ".toList ++ path ++ " is ".toList ++ decimal size ++
        " bytes, the limit is ".toList ++ decimal max

end ReadError

namespace Source

open Text

/-- The text that some bytes are in UTF-8. -/
def decode? (bytes : ByteArray) : Option Text := (String.fromUTF8? bytes).map String.toList

theorem decode?_eq_some_iff {bytes : ByteArray} {t : Text} :
    decode? bytes = some t ↔ bytes = t.utf8Encode := by
  unfold decode? String.fromUTF8?
  split
  · rw [Option.map_some, Option.some.injEq, ← String.ofList_inj, String.ofList_toList,
      ← String.toByteArray_inj]
    rfl
  · rename_i hvalid
    exact iff_of_false nofun fun h => hvalid (h ▸ ByteArray.isValidUTF8_utf8Encode)

theorem decode?_eq_none_iff {bytes : ByteArray} :
    decode? bytes = none ↔ ¬ bytes.IsValidUTF8 := by
  simp [decode?, String.fromUTF8?]

/-- The text of an entry, if it is a file that holds text. -/
def textOf? : Option Entry → Option Text
  | some (.file bytes) => decode? bytes
  | _ => none

theorem textOf?_eq_some_iff {entry : Option Entry} {t : Text} :
    textOf? entry = some t ↔ entry = some (.file t.utf8Encode) := by
  match entry with
  | some (.file bytes) => simp [textOf?, decode?_eq_some_iff]
  | some .directory | none => simp [textOf?]

theorem textOf?_eq_none_iff {entry : Option Entry} :
    textOf? entry = none ↔ entry = none ∨ entry = some .directory ∨
      ∃ bytes, entry = some (.file bytes) ∧ ¬ bytes.IsValidUTF8 := by
  match entry with
  | some (.file bytes) => simp [textOf?, decode?_eq_none_iff]
  | some .directory | none => simp [textOf?]

/-- The source that is found at a path, where `entry` is what the path leads
to. -/
def read (limits : Limits) (path : Text) (entry : Option Entry) : Except ReadError Text :=
  match textOf? entry with
  | none => .error (.unreadable path)
  | some source =>
      if byteSize source ≤ limits.source then .ok source
      else .error (.tooLarge path (byteSize source) limits.source)

theorem read_of_textOf?_eq_none {entry : Option Entry} (h : textOf? entry = none)
    (limits : Limits) (path : Text) : read limits path entry = .error (.unreadable path) := by
  rw [read, h]

/-- Whether a text is too large is told by the bytes of its file. -/
theorem read_file (limits : Limits) (path source : Text) :
    read limits path (some (.file source.utf8Encode)) =
      if source.utf8Encode.size ≤ limits.source then .ok source
      else .error (.tooLarge path source.utf8Encode.size limits.source) := by
  have htext : textOf? (some (.file source.utf8Encode)) = some source :=
    textOf?_eq_some_iff.mpr rfl
  rw [read, htext, size_utf8Encode]

end Source
end Decaf
