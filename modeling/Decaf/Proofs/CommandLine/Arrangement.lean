/-
Arguments in any order.

The arguments of a listing come in parts: the file, a limit with its number in
one argument or in two, and the flag that asks for the log.  A part sets what
it says and leaves the rest of the arguments to be read as if they stood alone
(`readArgs_args`).  So all that counts is what the parts set together, and
each may set only what is not set yet (`Sets`):

    parts         --max-source-len 10  prog.decaf  --max-lexeme-len=5
    file                               prog.decaf
    lexeme                                                          5
    source                         10

A row does not tell where its part stands among the others, so the command
does not depend on that (`parse_arguments`).
-/
import Decaf.CommandLine

namespace Decaf
namespace Command

open Text

/-! ## Parts -/

/-- A name that a file can be given by: no option begins as it does. -/
structure FileName where
  text : Text
  ne_nil : text ≠ []
  head_ne : text.head? ≠ some '-'

/-- A number that a limit can be, as it is written: in digits, which may stand
behind a plus sign. -/
structure Numeral where
  plus : Bool
  digits : Text
  ne_nil : digits ≠ []
  all_isDigit : digits.all Char.isDigit = true
  lt : Nat.ofDigitChars 10 digits 0 < numberLimit

namespace Numeral

def text (n : Numeral) : Text := if n.plus then '+' :: n.digits else n.digits

def value (n : Numeral) : Nat := Nat.ofDigitChars 10 n.digits 0

theorem head_digits_ne (n : Numeral) {c : Char} (hc : c.isDigit = false) :
    n.digits.head? ≠ some c := by
  intro hhead
  have hmem : c ∈ n.digits := List.mem_of_head? hhead
  exact absurd (List.all_eq_true.mp n.all_isDigit c hmem) (Bool.eq_false_iff.mp hc)

/-- A number does not begin as an option does. -/
theorem head_ne (n : Numeral) : n.text.head? ≠ some '-' := by
  unfold text
  split
  · simp
  · exact n.head_digits_ne rfl

theorem number?_text (n : Numeral) : number? n.text = some n.value := by
  have hdigits : (if n.text.head? = some '+' then n.text.tail else n.text) = n.digits := by
    unfold text
    split
    · rfl
    · exact if_neg (n.head_digits_ne rfl)
  have hguard : (n.digits.isEmpty || !n.digits.all Char.isDigit) = false := by
    rw [n.all_isDigit, Bool.not_true, Bool.or_false, List.isEmpty_eq_false_iff]
    exact n.ne_nil
  rw [number?, hdigits, hguard]
  exact if_pos n.lt

/-- Every number that a limit can be is written in decimal. -/
def ofNat (n : Nat) (h : n < numberLimit) : Numeral where
  plus := false
  digits := decimal n
  ne_nil := Nat.toDigits_ne_nil
  all_isDigit := List.all_eq_true.mpr fun _ hc =>
    Nat.isDigit_of_mem_toDigits (by omega) (by omega) hc
  lt := by rwa [decimal, Nat.ofDigitChars_toDigits (by omega) (by omega)]

@[simp] theorem value_ofNat (n : Nat) (h : n < numberLimit) : (ofNat n h).value = n :=
  Nat.ofDigitChars_toDigits (by omega) (by omega)

end Numeral

/-- The long name of an option. -/
def Setting.name : Setting → Text
  | .lexeme => "max-lexeme-len".toList
  | .source => "max-source-len".toList

/-- A part of the arguments. -/
inductive Part where
  | file (name : FileName)
  /-- A limit, in one argument if it is `joined` to its number. -/
  | limit (s : Setting) (n : Numeral) (joined : Bool)
  /-- The wish for the log, by the long name or by the letter. -/
  | verbose (long : Bool)

namespace Part

/-- The arguments that a part is written as. -/
def args : Part → List Text
  | .file name => [name.text]
  | .limit s n true => ["--".toList ++ s.name ++ '=' :: n.text]
  | .limit s n false => ["--".toList ++ s.name, n.text]
  | .verbose true => ["--verbose".toList]
  | .verbose false => ["-v".toList]

/-- The file that a part names. -/
def file? : Part → Option Text
  | .file name => some name.text
  | _ => none

/-- The limit that a part sets, if it is the one that is asked for. -/
def limit? (s : Setting) : Part → Option Nat
  | .limit s' n _ => if s' = s then some n.value else none
  | _ => none

/-- Whether a part asks for the log. -/
def isVerbose : Part → Bool
  | .verbose _ => true
  | _ => false

/-- What has been set when a part is read after `g`. -/
def put? (g : Given) : Part → Option Given
  | .file name => g.setFile? name.text
  | .limit s n _ => g.set? s n.text
  | .verbose _ => g.setVerbose?

end Part

/-- The arguments of some parts, one after the other. -/
def arguments (ps : List Part) : List Text := ps.flatMap Part.args

/-! ## Reading one part -/

theorem Argument.ofText_of_head_ne {t : Text} (h : t.head? ≠ some '-') :
    Argument.ofText t = .file t := by
  unfold Argument.ofText
  split <;> simp_all

theorem Numeral.isValue (n : Numeral) : isValue n.text = true := by
  rw [Command.isValue, Argument.ofText_of_head_ne n.head_ne]

theorem Argument.ofText_joined (s : Setting) (t : Text) :
    Argument.ofText ("--".toList ++ s.name ++ '=' :: t) = .option s (some t) := by
  cases s <;> rfl

theorem Argument.ofText_name (s : Setting) :
    Argument.ofText ("--".toList ++ s.name) = .option s none := by
  cases s <;> rfl

/-- A part in front of other arguments sets what it says, if that is not set
already. -/
theorem readArgs_args (g : Given) (p : Part) (as : List Text) :
    readArgs g (p.args ++ as) = (p.put? g).elim .misuse fun g' => readArgs g' as := by
  match p with
  | .file name =>
    have hname := Argument.ofText_of_head_ne name.head_ne
    simp only [Part.args, Part.put?, List.singleton_append, readArgs, hname]
    cases g.setFile? name.text <;> rfl
  | .limit s n true =>
    simp only [Part.args, Part.put?, List.singleton_append, readArgs, Argument.ofText_joined]
    cases g.set? s n.text <;> rfl
  | .limit s n false =>
    simp only [Part.args, Part.put?, List.cons_append, List.nil_append, readArgs,
      Argument.ofText_name, n.isValue, if_true]
    cases g.set? s n.text <;> rfl
  | .verbose true =>
    have hflag : Argument.ofText "--verbose".toList = .flag 'v' := rfl
    simp only [Part.args, Part.put?, List.singleton_append, readArgs, hflag, readLetters]
    cases g.setVerbose? <;> rfl
  | .verbose false =>
    have hletter : Argument.ofText "-v".toList = .letters ['v'] := rfl
    simp only [Part.args, Part.put?, List.singleton_append, readArgs, hletter, readLetters]
    cases g.setVerbose? <;> rfl

/-! ## Reading all parts -/

/-- Reading the parts `ps` after `g` sets what `g'` has: no part sets anything
twice. -/
structure Sets (g : Given) (ps : List Part) (g' : Given) : Prop where
  file : g.file.toList ++ ps.filterMap Part.file? = g'.file.toList
  lexeme : g.lexeme.toList ++ ps.filterMap (Part.limit? .lexeme) = g'.lexeme.toList
  source : g.source.toList ++ ps.filterMap (Part.limit? .source) = g'.source.toList
  verbose : g.verbose.toNat + ps.countP Part.isVerbose = g'.verbose.toNat

/-- One more value fits only where there is none. -/
theorem fits_iff {α : Type} {o o' : Option α} {a : α} {l : List α} :
    o.toList ++ a :: l = o'.toList ↔ o = none ∧ (some a).toList ++ l = o'.toList := by
  cases o <;> cases o' <;> simp

/-- The first part sets nothing that is set, and the others go on from there. -/
theorem Sets.put {g g' : Given} {p : Part} {ps : List Part} (h : Sets g (p :: ps) g') :
    ∃ g₁, p.put? g = some g₁ ∧ Sets g₁ ps g' := by
  obtain ⟨hfile, hlexeme, hsource, hverbose⟩ := h
  match p with
  | .file name =>
    obtain ⟨hnone, hfile⟩ := fits_iff.mp hfile
    refine ⟨{ g with file := some name.text }, ?_, ⟨hfile, hlexeme, hsource, hverbose⟩⟩
    simp [Part.put?, Given.setFile?, hnone, name.ne_nil]
  | .limit .lexeme n joined =>
    obtain ⟨hnone, hlexeme⟩ := fits_iff.mp hlexeme
    refine ⟨{ g with lexeme := some n.value }, ?_, ⟨hfile, hlexeme, hsource, hverbose⟩⟩
    simp [Part.put?, Given.set?, hnone, n.number?_text]
  | .limit .source n joined =>
    obtain ⟨hnone, hsource⟩ := fits_iff.mp hsource
    refine ⟨{ g with source := some n.value }, ?_, ⟨hfile, hlexeme, hsource, hverbose⟩⟩
    simp [Part.put?, Given.set?, hnone, n.number?_text]
  | .verbose long =>
    rw [List.countP_cons_of_pos rfl] at hverbose
    have hle := Bool.toNat_le g'.verbose
    have hnone : g.verbose = false := Bool.toNat_eq_zero.mp (by omega)
    refine ⟨{ g with verbose := true }, ?_, ⟨hfile, hlexeme, hsource, ?_⟩⟩
    · simp [Part.put?, Given.setVerbose?, hnone]
    · rw [hnone] at hverbose
      rw [← hverbose, Bool.toNat_true, Bool.toNat_false]
      omega

/-- Without a part nothing more is set. -/
theorem Sets.eq_of_nil {g g' : Given} (h : Sets g [] g') : g = g' := by
  have hfile : g.file = g'.file := by simpa using congrArg List.head? h.file
  have hlexeme : g.lexeme = g'.lexeme := by simpa using congrArg List.head? h.lexeme
  have hsource : g.source = g'.source := by simpa using congrArg List.head? h.source
  have hverbose : g.verbose = g'.verbose := by
    rw [Bool.eq_iff_iff, ← Bool.toNat_eq_one, ← Bool.toNat_eq_one, ← h.verbose]
    rfl
  calc g = ⟨g.file, g.lexeme, g.source, g.verbose⟩ := rfl
    _ = g' := by rw [hfile, hlexeme, hsource, hverbose]

/-- The file that is named has a name. -/
theorem Sets.file_ne_nil {ps : List Part} {file : Text} {lexeme source : Option Nat}
    {verbose : Bool} (h : Sets {} ps ⟨some file, lexeme, source, verbose⟩) : file ≠ [] := by
  have hfile : file ∈ ps.filterMap Part.file? := by
    rw [show ps.filterMap Part.file? = [file] from h.file]
    exact List.mem_cons_self
  obtain ⟨p, -, hp⟩ := List.mem_filterMap.mp hfile
  cases p with
  | file name =>
    cases hp
    exact name.ne_nil
  | limit | verbose => cases hp

/-- Parts are read in full if they set nothing twice. -/
theorem readArgs_arguments {g g' : Given} {ps : List Part} (h : Sets g ps g') :
    readArgs g (arguments ps) = g'.toCommand := by
  induction ps generalizing g with
  | nil => rw [h.eq_of_nil]; rfl
  | cons p ps ih =>
    obtain ⟨g₁, hput, hrest⟩ := h.put
    rw [arguments, List.flatMap_cons, readArgs_args, hput, Option.elim_some]
    exact ih hrest

/-- The parts of a listing give one command, however they are arranged. -/
theorem parse_arguments {ps : List Part} {file : Text} {lexeme source : Option Nat}
    {verbose : Bool} (h : Sets {} ps ⟨some file, lexeme, source, verbose⟩) :
    parse (arguments ps) = .list ⟨file, ⟨lexeme.getD 256, source.getD 65536⟩, verbose⟩ :=
  readArgs_arguments h

end Command
end Decaf
