/-
How a listing ends.

To list the tokens of a file, its text is read, measured and cut into tokens.
What fails first is told, and then there is no output:

    the path leads to                  exit  output   errors
    nothing, a directory, no text      1              no file to read
    a text of too many bytes           1              the size, and the limit
    a text that is not lexed           1              the error, drawn
    a text that is lexed               0     listing

An error that cannot be drawn leaves nothing behind, not even an exit code.
`Ends` has a constructor for each of these ways, with the texts as they are
written.  One is open to every file (`exists_ends`), and it is the one that is
taken (`Ends.eq_ending`); so no file is listed in part, and none is refused that
a listing could be made of.
-/
import Decaf.Proofs.CommandLine.Arrangement
import Decaf.Proofs.CommandLine.Paths
import Decaf.Proofs.Lexing.Steps

namespace Decaf
namespace CommandLine

open Command Text

/-- How listing the tokens of a file ends, where `entry` is what its path
leads to. -/
inductive Ends (limits : Limits) (file : Text) (entry : Option Entry) : Outcome → Prop
  | listed {source : Text} {tokens : List Token}
      (hentry : entry = some (.file source.utf8Encode))
      (hsize : source.utf8Encode.size ≤ limits.source)
      (hlex : tokenize limits source = .ok tokens) :
      Ends limits file entry (.ran ⟨0, Token.listing tokens, []⟩)
  | unreadable
      (hentry : entry = none ∨ entry = some .directory ∨
        ∃ bytes, entry = some (.file bytes) ∧ ¬ bytes.IsValidUTF8) :
      Ends limits file entry (.ran ⟨1, [], "Could not read file: ".toList ++ file ++ ['\n']⟩)
  | tooLarge {source : Text}
      (hentry : entry = some (.file source.utf8Encode))
      (hsize : limits.source < source.utf8Encode.size) :
      Ends limits file entry (.ran ⟨1, [], "source file ".toList ++ file ++ " is ".toList ++
        decimal source.utf8Encode.size ++ " bytes, the limit is ".toList ++
        decimal limits.source ++ ['\n']⟩)
  | drawn {source : Text} {e : LexError} {diagnostic : Text}
      (hentry : entry = some (.file source.utf8Encode))
      (hsize : source.utf8Encode.size ≤ limits.source)
      (hlex : tokenize limits source = .error e)
      (hdraw : Diagnostic.render e source file = some diagnostic) :
      Ends limits file entry (.ran ⟨1, [], diagnostic⟩)
  | undrawable {source : Text} {e : LexError}
      (hentry : entry = some (.file source.utf8Encode))
      (hsize : source.utf8Encode.size ≤ limits.source)
      (hlex : tokenize limits source = .error e)
      (hdraw : Diagnostic.render e source file = none) :
      Ends limits file entry .undrawable

variable {limits : Limits} {file : Text} {entry : Option Entry} {o : Outcome}

theorem Ends.all_or_nothing {o : Output} (h : Ends limits file entry (.ran o)) :
    o.exit = 0 ∧ o.err = [] ∨ o.exit = 1 ∧ o.out = [] := by
  cases h with
  | listed => exact .inl ⟨rfl, rfl⟩
  | unreadable | tooLarge | drawn => exact .inr ⟨rfl, rfl⟩

/-- How a listing that was made ended. -/
def ending (output : Option Output) : Outcome := output.elim .undrawable .ran

theorem run_of_parse {args : List Text} {i : Invocation} (h : parse args = .list i)
    (d : Directory) : run d args = ending (list i (d.lookup? i.file)) := by
  simp only [run, h]
  cases list i (d.lookup? i.file) <;> rfl

/-- One of the ways is open to every file. -/
theorem exists_ends (limits : Limits) (file : Text) (entry : Option Entry) :
    ∃ o, Ends limits file entry o := by
  cases htext : Source.textOf? entry with
  | none => exact ⟨_, .unreadable (Source.textOf?_eq_none_iff.mp htext)⟩
  | some source =>
    have hentry := Source.textOf?_eq_some_iff.mp htext
    by_cases hsize : source.utf8Encode.size ≤ limits.source
    · cases hlex : tokenize limits source with
      | ok tokens => exact ⟨_, .listed hentry hsize hlex⟩
      | error e =>
        cases hdraw : Diagnostic.render e source file with
        | some diagnostic => exact ⟨_, .drawn hentry hsize hlex hdraw⟩
        | none => exact ⟨_, .undrawable hentry hsize hlex hdraw⟩
    · exact ⟨_, .tooLarge hentry (Nat.lt_of_not_le hsize)⟩

/-- The way that is open to a file is the one that its listing takes. -/
theorem Ends.eq_ending {i : Invocation} (h : Ends i.limits i.file entry o) :
    ending (list i entry) = o := by
  cases h with
  | listed hentry hsize hlex =>
    rw [list, hentry, Source.read_file, if_pos hsize]
    simp only [hlex, ending, Option.elim_some]
  | unreadable hentry =>
    rw [list, Source.read_of_textOf?_eq_none (Source.textOf?_eq_none_iff.mpr hentry)]
    rfl
  | tooLarge hentry hsize =>
    rw [list, hentry, Source.read_file, if_neg (Nat.not_le_of_lt hsize)]
    rfl
  | drawn hentry hsize hlex hdraw =>
    rw [list, hentry, Source.read_file, if_pos hsize]
    simp only [hlex, hdraw, ending, Option.map_some, Option.elim_some]
  | undrawable hentry hsize hlex hdraw =>
    rw [list, hentry, Source.read_file, if_pos hsize]
    simp only [hlex, hdraw, ending, Option.map_none, Option.elim_none]

/-- A listing ends in just one way. -/
theorem run_iff_ends {args : List Text} {i : Invocation} (h : parse args = .list i)
    (d : Directory) : run d args = o ↔ Ends i.limits i.file (d.lookup? i.file) o := by
  rw [run_of_parse h]
  constructor
  · rintro rfl
    obtain ⟨o, ho⟩ := exists_ends i.limits i.file (d.lookup? i.file)
    rwa [ho.eq_ending]
  · exact Ends.eq_ending

/-- A file is named by itself. -/
theorem sets_file (name : FileName) : Sets {} [.file name] ⟨some name.text, none, none, false⟩ :=
  ⟨rfl, rfl, rfl, rfl⟩

/-- A listing is all or nothing, and depends neither on how its arguments are
arranged nor on whether the log is wanted.  How it ends depends on the entry
that the path of the file leads to. -/
theorem run_allOrNothing {ps : List Part} {lexeme source : Option Nat} {verbose : Bool}
    (h : Sets {} ps ⟨some file, lexeme, source, verbose⟩) (d : Directory) :
    (∀ ps' verbose', Sets {} ps' ⟨some file, lexeme, source, verbose'⟩ →
      run d (arguments ps') = run d (arguments ps)) ∧
    (∀ o, run d (arguments ps) = o ↔
      Ends ⟨lexeme.getD 256, source.getD 65536⟩ file (d.lookup? file) o) ∧
    (∀ o, run d (arguments ps) = .ran o → o.exit = 0 ∧ o.err = [] ∨ o.exit = 1 ∧ o.out = []) ∧
    (∀ entry, d.lookup? file = some entry ↔ d.entry? file = some entry ∨
      d.entry? file = none ∧ file.head? ≠ some '/' ∧ d.LeadsTo (file.splitOn '/') entry) ∧
    ('/' ∉ file → file ≠ ['.'] → d.lookup? file = d.entry? file) := by
  have hends (o : Outcome) : run d (arguments ps) = o ↔
      Ends ⟨lexeme.getD 256, source.getD 65536⟩ file (d.lookup? file) o :=
    run_iff_ends (parse_arguments h) d
  refine ⟨fun ps' verbose' h' => ?_, hends, fun o ho => ((hends _).mp ho).all_or_nothing,
    fun entry => ?_, Directory.lookup?_of_not_mem⟩
  · exact (run_iff_ends (parse_arguments h') d).mpr ((hends _).mp rfl)
  · rw [Directory.lookup?_eq_some_iff]
    simp only [ne_eq, h.file_ne_nil, not_false_eq_true, true_and]

/-- Five bytes are listed where five are allowed, with the log and without it, and none
where four are allowed.  What is missing, is a directory or holds no text cannot be read,
and what a path leads back to is lexed. -/
theorem run_allOrNothing_of_five_bytes :
    let d : Directory := [("x".toList, .file "int a".toList.utf8Encode),
      ("y".toList, .file "int ^".toList.utf8Encode), ("raw".toList, .file ⟨#[0xFF]⟩),
      ("sub".toList, .directory)]
    let failed (err : Text) : Outcome := .ran ⟨1, [], err⟩
    let diagnostic : Text :=
      "Error: Invalid token! (Unexpected character `^`)\n-> sub/../y\n".toList ++
        "  |\n1 | int ^\n  | ----^\n".toList
    run d ["-v".toList, "x".toList, "--max-source-len=5".toList] =
        run d ["--max-source-len".toList, "+05".toList, "x".toList] ∧
      run d ["--max-source-len".toList, "+05".toList, "x".toList] =
        .ran ⟨0, "KEY    int\nID     a\n".toList, []⟩ ∧
      run d ["--max-source-len=4".toList, "x".toList] =
        failed "source file x is 5 bytes, the limit is 4\n".toList ∧
      run d ["none".toList] = failed "Could not read file: none\n".toList ∧
      run d ["sub".toList] = failed "Could not read file: sub\n".toList ∧
      run d ["raw".toList] = failed "Could not read file: raw\n".toList ∧
      run d ["sub/../y".toList] = failed diagnostic := by
  intro d failed diagnostic
  let x : FileName := ⟨"x".toList, by decide, by decide⟩
  let five : Numeral := ⟨true, "05".toList, by decide, rfl, by decide⟩
  have hfive : Sets {} [.limit .source five false, .file x] ⟨some x.text, none, some 5, false⟩ :=
    ⟨rfl, rfl, rfl, rfl⟩
  have hfive' : Sets {} [.verbose false, .file x, .limit .source (.ofNat 5 (by decide)) true]
      ⟨some x.text, none, some 5, true⟩ :=
    ⟨rfl, rfl, rfl, rfl⟩
  have hfour : Sets {} [.limit .source (.ofNat 4 (by decide)) true, .file x]
      ⟨some x.text, none, some 4, false⟩ :=
    ⟨rfl, rfl, rfl, rfl⟩
  have hlex : tokenize ⟨256, 5⟩ "int a".toList =
      .ok [⟨.keyword, "int".toList, 1, 0⟩, ⟨.identifier, "a".toList, 1, 4⟩] :=
    Lexing.eq_ok_of_toOption (by decide +kernel)
  have hlex' : tokenize ⟨256, 65536⟩ "int ^".toList = .error ⟨.unexpected '^', some ⟨1, 4⟩⟩ :=
    Lexing.tokenize_eq_error_iff.mpr (Lexing.lex_of_error? (by decide +kernel))
  have hone (name : FileName) := run_allOrNothing (sets_file name) d
  obtain ⟨hsame, hends, -⟩ := run_allOrNothing hfive d
  refine ⟨hsame _ _ hfive', (hends _).mpr (.listed rfl (by decide) hlex),
    ((run_allOrNothing hfour d).2.1 _).mpr (.tooLarge rfl (by decide)), ?_, ?_, ?_, ?_⟩
  · exact ((hone ⟨"none".toList, by decide, by decide⟩).2.1 _).mpr (.unreadable (.inl rfl))
  · exact ((hone ⟨"sub".toList, by decide, by decide⟩).2.1 _).mpr (.unreadable (.inr (.inl rfl)))
  · refine ((hone ⟨"raw".toList, by decide, by decide⟩).2.1 _).mpr
      (.unreadable (.inr (.inr ⟨_, rfl, ?_⟩)))
    exact Source.decode?_eq_none_iff.mp (by decide)
  · obtain ⟨-, hends, -, hfinds, -⟩ := hone ⟨"sub/../y".toList, by decide, by decide⟩
    have hleads : d.LeadsTo ("sub".toList :: ([] ++ ['.', '.'] :: ["y".toList])) _ :=
      .back rfl rfl nofun (.entry rfl rfl nofun (.inl rfl))
    have hentry := (hfinds _).mpr (.inr ⟨rfl, by decide, hleads⟩)
    have hdraw : Diagnostic.render ⟨.unexpected '^', some ⟨1, 4⟩⟩ "int ^".toList
        "sub/../y".toList = some diagnostic := by decide +kernel
    exact (hends _).mpr (.drawn hentry (by decide) hlex' hdraw)

end CommandLine
end Decaf
