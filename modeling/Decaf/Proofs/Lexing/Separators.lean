/-
What stands between tokens does not matter.

The tokens of a source are written again, with other blanks, line feeds and
comments between them (`weave`), and lexed again: they keep their kinds and
their lexemes.  A token may need to be parted from what follows it:

    a word, a number        or it runs on
    an operator             or it takes a second sign, or opens a comment
    "a\"                    or it goes on to a later quote

In the last case the quote that closes the literal is behind a backslash, and
blanks do not part it from a later quote, since a literal may hold them.  A
comment does: no literal holds a slash.
-/
import Decaf.Proofs.Lexing.Yields

namespace Decaf
namespace Lexing

open Text Rule

/-! ## Separators -/

/-- What may stand between tokens. -/
inductive Filler where
  | space
  | tab
  | lineFeed
  | comment (body : Text) (h : '\n' ∉ body)

namespace Filler

/-- The text of a filler.  A comment has its line feed. -/
def text : Filler → Text
  | space => [' ']
  | tab => ['\t']
  | lineFeed => ['\n']
  | comment body _ => ['/', '/'] ++ body ++ ['\n']

/-- Whether a filler is a comment. -/
def isComment : Filler → Bool
  | comment _ _ => true
  | _ => false

end Filler

/-- A separator: fillers, one after another. -/
abbrev Separator := List Filler

/-- The text of a separator. -/
def Separator.text (w : Separator) : Text := w.flatMap Filler.text

/-- The text of some tokens, with a separator behind each. -/
def spaced (ts : List Token) (ws : List Separator) : Text :=
  (List.zipWith (fun t w => t.lexeme ++ Separator.text w) ts ws).flatten

/-- The text of some tokens, with a separator in front and one behind each. -/
def weave (w₀ : Separator) (ts : List Token) (ws : List Separator) : Text :=
  w₀.text ++ spaced ts ws

/-- Separators keep tokens apart: there is one behind each token, none begins
with a comment, and but for the last they are not empty, and hold a comment
behind a literal that closes at a quote behind a backslash. -/
structure Separates (ts : List Token) (ws : List Separator) : Prop where
  length : ws.length = ts.length
  opens : ∀ w ∈ ws, ∀ f ∈ w.head?, f.isComment = false
  parts : ∀ p ∈ (ts.zip ws).dropLast,
    p.2 ≠ [] ∧ (['\\', '"'] <:+ p.1.lexeme → ∃ f ∈ p.2, f.isComment = true)

variable {limits : Limits} {ts : List Token} {ws : List Separator} {w : Separator}

/-! ## Separators in front of a text -/

theorem startsApart_separator {r : Text} (hopen : ∀ f ∈ w.head?, f.isComment = false)
    (hr : w = [] → r = []) : StartsApart (w.text ++ r) := by
  cases w with
  | nil =>
      rw [hr rfl]
      intro c hc
      cases hc
  | cons f w =>
      intro c hc
      cases f with
      | comment => cases hopen _ rfl
      | _ =>
          cases hc
          rfl

/-- No literal is closed behind a comment, and none at the end of a text. -/
theorem literalRest_separator {r : Text} (h : (∃ f ∈ w, f.isComment = true) ∨ r = []) :
    literalRest (w.text ++ r) = none := by
  induction w with
  | nil =>
      rcases h with ⟨f, hf, -⟩ | rfl
      · cases hf
      · rfl
  | cons f w ih =>
      have htail : f.isComment = false → (∃ f ∈ w, f.isComment = true) ∨ r = [] := by
        intro hf
        refine h.imp_left ?_
        rintro ⟨g, hg, hcomment⟩
        rcases List.mem_cons.mp hg with rfl | hg
        · rw [hf] at hcomment
          cases hcomment
        · exact ⟨g, hg, hcomment⟩
      cases f with
      | comment => rfl
      | space => exact congrArg (Option.map (' ' :: ·)) (ih (htail rfl))
      | tab => exact congrArg (Option.map ('\t' :: ·)) (ih (htail rfl))
      | lineFeed => exact congrArg (Option.map ('\n' :: ·)) (ih (htail rfl))

theorem Yields.separator {r : Text} {l : List (Token.Kind × Text)} (w : Separator)
    (y : Yields limits r l) : Yields limits (w.text ++ r) l := by
  induction w with
  | nil => exact y
  | cons f w ih =>
      rw [Separator.text, List.flatMap_cons, List.append_assoc]
      cases f with
      | space => exact .of_space rfl ih
      | tab => exact .of_space rfl ih
      | lineFeed => exact .of_lineFeed ih
      | comment body h => exact .of_comment h ih

/-! ## Lexemes in front of a text -/

theorem not_mem_of_tokenKind? {a : Action} {v : Text} {kind : Token.Kind}
    (h : tokenKind? a v = some kind) : a ∉ [.skip, .newline, .comment, .reject] := by
  cases a with
  | word => decide
  | token => simp
  | _ => cases h

/-- A lexeme is a match in front of a text that begins apart from it. -/
theorem IsLexeme.begins_append {kind : Token.Kind} {v r : Text} (h : IsLexeme limits kind v)
    (hr : StartsApart r) (hlit : ['\\', '"'] <:+ v → literalRest r = none) :
    ∃ i a, Begins (v ++ r) ⟨i, a, v⟩ ∧ tokenKind? a v = some kind := by
  obtain ⟨i, a, r', hb, hk⟩ := h.begins
  exact ⟨i, a, hb.in_front_of_gap hr (not_mem_of_tokenKind? hk) h.not_reserved hlit, hk⟩

/-- A lexeme alone is one token. -/
theorem IsLexeme.tokenize {kind : Token.Kind} {v : Text} (h : IsLexeme limits kind v) :
    tokenize limits v = .ok [⟨kind, v, 1, 0⟩] := by
  obtain ⟨i, a, hb, hk⟩ := h.begins_append (r := []) nofun fun _ => rfl
  have hstep := step_of_tokenKind hb hk h.size 1 0
  rw [List.append_nil] at hstep
  exact tokenize_eq_ok_iff.mpr ⟨_, _, _, .step hstep .refl, rfl, rfl⟩

namespace Separates

variable {t u : Token}

theorem head (h : Separates (t :: u :: ts) (w :: ws)) :
    w ≠ [] ∧ (['\\', '"'] <:+ t.lexeme → ∃ f ∈ w, f.isComment = true) := by
  cases ws with
  | nil => cases h.length
  | cons v ws => exact h.parts (t, w) List.mem_cons_self

theorem tail (h : Separates (t :: ts) (w :: ws)) : Separates ts ws where
  length := Nat.succ.inj h.length
  opens v hv := h.opens v (List.mem_cons_of_mem _ hv)
  parts p hp := by
    refine h.parts p ?_
    rw [List.zip_cons_cons]
    cases hz : ts.zip ws with
    | nil =>
        rw [hz] at hp
        cases hp
    | cons q l =>
        rw [hz] at hp
        exact List.mem_cons_of_mem _ hp

end Separates

/-- Lexemes yield themselves when separators keep them apart. -/
theorem yields_spaced (hts : ∀ t ∈ ts, IsLexeme limits t.kind t.lexeme) (hws : Separates ts ws) :
    Yields limits (spaced ts ws) (ts.map spelling) := by
  induction ts generalizing ws with
  | nil => exact .nil
  | cons t ts ih =>
      cases ws with
      | nil => cases hws.length
      | cons w ws =>
          rw [spaced, List.zipWith_cons_cons, List.flatten_cons, List.append_assoc, ← spaced]
          have hrest := ih (fun u hu => hts u (List.mem_cons_of_mem _ hu)) hws.tail
          have hlex := hts t List.mem_cons_self
          have hopen := hws.opens w List.mem_cons_self
          -- Only the last token may have nothing behind it.
          obtain ⟨i, a, hb, hk⟩ : ∃ i a, Begins (t.lexeme ++ (w.text ++ spaced ts ws))
              ⟨i, a, t.lexeme⟩ ∧ tokenKind? a t.lexeme = some t.kind := by
            cases ts with
            | nil =>
                exact hlex.begins_append (startsApart_separator hopen fun _ => rfl)
                  (fun _ => literalRest_separator (.inr rfl))
            | cons u ts =>
                obtain ⟨hne, hescaped⟩ := hws.head
                exact hlex.begins_append (startsApart_separator hopen fun h => absurd h hne)
                  (fun h => literalRest_separator (.inl (hescaped h)))
          exact .token hb hk hlex.size (hrest.separator w)

/-- Tokens written with other separators are lexed to the same tokens, and each
lexeme alone to its token. -/
theorem tokenize_weave {source : Text} (h : tokenize limits source = .ok ts) :
    (∀ w₀ ws, Separates ts ws →
      ∃ us, tokenize limits (weave w₀ ts ws) = .ok us ∧ us.map spelling = ts.map spelling) ∧
    ∀ t ∈ ts, tokenize limits t.lexeme = .ok [⟨t.kind, t.lexeme, 1, 0⟩] := by
  obtain ⟨ms, ps, s', steps, hs, rfl⟩ := tokenize_eq_ok_iff.mp h
  have hts : ∀ t ∈ ps.filterMap Piece.token?, IsLexeme limits t.kind t.lexeme :=
    fun t ht => steps.isLexeme hs (mem_token?.mp ht)
  constructor
  · intro w₀ ws hws
    exact tokenize_iff_yields.mpr ((yields_spaced hts hws).separator w₀)
  · intro t ht
    exact (hts t ht).tokenize

/-- A literal that closes at a quote behind a backslash, with a comment behind
it that has a quote. -/
theorem tokenize_weave_of_comment :
    ∃ ts ws, tokenize {} "if\"\\\"==0x;".toList = .ok ts ∧ Separates ts ws ∧
      weave [.tab] ts ws = "\tif \"\\\"\t//\"\n== 0x\n;".toList ∧
      ∃ us, tokenize {} (weave [.tab] ts ws) = .ok us ∧ us.map spelling = ts.map spelling := by
  have h : tokenize {} "if\"\\\"==0x;".toList = .ok
      [⟨.keyword, ['i', 'f'], 1, 0⟩, ⟨.stringLiteral, ['"', '\\', '"'], 1, 2⟩,
        ⟨.symbol, ['=', '='], 1, 5⟩, ⟨.hexLiteral, ['0', 'x'], 1, 7⟩, ⟨.symbol, [';'], 1, 9⟩] :=
    eq_ok_of_toOption (by decide +kernel)
  refine ⟨_, [[.space], [.tab, .comment ['"'] (by decide)], [.space], [.lineFeed], []], h, ?apart,
    ?text, (tokenize_weave h).1 [.tab] _ ?apart⟩
  case apart => exact { length := rfl, opens := by decide, parts := by decide }
  case text => decide

end Lexing
end Decaf
