/-
The log replays the run.

A log lists the matches of a run, and a match tells its rule, its line and its
lexeme, but no offset and no piece.  Both are found again from the log alone:
the offset is the size of what was matched before, and the piece is told by the
rule (`Matched.piece?`).  So the tokens and trivia of a source are those of its
log, replayed (`logOf_replays`).

A match is logged before it is acted on, so where a run fails the last match may
be the one that was refused:

    unexpected c       no match; what was matched ends at the error
    reserved w         the word, and it begins at the error
    tooLong n max      a lexeme of n bytes, and it begins at the error

The line that a finished run reports is that of the last line feed, and one more
behind a comment that has none.
-/
import Decaf.Log
import Decaf.Proofs.Lexing.LineNumbers

namespace Decaf
namespace Lexing

open Text Rule

/-! ## Replaying matches -/

/-- The piece that a match yields at an offset, told by the place of its rule in
the table.  A reserved word, at the place 3, yields none. -/
def Matched.piece? (m : Matched) (offset : Nat) : Option Piece :=
  match m.rule with
  | 0 => some (.trivia ⟨.whitespace, m.lexeme, m.line, offset⟩)
  | 1 => some (.trivia ⟨.newline, m.lexeme, m.line, offset⟩)
  | 2 => some (.trivia ⟨.comment, m.lexeme, m.line, offset⟩)
  | 4 => some (.token ⟨.hexLiteral, m.lexeme, m.line, offset⟩)
  | 5 => some (.token ⟨wordKind m.lexeme, m.lexeme, m.line, offset⟩)
  | 6 => some (.token ⟨.decimalLiteral, m.lexeme, m.line, offset⟩)
  | 7 | 8 | 9 => some (.token ⟨.symbol, m.lexeme, m.line, offset⟩)
  | 10 => some (.token ⟨.stringLiteral, m.lexeme, m.line, offset⟩)
  | _ => none

/-- The pieces that some matches yield, one behind another from an offset on, if
all of them yield one. -/
def replay? (offset : Nat) : List Matched → Option (List Piece)
  | [] => some []
  | m :: ms =>
      match m.piece? offset, replay? (offset + byteSize m.lexeme) ms with
      | some p, some ps => some (p :: ps)
      | _, _ => none

/-- What some matches have matched, all together. -/
def matchedText (ms : List Matched) : Text := ms.flatMap Matched.lexeme

/-- The size of what some matches have matched. -/
def matchedSize (ms : List Matched) : Nat := ms.foldr (fun m n => byteSize m.lexeme + n) 0

/-- Each match is the one that the table makes behind the earlier ones, on the
line that their line feeds lead to. -/
def AreFirst (source : Text) (ms : List Matched) : Prop :=
  ∀ k m, ms[k]? = some m →
    m.line = 1 + lineFeeds (matchedText (ms.take k)) ∧
      ∃ t a, dropBytes? (matchedSize (ms.take k)) source = some t ∧
        select? table t = some ⟨m.rule, a, m.lexeme⟩

/-- The lexeme that a failing step has matched, by the cause of the failure. -/
def Refuses (lexeme : Text) : LexError.Cause → Prop
  | .unexpected _ => lexeme = []
  | .reserved word => lexeme = word
  | .tooLong size _ => byteSize lexeme = size
  | .emptyMatch _ | .malformed _ _ => False

variable {limits : Limits} {s s' : State} {p : Piece} {seen : Matched} {ms : List Matched}
  {ps : List Piece}

@[simp] theorem matchedText_cons (m : Matched) (ms : List Matched) :
    matchedText (m :: ms) = m.lexeme ++ matchedText ms := rfl

theorem byteSize_matchedText (ms : List Matched) : byteSize (matchedText ms) = matchedSize ms := by
  induction ms with
  | nil => rfl
  | cons m ms ih =>
      rw [matchedText_cons, byteSize_append, ih]
      rfl

/-! ## One step -/

/-- The match of a step tells its piece. -/
theorem piece?_of_step (h : step limits s = .advanced seen p s') :
    seen.piece? s.offset = some p ∧ seen.lexeme = p.text ∧ seen.line = s.line := by
  obtain ⟨m, n, hb, ha, rfl, -⟩ := step_eq_advanced_iff.mp h
  obtain ⟨htext, -, -⟩ := act_eq_ok ha
  refine ⟨?_, htext.symm, rfl⟩
  generalize s.rest = t at hb
  cases hb with
  | blanks | lineFeed | comment =>
      cases ha
      rfl
  | reserved => cases ha
  | _ =>
      obtain ⟨-, rfl, -⟩ := tokenAt_eq_ok ha
      rfl

theorem select?_of_step (h : step limits s = .advanced seen p s') :
    ∃ a, select? table s.rest = some ⟨seen.rule, a, seen.lexeme⟩ := by
  obtain ⟨m, n, hb, -, rfl, -⟩ := step_eq_advanced_iff.mp h
  exact ⟨m.action, begins_iff.mpr hb⟩

/-! ## Runs -/

theorem Steps.replay?_eq (h : Steps limits s ms ps s') : replay? s.offset ms = some ps := by
  induction h with
  | refl => rfl
  | step h _ ih =>
      obtain ⟨hpiece, htext, -⟩ := piece?_of_step h
      obtain ⟨-, -, -, -, hoffset⟩ := rest_of_step h
      rw [hoffset] at ih
      rw [replay?, hpiece, htext, ih]

theorem Steps.matchedText_eq (h : Steps limits s ms ps s') :
    matchedText ms = ps.flatMap Piece.text := by
  induction h with
  | refl => rfl
  | step h _ ih =>
      obtain ⟨-, htext, -⟩ := piece?_of_step h
      rw [matchedText_cons, htext, ih, List.flatMap_cons]

/-- The lines of a run are those of its line feeds, and one more behind a comment
that has none; that one is the last piece. -/
theorem Steps.line_of_end (h : Steps limits s ms ps s') :
    s'.line = s.line + lineFeeds (ps.flatMap Piece.text) +
      if ps.getLast?.any Piece.isOpen then 1 else 0 := by
  cases hlast : ps.getLast? with
  | none =>
      obtain rfl := List.getLast?_eq_none_iff.mp hlast
      cases h
      rfl
  | some p =>
      obtain ⟨ms₁, ps₁, s₁, seen, t₁, h₁, rfl⟩ := h.last_step hlast
      rw [line_of_step_eq h₁, t₁.line_eq (rest_ne_nil_of_step h₁), List.flatMap_append,
        lineFeeds_append, List.flatMap_singleton, Nat.add_assoc s.line]
      rfl

/-- Each match of a run is the first one behind the earlier ones. -/
theorem Steps.select?_of_getElem? (h : Steps limits s ms ps s') {k : Nat} {m : Matched}
    (hk : ms[k]? = some m) :
    m.line = s.line + lineFeeds (matchedText (ms.take k)) ∧
      ∃ t a, s.rest = matchedText (ms.take k) ++ t ∧
        select? table t = some ⟨m.rule, a, m.lexeme⟩ := by
  induction h generalizing k with
  | refl => cases hk
  | @step s s₁ s' seen p ms ps h _ ih =>
      obtain ⟨-, htext, hline⟩ := piece?_of_step h
      cases k with
      | zero =>
          obtain rfl := Option.some.inj hk
          obtain ⟨a, ha⟩ := select?_of_step h
          exact ⟨hline, s.rest, a, rfl, ha⟩
      | succ k =>
          obtain ⟨hm, t, a, hrest, ha⟩ := ih hk
          have hleft : s₁.rest ≠ [] := by
            rw [hrest]
            refine List.append_ne_nil_of_right_ne_nil _ ?_
            rintro rfl
            rw [select?_table_nil] at ha
            cases ha
          rw [List.take_succ_cons, matchedText_cons, lineFeeds_append, htext]
          refine ⟨?_, t, a, ?_, ha⟩
          · rw [hm, line_of_step h hleft, Nat.add_assoc]
          · rw [(rest_of_step h).1, hrest, List.append_assoc]

theorem Steps.areFirst {source : Text} (h : Steps limits (.start source) ms ps s') :
    AreFirst source ms := by
  intro k m hk
  obtain ⟨hline, t, a, hrest, ha⟩ := h.select?_of_getElem? hk
  refine ⟨hline, t, a, ?_, ha⟩
  change source = _ at hrest
  rw [hrest, ← byteSize_matchedText, dropBytes?_append]

/-! ## Where a run fails -/

/-- A failing step has made a match that it refuses, or none. -/
theorem refuses_of_failed {seen : Option Matched} {cause : LexError.Cause}
    (h : step limits s = .failed seen cause) :
    Refuses (matchedText seen.toList) cause ∧ matchedText seen.toList <+: s.rest ∧
      ∀ m ∈ seen, m.line = s.line ∧ ∃ a, select? table s.rest = some ⟨m.rule, a, m.lexeme⟩ := by
  rcases step_eq_failed h with ⟨m, hb, ha, rfl⟩ | ⟨-, rfl, rfl⟩
  · have htext : matchedText [⟨m.index, s.line, m.text⟩] = m.text := List.append_nil _
    rw [Option.toList_some, htext]
    refine ⟨?_, hb.isPrefix, ?_⟩
    · rcases act_eq_error ha with ⟨-, rfl⟩ | ⟨kind, -, -, rfl⟩
      · rfl
      · rfl
    · intro m' hm
      obtain rfl := Option.some.inj hm
      exact ⟨rfl, m.action, begins_iff.mpr hb⟩
  · exact ⟨rfl, List.nil_prefix, nofun⟩

/-- The matches up to a failure, with the one that was refused. -/
theorem Steps.areFirst_of_failed {source : Text} (h : Steps limits (.start source) ms ps s')
    {seen : Option Matched} {cause : LexError.Cause}
    (hf : Lexing.step limits s' = .failed seen cause) (hs : s'.rest ≠ []) :
    AreFirst source (ms ++ seen.toList) := by
  cases seen with
  | none =>
      rw [Option.toList_none, List.append_nil]
      exact h.areFirst
  | some m =>
      obtain ⟨-, -, hseen⟩ := refuses_of_failed hf
      obtain ⟨hline, a, ha⟩ := hseen m rfl
      intro k n hk
      rw [Option.toList_some] at hk ⊢
      by_cases hlt : k < ms.length
      · rw [List.getElem?_append_left hlt] at hk
        rw [List.take_append_of_le_length (Nat.le_of_lt hlt)]
        exact h.areFirst k n hk
      · obtain ⟨hlen, rfl⟩ : k = ms.length ∧ n = m := by
          rw [List.getElem?_append_right (Nat.le_of_not_lt hlt)] at hk
          obtain ⟨hzero, hm⟩ := List.getElem?_eq_some_iff.mp hk
          rw [List.length_singleton] at hzero
          refine ⟨by omega, ?_⟩
          simpa using hm.symm
        rw [hlen, List.take_left]
        refine ⟨?_, s'.rest, a, ?_, ha⟩
        · rw [hline, h.line_eq hs, h.matchedText_eq]
          rfl
        · obtain ⟨hsource, -⟩ := h.source_eq
          rw [← byteSize_matchedText, h.matchedText_eq, hsource, dropBytes?_append]

/-! ## The log -/

/-- A log tells the matches that it lists. -/
theorem eq_of_log_eq {size size' : Nat} {ms ms' : List Matched} {last last' : LogEvent}
    (h : .started size :: ms.map .matched ++ [last] =
      .started size' :: ms'.map .matched ++ [last']) : ms = ms' := by
  obtain ⟨hevents, -⟩ := List.append_inj' h rfl
  obtain ⟨-, hmatched⟩ := List.cons.inj hevents
  exact (List.map_inj_right fun _ _ h => LogEvent.matched.inj h).mp hmatched

/-- The log of a run and its result tell each other.  The events of a log are its
start, the matches in order, and its end.  Each match is the first one behind
the earlier ones.  Where the run comes to its end, the matches make up the
source, and the tokens and trivia are those of the matches, replayed.  Where it
fails, the last event is the error, and the matches make up the source before it
and the lexeme that was refused. -/
theorem logOf_replays (limits : Limits) (source : Text) :
    ∃ ms, AreFirst source ms ∧
      match lex limits source with
      | .ok lexed => ∃ ps,
          logOf limits source = .started (byteSize source) :: ms.map .matched ++
            [.finished lexed.tokens.length
              (1 + lineFeeds source + if ps.getLast?.any Piece.isOpen then 1 else 0)] ∧
          matchedText ms = source ∧ replay? 0 ms = some ps ∧
          lexed = ⟨ps.filterMap Piece.token?, ps.filterMap Piece.trivia?⟩
      | .error e => ∃ pos u v r,
          logOf limits source = .started (byteSize source) :: ms.map .matched ++
            [.failed pos e.cause] ∧
          e.position = some pos ∧ source = u ++ v ++ r ∧ byteSize u = pos.offset ∧
          matchedText ms = u ++ v ∧ Refuses v e.cause := by
  obtain ⟨ms, ps, s', t, hs | ⟨hs, seen, cause, hf⟩⟩ := exists_steps limits (.start source)
  · rw [logOf, run, t.runFrom_of_nil hs, lex_eq_ok_iff.mpr ⟨ms, ps, s', t, hs, rfl⟩]
    have htext : ps.flatMap Piece.text = source := by
      have hrest := t.rest_eq
      rw [hs, List.append_nil] at hrest
      exact hrest.symm
    refine ⟨ms, t.areFirst, ps, ?_, t.matchedText_eq.trans htext, t.replay?_eq, rfl⟩
    have hline := t.line_of_end
    rw [htext] at hline
    rw [Run.log, Run.lastEvent, hline]
    rfl
  · rw [logOf, run, t.runFrom_of_failed hs hf,
      lex_eq_error_iff.mpr ⟨ms, ps, s', seen, cause, t, hs, hf, rfl⟩]
    obtain ⟨hsource, hoffset⟩ := t.source_eq
    obtain ⟨hrefuses, ⟨r, hr⟩, -⟩ := refuses_of_failed hf
    refine ⟨_, t.areFirst_of_failed hf hs, s'.position, ps.flatMap Piece.text,
      matchedText seen.toList, r, rfl, rfl, ?_, hoffset.symm, ?_, hrefuses⟩
    · rw [List.append_assoc, hr, ← hsource]
    · rw [← t.matchedText_eq]
      exact List.flatMap_append

/-- A word on the second line that is refused, and a comment that nothing ends. -/
theorem logOf_replays_of_refusal :
    logOf {} "x\nclass y".toList =
        [.started 9, .matched ⟨5, 1, ['x']⟩, .matched ⟨1, 1, ['\n']⟩,
          .matched ⟨3, 2, "class".toList⟩, .failed ⟨2, 2⟩ (.reserved "class".toList)] ∧
      AreFirst "x\nclass y".toList [⟨5, 1, ['x']⟩, ⟨1, 1, ['\n']⟩, ⟨3, 2, "class".toList⟩] ∧
      logOf {} "x//".toList =
        [.started 3, .matched ⟨5, 1, ['x']⟩, .matched ⟨2, 1, "//".toList⟩, .finished 1 2] ∧
      AreFirst "x//".toList [⟨5, 1, ['x']⟩, ⟨2, 1, "//".toList⟩] ∧
      ∃ ps, replay? 0 [⟨5, 1, ['x']⟩, ⟨2, 1, "//".toList⟩] = some ps ∧
        lex {} "x//".toList = .ok ⟨ps.filterMap Piece.token?, ps.filterMap Piece.trivia?⟩ := by
  have hfailed : lex {} "x\nclass y".toList = .error ⟨.reserved "class".toList, some ⟨2, 2⟩⟩ :=
    lex_of_error? (by decide +kernel)
  have hfinished : lex {} "x//".toList =
      .ok ⟨[⟨.identifier, ['x'], 1, 0⟩], [⟨.comment, "//".toList, 1, 1⟩]⟩ :=
    eq_ok_of_toOption (by decide +kernel)
  have hlog : logOf {} "x\nclass y".toList =
      .started 9 :: [⟨5, 1, ['x']⟩, ⟨1, 1, ['\n']⟩, ⟨3, 2, "class".toList⟩].map .matched ++
        [.failed ⟨2, 2⟩ (.reserved "class".toList)] := by decide +kernel
  have hlog' : logOf {} "x//".toList =
      .started 3 :: [⟨5, 1, ['x']⟩, ⟨2, 1, "//".toList⟩].map .matched ++ [.finished 1 2] := by
    decide +kernel
  obtain ⟨ms, hfirst, hreplay⟩ := logOf_replays {} "x\nclass y".toList
  rw [hfailed] at hreplay
  obtain ⟨pos, u, v, r, htold, -⟩ := hreplay
  obtain rfl := eq_of_log_eq (hlog.symm.trans htold)
  obtain ⟨ms', hfirst', hreplay'⟩ := logOf_replays {} "x//".toList
  rw [hfinished] at hreplay'
  obtain ⟨ps, htold', -, hps, hlexed⟩ := hreplay'
  obtain rfl := eq_of_log_eq (hlog'.symm.trans htold')
  exact ⟨hlog, hfirst, hlog', hfirst', ps, hps, hfinished.trans (congrArg _ hlexed)⟩

end Lexing
end Decaf
