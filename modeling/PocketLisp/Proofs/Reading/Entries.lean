import PocketLisp.Proofs.Reading.Calls
import PocketLisp.Proofs.Reading.Grammar
import PocketLisp.Reading.Report

/-!
# Ways to read a text, and numbers that are too large

Every way to read a text either gives an answer, or refuses the text with a report,
or breaks off at a run of digits that is too long to be converted. Breaking off is
no report, whatever the digits are worth. So a run of digits that is worth too much
is reported as one unless it is too long, and then nothing is reported at all.
-/

namespace PocketLisp.Reading

open Attempt

variable {text : String} {refusal : Refusal} {rule : Rule} {cursor run : Cursor} {digits : Nat}

/-- The ways to read a text: with one rule, one expression at its start, one expression
that may have to be all of it, and every expression of it. -/
inductive Entry
  | rule (rule : Rule)
  | leading
  | whole (complete : Bool)
  | all
  deriving DecidableEq, Repr

namespace Entry

/-- The text is not read in this way. -/
def Refuses (entry : Entry) (text : String) (refusal : Refusal) : Prop :=
  match entry with
  | .rule rule => readRule rule text = .error refusal
  | .leading => readLeading text = .error refusal
  | .whole complete => read complete text = .error refusal
  | .all => readAll text = .error refusal

/-- Reading a text in this way comes to run a rule at a cursor. -/
inductive Starts (text : String) : Entry → Rule → Cursor → Prop
  | rule (rule : Rule) : Starts text (.rule rule) rule (.ofText text)
  | leading : Starts text .leading .expr (.ofText text)
  | whole (complete : Bool) : Starts text (.whole complete) .expr (.ofText text)
  | all {last : Cursor} (passes : Passes (.ofText text) last) (written : last.skipGaps.ahead ≠ []) :
      Starts text .all .expr last.skipGaps

/-- Reading a text in this way comes to look for an integer at an offset. -/
def ReachesRun (entry : Entry) (text : String) (offset : Nat) : Prop :=
  ∃ rule cursor, entry.Starts text rule cursor
    ∧ Reaches rule cursor .integer (.ofOffset text offset)

/-- What is promised of a way to read a text: whatever is not read is reported, and a run
of digits that is worth too much is reported as one, at its start and for good. -/
structure Reports (entry : Entry) (text : String) : Prop where
  reported : ∀ digits, ¬entry.Refuses text (.overlong digits)
  tooLarge : ∀ offset, entry.ReachesRun text offset →
    Atom.maxInt < Nat.ofDigitChars 10 (Cursor.ofOffset text offset).digits 0 →
    ∃ failure, entry.Refuses text (.failure failure)
      ∧ (failure.report text).kind = .malformedInteger
      ∧ (failure.report text).committed = true
      ∧ (failure.report text).position = offset

end Entry

/-- A rule that is refused for good refuses the text. -/
theorem readRule_eq_error_iff :
    readRule rule text = .error refusal ↔ attempt rule (.ofText text) = .error refusal := by
  cases answer : attempt rule (.ofText text) <;>
    simp [readRule, readAt, answer, bind, Except.bind, pure, Except.pure]

/-- What a rule reads at the start of a text, and the rest of the text behind it. -/
theorem readRule_eq_ok_iff {tree : Datum} {rest : String} :
    readRule rule text = .ok (tree, rest) ↔
      ∃ next, Yields (attempt rule (.ofText text)) tree next ∧ rest = String.ofList next.ahead := by
  cases answer : attempt rule (.ofText text) with
  | error refusal => simp [readRule, readAt, answer, bind, Except.bind]
  | ok step =>
      have read : readRule rule text = .ok (step.value, String.ofList step.next.ahead) := by
        simp [readRule, readAt, answer, bind, Except.bind, pure, Except.pure]
      rw [read]
      constructor
      · rintro ⟨⟩
        exact ⟨step.next, yields_ok.2 ⟨rfl, rfl⟩, rfl⟩
      · rintro ⟨next, yields, rfl⟩
        obtain ⟨rfl, rfl⟩ := yields_ok.1 yields
        rfl

/-- An expression that is refused for good refuses the text. -/
theorem read_eq_error_of_aborts {complete : Bool}
    (aborts : Aborts (expr (.ofText text)) refusal) : read complete text = .error refusal := by
  obtain ⟨failed, -⟩ := aborts
  simp [read, failed, bind, Except.bind]

/-- An overlong literal in a text is one in its expression. -/
theorem overlong_of_read {complete : Bool}
    (refused : read complete text = .error (.overlong digits)) :
    Aborts (expr (.ofText text)) (.overlong digits) := by
  cases answer : expr (.ofText text) with
  | error reason =>
      simp only [read, answer, bind, Except.bind] at refused
      obtain rfl := Except.error.inj refused
      simp
  | ok step =>
      simp only [read, answer, bind, Except.bind] at refused
      split at refused
      · simp [fail] at refused
      · contradiction

/-- The expressions ahead are refused when the first of them is, or the others behind
it. -/
theorem forms_eq_error_step_iff :
    forms cursor = .error refusal ↔
      cursor.skipGaps.ahead ≠ [] ∧ expr cursor.skipGaps = .error refusal
        ∨ ∃ tree next, Yields (expr cursor.skipGaps) tree next ∧ forms next = .error refusal := by
  rw [forms]
  split
  · next finished =>
      have none : cursor.skipGaps.ahead = [] := by simpa using finished
      refine iff_of_false nofun ?_
      rintro (⟨some, -⟩ | ⟨tree, next, yields, -⟩)
      · exact some none
      · have := yields.shorter
        simp [none] at this
  · next unfinished =>
      have some : cursor.skipGaps.ahead ≠ [] := by simpa using unfinished
      cases first : expr cursor.skipGaps with
      | error reason => simp [some, bind, Except.bind]
      | ok step =>
          cases others : forms step.next with
          | error reason =>
              simp only [others, yields_ok, bind, Except.bind]
              constructor
              · exact fun same => .inr ⟨step.value, step.next, ⟨rfl, rfl⟩, others.trans same⟩
              · rintro (⟨-, other⟩ | ⟨_, _, ⟨rfl, rfl⟩, same⟩)
                · contradiction
                · exact others.symm.trans same
          | ok rest => simp [others, bind, Except.bind, pure, Except.pure]

/-- The expressions ahead are refused when one of them is, behind those that are read
and their blanks. -/
theorem forms_eq_error_iff {cursor : Cursor} :
    forms cursor = .error refusal ↔
      ∃ last, Passes cursor last ∧ last.skipGaps.ahead ≠ []
        ∧ expr last.skipGaps = .error refusal := by
  constructor
  · intro refused
    rcases forms_eq_error_step_iff.1 refused with ⟨some, here⟩ | ⟨tree, next, yields, later⟩
    · exact ⟨cursor, .none cursor, some, here⟩
    · have := yields.shorter
      have := cursor.length_skipGaps_le
      obtain ⟨last, passes, some, there⟩ := forms_eq_error_iff.1 later
      exact ⟨last, .some yields passes, some, there⟩
  · rintro ⟨last, passes, some, refused⟩
    induction passes with
    | none => exact forms_eq_error_step_iff.2 (.inl ⟨some, refused⟩)
    | some yields rest inductionHypothesis =>
        exact forms_eq_error_step_iff.2 (.inr ⟨_, _, yields, inductionHypothesis some refused⟩)
termination_by cursor.ahead.length

/-- What is refused for good where reading a text comes to is refused for the text. -/
theorem Entry.Starts.refuses {entry : Entry} (starts : entry.Starts text rule cursor)
    (aborts : Aborts (attempt rule cursor) refusal) : entry.Refuses text refusal := by
  cases starts with
  | rule => exact readRule_eq_error_iff.2 aborts.1
  | leading => exact readRule_eq_error_iff.2 aborts.1
  | whole => exact read_eq_error_of_aborts aborts
  | all passes written => exact forms_eq_error_iff.2 ⟨_, passes, written, aborts.1⟩

/-- A text that is refused for an overlong literal has one where reading comes to. -/
theorem Entry.Refuses.exists_starts {entry : Entry}
    (refuses : entry.Refuses text (.overlong digits)) :
    ∃ rule cursor, entry.Starts text rule cursor
      ∧ Aborts (attempt rule cursor) (.overlong digits) := by
  cases entry with
  | rule rule => exact ⟨rule, _, .rule rule, readRule_eq_error_iff.1 refuses, rfl⟩
  | leading => exact ⟨.expr, _, .leading, readRule_eq_error_iff.1 refuses, rfl⟩
  | whole complete => exact ⟨.expr, _, .whole complete, overlong_of_read refuses⟩
  | all =>
      obtain ⟨last, passes, written, refused⟩ := forms_eq_error_iff.1 refuses
      exact ⟨.expr, _, .all passes written, refused, rfl⟩

section Places

/-- A cursor of a text has what is left of the text ahead. -/
def Cursor.IsIn (cursor : Cursor) (text : String) : Prop :=
  cursor.ahead = text.toList.drop cursor.offset

/-- What lies behind a stretch of a text is a cursor of the text. -/
theorem Cursor.Takes.isIn {start next : Cursor} {taken : List Char}
    (takes : start.Takes taken next) (isIn : start.IsIn text) : next.IsIn text := by
  have whole : text.toList.drop start.offset = taken ++ next.ahead := isIn.symm.trans takes.1
  unfold Cursor.IsIn
  rw [takes.2, ← List.drop_drop, whole, List.drop_left]

/-- Skipping blanks stays in the text. -/
theorem Cursor.IsIn.skipGaps (isIn : cursor.IsIn text) : cursor.skipGaps.IsIn text := by
  obtain ⟨gap, -, takes⟩ := exists_takes_skipGaps cursor
  exact takes.isIn isIn

/-- Reading an expression stays in the text. -/
theorem isIn_of_yields_expr {next : Cursor} {tree : Datum} (yields : Yields (expr cursor) tree next)
    (isIn : cursor.IsIn text) : next.IsIn text := by
  obtain ⟨spelling, behind, -, takes, -, rfl⟩ := yields_expr_iff_stands.1 yields
  unfold settle
  split
  · exact (takes.isIn isIn).skipGaps
  · exact takes.isIn isIn

/-- Reading expressions stays in the text. -/
theorem Passes.isIn {last : Cursor} (passes : Passes cursor last) (isIn : cursor.IsIn text) :
    last.IsIn text := by
  induction passes with
  | none => exact isIn
  | some yields rest inductionHypothesis =>
      exact inductionHypothesis (isIn_of_yields_expr yields isIn.skipGaps)

/-- A call stays in the text. -/
theorem Calls.isIn {inner : Rule} {place : Cursor} (calls : Calls rule cursor inner place)
    (isIn : cursor.IsIn text) : place.IsIn text := by
  cases calls with
  | integer | atom | constant | application | define => exact isIn
  | item bracket passes => exact (passes.isIn (bracket.isIn isIn)).skipGaps
  | value comes =>
      obtain ⟨word, outer, name, named, inner, define, opened, key, bracket, rfl⟩ := comes
      have start := (opened.isIn (define.isIn isIn)).skipGaps
      exact (bracket.isIn ((yields_key_iff.1 key).2.1.isIn start)).skipGaps

/-- Calls stay in the text. -/
theorem Reaches.isIn {inner : Rule} (reaches : Reaches rule cursor inner run)
    (isIn : cursor.IsIn text) : run.IsIn text := by
  induction reaches with
  | here => exact isIn
  | call calls rest inductionHypothesis => exact inductionHypothesis (calls.isIn isIn)

/-- Reading a text starts in it. -/
theorem Entry.Starts.isIn {entry : Entry} (starts : entry.Starts text rule cursor) :
    cursor.IsIn text := by
  have front : (Cursor.ofText text).IsIn text := by simp [Cursor.IsIn, Cursor.ofText]
  cases starts with
  | rule | leading | whole => exact front
  | all passes written => exact (passes.isIn front).skipGaps

end Places

/-- Reading breaks off exactly where it reaches a run of digits that is too long to be
converted. -/
theorem refuses_overlong_iff {entry : Entry} :
    entry.Refuses text (.overlong digits) ↔
      ∃ offset, entry.ReachesRun text offset ∧ Text.digitLimit < digits
        ∧ (Cursor.ofOffset text offset).digits.length = digits := by
  constructor
  · intro refuses
    obtain ⟨rule, cursor, starts, aborts⟩ := refuses.exists_starts
    obtain ⟨run, reaches, long⟩ := exists_reaches_of_overlong aborts
    have place : run = .ofOffset text run.offset := by
      rw [Cursor.ofOffset, ← reaches.isIn starts.isIn]
    rcases aborts_integer_iff.1 long with ⟨limit, same⟩ | ⟨-, -, other⟩
    · obtain rfl := Refusal.overlong.inj same
      exact ⟨run.offset, ⟨rule, cursor, starts, place ▸ reaches⟩, limit, by rw [← place]⟩
    · contradiction
  · rintro ⟨offset, ⟨rule, cursor, starts, reaches⟩, limit, rfl⟩
    have long := aborts_attempt_integer_iff.2 (aborts_integer_iff.2 (.inl ⟨limit, rfl⟩))
    obtain ⟨outer, aborts, origin⟩ := reaches.aborts long
    have same : outer = .overlong (Cursor.ofOffset text offset).digits.length := by
      cases outer with
      | failure failure => contradiction
      | overlong => exact origin
    exact same ▸ starts.refuses aborts

/-- A run of digits that is worth too much, and that can be converted, is reported. -/
theorem exists_report_of_reaches {entry : Entry} {offset : Nat}
    (reaches : entry.ReachesRun text offset)
    (short : (Cursor.ofOffset text offset).digits.length ≤ Text.digitLimit)
    (large : Atom.maxInt < Nat.ofDigitChars 10 (Cursor.ofOffset text offset).digits 0) :
    ∃ failure, entry.Refuses text (.failure failure)
      ∧ (failure.report text).kind = .malformedInteger
      ∧ (failure.report text).committed = true
      ∧ (failure.report text).position = offset := by
  obtain ⟨rule, cursor, starts, reaches⟩ := reaches
  have tooLarge := aborts_attempt_integer_iff.2 (aborts_integer_iff.2 (.inr ⟨short, large, rfl⟩))
  obtain ⟨outer, aborts, origin⟩ := reaches.aborts tooLarge
  cases outer with
  | overlong => contradiction
  | failure failure =>
      obtain ⟨cause, position, committed, -⟩ := Failure.mk.inj (Refusal.failure.inj origin)
      refine ⟨failure, starts.refuses aborts, ?_, committed, congrArg Int.ofNat position⟩
      exact congrArg Cause.kind cause

/-- An expression comes to look for an integer where it starts. -/
theorem reaches_integer (cursor : Cursor) : Reaches .expr cursor .integer cursor :=
  .call (.constant cursor) (.call (.atom cursor) (.call (.integer cursor) (.here .integer cursor)))

/-- Reading a text of ones breaks off when there are too many of them. -/
theorem refuses_ones (complete : Bool) {count : Nat} (long : Text.digitLimit < count) :
    (Entry.whole complete).Refuses (String.ofList (List.replicate count '1'))
      (.overlong count) := by
  have run : (Cursor.ofOffset (String.ofList (List.replicate count '1')) 0).digits =
      List.replicate count '1' := by
    rw [Cursor.digits, Cursor.ofOffset, String.toList_ofList, List.drop_zero,
      List.takeWhile_replicate]
    rfl
  refine refuses_overlong_iff.2 ⟨0, ⟨.expr, _, .whole complete, reaches_integer _⟩, long, ?_⟩
  rw [run, List.length_replicate]

/-- The promise is kept exactly when no run of digits that is reached is too long to be
converted, whatever it is worth. -/
theorem reports_iff_short (entry : Entry) (text : String) :
    entry.Reports text ↔
      ∀ offset, entry.ReachesRun text offset →
        (Cursor.ofOffset text offset).digits.length ≤ Text.digitLimit := by
  constructor
  · intro reports offset reaches
    refine Nat.not_lt.1 fun long => ?_
    exact reports.reported _ (refuses_overlong_iff.2 ⟨offset, reaches, long, rfl⟩)
  · intro short
    refine ⟨fun digits refuses => ?_, fun offset reaches large => ?_⟩
    · obtain ⟨offset, reaches, long, rfl⟩ := refuses_overlong_iff.1 refuses
      exact Nat.not_lt.2 (short offset reaches) long
    · exact exists_report_of_reaches reaches (short offset reaches) large

/-- The promise is broken by a text of one more digit than can be converted. -/
theorem not_reports_ones : ¬(Entry.whole false).Reports (String.ofList (List.replicate 4301 '1')) :=
  fun reports => reports.reported 4301 (refuses_ones false (by decide))

end PocketLisp.Reading
