import PocketLisp.Proofs.Reading.Surrogates
import PocketLisp.Proofs.Reading.Termination
import PocketLisp.Proofs.Reading.Translation

/-!
# What stands for a surrogate is of no account

Code points are read as a text in which characters stand for the surrogates. Whichever they are,
so long as they are outside ASCII, every way to read the text comes to the same: to the same
expressions, with the same code points left behind them, or to a refusal of which the same is told.

The texts that are read for the same code points become one when a single character takes the
place of all that are outside ASCII. Reading takes no notice of that, so both come to what is read
of that one text.
-/

namespace PocketLisp.Reading

open Attempt Text

variable {rule : Rule} {entry : Entry} {text : String} {points : List CodePoint}
  {first second : Fin 0x800 → Char}

section Places

namespace Move

/-- Line feeds stay where they are. -/
theorem line_recast (move : Move) (chars : List Char) (offset : Int) :
    line (chars.map move.recast) offset = line chars offset := by
  simp only [line, before, List.length_map, ← List.map_take]
  rw [List.count, List.countP_map]
  refine congrArg (· + 1) (congrArg (List.countP · _) (funext fun char => ?_))
  rw [Function.comp_apply, beq_eq_beq, recast_eq_iff (by decide)]

/-- Lines start where they started. -/
theorem column_recast (move : Move) (chars : List Char) (offset : Int) :
    column (chars.map move.recast) offset = column chars offset := by
  have feed (char : Char) : (move.recast char != '\n') = (char != '\n') := by
    rw [bne, bne, Bool.not_inj_iff, beq_eq_beq, recast_eq_iff (by decide)]
  simp only [column, before, lineStart, List.length_map, ← List.map_take, ← List.map_reverse,
    List.takeWhile_map, Function.comp_def, feed]

end Move

end Places

section Blurring

/-- One character in the place of all that are outside ASCII. -/
def Move.blur : Move where
  count := 0
  recast char := if char.toNat < 128 then char else '\ufffd'
  outside char := by
    split
    · exact .inl rfl
    · next above => exact .inr ⟨Nat.le_of_not_lt above, by decide⟩

/-- The text with one character in the place of all that are outside ASCII. -/
def blurred (text : String) : String :=
  String.ofList (text.toList.map Move.blur.recast)

/-- Texts that become one are as long as each other. -/
theorem length_eq_of_blurred {text other : String} (same : blurred text = blurred other) :
    text.length = other.length := by
  simpa [blurred, String.length_toList] using congrArg String.length same

/-- The blurred text is what is ahead after the move. -/
theorem ofText_blurred (text : String) :
    Cursor.ofText (blurred text) = (Cursor.ofText text).under .blur := by
  rw [Cursor.ofText, blurred, String.toList_ofList]
  rfl

/-- The characters that stand for surrogates are outside ASCII. -/
def Foreign (standIn : Fin 0x800 → Char) : Prop :=
  ∀ index, 128 ≤ (standIn index).toNat

/-- The texts that are read for the same code points become one. -/
theorem blurred_readable (foreign : Foreign first) (foreignToo : Foreign second)
    (points : List CodePoint) :
    blurred (CodePoint.readable first points) = blurred (CodePoint.readable second points) := by
  have same : ∀ point : CodePoint, Move.blur.recast (point.stand first) =
      Move.blur.recast (point.stand second) := by
    intro point
    cases point with
    | character char => rfl
    | surrogate index =>
        have above := Nat.not_lt.2 (foreign index)
        have aboveToo := Nat.not_lt.2 (foreignToo index)
        simp only [Move.blur, CodePoint.stand, if_neg above, if_neg aboveToo]
  simp only [blurred, CodePoint.readable, String.toList_ofList, List.map_map, Function.comp_def, same]

end Blurring

section Outcomes

/-- What reading a text in this way comes to: the expressions, and the rest of the text where it is
given back. -/
def Entry.outcome (entry : Entry) (text : String) : Except Refusal (List Datum × Option String) :=
  match entry with
  | .rule rule => (readRule rule text).map fun read => ([read.1], some read.2)
  | .leading => (readLeading text).map fun read => ([read.1], some read.2)
  | .whole complete => (read complete text).map fun tree => ([tree], none)
  | .all => (readAll text).map fun trees => (trees, none)

/-- What is left of a text is left of the blurred text. -/
theorem moves_readRule (rule : Rule) (text : String) :
    Moves .blur (fun read moved => moved = (read.1, blurred read.2)) (readRule rule text)
      (readRule rule (blurred text)) := by
  have same := moves_readAt rule .blur (.ofText text)
  rw [← ofText_blurred] at same
  refine .bind same fun read moved suited => .ok ?_
  rw [suited, blurred, String.toList_ofList]
  rfl

/-- A single expression is read in the blurred text. -/
theorem moves_read (complete : Bool) (text : String) :
    Moves .blur (fun tree moved => moved = tree) (read complete text)
      (read complete (blurred text)) := by
  refine .bind (moves_expr (ofText_blurred text)) fun step moved ⟨value, next⟩ => ?_
  have finished : moved.next.ahead.isEmpty = step.next.ahead.isEmpty := by
    rw [next, Cursor.under, List.isEmpty_map]
  have left : String.ofList (moved.next.ahead.take 10) =
      String.ofList ((String.ofList (step.next.ahead.take 10)).toList.map Move.blur.recast) := by
    rw [next, Cursor.under, String.toList_ofList, List.map_take]
  rw [finished, left, next]
  exact .ite (.fail (.leftover _) _ _) (.ok value)

/-- Every way to read a text comes to the same in the blurred text. -/
theorem moves_outcome (entry : Entry) (text : String) :
    Moves .blur (fun read moved => moved = (read.1, read.2.map blurred)) (entry.outcome text)
      (entry.outcome (blurred text)) := by
  cases entry with
  | rule rule => exact (moves_readRule rule text).mapValue fun _ _ same => by simp [same]
  | leading => exact (moves_readRule .expr text).mapValue fun _ _ same => by simp [same]
  | whole complete => exact (moves_read complete text).mapValue fun _ _ same => by simp [same]
  | all => exact (moves_forms (ofText_blurred text)).mapValue fun _ _ same => by simp [same]

/-- A text is not read when reading it comes to a refusal. -/
theorem Entry.refuses_iff_outcome {refusal : Refusal} :
    entry.Refuses text refusal ↔ entry.outcome text = .error refusal := by
  have same {α β : Type} (f : α → β) (answer : Except Refusal α) :
      answer = .error refusal ↔ answer.map f = .error refusal := by
    cases answer <;> simp [Except.map]
  cases entry <;> exact same _ _

/-- What is given back behind an expression is the end of the text. -/
theorem isSuffix_of_readRule {tree : Datum} {rest : String}
    (read : readRule rule text = .ok (tree, rest)) : rest.toList <:+ text.toList := by
  obtain ⟨next, yields, rfl⟩ := readRule_eq_ok_iff.1 read
  obtain ⟨taken, ahead, -⟩ := exists_takes_of_attempt yields
  rw [String.toList_ofList]
  exact ⟨taken, ahead.symm⟩

/-- What is given back is the end of the text. -/
theorem Entry.isSuffix_of_outcome {trees : List Datum} {rest : String}
    (read : entry.outcome text = .ok (trees, some rest)) : rest.toList <:+ text.toList := by
  have given {rule : Rule}
      (here : (readRule rule text).map (fun read => ([read.1], some read.2)) = .ok (trees, some rest)) :
      rest.toList <:+ text.toList := by
    cases answer : readRule rule text with
    | error refusal => simp [answer, Except.map] at here
    | ok front =>
        obtain ⟨-, rfl⟩ : [front.1] = trees ∧ front.2 = rest := by
          simpa [answer, Except.map] using here
        exact isSuffix_of_readRule answer
  cases entry with
  | rule rule => exact given read
  | leading => exact given read
  | whole complete =>
      cases answer : Reading.read complete text <;> simp [outcome, answer, Except.map] at read
  | all => cases answer : readAll text <;> simp [outcome, answer, Except.map] at read

end Outcomes

section Telling

/-- A cause is told alike after a move, for what it repeats is told from the code points. -/
theorem Cause.detailOf_under (move : Move) (cause : Cause) (ahead : List CodePoint) :
    (cause.under move).detailOf ahead = cause.detailOf ahead := by
  cases cause <;> rfl

/-- A cause makes the same kind of failure after a move. -/
theorem Cause.kind_under (move : Move) (cause : Cause) : (cause.under move).kind = cause.kind := by
  cases cause <;> rfl

/-- Something is told of every cause. -/
theorem Cause.detailOf_ne_empty (cause : Cause) (ahead : List CodePoint) :
    (cause.detailOf ahead).isEmpty = false := by
  cases cause <;> simp [detailOf, detail]

/-- Two failures to read the same code points are told alike: their reports differ in nothing but
the text that was read, and lead to the same place, the same message and the same trace. -/
structure Failure.ToldAlike (points : List CodePoint) (text other : String)
    (failure same : Failure) : Prop where
  report : { failure.reportOf points text with text := other } = same.reportOf points other
  line : (failure.reportOf points text).line = (same.reportOf points other).line
  column : (failure.reportOf points text).column = (same.reportOf points other).column
  message : (failure.reportOf points text).message = (same.reportOf points other).message
  trace : (failure.reportOf points text).trace = (same.reportOf points other).trace

/-- The message of a report depends on the text for its place only. -/
theorem ParseError.message_with (error : ParseError) (text : String)
    (line : { error with text := text }.line = error.line)
    (column : { error with text := text }.column = error.column) :
    { error with text := text }.message = error.message := by
  simp only [message, line, column]

/-- The trace of a report with a detail does not depend on the text. -/
theorem ParseError.trace_with (error : ParseError) (text : String)
    (written : error.detail.isEmpty = false) : { error with text := text }.trace = error.trace := by
  simp only [trace, written]
  rfl

/-- Failures that are the same after the move are told alike of texts that become one. -/
theorem toldAlike_of_blurred {other : String} {failure same : Failure} (points : List CodePoint)
    (texts : blurred text = blurred other) (failures : failure.under .blur = same.under .blur) :
    failure.ToldAlike points text other same := by
  have chars : text.toList.map Move.blur.recast = other.toList.map Move.blur.recast :=
    String.ofList_injective texts
  obtain ⟨cause, position, committed, trail⟩ := Failure.mk.inj failures
  replace position : failure.position = same.position := position
  replace committed : failure.committed = same.committed := committed
  replace trail : failure.trail = same.trail := by
    simpa [Move.blur, Failure.shift] using trail
  have kind : failure.cause.kind = same.cause.kind := by
    rw [← Cause.kind_under .blur, cause, Cause.kind_under]
  have detail (ahead : List CodePoint) : failure.cause.detailOf ahead = same.cause.detailOf ahead := by
    rw [← Cause.detailOf_under .blur, cause, Cause.detailOf_under]
  have report : { failure.reportOf points text with text := other } = same.reportOf points other := by
    simp only [Failure.reportOf, Failure.report, kind, detail, position, committed, trail]
  have line : Text.line other.toList failure.position = Text.line text.toList failure.position := by
    rw [← Move.line_recast .blur, ← chars, Move.line_recast]
  have column : Text.column other.toList failure.position =
      Text.column text.toList failure.position := by
    rw [← Move.column_recast .blur, ← chars, Move.column_recast]
  exact {
    report := report
    line := by
      rw [← report]
      exact line.symm
    column := by
      rw [← report]
      exact column.symm
    message := by
      rw [← report]
      exact (ParseError.message_with (failure.reportOf points text) other line column).symm
    trace := by
      rw [← report]
      exact (ParseError.trace_with _ _ (Cause.detailOf_ne_empty _ _)).symm }

end Telling

/-- Two outcomes say the same of code points for which two texts were read: the same expressions,
with the same code points left behind them where the rest is given back, an overlong run of
as many digits, or failures that are told alike. -/
inductive SayAlike (first second : Fin 0x800 → Char) (points : List CodePoint) :
    Except Refusal (List Datum × Option String) → Except Refusal (List Datum × Option String) → Prop
  | whole (trees : List Datum) :
      SayAlike first second points (.ok (trees, none)) (.ok (trees, none))
  | front (trees : List Datum) {left : List CodePoint} (suffix : left <:+ points) :
      SayAlike first second points (.ok (trees, some (CodePoint.readable first left)))
        (.ok (trees, some (CodePoint.readable second left)))
  | overlong (digits : Nat) :
      SayAlike first second points (.error (.overlong digits)) (.error (.overlong digits))
  | failure {failure same : Failure}
      (told : failure.ToldAlike points (CodePoint.readable first points)
        (CodePoint.readable second points) same) :
      SayAlike first second points (.error (.failure failure)) (.error (.failure same))

/-- Ends of two texts that are as long as each other are read for the same code points. -/
theorem exists_left {rest restToo : String}
    (isSuffix : rest.toList <:+ (CodePoint.readable first points).toList)
    (isSuffixToo : restToo.toList <:+ (CodePoint.readable second points).toList)
    (length : rest.length = restToo.length) :
    ∃ left, left <:+ points ∧ rest = CodePoint.readable first left
      ∧ restToo = CodePoint.readable second left := by
  -- Both ends leave as much in front, so they start at the same code point.
  rw [List.suffix_iff_eq_drop] at isSuffix isSuffixToo
  simp only [CodePoint.readable, String.toList_ofList, List.length_map, String.length_toList,
    ← List.map_drop] at isSuffix isSuffixToo
  refine ⟨points.drop (points.length - rest.length), List.drop_suffix _ _, ?_, ?_⟩
  · rw [CodePoint.readable, ← isSuffix, String.ofList_toList]
  · rw [CodePoint.readable, length, ← isSuffixToo, String.ofList_toList]

/-- What is read of both texts is said alike, when the rests become one. -/
theorem sayAlike_of_ok {trees : List Datum} {rest restToo : Option String}
    (read : entry.outcome (CodePoint.readable first points) = .ok (trees, rest))
    (readToo : entry.outcome (CodePoint.readable second points) = .ok (trees, restToo))
    (same : restToo.map blurred = rest.map blurred) :
    SayAlike first second points (.ok (trees, rest)) (.ok (trees, restToo)) := by
  cases rest with
  | none =>
      obtain rfl := Option.map_eq_none_iff.1 same
      exact .whole trees
  | some rest =>
      obtain ⟨restToo, rfl, ends⟩ := Option.map_eq_some_iff.1 same
      obtain ⟨left, suffix, rfl, rfl⟩ := exists_left (Entry.isSuffix_of_outcome read)
        (Entry.isSuffix_of_outcome readToo) (length_eq_of_blurred ends.symm)
      exact .front trees suffix

/-- Refusals of both texts are said alike, when they are the same after the move. -/
theorem sayAlike_of_error {refusal refusalToo : Refusal}
    (texts : blurred (CodePoint.readable first points) = blurred (CodePoint.readable second points))
    (same : refusal.under .blur = refusalToo.under .blur) :
    SayAlike first second points (.error refusal) (.error refusalToo) := by
  rcases refusal with failure | digits <;> rcases refusalToo with failureToo | digitsToo
  · exact .failure (toldAlike_of_blurred points texts (Refusal.failure.inj same))
  · nomatch same
  · nomatch same
  · obtain rfl := Refusal.overlong.inj same
    exact .overlong digits

/-- Whatever stands for the surrogates, so long as it is outside ASCII, every way to read the text
says the same of the code points. -/
theorem sayAlike_outcome (entry : Entry) (foreign : Foreign first) (foreignToo : Foreign second)
    (points : List CodePoint) :
    SayAlike first second points (entry.outcome (CodePoint.readable first points))
      (entry.outcome (CodePoint.readable second points)) := by
  have texts := blurred_readable foreign foreignToo points
  have here := moves_outcome entry (CodePoint.readable first points)
  have there := moves_outcome entry (CodePoint.readable second points)
  rw [← texts] at there
  -- What the first text comes to decides what the blurred text does, and that what the second does.
  cases answer : entry.outcome (CodePoint.readable first points) with
  | ok read =>
      have common := here.eq_ok_iff.2 ⟨read, answer, rfl⟩
      obtain ⟨⟨trees, restToo⟩, answerToo, same⟩ := there.eq_ok_iff.1 common
      obtain ⟨rfl, rests⟩ := Prod.mk.inj same
      rw [answerToo]
      exact sayAlike_of_ok answer answerToo rests.symm
  | error refusal =>
      have common := here.eq_error_iff.2 ⟨refusal, answer, rfl⟩
      obtain ⟨refusalToo, answerToo, same⟩ := there.eq_error_iff.1 common
      rw [answerToo]
      exact sayAlike_of_error texts same

/-- A failure to read code points is told in the same way whatever stands for the surrogates. -/
theorem Entry.Refuses.exists_toldAlike {failure : Failure} (foreign : Foreign first)
    (foreignToo : Foreign second)
    (refuses : entry.Refuses (CodePoint.readable first points) (.failure failure)) :
    ∃ same, entry.Refuses (CodePoint.readable second points) (.failure same)
      ∧ failure.ToldAlike points (CodePoint.readable first points)
        (CodePoint.readable second points) same := by
  have alike := sayAlike_outcome entry foreign foreignToo points
  rw [refuses_iff_outcome.1 refuses] at alike
  generalize answer : entry.outcome (CodePoint.readable second points) = outcome at alike
  cases alike with
  | failure told => exact ⟨_, refuses_iff_outcome.2 answer, told⟩

end PocketLisp.Reading
