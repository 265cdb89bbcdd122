import PocketLisp.Proofs.Reading.Concatenation
import PocketLisp.Proofs.Reading.Surroundings

/-!
# Reading on from an offset

A rule that is run at an offset of a text does what it does at the start of the rest of the
text, further on by the offset. What stands in front is of no account.

So a text can be read in pieces: its blanks are taken off, the expression at its start is
read, and what is left is read in the same way. That comes to the same as reading all of its
expressions at once, also when one of them is refused.
-/

namespace PocketLisp.Reading

open Attempt

variable {text : String} {tree : Datum} {rule : Rule} {cursor : Cursor} {count : Nat}

section Rules

/-- What is left of a text from an offset on. -/
def remainder (text : String) (offset : Nat) : String :=
  String.ofList (text.toList.drop offset)

/-- At an offset there is ahead what is left of the text. -/
theorem ofOffset_eq_shift (text : String) (offset : Nat) :
    Cursor.ofOffset text offset = (Cursor.ofText (remainder text offset)).shift offset := by
  simp [Cursor.ofOffset, Cursor.ofText, Cursor.shift, remainder]

end Rules

section Pieces

/-- The text behind its leading blanks. -/
def dropGaps (text : String) : String :=
  String.ofList (text.toList.dropWhile Text.isGap)

/-- Without its leading blanks a text is no longer than with them. -/
theorem length_dropGaps_le (text : String) : (dropGaps text).length ≤ text.length := by
  rw [dropGaps, String.length_ofList, ← String.length_toList]
  exact (List.dropWhile_sublist Text.isGap).length_le

/-- Skipping the leading blanks of a text comes to the start of the text without them, as much
further on as there are blanks. -/
theorem skipGaps_ofText (text : String) :
    (Cursor.ofText text).skipGaps =
      (Cursor.ofText (dropGaps text)).shift (text.length - (dropGaps text).length) := by
  have stop := (Cursor.ofText text).stop_skipGaps
  have offset : (Cursor.ofText text).skipGaps.offset = text.length - (dropGaps text).length := by
    rw [dropGaps, String.length_ofList, ← String.length_toList]
    simp only [Cursor.stop, Cursor.ofText, Cursor.skipGaps, Cursor.past] at stop ⊢
    omega
  rw [← offset]
  simp [Cursor.shift, Cursor.ofText, Cursor.skipGaps, Cursor.past, dropGaps]

/-- Moving a cursor twice moves it by both numbers. -/
theorem Cursor.shift_shift (cursor : Cursor) (first second : Nat) :
    (cursor.shift first).shift second = cursor.shift (first + second) := by
  simp only [Cursor.shift, Nat.add_assoc]

/-- What is left behind an expression starts where the reading of it came to. -/
theorem ofText_rest_shift {next : Cursor} (yields : Yields (expr (.ofText text)) tree next) :
    next = (Cursor.ofText (String.ofList next.ahead)).shift (text.length - next.ahead.length) := by
  obtain ⟨taken, ⟨ahead, offset⟩, -⟩ := yields.exists_takes
  have whole := congrArg List.length ahead
  simp only [Cursor.ofText, List.length_append, String.length_toList] at whole offset
  have place : next.offset = text.length - next.ahead.length := by omega
  rw [← place]
  simp [Cursor.shift, Cursor.ofText]

/-- Behind an expression less is left than there was. -/
theorem length_lt_of_readLeading {rest : String} (read : readLeading text = .ok (tree, rest)) :
    rest.length < text.length := by
  obtain ⟨next, yields, rfl⟩ := readLeading_eq_ok_iff.1 read
  simpa [Cursor.ofText, String.length_toList] using yields.shorter

/-- The expressions of a text, read in pieces: blanks are taken off, the expression at the start
is read, and so is what is left. A refusal counts its offsets from the start of the piece, so
what was taken off in front is added. -/
def readPieces (text : String) : Except Refusal (List Datum) :=
  if dropGaps text = "" then .ok []
  else
    match _ : readLeading (dropGaps text) with
    | .error refusal => .error (refusal.shift (text.length - (dropGaps text).length))
    | .ok (tree, rest) =>
        ((readPieces rest).mapError (Refusal.shift (text.length - rest.length))).map (tree :: ·)
termination_by text.length
decreasing_by
  have := length_lt_of_readLeading ‹_›
  have := length_dropGaps_le text
  omega

/-- Reading every expression of a text is reading it in pieces. -/
theorem readAll_eq_readPieces (text : String) : readAll text = readPieces text := by
  rw [readAll, forms, readPieces, skipGaps_ofText]
  have none : ((Cursor.ofText (dropGaps text)).shift
      (text.length - (dropGaps text).length)).ahead.isEmpty = true ↔ dropGaps text = "" := by
    simp [Cursor.shift, Cursor.ofText]
  simp only [none]
  split
  · rfl
  let front := Cursor.ofText (dropGaps text)
  have further : Moves _ _ (expr front) (expr (front.shift (text.length - (dropGaps text).length))) :=
    moves_expr (Cursor.under_further _ _).symm
  split
  · next refusal refused =>
      have here : expr front = .error refusal := readRule_eq_error_iff.1 refused
      rw [further.eq_error_iff.2 ⟨refusal, here, rfl⟩, Refusal.under_further]
      rfl
  · next tree rest read =>
      obtain ⟨next, ⟨step, here, rfl, rfl⟩, rfl⟩ := readLeading_eq_ok_iff.1 read
      have behind := ofText_rest_shift ⟨step, here, rfl, rfl⟩
      have shorter : step.next.ahead.length < (dropGaps text).length := by
        simpa using length_lt_of_readLeading read
      have noLonger := length_dropGaps_le text
      rw [here] at further
      obtain ⟨moved, there, value, place⟩ := further.exists_of_ok
      have total : (dropGaps text).length - step.next.ahead.length
          + (text.length - (dropGaps text).length) = text.length - step.next.ahead.length := by
        omega
      rw [Cursor.under_further, behind, Cursor.shift_shift, total] at place
      have others := moves_forms (place.trans (Cursor.under_further _ _).symm)
      rw [← readAll, readAll_eq_readPieces] at others
      rw [there]
      simp only [bind, Except.bind, value, String.length_ofList]
      generalize readPieces (String.ofList step.next.ahead) = alone,
        forms moved.next = behind at others ⊢
      cases others with
      | ok same =>
          rw [same]
          rfl
      | error refusal =>
          rw [Refusal.under_further]
          rfl
termination_by text.length

end Pieces

/-- At an offset of a text a rule reads what it reads at the start of the rest of the text, and
comes as much further as the offset says. Where it fails there, it fails here: the report says
the same, with its position and the offsets of its contexts moved by the offset. Hence reading
every expression of a text is skipping its leading blanks, reading the expression at the start of
what is left, and going on with the rest behind it. -/
theorem readAt_ofOffset_and_readAll_eq (rule : Rule) (text : String) (offset : Nat) :
    (∀ tree next, readAt rule (.ofOffset text offset) = .ok (tree, next) ↔
      ∃ front, readAt rule (.ofText (remainder text offset)) = .ok (tree, front)
        ∧ next.offset = front.offset + offset ∧ next.ahead = front.ahead)
    ∧ (∀ moved, readAt rule (.ofOffset text offset) = .error (.failure moved) ↔
      ∃ failure, readAt rule (.ofText (remainder text offset)) = .error (.failure failure)
        ∧ moved = failure.shift offset
        ∧ (failure.report (remainder text offset)).Moves offset (moved.report text))
    ∧ (∀ digits, readAt rule (.ofOffset text offset) = .error (.overlong digits) ↔
      readAt rule (.ofText (remainder text offset)) = .error (.overlong digits))
    ∧ readAll text = readPieces text := by
  have moves := moves_readAt rule (.further offset) (.ofText (remainder text offset))
  simp only [Cursor.under_further] at moves
  rw [← ofOffset_eq_shift] at moves
  refine ⟨fun tree next => ?_, fun moved => ?_, fun digits => ?_, readAll_eq_readPieces text⟩
  · refine moves.eq_ok_iff.trans ⟨?_, ?_⟩
    · rintro ⟨⟨value, front⟩, read, ⟨⟩⟩
      exact ⟨front, read, rfl, rfl⟩
    · rintro ⟨front, read, place, ahead⟩
      refine ⟨(tree, front), read, ?_⟩
      rw [Cursor.shift, ← place, ← ahead]
  · rw [moves.eq_error_iff]
    constructor
    · rintro ⟨failure | digits, refused, moved⟩
      · rw [Refusal.under_further] at moved
        cases moved
        exact ⟨failure, refused, rfl, moves_report offset _ _ failure⟩
      · simp [Refusal.under] at moved
    · rintro ⟨failure, refused, rfl, -⟩
      exact ⟨_, refused, (Refusal.under_further offset (.failure failure)).symm⟩
  · rw [moves.eq_error_iff]
    constructor
    · rintro ⟨failure | digits, refused, ⟨⟩⟩
      exact refused
    · exact fun refused => ⟨_, refused, rfl⟩

end PocketLisp.Reading
