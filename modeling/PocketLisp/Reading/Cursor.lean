import PocketLisp.Text.Blank

/-!
# Cursors

A cursor is a place in a text together with the characters from there on. Reading
never looks back, so the characters before a cursor are not kept; the offset says
how many there are. Every operation moves the offset by exactly the characters that
it takes away, which `Cursor.stop` records: the offset at which the text ends.
-/

namespace PocketLisp.Reading

/-- A place in a text: the number of characters before it and those ahead of it. -/
structure Cursor where
  offset : Nat
  ahead : List Char
  deriving DecidableEq, Repr

namespace Cursor

/-- The cursor in front of a text. -/
def ofText (text : String) : Cursor := ⟨0, text.toList⟩

/-- The cursor at an offset of a text. -/
def ofOffset (text : String) (offset : Nat) : Cursor :=
  ⟨offset, text.toList.drop offset⟩

/-- The offset at which the text of a cursor ends. -/
def stop (cursor : Cursor) : Nat :=
  cursor.offset + cursor.ahead.length

/-- The cursor behind the longest run of accepted characters. -/
def past (accepts : Char → Bool) (cursor : Cursor) : Cursor :=
  ⟨cursor.offset + (cursor.ahead.takeWhile accepts).length, cursor.ahead.dropWhile accepts⟩

/-- The cursor behind the blanks of the grammar. -/
def skipGaps (cursor : Cursor) : Cursor :=
  cursor.past Text.isGap

/-- What is left of a text behind a literal that it starts with. -/
def strip? : List Char → List Char → Option (List Char)
  | [], text => some text
  | _ :: _, [] => none
  | char :: literal, first :: text => if char = first then strip? literal text else none

/-- The cursor behind a literal, when the literal stands ahead. -/
def behind? (literal : String) (cursor : Cursor) : Option Cursor :=
  (strip? literal.toList cursor.ahead).map fun ahead =>
    ⟨cursor.offset + literal.length, ahead⟩

/-- A word ends at a blank, at a closing bracket and at the end of the text. -/
def atDelimiter (cursor : Cursor) : Bool :=
  match cursor.ahead with
  | [] => true
  | char :: _ => Text.isGap char || char == ')'

/-- A run of accepted characters and what follows it make up what was ahead. -/
theorem takeWhile_append_past (accepts : Char → Bool) (cursor : Cursor) :
    cursor.ahead.takeWhile accepts ++ (cursor.past accepts).ahead = cursor.ahead :=
  List.takeWhile_append_dropWhile

/-- Passing a run does not move the end of the text. -/
@[simp] theorem stop_past (accepts : Char → Bool) (cursor : Cursor) :
    (cursor.past accepts).stop = cursor.stop := by
  have whole := congrArg List.length (cursor.takeWhile_append_past accepts)
  simp only [List.length_append] at whole
  simp only [stop, past] at whole ⊢
  omega

/-- Passing a run leaves no more ahead than there was. -/
theorem length_past_le (accepts : Char → Bool) (cursor : Cursor) :
    (cursor.past accepts).ahead.length ≤ cursor.ahead.length := by
  have whole := congrArg List.length (cursor.takeWhile_append_past accepts)
  simp only [List.length_append] at whole
  omega

/-- Passing a run that is not empty leaves less ahead. -/
theorem length_past_lt {accepts : Char → Bool} {cursor : Cursor}
    (some : cursor.ahead.takeWhile accepts ≠ []) :
    (cursor.past accepts).ahead.length < cursor.ahead.length := by
  have whole := congrArg List.length (cursor.takeWhile_append_past accepts)
  have := List.length_pos_iff.2 some
  simp only [List.length_append] at whole
  omega

/-- Skipping blanks does not move the end of the text. -/
@[simp] theorem stop_skipGaps (cursor : Cursor) : cursor.skipGaps.stop = cursor.stop :=
  stop_past _ cursor

/-- Skipping blanks leaves no more ahead than there was. -/
theorem length_skipGaps_le (cursor : Cursor) :
    cursor.skipGaps.ahead.length ≤ cursor.ahead.length :=
  length_past_le _ cursor

/-- A text starts with a literal exactly when it is the literal and what is left. -/
theorem strip?_eq_some_iff {literal text rest : List Char} :
    strip? literal text = some rest ↔ text = literal ++ rest := by
  induction literal generalizing text with
  | nil => simp [strip?]
  | cons char literal inductionHypothesis =>
      cases text with
      | nil => simp [strip?]
      | cons first text =>
          by_cases same : char = first
          · simp [strip?, same, inductionHypothesis]
          · simp [strip?, same, Ne.symm same]

/-- The literal and what is behind it make up what was ahead. -/
theorem ahead_eq_of_behind? {literal : String} {cursor next : Cursor}
    (found : cursor.behind? literal = some next) :
    cursor.ahead = literal.toList ++ next.ahead := by
  obtain ⟨ahead, stripped, rfl⟩ := Option.map_eq_some_iff.1 found
  exact strip?_eq_some_iff.1 stripped

/-- Behind a literal that is not empty there is less ahead. -/
theorem length_lt_of_behind? {literal : String} {cursor next : Cursor}
    (found : cursor.behind? literal = some next) (written : literal.toList ≠ []) :
    next.ahead.length < cursor.ahead.length := by
  have whole := congrArg List.length (ahead_eq_of_behind? found)
  have := List.length_pos_iff.2 written
  simp only [List.length_append] at whole
  omega

end Cursor

end PocketLisp.Reading
