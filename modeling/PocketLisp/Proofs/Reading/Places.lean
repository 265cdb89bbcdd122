import Mathlib.Algebra.GroupWithZero.Nat
import Mathlib.Data.List.Induction
import PocketLisp.Reading.Report
import PocketLisp.Reading.Source

/-!
# Lines and columns

The lines of a text are what stands between its line feeds. An offset falls into one of them,
and the line and the column that are reported for it say into which and how far in: the lines
before it, each with its line feed, and the characters in front of the column add up to the
offset. Right behind the last character of a line there is one more column, where its line feed
stands or the text ends.

So the line and the column determine the offset, and they are ordered as the offsets are.
-/

namespace PocketLisp

namespace Text

variable {front behind : List Char} {rows : List (List Char)}

/-- The lines of a text. -/
def lines (chars : List Char) : List (List Char) :=
  chars.splitOn '\n'

/-- How many characters some lines take, each with its line feed. -/
def extent (rows : List (List Char)) : Nat :=
  (rows.map fun row => row.length + 1).sum

/-- Lines take as many characters as their parts. -/
@[simp] theorem extent_append (rows others : List (List Char)) :
    extent (rows ++ others) = extent rows + extent others := by
  simp [extent]

/-- A line takes its characters and its line feed. -/
@[simp] theorem extent_singleton (row : List Char) : extent [row] = row.length + 1 := by
  simp [extent]

/-- A line feed ends a line. -/
theorem lines_cons_lineFeed (chars : List Char) : lines ('\n' :: chars) = [] :: lines chars := by
  simp [lines, List.splitOn_cons_eq_if_modifyHead]

/-- Any other character belongs to the line that it stands in front of. -/
theorem lines_cons_of_ne {char : Char} (other : char ≠ '\n') (chars : List Char) :
    ∃ row others, lines chars = row :: others ∧ lines (char :: chars) = (char :: row) :: others := by
  obtain ⟨row, others, shape⟩ := List.exists_cons_of_ne_nil (List.splitOn_ne_nil '\n' chars)
  refine ⟨row, others, shape, ?_⟩
  simp [lines, List.splitOn_cons_eq_if_modifyHead, other, shape]

/-- A text has one line more than it has line feeds. -/
theorem length_lines (chars : List Char) : (lines chars).length = chars.count '\n' + 1 := by
  induction chars with
  | nil => simp [lines]
  | cons char chars inductionHypothesis =>
      by_cases ends : char = '\n'
      · simp [ends, lines_cons_lineFeed, inductionHypothesis]
      · obtain ⟨row, others, shape, same⟩ := lines_cons_of_ne ends chars
        rw [shape] at inductionHypothesis
        simpa [same, ends] using inductionHypothesis

/-- The lines of a text take one line feed more than the text has. -/
theorem extent_lines (chars : List Char) : extent (lines chars) = chars.length + 1 := by
  induction chars with
  | nil => simp [lines]
  | cons char chars inductionHypothesis =>
      by_cases ends : char = '\n'
      · rw [ends, lines_cons_lineFeed]
        simpa [extent, Nat.add_comm 1] using inductionHypothesis
      · obtain ⟨row, others, shape, same⟩ := lines_cons_of_ne ends chars
        rw [shape] at inductionHypothesis
        simp only [extent, same, List.map_cons, List.sum_cons, List.length_cons] at inductionHypothesis ⊢
        omega

/-- A text without line feeds starts the first line of every text that it starts. -/
theorem lines_append_of_not_mem (single : '\n' ∉ front) (behind : List Char) :
    ∃ row others, lines (front ++ behind) = (front ++ row) :: others := by
  induction front with
  | nil => exact List.exists_cons_of_ne_nil (List.splitOn_ne_nil '\n' behind)
  | cons char front inductionHypothesis =>
      obtain ⟨other, single⟩ := not_or.1 (List.mem_cons.not.1 single)
      obtain ⟨row, others, shape⟩ := inductionHypothesis single
      obtain ⟨first, rest, shapeToo, same⟩ := lines_cons_of_ne (Ne.symm other) (front ++ behind)
      obtain ⟨rfl, rfl⟩ := List.cons.inj (shapeToo.symm.trans shape)
      exact ⟨row, rest, same⟩

/-- The last line of a text starts behind the last line feed of it, or where the text starts. -/
theorem lineStart_cases (chars : List Char) :
    '\n' ∉ chars ∧ lineStart chars = 0
      ∨ ∃ before last, chars = before ++ '\n' :: last ∧ '\n' ∉ last
        ∧ lineStart chars = before.length + 1 := by
  induction chars using List.reverseRecOn with
  | nil => simp [lineStart]
  | append_singleton chars char inductionHypothesis =>
      by_cases ends : char = '\n'
      · exact .inr ⟨chars, [], by simp [ends], nofun, by simp [lineStart, ends]⟩
      · have same : lineStart (chars ++ [char]) = lineStart chars := by
          simp [lineStart, ends]
        rw [same]
        rcases inductionHypothesis with ⟨single, first⟩ | ⟨before, last, rfl, single, start⟩
        · exact .inl ⟨by simp [single, Ne.symm ends], first⟩
        · exact .inr ⟨before, last ++ [char], by simp, by simp [single, Ne.symm ends], start⟩

/-- The line feeds of a text end its first lines. What stands behind them starts the line that
goes on where the text ends, whatever comes there. -/
theorem exists_lines_append (front behind : List Char) :
    ∃ rows last row others, lines (front ++ behind) = rows ++ (last ++ row) :: others
      ∧ front.count '\n' = rows.length ∧ lineStart front = extent rows
      ∧ front.length = extent rows + last.length := by
  rcases lineStart_cases front with ⟨single, start⟩ | ⟨before, last, rfl, single, start⟩
  · obtain ⟨row, others, same⟩ := lines_append_of_not_mem single behind
    exact ⟨[], front, row, others, same, List.count_eq_zero.2 single, start, by simp [extent]⟩
  · obtain ⟨row, others, same⟩ := lines_append_of_not_mem single behind
    refine ⟨lines before, last, row, others, ?_, ?_, ?_, ?_⟩
    · rw [← same, List.append_assoc, List.cons_append]
      exact List.splitOn_append_cons_self before (last ++ behind)
    · rw [length_lines, List.count_append, List.count_cons_self, List.count_eq_zero.2 single]
    · rw [start, extent_lines]
    · rw [extent_lines, List.length_append, List.length_cons]
      omega

/-- A line, counted from one, and a column of it, also counted from one, that stand for an
offset. Behind the last character of a line one more column is counted. -/
structure IsPlace (rows : List (List Char)) (line : Nat) (column offset : Int) : Prop where
  first : 1 ≤ line
  last : line ≤ rows.length
  inside : ∃ row, rows[line - 1]? = some row ∧ 1 ≤ column ∧ column ≤ row.length + 1
  offset_eq : (extent (rows.take (line - 1)) : Int) + column - 1 = offset

namespace IsPlace

variable {line lineToo : Nat} {column columnToo offset offsetToo : Int}

/-- A place on an earlier line stands for an earlier offset. -/
theorem lt_of_line_lt (place : IsPlace rows line column offset)
    (later : IsPlace rows lineToo columnToo offsetToo) (before : line < lineToo) :
    offset < offsetToo := by
  obtain ⟨first, -, ⟨row, found, -, inRow⟩, rfl⟩ := place
  obtain ⟨-, -, ⟨-, -, positive, -⟩, rfl⟩ := later
  -- All of the line and its line feed stand in front of the later line.
  have through : rows.take line = rows.take (line - 1) ++ [row] := by
    rw [← Nat.sub_add_cancel first, Nat.add_sub_cancel, List.take_add_one, found]
    rfl
  have further := List.take_append_drop line (rows.take (lineToo - 1))
  rw [List.take_take, Nat.min_eq_left (Nat.le_sub_one_of_lt before), through] at further
  rw [← further]
  simp only [extent_append, extent_singleton]
  omega

/-- Places are ordered by their lines first and by their columns within a line, as the offsets
are that they stand for. -/
theorem lt_iff (place : IsPlace rows line column offset)
    (other : IsPlace rows lineToo columnToo offsetToo) :
    offset < offsetToo ↔ line < lineToo ∨ line = lineToo ∧ column < columnToo := by
  rcases Nat.lt_trichotomy line lineToo with before | rfl | behind
  · exact iff_of_true (place.lt_of_line_lt other before) (.inl before)
  · have := place.offset_eq
    have := other.offset_eq
    omega
  · have := other.lt_of_line_lt place behind
    omega

/-- The same place stands for the same offset, and for no other one. -/
theorem eq_iff (place : IsPlace rows line column offset)
    (other : IsPlace rows lineToo columnToo offsetToo) :
    offset = offsetToo ↔ line = lineToo ∧ column = columnToo := by
  have := place.lt_iff other
  have := other.lt_iff place
  omega

end IsPlace

/-- The line and the column of an offset of a text stand for it. -/
theorem isPlace (chars : List Char) (offset : Nat) (inside : offset ≤ chars.length) :
    IsPlace (lines chars) (line chars offset) (column chars offset) offset := by
  obtain ⟨rows, last, row, others, shape, count, start, length⟩ :=
    exists_lines_append (chars.take offset) (chars.drop offset)
  rw [List.take_append_drop] at shape
  rw [List.length_take_of_le inside] at length
  rw [line, column, before_natCast, count, start, shape, length]
  have here : (rows ++ (last ++ row) :: others)[rows.length]? = some (last ++ row) := by simp
  have front : (rows ++ (last ++ row) :: others).take rows.length = rows := by simp
  refine ⟨by omega, by simp, ⟨last ++ row, here, by omega, ?_⟩, ?_⟩
  · rw [List.length_append]
    omega
  · rw [Nat.add_sub_cancel, front]
    omega

end Text

namespace Reading

namespace ParseError

/-- The line and the column of a report stand for its position. -/
theorem isPlace (error : ParseError) (above : 0 ≤ error.position)
    (inside : error.position ≤ error.text.length) :
    Text.IsPlace (Text.lines error.text.toList) error.line error.column error.position := by
  obtain ⟨offset, position⟩ := Int.eq_ofNat_of_zero_le above
  rw [position, ← String.length_toList] at inside
  rw [line, column, position]
  exact Text.isPlace _ offset (Int.ofNat_le.1 inside)

/-- The line and the column of a report stand for its position in the lines of the text. So two
reports about places in a text are about the same position when they name the same line and
column, and the one that names the earlier line, or the earlier column of the same line, is about
the earlier position. -/
theorem isPlace_line_column (error : ParseError) (above : 0 ≤ error.position)
    (inside : error.position ≤ error.text.length) :
    Text.IsPlace (Text.lines error.text.toList) error.line error.column error.position
      ∧ ∀ other : ParseError, other.text = error.text → 0 ≤ other.position →
        other.position ≤ other.text.length →
          (error.position = other.position ↔ error.line = other.line ∧ error.column = other.column)
          ∧ (error.position < other.position ↔
            error.line < other.line ∨ error.line = other.line ∧ error.column < other.column) := by
  have place := error.isPlace above inside
  refine ⟨place, fun other same aboveToo insideToo => ?_⟩
  have placeToo := other.isPlace aboveToo insideToo
  rw [same] at placeToo
  exact ⟨place.eq_iff placeToo, place.lt_iff placeToo⟩

/-- An empty line is in front of where the text ends behind its last line feed. -/
theorem isPlace_line_column_lineFeed :
    ∃ failure, read true "(a\n\n b\n" = .error (.failure failure)
      ∧ 0 ≤ (failure.report "(a\n\n b\n").position
      ∧ (failure.report "(a\n\n b\n").position ≤ "(a\n\n b\n".length
      ∧ Text.IsPlace ["(a".toList, [], " b".toList, []] 4 1 (failure.report "(a\n\n b\n").position
      ∧ ∀ other : ParseError, other.text = "(a\n\n b\n" → 0 ≤ other.position →
        other.position ≤ other.text.length → other.line = 2 →
          ¬(failure.report "(a\n\n b\n").position < other.position := by
  have unclosed : read true "(a\n\n b\n" = .error (.failure ⟨.noClosingBracket, 7, true,
      [(.application, 0), (.expr, 0)]⟩) := by decide +kernel
  obtain ⟨place, order⟩ := isPlace_line_column (Failure.report "(a\n\n b\n"
    ⟨.noClosingBracket, 7, true, [(.application, 0), (.expr, 0)]⟩) (by decide) (by decide)
  refine ⟨_, unclosed, by decide, by decide, place, fun other same above inside line => ?_⟩
  have fourth : (Failure.report "(a\n\n b\n" ⟨.noClosingBracket, 7, true,
      [(.application, 0), (.expr, 0)]⟩).line = 4 := by decide
  rw [(order other same above inside).2, fourth, line]
  omega

end ParseError

end Reading

end PocketLisp
