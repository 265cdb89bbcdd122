/-!
# Places in a text

An offset counts characters from the start of a text. A reader is told the line
and the column instead: lines end at line feeds, and both counts start at one. An
offset may lie behind the end, and it may be negative, in which case it counts back
from the end wherever it bounds a part of the text.
-/

namespace PocketLisp.Text

/-- The number of characters before an offset. A negative offset counts from the
end, and no offset reaches outside the text. -/
def bound (length : Nat) (offset : Int) : Nat :=
  if offset < 0 then (length + offset).toNat else min length offset.toNat

/-- The part of a text before an offset. -/
def before (chars : List Char) (offset : Int) : List Char :=
  chars.take (bound chars.length offset)

/-- The part of a text from one offset up to another. -/
def slice (chars : List Char) (start stop : Int) : List Char :=
  (before chars stop).drop (bound chars.length start)

/-- The line of an offset: one more than the line feeds before it. -/
def line (chars : List Char) (offset : Int) : Nat :=
  (before chars offset).count '\n' + 1

/-- The number of characters up to and including the last line feed. -/
def lineStart (chars : List Char) : Nat :=
  chars.length - (chars.reverse.takeWhile fun char => char != '\n').length

/-- The column of an offset: its distance from the start of its line, plus one.
Behind the end of the text columns keep counting. -/
def column (chars : List Char) (offset : Int) : Int :=
  offset - lineStart (before chars offset) + 1

/-- Inside a text an offset bounds as many characters as it says. -/
@[simp] theorem before_natCast (chars : List Char) (offset : Nat) :
    before chars offset = chars.take offset := by
  simp only [before, bound]
  rw [if_neg (by omega), Int.toNat_natCast]
  rcases Nat.le_total chars.length offset with long | short
  · rw [Nat.min_eq_left long, List.take_length, List.take_of_length_le long]
  · rw [Nat.min_eq_right short]

end PocketLisp.Text
