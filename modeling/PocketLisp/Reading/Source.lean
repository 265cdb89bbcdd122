import PocketLisp.Reading.Form

/-!
# Reading source text

The ways to read a text: with one rule of the grammar, giving back what is left; as
one expression, with or without the demand that nothing is left; and as a sequence
of expressions with blanks around them. Blanks in front of a single expression are
not skipped.
-/

namespace PocketLisp.Reading

open Attempt

/-- The attempt of one rule at a cursor. -/
def attempt (rule : Rule) (cursor : Cursor) : Attempt Datum cursor :=
  match rule with
  | .integer => (integer cursor).map fun value => .atom (.int value)
  | .key => (key cursor).map fun name => .atom (.key name)
  | .boolean => (boolean cursor).map fun value => .atom (.bool value)
  | .instruction => (instruction cursor).map fun tag => .atom (.instruction tag)
  | .atom => (atom cursor).map .atom
  | .constant => constant cursor
  | .application => application cursor
  | .define => define cursor
  | .expr => expr cursor

/-- What one rule reads at a cursor, and the cursor behind it. -/
def readAt (rule : Rule) (cursor : Cursor) : Except Refusal (Datum × Cursor) := do
  let step ← attempt rule cursor
  return (step.value, step.next)

/-- What one rule reads at the start of a text, and the rest of the text. -/
def readRule (rule : Rule) (text : String) : Except Refusal (Datum × String) := do
  let (value, next) ← readAt rule (Cursor.ofText text)
  return (value, String.ofList next.ahead)

/-- One expression at the start of a text, and the rest of the text. -/
def readLeading (text : String) : Except Refusal (Datum × String) :=
  readRule .expr text

/-- One expression at the start of a text. What follows is ignored, unless the
reading has to be complete. -/
def read (complete : Bool) (text : String) : Except Refusal Datum := do
  let step ← expr (Cursor.ofText text)
  if complete && !step.next.ahead.isEmpty then
    fail (.leftover (String.ofList (step.next.ahead.take 10))) step.next.offset false
  else return step.value

/-- The expressions ahead, up to the end of the text. -/
def forms (cursor : Cursor) : Except Refusal (List Datum) :=
  if cursor.skipGaps.ahead.isEmpty then .ok []
  else do
    let first ← expr cursor.skipGaps
    let rest ← forms first.next
    return first.value :: rest
termination_by cursor.ahead.length
decreasing_by
  have := first.shorter
  have := cursor.length_skipGaps_le
  omega

/-- Every expression of a text. -/
def readAll (text : String) : Except Refusal (List Datum) :=
  forms (Cursor.ofText text)

end PocketLisp.Reading
