import PocketLisp.Reading.Cursor
import PocketLisp.Reading.Failure

/-!
# Steps of reading

A rule that succeeds at a cursor makes a `Step`: a value and the cursor behind it,
with less ahead than before. The proof travels with the step, and it is what makes
the recursion of the grammar end.

`within` notes the rule that a failure came through. `orElse` is ordered choice: a
committed failure ends it, and of two failures the one further on is kept.
-/

namespace PocketLisp.Reading

/-- A value read at a cursor, and the cursor behind it. -/
structure Step (α : Type) (start : Cursor) where
  value : α
  next : Cursor
  shorter : next.ahead.length < start.ahead.length

/-- What becomes of an attempt to read at a cursor. -/
abbrev Attempt (α : Type) (start : Cursor) :=
  Except Refusal (Step α start)

/-- The step with its value changed. -/
def Step.map {α β : Type} {start : Cursor} (f : α → β) (step : Step α start) :
    Step β start :=
  ⟨f step.value, step.next, step.shorter⟩

namespace Attempt

variable {α β : Type} {start : Cursor}

/-- A failure at the cursor. -/
def fail (cause : Cause) (position : Nat) (committed : Bool) : Except Refusal α :=
  .error (.failure ⟨cause, position, committed, []⟩)

/-- The attempt with the value of its step changed. -/
def map (f : α → β) (attempt : Attempt α start) : Attempt β start :=
  Except.map (Step.map f) attempt

/-- An attempt made inside a rule at an offset, noted in the trail of a failure. -/
def within (rule : Rule) (offset : Nat) (attempt : Except Refusal α) : Except Refusal α :=
  match attempt with
  | .error (.failure failure) =>
      .error (.failure { failure with trail := failure.trail ++ [(rule, offset)] })
  | other => other

/-- The failure of two uncommitted alternatives: the one further on, or the earlier
one if they are equally far. -/
def further (first second : Failure) : Failure :=
  if first.position < second.position then second else first

/-- Ordered choice. The second alternative is tried only when the first fails
without being committed. -/
def orElse (first : Except Refusal α) (second : Unit → Except Refusal α) :
    Except Refusal α :=
  match first with
  | .ok value => .ok value
  | .error (.overlong digits) => .error (.overlong digits)
  | .error (.failure failure) =>
      if failure.committed then .error (.failure failure)
      else
        match second () with
        | .error (.failure other) =>
            if other.committed then .error (.failure other)
            else .error (.failure (further failure other))
        | answer => answer

end Attempt

/-- Read a literal that is not empty. -/
def literal (text : String) (written : text.toList ≠ []) (cursor : Cursor) :
    Attempt Unit cursor :=
  match found : cursor.behind? text with
  | some next => .ok ⟨(), next, Cursor.length_lt_of_behind? found written⟩
  | none => Attempt.fail (.noLiteral text) cursor.offset false

end PocketLisp.Reading
