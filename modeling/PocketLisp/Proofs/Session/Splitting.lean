import Mathlib.Control.Monad.Basic
import PocketLisp.Proofs.Evaluation.Sequence
import PocketLisp.Proofs.Reading.Concatenation
import PocketLisp.Session

/-!
# Splitting code at blanks

Code that cannot be read as a whole is not evaluated at all. Code that can be read comes
to the same as its parts on either side of a blank, evaluated one after the other: the
same results, the same first error, the same environment and the same steps of evaluation.
Only what reading notes down differs, for it is one text that is read, or two.
-/

namespace PocketLisp

/-- An event of evaluation, as opposed to one that notes what was read. -/
def Event.isEvaluation : Event → Bool
  | .parsed _ _ | .parsedAll _ _ | .refused _ _ => false
  | .applied _ _ _ | .defined _ _ => true

namespace Run

variable {ε ε' α β : Type}

/-- Two runs come to the same, whatever reading notes down on the way. -/
structure Agrees (left right : Run ε α) : Prop where
  outcome : left.outcome = right.outcome
  environment : left.environment = right.environment
  events : left.events.filter Event.isEvaluation = right.events.filter Event.isEvaluation

namespace Agrees

variable {left right last : Run ε α}

/-- Runs that come to the same do so in either order. -/
theorem symm (same : left.Agrees right) : right.Agrees left :=
  ⟨same.outcome.symm, same.environment.symm, same.events.symm⟩

/-- Runs that come to the same as a third come to the same. -/
theorem trans (first : left.Agrees right) (second : right.Agrees last) : left.Agrees last :=
  ⟨first.outcome.trans second.outcome, first.environment.trans second.environment,
    first.events.trans second.events⟩

/-- Noting down what was read does not change what a run comes to. -/
theorem withEvents {notes : List Event} (reading : ∀ event ∈ notes, event.isEvaluation = false)
    (run : Run ε α) : (run.withEvents notes).Agrees run := by
  refine ⟨rfl, rfl, ?_⟩
  have none : notes.filter Event.isEvaluation = [] := by simpa using reading
  rw [Run.withEvents, List.filter_append, none, List.nil_append]

/-- Changing the values of runs that come to the same. -/
theorem map (f : α → β) (same : left.Agrees right) : (left.map f).Agrees (right.map f) :=
  ⟨congrArg (Except.map f) same.outcome, same.environment, same.events⟩

/-- Runs that come to the same, each followed by runs that do. -/
theorem andThen {next other : α → Environment → Run ε β} (same : left.Agrees right)
    (behind : ∀ value environment, (next value environment).Agrees (other value environment)) :
    (left.andThen next).Agrees (right.andThen other) := by
  obtain ⟨outcome, environment, events⟩ := same
  cases answer : left.outcome with
  | error error =>
      simp only [Run.andThen, ← outcome, answer]
      exact ⟨rfl, environment, events⟩
  | ok value =>
      have later := behind value left.environment
      simp only [Run.andThen, ← outcome, answer, ← environment]
      refine ⟨later.outcome, later.environment, ?_⟩
      rw [List.filter_append, List.filter_append, events, later.events]

end Agrees

end Run

namespace Session

open Reading

/-- The results that an answer is made of. -/
def Answer.results : Answer → List Datum
  | .one value => [value]
  | .many values => values
  | _ => []

/-- The answer of a piece of code has its results. -/
@[simp] theorem Answer.results_ofResults (values : List Datum) :
    (Answer.ofResults values).results = values := by
  cases values with
  | nil => rfl
  | cons value values => cases values <;> rfl

variable {code : String} {environment : Environment}

/-- Code that cannot be read is not evaluated. -/
theorem evalCode_of_unread {refusal : Refusal} (unread : readAll code = .error refusal)
    (environment : Environment) :
    evalCode code environment = .fail (.unread code refusal) environment := by
  rw [evalCode, unread]

/-- Code that can be read comes to what its expressions come to. -/
theorem evalCode_agrees {trees : List Datum} (read : readAll code = .ok trees)
    (environment : Environment) :
    (evalCode code environment).Agrees ((evalAll trees environment).mapError .failed) := by
  rw [evalCode, read]
  exact .withEvents (by simp [Event.isEvaluation]) _

/-- Code made of two pieces with blanks between them comes to the first piece and then the
second. -/
theorem evalCode_append {before gap behind : String} {first second : List Datum}
    (isGap : Gap gap.toList) (written : gap.toList ≠ []) (read : readAll before = .ok first)
    (readBehind : readAll behind = .ok second) (environment : Environment) :
    (evalCode (before ++ gap ++ behind) environment).Agrees
      ((evalCode before environment).andThen fun values environment =>
        (evalCode behind environment).map (values ++ ·)) := by
  have whole := evalCode_agrees (readAll_append isGap written read readBehind) environment
  rw [evalAll_append, Run.mapError_andThen] at whole
  refine whole.trans (.andThen (evalCode_agrees read environment).symm fun values environment => ?_)
  rw [Run.mapError_map]
  exact (evalCode_agrees readBehind environment).symm.map _

end Session

end PocketLisp
