import PocketLisp.Arithmetic
import PocketLisp.Environment
import PocketLisp.Event

/-!
# Evaluation

Evaluating a tree in an environment makes a `Run`: an outcome, the environment
afterwards and the events on the way. A run that fails keeps the environment and
the events up to the failure.

Operands are evaluated from left to right, each in the environment that the one
before has left, and the first failure ends the run. A definition takes its name as
it is written, evaluates its value and binds the one to the other; nothing else
changes the environment.
-/

namespace PocketLisp

/-- What evaluation made: an outcome, the environment afterwards, and the events in
the order in which they happened. -/
structure Run (ε α : Type) where
  outcome : Except ε α
  environment : Environment
  events : List Event

namespace Run

variable {ε ε' α β : Type}

/-- A run that does nothing but answer. -/
def done (value : α) (environment : Environment) : Run ε α :=
  ⟨.ok value, environment, []⟩

/-- A run that does nothing but fail. -/
def fail (error : ε) (environment : Environment) : Run ε α :=
  ⟨.error error, environment, []⟩

/-- A run followed by another that depends on its value. After a failure there is no
second run. -/
def andThen (first : Run ε α) (next : α → Environment → Run ε β) : Run ε β :=
  match first.outcome with
  | .error error => ⟨.error error, first.environment, first.events⟩
  | .ok value =>
      let second := next value first.environment
      ⟨second.outcome, second.environment, first.events ++ second.events⟩

/-- The run with its value changed. -/
def map (f : α → β) (run : Run ε α) : Run ε β :=
  ⟨run.outcome.map f, run.environment, run.events⟩

/-- The run with its error changed. -/
def mapError (f : ε → ε') (run : Run ε α) : Run ε' α :=
  ⟨run.outcome.mapError f, run.environment, run.events⟩

/-- The run with events in front of its own. -/
def withEvents (events : List Event) (run : Run ε α) : Run ε α :=
  ⟨run.outcome, run.environment, events ++ run.events⟩

/-- After an answer the second run goes on from the environment of the first. -/
@[simp] theorem andThen_done (value : α) (environment : Environment)
    (next : α → Environment → Run ε β) :
    (done value environment).andThen next = next value environment := by
  simp [done, andThen]

/-- After a failure there is no second run. -/
@[simp] theorem andThen_fail (error : ε) (environment : Environment)
    (next : α → Environment → Run ε β) :
    (fail error environment : Run ε α).andThen next = fail error environment := rfl

end Run

/-- What an operator makes of an application. -/
inductive Head
  | definition
  | instruction (tag : Instruction)
  | invalid
  deriving DecidableEq, Repr

/-- Definitions are marked by the instruction or by the key of that name. Of the
other operators only instructions can be applied. -/
def Head.ofOperator : Datum → Head
  | .constant (.atom (.instruction .define)) => .definition
  | .constant (.atom (.instruction tag)) => .instruction tag
  | .constant (.atom (.key name)) => if name = "define" then .definition else .invalid
  | _ => .invalid

/-- The error of a definition that does not have two operands. -/
def defineArity : EvalError :=
  .arity "define" ("The 'define' instruction requires exactly two operands: "
    ++ "a variable name and its value" : String)

/-- Bind a name to an evaluated value. Only atoms can be bound. -/
def bindResult (name : String) (value : Datum) (environment : Environment) :
    Run Fault Datum :=
  match value with
  | .atom atom =>
      ⟨.ok (.atom (.key name)), environment.bind name atom, [.defined name atom]⟩
  | other => .fail (.misuse (.unbindableValue other)) environment

/-- Apply an instruction to evaluated operands. -/
def applyInstruction (tag : Instruction) (arguments : List Datum)
    (environment : Environment) : Run Fault Datum :=
  match Operation.ofInstruction? tag with
  | none => .fail (.evaluation (.unsupportedInstruction tag.token)) environment
  | some operation =>
      match operation.apply arguments with
      | .error fault => .fail fault environment
      | .ok result =>
          ⟨.ok (.atom result), environment, [.applied tag arguments result]⟩

mutual

/-- Evaluate a tree. -/
def eval : Datum → Environment → Run Fault Datum
  | .constant (.atom (.key name)), environment =>
      match environment.find? name with
      | some value => .done (.atom value) environment
      | none => .fail (.evaluation (.undefinedVariable name)) environment
  | .constant held, environment => .done held environment
  | .application operator operands, environment =>
      match Head.ofOperator operator with
      | .definition =>
          match operands with
          | [.constant (.atom (.key name)), value] =>
              (eval value environment).andThen (bindResult name)
          | [target, _] =>
              .fail (.evaluation (.typeMismatch "define" target "a variable name")) environment
          | _ => .fail (.evaluation defineArity) environment
      | .instruction tag => (evalAll operands environment).andThen (applyInstruction tag)
      | .invalid => .fail (.evaluation (.invalidOperator operator)) environment
  | .ifThen condition consequence, environment =>
      .fail (.evaluation (.unsupportedExpression (.ifThen condition consequence))) environment
  | .ifElse condition consequence alternative, environment =>
      .fail (.evaluation
        (.unsupportedExpression (.ifElse condition consequence alternative))) environment
  | .quote items, environment =>
      .fail (.evaluation (.unsupportedExpression (.quote items))) environment
  | .plain value, environment =>
      .fail (.misuse (.notAnExpression (.plain value))) environment
  | .atom value, environment =>
      .fail (.misuse (.notAnExpression (.atom value))) environment

/-- Evaluate trees one after the other, each in the environment that the one before
has left. -/
def evalAll : List Datum → Environment → Run Fault (List Datum)
  | [], environment => .done [] environment
  | item :: items, environment =>
      (eval item environment).andThen fun value environment =>
        (evalAll items environment).map (value :: ·)

end

end PocketLisp
