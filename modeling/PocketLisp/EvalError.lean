import PocketLisp.Misuse

/-!
# Evaluation errors

Errors of the program that is being evaluated, each with what it is about. Evaluation
names variables and operations by text; an error that is made by its name, with
`EvalError.make`, may be about any datum, and keeps it as it was given.
-/

namespace PocketLisp

/-- An error of the evaluated program, with what it is about. -/
inductive EvalError
  | undefinedVariable (name : Datum)
  | typeMismatch (operation found expected : Datum)
  | arity (operation detail : Datum)
  | divisionByZero
  | overflow (operation : Datum)
  | invalidOperator (operator : Datum)
  | unsupportedInstruction (instruction : Datum)
  | unsupportedExpression (expression : Datum)
  deriving DecidableEq, Repr

namespace EvalError

/-- The text of an evaluation error. A missing value is not mentioned as found, and
an arity error whose detail counts as false gets a general text. -/
def message : EvalError → String
  | .undefinedVariable name => "Undefined variable: " ++ name.shown
  | .typeMismatch operation (.plain .none) expected =>
      "Expected " ++ expected.shown ++ " for " ++ operation.shown
  | .typeMismatch operation found expected =>
      "Expected " ++ expected.shown ++ " for " ++ operation.shown ++ ", found " ++ found.written
  | .arity operation detail =>
      if detail.truth then detail.shown
      else "Wrong number of operands for " ++ operation.shown
  | .divisionByZero => "Division by zero"
  | .overflow operation => "Integer overflow in " ++ operation.shown
  | .invalidOperator operator =>
      "Expected an instruction or a keyword as the operator, found " ++ operator.written
  | .unsupportedInstruction instruction => "Unsupported instruction: " ++ instruction.shown
  | .unsupportedExpression (.plain .none) => "Unsupported expression: expression"
  | .unsupportedExpression expression => "Unsupported expression: " ++ expression.kind

/-- The kinds of evaluation errors. -/
inductive Kind
  | undefinedVariable
  | typeMismatch
  | arity
  | divisionByZero
  | overflow
  | invalidOperator
  | unsupportedInstruction
  | unsupportedExpression
  deriving DecidableEq, Repr

namespace Kind

/-- All kinds, in the order of their declaration. -/
def all : List Kind :=
  [.undefinedVariable, .typeMismatch, .arity, .divisionByZero, .overflow, .invalidOperator,
    .unsupportedInstruction, .unsupportedExpression]

/-- The name of a kind. -/
def name : Kind → String
  | .undefinedVariable => "UndefinedVariable"
  | .typeMismatch => "TypeMismatch"
  | .arity => "ArityError"
  | .divisionByZero => "DivisionByZero"
  | .overflow => "ArithmeticOverflow"
  | .invalidOperator => "InvalidOperator"
  | .unsupportedInstruction => "UnsupportedInstruction"
  | .unsupportedExpression => "UnsupportedExpression"

/-- The kind with a given name. -/
def ofName? (name : String) : Option Kind :=
  all.find? fun kind => kind.name == name

/-- A kind is found by its name. -/
@[simp] theorem ofName?_name (kind : Kind) : ofName? kind.name = some kind := by
  cases kind <;> decide

/-- The parts without which there is no error of a kind. -/
def required : Kind → List String
  | .undefinedVariable => ["name"]
  | .typeMismatch | .arity | .overflow => ["operation"]
  | .divisionByZero | .invalidOperator | .unsupportedInstruction | .unsupportedExpression => []

/-- How many parts of an error of a kind may be left out. -/
def optional : Kind → Nat
  | .typeMismatch => 2
  | .arity | .invalidOperator | .unsupportedInstruction | .unsupportedExpression => 1
  | .undefinedVariable | .divisionByZero | .overflow => 0

/-- What is wrong with a number of parts that does not suit a kind. -/
def unsuited (kind : Kind) (given : Nat) : Misuse :=
  match kind.required.drop given with
  | part :: _ => .missingPart kind.name part
  | [] =>
      .surplusParts kind.name kind.required.length (kind.required.length + kind.optional) given

end Kind

/-- The kind of an error. -/
def kind : EvalError → Kind
  | .undefinedVariable _ => .undefinedVariable
  | .typeMismatch _ _ _ => .typeMismatch
  | .arity _ _ => .arity
  | .divisionByZero => .divisionByZero
  | .overflow _ => .overflow
  | .invalidOperator _ => .invalidOperator
  | .unsupportedInstruction _ => .unsupportedInstruction
  | .unsupportedExpression _ => .unsupportedExpression

/-- What an error is about. -/
def parts : EvalError → List Datum
  | .undefinedVariable name => [name]
  | .typeMismatch operation found expected => [operation, found, expected]
  | .arity operation detail => [operation, detail]
  | .divisionByZero => []
  | .overflow operation => [operation]
  | .invalidOperator operator => [operator]
  | .unsupportedInstruction instruction => [instruction]
  | .unsupportedExpression expression => [expression]

/-- The error of a kind from what it is about. Of the parts that are left out, integers
are what is expected, a detail is empty, and every other one is a missing value. -/
def make (kind : Kind) (given : List Datum) : Except Misuse EvalError :=
  match kind, given with
  | .undefinedVariable, [name] => .ok (.undefinedVariable name)
  | .typeMismatch, [operation] => .ok (.typeMismatch operation (.plain .none) "integers")
  | .typeMismatch, [operation, found] => .ok (.typeMismatch operation found "integers")
  | .typeMismatch, [operation, found, expected] => .ok (.typeMismatch operation found expected)
  | .arity, [operation] => .ok (.arity operation "")
  | .arity, [operation, detail] => .ok (.arity operation detail)
  | .divisionByZero, [] => .ok .divisionByZero
  | .overflow, [operation] => .ok (.overflow operation)
  | .invalidOperator, [] => .ok (.invalidOperator (.plain .none))
  | .invalidOperator, [operator] => .ok (.invalidOperator operator)
  | .unsupportedInstruction, [] => .ok (.unsupportedInstruction (.plain .none))
  | .unsupportedInstruction, [instruction] => .ok (.unsupportedInstruction instruction)
  | .unsupportedExpression, [] => .ok (.unsupportedExpression (.plain .none))
  | .unsupportedExpression, [expression] => .ok (.unsupportedExpression expression)
  | kind, given => .error (kind.unsuited given.length)

/-- Every error is made from its own parts. -/
@[simp] theorem make_parts (error : EvalError) : make error.kind error.parts = .ok error := by
  cases error <;> rfl

end EvalError

end PocketLisp
