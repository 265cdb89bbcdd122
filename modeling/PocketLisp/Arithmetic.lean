import PocketLisp.Fault

/-!
# Arithmetic

The four operations on any number of operands. Every operand has to be an integer
before anything is computed. Each operation then folds from the left, and the value
after each step has to fit in 32 bits; division rounds toward zero.

There is no quotient by zero at all, and asking for one is a misuse. A division looks at
each of its divisors first, so a zero among them is an error of the program.
-/

namespace PocketLisp

/-- Division toward zero: the quotient of the absolute values, with its sign changed when one
of the numbers is negative and the other is not. -/
def truncatingDiv (number divisor : Int) : Except Misuse Int :=
  if divisor = 0 then .error .zeroDivisor
  else
    let quotient := number.natAbs / divisor.natAbs
    .ok (if number < 0 ↔ divisor < 0 then quotient else -quotient)

/-- By any number but zero a number is divided. -/
theorem truncatingDiv_of_ne_zero {divisor : Int} (defined : divisor ≠ 0) (number : Int) :
    truncatingDiv number divisor = .ok (number.tdiv divisor) := by
  simp only [truncatingDiv, if_neg defined]
  refine congrArg Except.ok ?_
  by_cases none : number = 0
  · simp [none]
  -- What is left are two signs, and the quotient of two natural numbers.
  obtain ⟨size, rfl | rfl⟩ := number.eq_nat_or_neg
  all_goals obtain ⟨count, rfl | rfl⟩ := divisor.eq_nat_or_neg
  all_goals simp only [Int.natAbs_neg, Int.natAbs_natCast, Int.neg_tdiv, Int.tdiv_neg,
    ← Int.ofNat_tdiv]
  · exact if_pos (by omega)
  · exact if_neg (by omega)
  · exact if_neg (by omega)
  · exact (if_pos (by omega)).trans (Int.neg_neg _).symm

/-- The arithmetic operations. -/
inductive Operation
  | addition
  | subtraction
  | multiplication
  | division
  deriving DecidableEq, Repr

namespace Operation

/-- The name of an operation in errors. -/
def name : Operation → String
  | .addition => "addition"
  | .subtraction => "subtraction"
  | .multiplication => "multiplication"
  | .division => "division"

/-- The operation of an instruction, if it is an arithmetic one. -/
def ofInstruction? : Instruction → Option Operation
  | .add => some .addition
  | .subtract => some .subtraction
  | .multiply => some .multiplication
  | .divide => some .division
  | .equal | .not | .define => none

/-- The integers of a list of operands, or an error about the first operand that is
none. -/
def integers (operation : Operation) : List Datum → Except EvalError (List Int)
  | [] => .ok []
  | .atom (.int value) :: operands => (integers operation operands).map (value :: ·)
  | other :: _ => .error (.typeMismatch operation.name other "integers")

/-- A value that fits, or an overflow. -/
def checked (operation : Operation) (value : Int) : Except Fault Int :=
  if Atom.Fits value then .ok value else .error (.evaluation (.overflow operation.name))

/-- One step of an operation, from the value so far and the next operand. -/
def step (operation : Operation) (sofar operand : Int) : Except Fault Int :=
  match operation with
  | .addition => operation.checked (sofar + operand)
  | .subtraction => operation.checked (sofar - operand)
  | .multiplication => operation.checked (sofar * operand)
  | .division =>
      if operand = 0 then .error (.evaluation .divisionByZero)
      else
        match truncatingDiv sofar operand with
        | .error misuse => .error (.misuse misuse)
        | .ok quotient => operation.checked quotient

/-- A step of division by any number but zero checks the quotient. -/
theorem step_division {operand : Int} (defined : operand ≠ 0) (sofar : Int) :
    division.step sofar operand = division.checked (sofar.tdiv operand) := by
  simp only [step, if_neg defined, truncatingDiv_of_ne_zero defined]

/-- The value of no operands, for the operations that have one. -/
def unit? : Operation → Option Int
  | .addition => some 0
  | .multiplication => some 1
  | .subtraction | .division => none

/-- The error of an operation that needs an operand and has none. -/
def noOperand (operation : Operation) : EvalError :=
  .arity operation.name ("Expected at least one operand for " ++ operation.name : String)

/-- An operation on integers. Sums and products start from the value of no operands,
differences and quotients from their first operand. -/
def compute (operation : Operation) (values : List Int) : Except Fault Int :=
  match operation.unit?, values with
  | some unit, values => values.foldlM operation.step unit
  | none, first :: rest => rest.foldlM operation.step first
  | none, [] => .error (.evaluation operation.noOperand)

/-- An operation on operands of any kind. -/
def apply (operation : Operation) (operands : List Datum) : Except Fault Atom :=
  match operation.integers operands with
  | .error error => .error (.evaluation error)
  | .ok values =>
      match operation.compute values with
      | .error fault => .error fault
      | .ok value =>
          match Atom.ofInt? value with
          | some result => .ok result
          | none => .error (.misuse (.outOfRange value))

end Operation

end PocketLisp
