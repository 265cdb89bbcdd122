import PocketLisp.Arithmetic

/-!
# Why an operation fails

An operation fails for one of few reasons: an operand that is no integer, no operand where one
is needed, a divisor of zero, or a value that does not fit. Which of them it is depends on the
operands; that it is one of them does not. Computing never asks for a quotient by zero.
-/

namespace PocketLisp.Operation

variable {operation : Operation} {operands : List Datum} {values : List Int} {fault : Fault}

/-- The faults that computing with integers may end in. -/
inductive Breaks (operation : Operation) : Fault → Prop
  | overflow : Breaks operation (.evaluation (.overflow operation.name))
  | divisionByZero : Breaks operation (.evaluation .divisionByZero)
  | noOperand : Breaks operation (.evaluation operation.noOperand)

/-- The faults that an operation may end in. -/
inductive Fails (operation : Operation) (operands : List Datum) : Fault → Prop
  | stranger {operand : Datum} (member : operand ∈ operands) :
      Fails operation operands (.evaluation (.typeMismatch operation.name operand "integers"))
  | breaks {fault : Fault} (breaks : operation.Breaks fault) : Fails operation operands fault
  | outOfRange (value : Int) : Fails operation operands (.misuse (.outOfRange value))

/-- Computing with integers breaks with an error of the program. -/
theorem Breaks.exists_evaluation (breaks : operation.Breaks fault) :
    ∃ error, fault = .evaluation error := by
  cases breaks <;> exact ⟨_, rfl⟩

/-- A value that does not pass its check is an overflow. -/
theorem breaks_of_checked {value : Int} (failed : operation.checked value = .error fault) :
    operation.Breaks fault := by
  unfold checked at failed
  split at failed
  · contradiction
  · obtain rfl := Except.error.inj failed
    exact .overflow

/-- A step that fails divides by zero or makes a value that does not fit. -/
theorem breaks_of_step {sofar operand : Int}
    (failed : operation.step sofar operand = .error fault) :
    operation.Breaks fault := by
  cases operation with
  | addition | subtraction | multiplication => exact breaks_of_checked failed
  | division =>
      by_cases zero : operand = 0
      · rw [step, if_pos zero] at failed
        obtain rfl := Except.error.inj failed
        exact .divisionByZero
      · rw [step_division zero] at failed
        exact breaks_of_checked failed

/-- Folding fails at one of its steps. -/
theorem breaks_of_foldlM {sofar : Int}
    (failed : values.foldlM operation.step sofar = .error fault) :
    operation.Breaks fault := by
  induction values generalizing sofar with
  | nil => contradiction
  | cons operand operands inductionHypothesis =>
      rw [List.foldlM_cons] at failed
      cases next : operation.step sofar operand with
      | error reason =>
          rw [next] at failed
          obtain rfl := Except.error.inj failed
          exact breaks_of_step next
      | ok result =>
          rw [next] at failed
          exact inductionHypothesis failed

/-- Computing with integers fails while folding, or for want of an operand. -/
theorem breaks_of_compute (failed : operation.compute values = .error fault) :
    operation.Breaks fault := by
  unfold compute at failed
  split at failed
  · exact breaks_of_foldlM failed
  · exact breaks_of_foldlM failed
  · obtain rfl := Except.error.inj failed
    exact .noOperand

/-- What is reported as no integer is one of the operands. -/
theorem exists_mem_of_integers {error : EvalError}
    (failed : operation.integers operands = .error error) :
    ∃ operand ∈ operands, error = .typeMismatch operation.name operand "integers" := by
  induction operands with
  | nil => contradiction
  | cons operand operands inductionHypothesis =>
      unfold integers at failed
      split at failed
      · contradiction
      · next same =>
          obtain ⟨rfl, rfl⟩ := List.cons.inj same
          cases rest : operation.integers operands with
          | ok values =>
              rw [rest] at failed
              contradiction
          | error reason =>
              rw [rest] at failed
              obtain rfl := Except.error.inj failed
              obtain ⟨operand, member, reported⟩ := inductionHypothesis rest
              exact ⟨operand, List.mem_cons_of_mem _ member, reported⟩
      · next same =>
          obtain ⟨rfl, rfl⟩ := List.cons.inj same
          obtain rfl := Except.error.inj failed
          exact ⟨operand, List.mem_cons_self, rfl⟩

/-- An operation fails in one of the ways in which it may. -/
theorem fails_of_apply (failed : operation.apply operands = .error fault) :
    operation.Fails operands fault := by
  unfold apply at failed
  split at failed
  · next found =>
      obtain rfl := Except.error.inj failed
      obtain ⟨operand, member, rfl⟩ := exists_mem_of_integers found
      exact .stranger member
  · split at failed
    · next computed =>
        obtain rfl := Except.error.inj failed
        exact .breaks (breaks_of_compute computed)
    · split at failed
      · contradiction
      · obtain rfl := Except.error.inj failed
        exact .outOfRange _

end PocketLisp.Operation
