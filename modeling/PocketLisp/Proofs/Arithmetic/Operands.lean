import PocketLisp.Arithmetic

/-!
# Operands

What an operation makes of its operands before it computes anything. When all of them are
integers it is the computation that counts; otherwise the first operand that is none is
reported, whatever the others are.
-/

namespace PocketLisp

/-- Integers as operands. -/
def Datum.ofInts (values : List Int) : List Datum :=
  values.map fun value => .atom (.int value)

namespace Operation

variable {operation : Operation} {values : List Int}

/-- The integers of integers. -/
@[simp] theorem integers_ofInts (operation : Operation) (values : List Int) :
    operation.integers (Datum.ofInts values) = .ok values := by
  induction values with
  | nil => rfl
  | cons value values inductionHypothesis =>
      change (operation.integers (Datum.ofInts values)).map (value :: ·) = _
      rw [inductionHypothesis]
      rfl

/-- Operands that have integers are integers. -/
theorem eq_ofInts_of_integers {operands : List Datum}
    (found : operation.integers operands = .ok values) : operands = Datum.ofInts values := by
  induction operands generalizing values with
  | nil =>
      obtain rfl := Except.ok.inj found
      rfl
  | cons operand operands inductionHypothesis =>
      unfold integers at found
      split at found
      · contradiction
      · next value others same =>
          obtain ⟨rfl, rfl⟩ := List.cons.inj same
          cases rest : operation.integers operands with
          | error reason =>
              rw [rest] at found
              contradiction
          | ok numbers =>
              rw [rest] at found
              obtain rfl := Except.ok.inj found
              rw [inductionHypothesis rest]
              rfl
      · contradiction

/-- The first operand that is no integer is reported. -/
theorem integers_of_stranger (operation : Operation) (before : List Int) {stranger : Datum}
    (noInteger : ∀ value, stranger ≠ .atom (.int value)) (behind : List Datum) :
    operation.integers (Datum.ofInts before ++ stranger :: behind) =
      .error (.typeMismatch operation.name stranger "integers") := by
  induction before with
  | nil =>
      rw [Datum.ofInts, List.map_nil, List.nil_append, integers]
      exact noInteger
  | cons value before inductionHypothesis =>
      change (operation.integers (Datum.ofInts before ++ stranger :: behind)).map (value :: ·) = _
      rw [inductionHypothesis]
      rfl

/-- An operation on integers that computes a value which fits answers with it. -/
theorem apply_ofInts_of_ok {result : Int} (computed : operation.compute values = .ok result)
    (fits : Atom.Fits result) : operation.apply (Datum.ofInts values) = .ok (.int result) := by
  simp only [apply, integers_ofInts, computed, Atom.ofInt?_eq_some_iff.2 ⟨fits, rfl⟩]

/-- An operation on integers that cannot be computed fails with the reason. -/
theorem apply_ofInts_of_error {fault : Fault}
    (failed : operation.compute values = .error fault) :
    operation.apply (Datum.ofInts values) = .error fault := by
  simp only [apply, integers_ofInts, failed]

/-- An operation that answers has integers for its operands. -/
theorem exists_ofInts_of_apply {operands : List Datum} {answer : Atom}
    (applied : operation.apply operands = .ok answer) : ∃ values, operands = Datum.ofInts values := by
  unfold apply at applied
  split at applied
  · contradiction
  · next values found => exact ⟨values, eq_ofInts_of_integers found⟩

/-- An operation with an operand that is no integer fails with the first such operand. -/
theorem apply_of_stranger (operation : Operation) (before : List Int) {stranger : Datum}
    (noInteger : ∀ value, stranger ≠ .atom (.int value)) (behind : List Datum) :
    operation.apply (Datum.ofInts before ++ stranger :: behind) =
      .error (.evaluation (.typeMismatch operation.name stranger "integers")) := by
  simp only [apply, integers_of_stranger operation before noInteger behind]

end Operation

end PocketLisp
