import Mathlib.Algebra.BigOperators.Group.List.Basic
import Mathlib.Algebra.Ring.Int.Defs
import Mathlib.Data.List.Infix
import Mathlib.Data.Set.List
import PocketLisp.Proofs.Arithmetic.Operands

/-!
# Exact sums, differences and products

Sums, differences and products are checked after every step. So the order of the operands
decides whether there is a value, but not which: it is the value of unbounded arithmetic,
and there is one exactly when every value that unbounded arithmetic comes by fits.

Division is left out. Its steps are exact too, but a divisor of zero ends it in another way.
-/

namespace PocketLisp

namespace Operation

variable {operation : Operation} {start operand : Int} {values rest : List Int}

/-- A step of unbounded arithmetic. -/
def uncheckedStep : Operation → Int → Int → Int
  | .addition => (· + ·)
  | .subtraction => (· - ·)
  | .multiplication => (· * ·)
  | .division => Int.tdiv

/-- Other steps than those of a division are checked and nothing else. -/
theorem step_eq_checked (other : operation ≠ .division) (sofar operand : Int) :
    operation.step sofar operand = operation.checked (operation.uncheckedStep sofar operand) := by
  cases operation with
  | division => contradiction
  | addition | subtraction | multiplication => rfl

/-- Unbounded arithmetic fits before the first step and after every other. -/
def Stays (operation : Operation) (start : Int) (values : List Int) : Prop :=
  ∀ front, front <+: values → Atom.Fits (front.foldl operation.uncheckedStep start)

/-- Without a step it is the start that fits. -/
theorem stays_nil_iff : operation.Stays start [] ↔ Atom.Fits start := by
  simp [Stays]

/-- From a start that fits it is the value after the first step that arithmetic goes on from. -/
theorem stays_cons_iff (fits : Atom.Fits start) :
    operation.Stays start (operand :: values) ↔
      operation.Stays (operation.uncheckedStep start operand) values := by
  constructor
  · intro stays front isFront
    exact stays (operand :: front) (List.cons_prefix_cons.2 ⟨rfl, isFront⟩)
  · intro stays front isFront
    rcases List.prefix_cons_iff.1 isFront with rfl | ⟨others, rfl, later⟩
    · exact fits
    · exact stays others later

/-- Arithmetic that stays within the range ends in it. -/
theorem Stays.last (stays : operation.Stays start values) :
    Atom.Fits (values.foldl operation.uncheckedStep start) :=
  stays values (List.prefix_refl values)

/-- Checking every step gives the exact value as long as everything fits. -/
theorem foldlM_of_stays (other : operation ≠ .division) (stays : operation.Stays start values) :
    values.foldlM operation.step start = .ok (values.foldl operation.uncheckedStep start) := by
  have fits : Atom.Fits start := stays [] values.nil_prefix
  induction values generalizing start with
  | nil => rfl
  | cons operand values inductionHypothesis =>
      have later := (stays_cons_iff fits).1 stays
      have small : Atom.Fits (operation.uncheckedStep start operand) := later [] values.nil_prefix
      rw [List.foldlM_cons, step_eq_checked other, checked, if_pos small]
      exact inductionHypothesis later small

/-- Checking every step fails where the first value does not fit. -/
theorem foldlM_of_not_stays (other : operation ≠ .division) (fits : Atom.Fits start)
    (leaves : ¬operation.Stays start values) :
    values.foldlM operation.step start = .error (.evaluation (.overflow operation.name)) := by
  induction values generalizing start with
  | nil => exact absurd (stays_nil_iff.2 fits) leaves
  | cons operand values inductionHypothesis =>
      rw [List.foldlM_cons, step_eq_checked other, checked]
      by_cases small : Atom.Fits (operation.uncheckedStep start operand)
      · rw [if_pos small]
        exact inductionHypothesis small fun stays => leaves ((stays_cons_iff fits).2 stays)
      · rw [if_neg small]
        rfl

/-- An operation on integers answers with a value on a condition, and only then; otherwise it
overflows. -/
structure AnswersWhen (operation : Operation) (values : List Int) (condition : Prop)
    (result : Int) : Prop where
  answers : operation.apply (Datum.ofInts values) = .ok (.int result) ↔ condition
  overflows : ¬condition →
    operation.apply (Datum.ofInts values) = .error (.evaluation (.overflow operation.name))

/-- An operation that answers with a value on a condition answers with it or overflows. -/
theorem AnswersWhen.cases {condition : Prop} {result : Int}
    (answersWhen : operation.AnswersWhen values condition result) :
    operation.apply (Datum.ofInts values) = .ok (.int result)
      ∨ operation.apply (Datum.ofInts values) = .error (.evaluation (.overflow operation.name)) := by
  by_cases holds : condition
  · exact .inl (answersWhen.answers.2 holds)
  · exact .inr (answersWhen.overflows holds)

/-- An operation that answers with one value answers with no other. -/
theorem AnswersWhen.eq_of_apply {condition : Prop} {result : Int} {answer : Atom}
    (answersWhen : operation.AnswersWhen values condition result)
    (applied : operation.apply (Datum.ofInts values) = .ok answer) : answer = .int result := by
  rcases answersWhen.cases with answers | overflows
  · exact Except.ok.inj (applied.symm.trans answers)
  · have failed := applied.symm.trans overflows
    contradiction

/-- An operation that folds its operands answers as long as unbounded arithmetic fits. -/
theorem answersWhen_stays (other : operation ≠ .division) (fits : Atom.Fits start)
    (folds : operation.compute values = rest.foldlM operation.step start) :
    operation.AnswersWhen values (operation.Stays start rest)
      (rest.foldl operation.uncheckedStep start) := by
  have overflows (leaves : ¬operation.Stays start rest) :=
    apply_ofInts_of_error (folds.trans (foldlM_of_not_stays other fits leaves))
  refine ⟨⟨fun applied => ?_, fun stays => ?_⟩, overflows⟩
  · refine Classical.byContradiction fun leaves => ?_
    have failed := applied.symm.trans (overflows leaves)
    contradiction
  · exact apply_ofInts_of_ok (folds.trans (foldlM_of_stays other stays)) stays.last

/-- Adding up without checks gives the sum. -/
theorem foldl_addition (values : List Int) :
    values.foldl addition.uncheckedStep 0 = values.sum :=
  List.sum_eq_foldl.symm

/-- Multiplying without checks gives the product. -/
theorem foldl_multiplication (values : List Int) :
    values.foldl multiplication.uncheckedStep 1 = values.prod :=
  List.prod_eq_foldl.symm

/-- Subtracting without checks takes away the sum. -/
theorem foldl_subtraction (start : Int) (values : List Int) :
    values.foldl subtraction.uncheckedStep start = start - values.sum := by
  induction values generalizing start with
  | nil => simp
  | cons operand values inductionHypothesis =>
      rw [List.foldl_cons, inductionHypothesis, List.sum_cons, uncheckedStep, Int.sub_sub]

/-- A sum is exact as long as the sums of the first operands fit. -/
theorem addition_answersWhen (values : List Int) :
    addition.AnswersWhen values (∀ front, front <+: values → Atom.Fits front.sum) values.sum := by
  have folded : addition.AnswersWhen values (addition.Stays 0 values) _ :=
    answersWhen_stays (by decide) (by decide) rfl
  simpa only [Stays, foldl_addition] using folded

/-- A product is exact as long as the products of the first operands fit. -/
theorem multiplication_answersWhen (values : List Int) :
    multiplication.AnswersWhen values (∀ front, front <+: values → Atom.Fits front.prod)
      values.prod := by
  have folded : multiplication.AnswersWhen values (multiplication.Stays 1 values) _ :=
    answersWhen_stays (by decide) (by decide) rfl
  simpa only [Stays, foldl_multiplication] using folded

/-- A difference is exact as long as the differences from the first operands fit. -/
theorem subtraction_answersWhen (first : Int) (rest : List Int) (fits : Atom.Fits first) :
    subtraction.AnswersWhen (first :: rest)
      (∀ front, front <+: rest → Atom.Fits (first - front.sum)) (first - rest.sum) := by
  have folded : subtraction.AnswersWhen (first :: rest) (subtraction.Stays first rest) _ :=
    answersWhen_stays (by decide) fits rfl
  simpa only [Stays, foldl_subtraction] using folded

/-- Integers in another order are integers. -/
theorem exists_ofInts_of_perm {reordered : List Datum}
    (perm : (Datum.ofInts values).Perm reordered) :
    ∃ others, reordered = Datum.ofInts others ∧ values.Perm others := by
  have integers : reordered ∈ Set.range (List.map fun value => Datum.atom (.int value)) := by
    rw [Set.range_list_map]
    intro operand member
    obtain ⟨value, -, same⟩ := List.mem_map.1 (perm.symm.subset member)
    exact ⟨value, same⟩
  obtain ⟨others, rfl⟩ := integers
  exact ⟨others, rfl, (List.map_perm_map_iff fun _ _ => by simp).1 perm⟩

/-- Operands of a sum or a product that have a value have the same in every other order, or
overflow there. -/
theorem apply_of_perm {operands reordered : List Datum} {answer : Atom}
    (commutes : operation = .addition ∨ operation = .multiplication)
    (perm : operands.Perm reordered) (applied : operation.apply operands = .ok answer) :
    operation.apply reordered = .ok answer
      ∨ operation.apply reordered = .error (.evaluation (.overflow operation.name)) := by
  obtain ⟨values, rfl⟩ := exists_ofInts_of_apply applied
  obtain ⟨others, rfl, same⟩ := exists_ofInts_of_perm perm
  rcases commutes with rfl | rfl
  · rw [(addition_answersWhen values).eq_of_apply applied, same.sum_eq]
    exact (addition_answersWhen others).cases
  · rw [(multiplication_answersWhen values).eq_of_apply applied, same.prod_eq]
    exact (multiplication_answersWhen others).cases

/-- Sums, products and differences are exact. There is a sum exactly when the sums of the
first operands all fit, a product when their products do, and a difference when the first
operand less the sums of those behind it does; otherwise there is an overflow. A difference
needs an operand, and every operation reports the first operand that is no integer before
anything else. In another order the operands of a sum or a product have the same value or
none, for they overflow. -/
theorem apply_exact :
    (∀ values, addition.AnswersWhen values
      (∀ front, front <+: values → Atom.Fits front.sum) values.sum)
    ∧ (∀ values, multiplication.AnswersWhen values
      (∀ front, front <+: values → Atom.Fits front.prod) values.prod)
    ∧ (∀ first rest, Atom.Fits first → subtraction.AnswersWhen (first :: rest)
      (∀ front, front <+: rest → Atom.Fits (first - front.sum)) (first - rest.sum))
    ∧ subtraction.apply [] = .error
      (.evaluation (.arity "subtraction" "Expected at least one operand for subtraction"))
    ∧ (∀ operation before stranger behind, (∀ value, stranger ≠ .atom (.int value)) →
      apply operation (Datum.ofInts before ++ stranger :: behind) =
        .error (.evaluation (.typeMismatch operation.name stranger "integers")))
    ∧ ∀ operation, operation = .addition ∨ operation = .multiplication →
      ∀ operands reordered answer, operands.Perm reordered →
        apply operation operands = .ok answer →
        apply operation reordered = .ok answer
          ∨ apply operation reordered = .error (.evaluation (.overflow operation.name)) :=
  ⟨addition_answersWhen, multiplication_answersWhen, subtraction_answersWhen, rfl,
    fun operation before _ behind noInteger =>
      apply_of_stranger operation before noInteger behind,
    fun _ commutes _ _ _ perm => apply_of_perm commutes perm⟩

/-- A product that comes down to the least integer, one that passes the greatest before a
factor of zero, a difference that leaves the range and would come back, a sum with a truth
value behind an overflow, and a sum that overflows in another order. -/
theorem apply_exact_cases :
    multiplication.apply (Datum.ofInts [-65536, 32768]) = .ok (.int (-2147483648))
    ∧ multiplication.apply (Datum.ofInts [65536, 32768, 0]) =
      .error (.evaluation (.overflow "multiplication"))
    ∧ Atom.Fits Atom.minInt
    ∧ subtraction.apply (Datum.ofInts [Atom.minInt, 1, -1]) =
      .error (.evaluation (.overflow "subtraction"))
    ∧ (∀ value, Datum.atom (.bool true) ≠ .atom (.int value))
    ∧ addition.apply (Datum.ofInts [Atom.maxInt, 1] ++ .atom (.bool true) :: []) =
      .error (.evaluation (.typeMismatch "addition" (.atom (.bool true)) "integers"))
    ∧ (Datum.ofInts [Atom.maxInt, -1, 1]).Perm (Datum.ofInts [Atom.maxInt, 1, -1])
    ∧ addition.apply (Datum.ofInts [Atom.maxInt, -1, 1]) = .ok (.int Atom.maxInt)
    ∧ (addition.apply (Datum.ofInts [Atom.maxInt, 1, -1]) = .ok (.int Atom.maxInt)
      ∨ addition.apply (Datum.ofInts [Atom.maxInt, 1, -1]) =
        .error (.evaluation (.overflow "addition"))) := by
  obtain ⟨-, products, differences, -, strangers, orders⟩ := apply_exact
  have stays : ∀ front ∈ List.inits [-65536, 32768], Atom.Fits front.prod := by decide
  have least : Atom.Fits Atom.minInt := by decide
  have noInteger : ∀ value, Datum.atom (.bool true) ≠ .atom (.int value) := nofun
  have large : ¬Atom.Fits (List.prod [65536, 32768]) := by decide
  have small : ¬Atom.Fits (Atom.minInt - List.sum [1]) := by decide
  have perm : (Datum.ofInts [Atom.maxInt, -1, 1]).Perm (Datum.ofInts [Atom.maxInt, 1, -1]) :=
    .cons _ (.swap _ _ _)
  have applied : addition.apply (Datum.ofInts [Atom.maxInt, -1, 1]) = .ok (.int Atom.maxInt) := rfl
  exact ⟨(products _).answers.2 fun front isFront => stays front ((List.mem_inits _ _).2 isFront),
    (products _).overflows fun fits => large (fits _ ⟨[0], rfl⟩), least,
    (differences _ [1, -1] least).overflows fun fits => small (fits _ ⟨[-1], rfl⟩), noInteger,
    strangers .addition [Atom.maxInt, 1] _ [] noInteger, perm, applied,
    orders .addition (.inl rfl) _ _ _ perm applied⟩

end Operation

end PocketLisp
