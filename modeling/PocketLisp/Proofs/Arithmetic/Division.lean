import Mathlib.Algebra.BigOperators.Group.List.Defs
import Mathlib.Algebra.Ring.Int.Defs
import PocketLisp.Proofs.Arithmetic.Operands
import PocketLisp.Proofs.Evaluation.Range

/-!
# Division in one step

Dividing by one number after the other comes to dividing once by their exact product, which
may be far too large to be a value itself. A quotient is no further from zero than what is
divided, so the only step that can overflow is the division of the least integer by minus
one. The least integer is still there only as long as nothing but one has divided it.
-/

namespace PocketLisp

namespace Operation

variable {first divisor : Int} {divisors : List Int}

/-- Truncating twice is truncating once: a quotient is divided by dividing by the product. -/
theorem tdiv_tdiv (number first second : Int) :
    (number.tdiv first).tdiv second = number.tdiv (first * second) := by
  have natural : ∀ number first second : Nat,
      ((number : Int).tdiv first).tdiv second = (number : Int).tdiv (first * second) := by
    intro number first second
    rw [← Int.natCast_mul, ← Int.ofNat_tdiv, ← Int.ofNat_tdiv, ← Int.ofNat_tdiv,
      Nat.div_div_eq_div_mul]
  obtain ⟨number, rfl | rfl⟩ := number.eq_nat_or_neg
  all_goals obtain ⟨first, rfl | rfl⟩ := first.eq_nat_or_neg
  all_goals obtain ⟨second, rfl | rfl⟩ := second.eq_nat_or_neg
  all_goals simp only [Int.neg_tdiv, Int.tdiv_neg, Int.neg_mul, Int.mul_neg, Int.neg_neg, natural]

/-- A divisor other than one, minus one and zero at least halves a number. -/
theorem natAbs_tdiv_le (number : Int) (large : 2 ≤ divisor.natAbs) :
    (number.tdiv divisor).natAbs ≤ number.natAbs / 2 := by
  rw [Int.natAbs_tdiv]
  exact Nat.div_le_div_left large (by decide)

/-- Division by minus one changes the sign. -/
theorem tdiv_negOne (number : Int) : number.tdiv (-1) = -number := by
  rw [Int.tdiv_neg, Int.tdiv_one]

/-- A quotient fits unless it is that of the least integer by minus one. -/
theorem fits_tdiv (fits : Atom.Fits first) (defined : divisor ≠ 0)
    (least : ¬(first = Atom.minInt ∧ divisor = -1)) : Atom.Fits (first.tdiv divisor) := by
  simp only [Atom.Fits, Atom.minInt, Atom.maxInt] at *
  by_cases one : divisor = 1
  · subst one
    rwa [Int.tdiv_one]
  by_cases negative : divisor = -1
  · subst negative
    rw [tdiv_negOne]
    omega
  have bound := natAbs_tdiv_le first (by omega : 2 ≤ divisor.natAbs)
  omega

/-- Only division by one leaves the least integer. -/
theorem tdiv_ne_minInt (fits : Atom.Fits first) (defined : divisor ≠ 0) (other : divisor ≠ 1) :
    first.tdiv divisor ≠ Atom.minInt := by
  simp only [Atom.Fits, Atom.minInt, Atom.maxInt] at *
  by_cases negative : divisor = -1
  · subst negative
    rw [tdiv_negOne]
    omega
  have bound := natAbs_tdiv_le first (by omega : 2 ≤ divisor.natAbs)
  omega

/-- Dividing overflows when the least integer is divided and the first divisor that is not
one is minus one. -/
def Overflows (first : Int) (divisors : List Int) : Prop :=
  first = Atom.minInt ∧ divisors.find? (fun divisor => divisor != 1) = some (-1)

instance (first : Int) (divisors : List Int) : Decidable (Overflows first divisors) :=
  inferInstanceAs (Decidable (_ ∧ _))

/-- Division by one does not decide whether there is an overflow. -/
theorem overflows_one_iff : Overflows first (1 :: divisors) ↔ Overflows first divisors :=
  Iff.rfl

/-- Any other divisor decides it. -/
theorem overflows_cons_iff (other : divisor ≠ 1) :
    Overflows first (divisor :: divisors) ↔ first = Atom.minInt ∧ divisor = -1 := by
  simp [Overflows, other]

/-- What a division comes to: an overflow, a division by zero, or the quotient by the product
of the divisors. -/
def quotient (first : Int) (divisors : List Int) : Except Fault Int :=
  if Overflows first divisors then .error (.evaluation (.overflow "division"))
  else if 0 ∈ divisors then .error (.evaluation .divisionByZero)
  else .ok (first.tdiv divisors.prod)

/-- Dividing step by step comes to the quotient by the product. -/
theorem foldlM_division (divisors : List Int) (fits : Atom.Fits first) :
    divisors.foldlM division.step first = quotient first divisors := by
  induction divisors generalizing first with
  | nil => simp [quotient, Overflows, pure, Except.pure]
  | cons divisor divisors inductionHypothesis =>
      rw [List.foldlM_cons]
      by_cases zero : divisor = 0
      · subst zero
        have spared : ¬Overflows first (0 :: divisors) := by simp [Overflows]
        simp [quotient, spared, step, bind, Except.bind]
      rw [step_division zero]
      by_cases least : first = Atom.minInt ∧ divisor = -1
      · have overflows : Overflows first (divisor :: divisors) :=
          (overflows_cons_iff (by omega)).2 least
        obtain ⟨rfl, rfl⟩ := least
        rw [quotient, if_pos overflows]
        rfl
      have small := fits_tdiv fits zero least
      have next : Overflows (first.tdiv divisor) divisors ↔
          Overflows first (divisor :: divisors) := by
        by_cases one : divisor = 1
        · rw [one, Int.tdiv_one, overflows_one_iff]
        · rw [overflows_cons_iff one]
          exact iff_of_false (fun both => tdiv_ne_minInt fits zero one both.1) least
      calc
        (division.checked (first.tdiv divisor) >>=
            fun sofar => divisors.foldlM division.step sofar) =
            divisors.foldlM division.step (first.tdiv divisor) := by
          rw [checked, if_pos small]
          rfl
        _ = quotient (first.tdiv divisor) divisors := inductionHypothesis small
        _ = quotient first (divisor :: divisors) := by
          simp only [quotient, next, List.mem_cons, Ne.symm zero, false_or, List.prod_cons,
            tdiv_tdiv]

/-- Division has a closed form. It overflows exactly when the least integer meets minus one
before any other divisor than one. Otherwise it fails exactly when there is a zero among the
divisors, and if there is none it answers with the quotient by their product, truncated
toward zero. An operand that is no integer is reported before all of this, and so is the lack
of any operand. -/
theorem apply_division_eq :
    (∀ first divisors, Atom.Fits first →
      division.apply (Datum.ofInts (first :: divisors)) =
        if Overflows first divisors then .error (.evaluation (.overflow "division"))
        else if 0 ∈ divisors then .error (.evaluation .divisionByZero)
        else .ok (.int (first.tdiv divisors.prod)))
    ∧ (∀ before stranger behind, (∀ value, stranger ≠ .atom (.int value)) →
      division.apply (Datum.ofInts before ++ stranger :: behind) =
        .error (.evaluation (.typeMismatch "division" stranger "integers")))
    ∧ division.apply [] =
      .error (.evaluation (.arity "division" "Expected at least one operand for division")) := by
  refine ⟨fun first divisors fits => ?_, fun before stranger behind noInteger => ?_, rfl⟩
  · have computed : division.compute (first :: divisors) = quotient first divisors :=
      foldlM_division divisors fits
    by_cases overflows : Overflows first divisors
    · rw [if_pos overflows]
      exact apply_ofInts_of_error (computed.trans (if_pos overflows))
    rw [if_neg overflows]
    by_cases zero : 0 ∈ divisors
    · rw [if_pos zero]
      refine apply_ofInts_of_error (computed.trans ?_)
      rw [quotient, if_neg overflows, if_pos zero]
    rw [if_neg zero]
    have answer : division.compute (first :: divisors) = .ok (first.tdiv divisors.prod) := by
      rw [computed, quotient, if_neg overflows, if_neg zero]
    exact apply_ofInts_of_ok answer (fits_of_foldlM fits answer)
  · exact apply_of_stranger division before noInteger behind

/-- Negative numbers divided by a product that does not fit, the least integer divided by minus
one behind ones and in front of a zero, by two first, and an operand that is no integer behind
a zero. -/
theorem apply_division_cases :
    Atom.Fits (-2147483647) ∧ Atom.Fits Atom.minInt
      ∧ (∀ value, Datum.atom (.bool true) ≠ .atom (.int value))
      ∧ division.apply (Datum.ofInts [-2147483647, -65536, 65536]) = .ok (.int 0)
      ∧ division.apply (Datum.ofInts [Atom.minInt, 1, 1, -1, 0]) =
        .error (.evaluation (.overflow "division"))
      ∧ division.apply (Datum.ofInts [Atom.minInt, 2, -1]) = .ok (.int 1073741824)
      ∧ division.apply (Datum.ofInts [1, 0] ++ .atom (.bool true) :: []) =
        .error (.evaluation (.typeMismatch "division" (.atom (.bool true)) "integers")) := by
  have small : Atom.Fits (-2147483647) := by decide
  have least : Atom.Fits Atom.minInt := by decide
  have noInteger : ∀ value, Datum.atom (.bool true) ≠ .atom (.int value) := nofun
  exact ⟨small, least, noInteger, apply_division_eq.1 _ [-65536, 65536] small,
    apply_division_eq.1 _ [1, 1, -1, 0] least, apply_division_eq.1 _ [2, -1] least,
    apply_division_eq.2.1 [1, 0] _ [] noInteger⟩

end Operation

end PocketLisp
