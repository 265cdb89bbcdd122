import PocketLisp.Environment
import PocketLisp.Proofs.Arithmetic.Failures

/-!
# Staying in range

Every step of an operation checks its value, so a computed value fits whenever the
operands do, and the atom of it can always be made. An operation on evaluated
operands therefore fails with an evaluation error or not at all.
-/

namespace PocketLisp

/-- An evaluated value: an atom in range. -/
def Datum.Evaluated (value : Datum) : Prop :=
  ∃ atom, value = .atom atom ∧ atom.InRange

/-- A well-formed constant holds an atom in range. -/
theorem Datum.exists_atom_of_wellFormed {held : Datum}
    (wellFormed : (Datum.constant held).WellFormed) : ∃ value, held = .atom value ∧ value.InRange := by
  cases held with
  | atom value => exact ⟨value, rfl, by simpa only [Datum.WellFormed] using wellFormed⟩
  | _ => simp [Datum.WellFormed] at wellFormed

namespace Operation

variable {operation : Operation} {operands : List Datum} {values : List Int} {value : Int}

/-- A value that passes its check fits. -/
theorem fits_of_checked {number : Int} (passed : operation.checked number = .ok value) :
    Atom.Fits value := by
  unfold checked at passed
  split at passed
  · next fits =>
      obtain rfl := Except.ok.inj passed
      exact fits
  · contradiction

/-- A step that succeeds makes a value that fits. -/
theorem fits_of_step {sofar operand : Int} (computed : operation.step sofar operand = .ok value) :
    Atom.Fits value := by
  cases operation with
  | addition | subtraction | multiplication => exact fits_of_checked computed
  | division =>
      by_cases zero : operand = 0
      · rw [step, if_pos zero] at computed
        contradiction
      · rw [step_division zero] at computed
        exact fits_of_checked computed

/-- Folding from a value that fits makes one that fits. -/
theorem fits_of_foldlM {sofar : Int} (fits : Atom.Fits sofar)
    (computed : values.foldlM operation.step sofar = .ok value) : Atom.Fits value := by
  induction values generalizing sofar with
  | nil =>
      obtain rfl := Except.ok.inj computed
      exact fits
  | cons operand operands inductionHypothesis =>
      rw [List.foldlM_cons] at computed
      cases next : operation.step sofar operand with
      | error error =>
          rw [next] at computed
          contradiction
      | ok result =>
          rw [next] at computed
          exact inductionHypothesis (fits_of_step next) computed

/-- What an operation computes from values that fit, fits. -/
theorem fits_of_compute (fits : ∀ operand ∈ values, Atom.Fits operand)
    (computed : operation.compute values = .ok value) : Atom.Fits value := by
  unfold compute at computed
  split at computed
  · next unit starts =>
      have small : Atom.Fits unit := by
        cases operation <;> simp only [unit?, Option.some.injEq, reduceCtorEq] at starts
        all_goals subst starts; decide
      exact fits_of_foldlM small computed
  · next first rest _ => exact fits_of_foldlM (fits first List.mem_cons_self) computed
  · contradiction

/-- The integers of evaluated operands fit. -/
theorem fits_of_integers (evaluated : ∀ operand ∈ operands, operand.Evaluated)
    (found : operation.integers operands = .ok values) : ∀ number ∈ values, Atom.Fits number := by
  induction operands generalizing values with
  | nil =>
      obtain rfl := Except.ok.inj found
      simp
  | cons operand operands inductionHypothesis =>
      have others : ∀ other ∈ operands, other.Evaluated :=
        fun other member => evaluated other (List.mem_cons_of_mem operand member)
      obtain ⟨atom, rfl, inRange⟩ := evaluated operand List.mem_cons_self
      cases atom with
      | int first =>
          rw [integers] at found
          cases rest : operation.integers operands with
          | error error =>
              rw [rest] at found
              contradiction
          | ok numbers =>
              rw [rest] at found
              obtain rfl := Except.ok.inj found
              intro number member
              rcases List.mem_cons.1 member with rfl | later
              · exact inRange
              · exact inductionHypothesis others rest number later
      | key | bool | instruction => simp [integers] at found

/-- An operation on evaluated operands makes an atom in range or fails with an
evaluation error. -/
theorem apply_answers (evaluated : ∀ operand ∈ operands, operand.Evaluated) :
    (∃ result, operation.apply operands = .ok result ∧ result.InRange)
      ∨ ∃ error, operation.apply operands = .error (.evaluation error) := by
  unfold apply
  cases found : operation.integers operands with
  | error error => exact .inr ⟨error, rfl⟩
  | ok values =>
      simp only
      cases computed : operation.compute values with
      | error fault =>
          obtain ⟨error, rfl⟩ := (breaks_of_compute computed).exists_evaluation
          exact .inr ⟨error, rfl⟩
      | ok value =>
          have fits := fits_of_compute (fits_of_integers evaluated found) computed
          simp only [Atom.ofInt?_eq_some_iff.2 ⟨fits, rfl⟩]
          exact .inl ⟨.int value, rfl, fits⟩

end Operation

namespace Environment

variable {environment : Environment} {name : String} {value : Atom}

/-- What is found in an environment in range is in range. -/
theorem InRange.find? (inRange : environment.InRange)
    (found : environment.find? name = some value) : value.InRange := by
  obtain ⟨bindings⟩ := environment
  simp only [Environment.find?] at found
  induction bindings with
  | nil => contradiction
  | cons binding bindings inductionHypothesis =>
      simp only [findIn] at found
      split at found
      · obtain rfl := Option.some.inj found
        exact inRange binding List.mem_cons_self
      · refine inductionHypothesis (fun other member => ?_) found
        exact inRange other (List.mem_cons_of_mem binding member)

/-- What is bound after binding a name is the new binding or an old one. -/
theorem mem_bindIn {binding : String × Atom} {bindings : List (String × Atom)}
    (member : binding ∈ bindIn name value bindings) :
    binding = (name, value) ∨ binding ∈ bindings := by
  induction bindings with
  | nil => exact .inl (List.mem_singleton.1 member)
  | cons first bindings inductionHypothesis =>
      simp only [bindIn] at member
      split at member
      · exact (List.mem_cons.1 member).imp_right (List.mem_cons_of_mem first)
      · rcases List.mem_cons.1 member with rfl | later
        · exact .inr List.mem_cons_self
        · exact (inductionHypothesis later).imp_right (List.mem_cons_of_mem first)

/-- Binding an atom in range keeps an environment in range. -/
theorem InRange.bind (inRange : environment.InRange) (name : String) (bound : value.InRange) :
    (environment.bind name value).InRange := by
  intro binding member
  rcases mem_bindIn member with rfl | old
  · exact bound
  · exact inRange binding old

/-- Binding a name keeps the names distinct. -/
theorem nodup_names_bind (distinct : environment.names.Nodup) (name : String) (value : Atom) :
    (environment.bind name value).names.Nodup := by
  rw [names_bind]
  split
  · exact distinct
  · next fresh =>
      refine List.nodup_append.2 ⟨distinct, by simp, ?_⟩
      rintro first here _ last rfl
      exact fresh (List.mem_singleton.1 last ▸ here)

end Environment

end PocketLisp
