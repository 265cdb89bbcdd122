import PocketLisp.Evaluation

/-!
# Runs one after the other

The laws of `Run.andThen`: a run that only answers in front of another does nothing, and
how three runs are bracketed does not matter. Evaluating one list of trees behind another
is therefore evaluating the first list and going on with the second from the environment
that it leaves, events included.
-/

namespace PocketLisp

namespace Run

variable {ε ε' α β γ : Type}

/-- How three runs are bracketed does not matter. -/
theorem andThen_assoc (run : Run ε α) (next : α → Environment → Run ε β)
    (last : β → Environment → Run ε γ) :
    (run.andThen next).andThen last =
      run.andThen fun value environment => (next value environment).andThen last := by
  cases first : run.outcome with
  | error error => simp [andThen, first]
  | ok value =>
      cases second : (next value run.environment).outcome <;>
        simp [andThen, first, second, List.append_assoc]

/-- Changing the value of the second run is changing the value of both. -/
theorem map_andThen (f : β → γ) (run : Run ε α) (next : α → Environment → Run ε β) :
    (run.andThen next).map f = run.andThen fun value environment => (next value environment).map f := by
  obtain ⟨outcome, environment, events⟩ := run
  cases outcome <;> rfl

/-- A run goes on from the changed value of the run before it. -/
theorem andThen_map {f : α → γ} (run : Run ε α) (next : γ → Environment → Run ε β) :
    (run.map f).andThen next = run.andThen fun value => next (f value) := by
  obtain ⟨outcome, environment, events⟩ := run
  cases outcome <;> rfl

/-- Changing a value twice is changing it once. -/
theorem map_map {g : β → γ} {f : α → β} (run : Run ε α) :
    (run.map f).map g = run.map (g ∘ f) := by
  obtain ⟨outcome, environment, events⟩ := run
  cases outcome <;> rfl

/-- Changing the error of two runs is changing the error of each. -/
theorem mapError_andThen (f : ε → ε') (run : Run ε α) (next : α → Environment → Run ε β) :
    (run.andThen next).mapError f =
      (run.mapError f).andThen fun value environment => (next value environment).mapError f := by
  obtain ⟨outcome, environment, events⟩ := run
  cases outcome <;> rfl

/-- Values and errors are changed independently. -/
theorem mapError_map {f : ε → ε'} {g : α → β} (run : Run ε α) :
    (run.map g).mapError f = (run.mapError f).map g := by
  obtain ⟨outcome, environment, events⟩ := run
  cases outcome <;> rfl

/-- A run whose value stays what it is does not change. -/
theorem map_id (run : Run ε α) : run.map id = run := by
  obtain ⟨outcome, environment, events⟩ := run
  cases outcome <;> rfl

end Run

/-- Trees behind other trees are evaluated in the environment that those leave, unless
these fail. -/
theorem evalAll_append (first second : List Datum) (environment : Environment) :
    evalAll (first ++ second) environment =
      (evalAll first environment).andThen fun values environment =>
        (evalAll second environment).map (values ++ ·) := by
  induction first generalizing environment with
  | nil =>
      rw [List.nil_append, evalAll, Run.andThen_done]
      exact (Run.map_id _).symm
  | cons tree trees inductionHypothesis =>
      rw [List.cons_append, evalAll, evalAll, Run.andThen_assoc]
      congr 1
      funext value environment
      rw [inductionHypothesis, Run.map_andThen, Run.andThen_map]
      congr 1
      funext values environment
      rw [Run.map_map]
      rfl

end PocketLisp
