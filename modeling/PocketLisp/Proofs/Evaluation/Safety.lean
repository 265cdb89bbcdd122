import PocketLisp.Proofs.Evaluation.Range
import PocketLisp.Proofs.Evaluation.Rules

/-!
# Safety of evaluation

Evaluating a well-formed tree answers with an atom in range or fails with an
evaluation error. No misuse arises on the way, whatever is nested in whatever. The
environment that is left behind, also by a failure, keeps every property that binding
atoms in range keeps.

The induction is along the rules of evaluation and is about safe runs: a run that
goes on from a safe one in a safe way is safe.
-/

namespace PocketLisp

namespace Environment

/-- A property of environments that bindings made by evaluation cannot break. -/
structure Invariant (keeps : Environment → Prop) : Prop where
  inRange : ∀ {environment : Environment}, keeps environment → environment.InRange
  bind : ∀ {environment : Environment} (name : String) {value : Atom}, keeps environment →
    value.InRange → keeps (environment.bind name value)

end Environment

namespace Run

variable {α β : Type} {keeps : Environment → Prop} {good : α → Prop} {better : β → Prop}
  {environment : Environment}

/-- A run that answers as promised or fails with an evaluation error, and keeps a property
of environments either way. -/
structure Safe (keeps : Environment → Prop) (good : α → Prop) (run : Run Fault α) : Prop where
  answers : (∃ value, run.outcome = .ok value ∧ good value)
    ∨ ∃ error, run.outcome = .error (.evaluation error)
  keeps : keeps run.environment

/-- An answer is safe when it is as promised. -/
theorem safe_done {value : α} (promised : good value) (kept : keeps environment) :
    Safe keeps good (done value environment) :=
  ⟨.inl ⟨value, rfl, promised⟩, kept⟩

/-- Failing with an evaluation error is safe. -/
theorem safe_fail {error : EvalError} (kept : keeps environment) :
    Safe keeps good (fail (.evaluation error) environment) :=
  ⟨.inr ⟨error, rfl⟩, kept⟩

/-- A safe run followed by a run that is safe after it is safe. -/
theorem Safe.andThen {run : Run Fault α} {next : α → Environment → Run Fault β}
    (first : Safe keeps good run)
    (second : ∀ {value : α}, good value → keeps run.environment →
      Safe keeps better (next value run.environment)) :
    Safe keeps better (run.andThen next) := by
  obtain ⟨⟨value, answered, promised⟩ | ⟨error, failed⟩, kept⟩ := first
  · obtain ⟨answers, kept⟩ := second promised kept
    simp only [Run.andThen, answered]
    exact ⟨answers, kept⟩
  · simp only [Run.andThen, failed]
    exact ⟨.inr ⟨error, rfl⟩, kept⟩

/-- Changing the value of a safe run keeps it safe. -/
theorem Safe.map {run : Run Fault α} {f : α → β} (safe : Safe keeps good run)
    (suits : ∀ {value : α}, good value → better (f value)) : Safe keeps better (run.map f) := by
  obtain ⟨⟨value, answered, promised⟩ | ⟨error, failed⟩, kept⟩ := safe
  · exact ⟨.inl ⟨f value, by simp [Run.map, answered, Except.map], suits promised⟩, kept⟩
  · exact ⟨.inr ⟨error, by simp [Run.map, failed, Except.map]⟩, kept⟩

end Run

section Evaluation

variable {keeps : Environment → Prop} {environment : Environment}

/-- Binding an evaluated value is safe. -/
theorem safe_bindResult (invariant : Environment.Invariant keeps) (name : String) {value : Datum}
    (evaluated : value.Evaluated) (kept : keeps environment) :
    Run.Safe keeps Datum.Evaluated (bindResult name value environment) := by
  obtain ⟨atom, rfl, inRange⟩ := evaluated
  exact ⟨.inl ⟨.atom (.key name), rfl, .key name, rfl, trivial⟩, invariant.bind name kept inRange⟩

/-- Applying an instruction to evaluated operands is safe. -/
theorem safe_applyInstruction (tag : Instruction) {arguments : List Datum}
    (evaluated : ∀ argument ∈ arguments, argument.Evaluated) (kept : keeps environment) :
    Run.Safe keeps Datum.Evaluated (applyInstruction tag arguments environment) := by
  unfold applyInstruction
  split
  · exact Run.safe_fail kept
  · next operation _ =>
      rcases operation.apply_answers evaluated with ⟨result, applied, inRange⟩ | ⟨error, failed⟩
      · rw [applied]
        exact ⟨.inl ⟨.atom result, rfl, result, rfl, inRange⟩, kept⟩
      · rw [failed]
        exact Run.safe_fail kept

/-- Evaluating a well-formed tree, and evaluating well-formed trees in order, is safe. -/
theorem safe_eval_and_evalAll (invariant : Environment.Invariant keeps) :
    (∀ tree environment, tree.WellFormed → keeps environment →
      Run.Safe keeps Datum.Evaluated (eval tree environment))
    ∧ ∀ items environment, Datum.AllWellFormed items → keeps environment →
      Run.Safe keeps (fun values => ∀ value ∈ values, value.Evaluated)
        (evalAll items environment) := by
  refine eval_induction ?key ?held ?definition ?instruction ?stuck ?none ?more
  case key =>
    intro name environment _ kept
    rw [eval_key]
    cases found : environment.find? name with
    | none => exact Run.safe_fail kept
    | some value => exact Run.safe_done ⟨value, rfl, (invariant.inRange kept).find? found⟩ kept
  case held =>
    intro held noKey environment wellFormed kept
    rw [eval_held noKey]
    exact Run.safe_done (Datum.exists_atom_of_wellFormed wellFormed) kept
  case definition =>
    intro operator name value head inductionHypothesis environment wellFormed kept
    simp only [Datum.WellFormed, Datum.AllWellFormed] at wellFormed
    rw [eval_of_definition head]
    exact (inductionHypothesis environment wellFormed.2.2.1 kept).andThen fun evaluated kept =>
      safe_bindResult invariant name evaluated kept
  case instruction =>
    intro operator operands tag head inductionHypothesis environment wellFormed kept
    simp only [Datum.WellFormed] at wellFormed
    rw [eval_of_instruction head]
    exact (inductionHypothesis environment wellFormed.2 kept).andThen fun evaluated kept =>
      safe_applyInstruction tag evaluated kept
  case stuck =>
    intro tree fault stuck environment wellFormed kept
    obtain ⟨error, rfl⟩ := stuck.evaluation wellFormed
    rw [stuck.fails]
    exact Run.safe_fail kept
  case none =>
    intro environment _ kept
    rw [evalAll]
    exact Run.safe_done (by simp) kept
  case more =>
    intro item items first others environment wellFormed kept
    simp only [Datum.AllWellFormed] at wellFormed
    rw [evalAll]
    refine (first environment wellFormed.1 kept).andThen fun {value} evaluated kept => ?_
    refine (others _ wellFormed.2 kept).map fun {values} evaluatedAll => ?_
    exact List.forall_mem_cons.2 ⟨evaluated, evaluatedAll⟩

/-- Being in range is kept by evaluation, and so are distinct names. -/
theorem invariant_inRange (distinct : Prop) :
    Environment.Invariant fun environment =>
      environment.InRange ∧ (distinct → environment.names.Nodup) where
  inRange := fun kept => kept.1
  bind := fun name _ kept inRange =>
    ⟨kept.1.bind name inRange, fun given => Environment.nodup_names_bind (kept.2 given) name _⟩

/-- A well-formed tree is evaluated to an atom in range or fails with an evaluation error,
in any environment. The environment left behind is in range either way, and has no name
twice if it had none before. -/
theorem eval_answers (tree : Datum) (environment : Environment) (wellFormed : tree.WellFormed)
    (inRange : environment.InRange) :
    ((∃ value, (eval tree environment).outcome = .ok (.atom value) ∧ value.InRange)
      ∨ ∃ error, (eval tree environment).outcome = .error (.evaluation error))
    ∧ (eval tree environment).environment.InRange
    ∧ (environment.names.Nodup → (eval tree environment).environment.names.Nodup) := by
  have invariant := invariant_inRange environment.names.Nodup
  have safe := (safe_eval_and_evalAll invariant).1 tree environment wellFormed ⟨inRange, id⟩
  refine ⟨?_, safe.keeps⟩
  rcases safe.answers with ⟨_, answered, value, rfl, fits⟩ | failed
  · exact .inl ⟨value, answered, fits⟩
  · exact .inr failed

/-- Adding to the greatest integer, in an environment without bindings. -/
theorem eval_answers_greatest :
    Datum.WellFormed (.application (.instruction .add) [.int 2147483647, .int 1])
      ∧ Environment.empty.InRange
      ∧ ∃ error, (eval (.application (.instruction .add) [.int 2147483647, .int 1])
          .empty).outcome = .error (.evaluation error) := by
  have wellFormed :
      Datum.WellFormed (.application (.instruction .add) [.int 2147483647, .int 1]) := by
    decide
  have inRange : Environment.empty.InRange := by decide
  refine ⟨wellFormed, inRange, ?_⟩
  rcases (eval_answers _ _ wellFormed inRange).1 with ⟨value, answered, -⟩ | failed
  · contradiction
  · exact failed

end Evaluation

end PocketLisp
