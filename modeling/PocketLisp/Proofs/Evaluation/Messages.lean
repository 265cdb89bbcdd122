import PocketLisp.Proofs.Arithmetic.Failures
import PocketLisp.Proofs.Evaluation.Rules
import PocketLisp.Proofs.Reading.Readable
import PocketLisp.Proofs.Text.Legible

/-!
# What evaluation says is legible

Atoms are written in printable characters, and so is every tree that can be read: the names
of the grammar consist of letters, digits and low lines. The faults of evaluation speak of
such names and of written trees and atoms only, so the text of a fault is legible, and so is
every written value. What the names in the environment look like does not matter.

The induction is along the rules of evaluation and is about how runs end.
-/

namespace PocketLisp

open Text Reading

section Written

/-- The names of the grammar are legible. -/
theorem Reading.IsName.legible {name : String} (isName : IsName name) : Legible name := by
  intro char member
  rcases Bool.or_eq_true _ _ ▸ isName.continues char member with letter | line
  · exact isPrintable_of_isAlphanum letter
  · obtain rfl := eq_of_beq line
    decide

/-- The token of an instruction is legible. -/
theorem Instruction.legible_token (tag : Instruction) : Legible tag.token := by
  cases tag <;> exact legible_ofList rfl

/-- The name of an instruction is legible. -/
theorem Instruction.legible_name (tag : Instruction) : Legible tag.name := by
  cases tag <;> exact legible_ofList rfl

/-- Every atom is written legibly. -/
theorem Atom.legible_written (atom : Atom) : Legible atom.written := by
  cases atom with
  | int value =>
      refine (legible_toString_int value).between ?_ ?_ <;> exact legible_ofList rfl
  | key name =>
      refine (legible_quoted name).between ?_ ?_ <;> exact legible_ofList rfl
  | bool value =>
      have word : Legible (if value then "True" else "False") := by
        cases value <;> exact legible_ofList rfl
      refine word.between ?_ ?_ <;> exact legible_ofList rfl
  | instruction tag =>
      refine tag.legible_name.between ?_ ?_ <;> exact legible_ofList rfl

/-- Legible parts in round brackets are legible. -/
theorem Datum.legible_tuple {parts : List String} (legible : ∀ part ∈ parts, Legible part) :
    Legible (Datum.tuple parts) := by
  unfold Datum.tuple
  split
  · exact legible_ofList rfl
  · refine (legible _ List.mem_cons_self).between ?_ ?_ <;> exact legible_ofList rfl
  · have comma : Legible ", " := legible_ofList rfl
    refine (legible_intercalate comma legible).between ?_ ?_ <;> exact legible_ofList rfl

/-- The constant of an atom is written legibly. -/
theorem Datum.legible_constant (value : Atom) : Legible (Datum.constant (.atom value)).written := by
  rw [written, writtenBy_constant]
  refine value.legible_written.between ?_ ?_ <;> exact legible_ofList rfl

/-- An application of legible parts is written legibly. -/
theorem Datum.legible_application {operator : Datum} {operands : List Datum}
    (head : Legible operator.written) (legible : ∀ part ∈ writtenAll operands, Legible part) :
    Legible (Datum.application operator operands).written := by
  have kind : Legible "Application(operator=" := legible_ofList rfl
  have between : Legible ", operands=" := legible_ofList rfl
  have bracket : Legible ")" := legible_ofList rfl
  simp only [written, writtenBy_application, legible_append_iff]
  exact ⟨⟨⟨⟨kind, head⟩, between⟩, legible_tuple legible⟩, bracket⟩

mutual

/-- A tree that can be read is written legibly. -/
theorem Datum.legible_written : (tree : Datum) → tree.Readable → Legible tree.written
  | .constant (.atom value), _ => legible_constant value
  | .application operator operands, readable => by
      simp only [Datum.Readable] at readable
      exact legible_application (legible_written operator readable.1)
        (legible_writtenAll operands readable.2)
  | .plain _, readable | .atom _, readable | .ifThen _ _, readable | .ifElse _ _ _, readable
  | .quote _, readable | .constant (.plain _), readable | .constant (.constant _), readable
  | .constant (.application _ _), readable | .constant (.ifThen _ _), readable
  | .constant (.ifElse _ _ _), readable | .constant (.quote _), readable => by
      simp [Datum.Readable] at readable

/-- Trees that can be read are written legibly. -/
theorem Datum.legible_writtenAll :
    (items : List Datum) → AllReadable items → ∀ part ∈ writtenAll items, Legible part
  | [], _ => nofun
  | item :: items, readable => by
      simp only [AllReadable] at readable
      exact List.forall_mem_cons.2
        ⟨legible_written item readable.1, legible_writtenAll items readable.2⟩

end

end Written

section Errors

/-- A type error is legible when what it speaks of is. -/
theorem EvalError.legible_typeMismatch {operation expected : String} {found : Datum}
    (operationLegible : Legible operation) (foundLegible : Legible found.written)
    (expectedLegible : Legible expected) :
    Legible (EvalError.typeMismatch operation found expected).message := by
  have lead : Legible "Expected " := legible_ofList rfl
  have purpose : Legible " for " := legible_ofList rfl
  have stead : Legible ", found " := legible_ofList rfl
  have common : Legible ("Expected " ++ expected ++ " for " ++ operation) := by
    simp only [legible_append_iff]
    exact ⟨⟨⟨lead, expectedLegible⟩, purpose⟩, operationLegible⟩
  unfold EvalError.message
  split
  -- A missing value is not mentioned.
  case h_2 same =>
    cases same
    exact common
  case h_3 same =>
    cases same
    exact legible_append_iff.2 ⟨legible_append_iff.2 ⟨common, stead⟩, foundLegible⟩
  all_goals contradiction

/-- The name of an operation is legible. -/
theorem Operation.legible_name (operation : Operation) : Legible operation.name := by
  cases operation <;> exact legible_ofList rfl

/-- The message of a computation that breaks is legible. -/
theorem Operation.Breaks.legible {operation : Operation} {fault : Fault}
    (breaks : operation.Breaks fault) : Legible fault.message := by
  cases breaks with
  | overflow =>
      have lead : Legible "Integer overflow in " := legible_ofList rfl
      exact legible_append_iff.2 ⟨lead, operation.legible_name⟩
  | divisionByZero => exact legible_ofList rfl
  | noOperand =>
      have lead : Legible "Expected at least one operand for " := legible_ofList rfl
      exact legible_append_iff.2 ⟨lead, operation.legible_name⟩

/-- The message of a failed operation is legible when its operands are. -/
theorem Operation.Fails.legible {operation : Operation} {operands : List Datum} {fault : Fault}
    (legible : ∀ operand ∈ operands, Legible operand.written)
    (fails : operation.Fails operands fault) : Legible fault.message := by
  cases fails with
  | stranger member =>
      exact EvalError.legible_typeMismatch operation.legible_name (legible _ member)
        (legible_ofList rfl)
  | breaks breaks => exact breaks.legible
  | outOfRange value =>
      have tail : Legible " does not fit in a signed 32-bit integer" := legible_ofList rfl
      exact legible_append_iff.2 ⟨legible_toString_int value, tail⟩

/-- The message of a readable tree to which no rule applies is legible. -/
theorem NoRule.legible {tree : Datum} {fault : Fault} (noRule : NoRule tree fault)
    (readable : tree.Readable) : Legible fault.message := by
  cases noRule with
  | target head noKey =>
      simp only [Datum.Readable, Datum.AllReadable] at readable
      have target := Datum.legible_written _ readable.2.1
      exact EvalError.legible_typeMismatch (legible_ofList rfl) target (legible_ofList rfl)
  | count head noPair =>
      have first : Legible "The 'define' instruction requires exactly two operands: " :=
        legible_ofList rfl
      have second : Legible "a variable name and its value" := legible_ofList rfl
      exact legible_append_iff.2 ⟨first, second⟩
  | operator head =>
      have lead : Legible "Expected an instruction or a keyword as the operator, found " :=
        legible_ofList rfl
      simp only [Datum.Readable] at readable
      exact legible_append_iff.2 ⟨lead, Datum.legible_written _ readable.1⟩
  | ifThen | ifElse | quote | plain | atom => simp [Datum.Readable] at readable

end Errors

namespace Run

variable {ε α β : Type} {good : α → Prop} {better : β → Prop} {bad : ε → Prop}

/-- A run whose answer or error is as promised. -/
structure Ends (good : α → Prop) (bad : ε → Prop) (run : Run ε α) : Prop where
  answers : ∀ value, run.outcome = .ok value → good value
  fails : ∀ error, run.outcome = .error error → bad error

/-- A run that only answers ends with its answer. -/
theorem ends_done {value : α} (promised : good value) (environment : Environment) :
    Ends good bad (done value environment) where
  answers _ answered := Except.ok.inj answered ▸ promised
  fails := nofun

/-- A run that only fails ends with its error. -/
theorem ends_fail {error : ε} (promised : bad error) (environment : Environment) :
    Ends good bad (fail error environment) where
  answers := nofun
  fails _ failed := Except.error.inj failed ▸ promised

/-- A run that ends as promised, followed by one that does so after it, does so. -/
theorem Ends.andThen {run : Run ε α} {next : α → Environment → Run ε β}
    (first : Ends good bad run)
    (second : ∀ {value : α} (environment : Environment), good value →
      Ends better bad (next value environment)) :
    Ends better bad (run.andThen next) := by
  cases ended : run.outcome with
  | error error =>
      simp only [Run.andThen, ended]
      refine ⟨fun _ answered => ?_, fun _ failed => ?_⟩
      · contradiction
      · exact Except.error.inj failed ▸ first.fails error ended
  | ok value =>
      simp only [Run.andThen, ended]
      obtain ⟨answers, fails⟩ := second run.environment (first.answers value ended)
      exact ⟨answers, fails⟩

/-- Changing the value of a run changes what its answer promises. -/
theorem Ends.map {run : Run ε α} {f : α → β} (ends : Ends good bad run)
    (suits : ∀ {value : α}, good value → better (f value)) : Ends better bad (run.map f) := by
  cases ended : run.outcome with
  | error error =>
      simp only [Run.map, ended]
      exact ⟨nofun, fun _ failed => Except.error.inj failed ▸ ends.fails error ended⟩
  | ok value =>
      simp only [Run.map, ended]
      exact ⟨fun _ answered => Except.ok.inj answered ▸ suits (ends.answers value ended), nofun⟩

end Run

/-- A run whose fault has a legible message and whose answer is as promised. -/
abbrev Run.Speaks {α : Type} (good : α → Prop) (run : Run Fault α) : Prop :=
  run.Ends good fun fault => Legible fault.message

section Evaluation

/-- Binding a value says nothing illegible when the value is written legibly. -/
theorem speaks_bindResult (name : String) {value : Datum} (legible : Legible value.written)
    (environment : Environment) :
    (bindResult name value environment).Speaks fun value => Legible value.written := by
  unfold bindResult
  split
  · refine ⟨fun value answered => ?_, fun fault failed => ?_⟩
    · obtain rfl := Except.ok.inj answered
      exact Atom.legible_written (.key name)
    · contradiction
  · refine Run.ends_fail ?_ environment
    refine legible.between ?_ ?_ <;> exact legible_ofList rfl

/-- Applying an instruction says nothing illegible when its operands are written legibly. -/
theorem speaks_applyInstruction (tag : Instruction) {arguments : List Datum}
    (legible : ∀ argument ∈ arguments, Legible argument.written) (environment : Environment) :
    (applyInstruction tag arguments environment).Speaks fun value => Legible value.written := by
  unfold applyInstruction
  split
  · have lead : Legible "Unsupported instruction: " := legible_ofList rfl
    refine Run.ends_fail ?_ environment
    exact legible_append_iff.2 ⟨lead, tag.legible_token⟩
  · split
    · next failed =>
        refine Run.ends_fail ?_ environment
        exact (Operation.fails_of_apply failed).legible legible
    · exact ⟨fun _ answered => Except.ok.inj answered ▸ Atom.legible_written _, nofun⟩

/-- Evaluating a tree that can be read, and evaluating such trees in order, says nothing
illegible. -/
theorem speaks_eval_and_evalAll :
    (∀ tree environment, tree.Readable →
      (eval tree environment).Speaks fun value => Legible value.written)
    ∧ ∀ items environment, Datum.AllReadable items →
      (evalAll items environment).Speaks fun values => ∀ value ∈ values, Legible value.written := by
  refine rule_induction ?key ?held ?definition ?instruction ?noRule ?none ?more
  case key =>
    intro name environment readable
    rw [eval_key]
    cases environment.find? name with
    | none =>
        have lead : Legible "Undefined variable: " := legible_ofList rfl
        have isName : IsName name := by simpa only [Datum.key, Datum.Readable] using readable
        refine Run.ends_fail ?_ environment
        exact legible_append_iff.2 ⟨lead, isName.legible⟩
    | some value =>
        refine Run.ends_done ?_ environment
        exact value.legible_written
  case held =>
    intro held noKey environment readable
    rw [eval_held noKey]
    cases held with
    | atom value =>
        refine Run.ends_done ?_ environment
        exact value.legible_written
    | _ => simp [Datum.Readable] at readable
  case definition =>
    intro operator name value head inductionHypothesis environment readable
    simp only [Datum.Readable, Datum.AllReadable] at readable
    rw [eval_of_definition head]
    exact (inductionHypothesis environment readable.2.2.1).andThen fun environment legible =>
      speaks_bindResult name legible environment
  case instruction =>
    intro operator operands tag head inductionHypothesis environment readable
    simp only [Datum.Readable] at readable
    rw [eval_of_instruction head]
    exact (inductionHypothesis environment readable.2).andThen fun environment legible =>
      speaks_applyInstruction tag legible environment
  case noRule =>
    intro tree fault noRule environment readable
    rw [noRule.stuck.fails environment]
    refine Run.ends_fail ?_ environment
    exact noRule.legible readable
  case none =>
    intro environment _
    rw [evalAll]
    exact Run.ends_done (List.forall_mem_nil _) environment
  case more =>
    intro item items first others environment readable
    simp only [Datum.AllReadable] at readable
    rw [evalAll]
    exact (first environment readable.1).andThen fun environment here =>
      (others environment readable.2).map fun rest => List.forall_mem_cons.2 ⟨here, rest⟩

end Evaluation

end PocketLisp
