import PocketLisp.Proofs.Evaluation.Rules
import PocketLisp.Proofs.Evaluation.Sequence

/-!
# What the events say about the environment

Every binding is noted when it is made, and nothing else is noted as one. Making the noted
bindings again, in their order, therefore leads from the environment before a run to the one
after it, whether the run has answered or failed.

A definition notes its binding last, when its value has been evaluated. When it fails, all
that it leaves is what evaluating the value has left.
-/

namespace PocketLisp

namespace Environment

/-- The environment with the bindings made that events note, in the order of the events. -/
def replay (environment : Environment) (events : List Event) : Environment :=
  (events.filterMap Event.binding?).foldl
    (fun environment binding => environment.bind binding.1 binding.2) environment

/-- Later events go on from what earlier ones have bound. -/
theorem replay_append (environment : Environment) (first second : List Event) :
    environment.replay (first ++ second) = (environment.replay first).replay second := by
  rw [replay, List.filterMap_append, List.foldl_append]
  rfl

/-- An event that notes no binding changes nothing. -/
theorem replay_cons_of_none {event : Event} (none : event.binding? = none)
    (environment : Environment) (events : List Event) :
    environment.replay (event :: events) = environment.replay events := by
  rw [replay, List.filterMap_cons_none none]
  rfl

end Environment

namespace Run

variable {ε ε' α β : Type} {start environment : Environment}

/-- The events of a run account for the environment that it leaves. -/
def Accounts (start : Environment) (run : Run ε α) : Prop :=
  run.environment = start.replay run.events

/-- There is nothing to account for in an answer. -/
theorem accounts_done (value : α) (environment : Environment) :
    (done value environment : Run ε α).Accounts environment := rfl

/-- There is nothing to account for in a failure. -/
theorem accounts_fail (error : ε) (environment : Environment) :
    (fail error environment : Run ε α).Accounts environment := rfl

/-- Two runs one after the other are accounted for by the events of both. -/
theorem Accounts.andThen {run : Run ε α} {next : α → Environment → Run ε β}
    (first : run.Accounts start)
    (second : ∀ value, (next value run.environment).Accounts run.environment) :
    (run.andThen next).Accounts start := by
  cases answer : run.outcome with
  | error error =>
      simp only [Run.andThen, answer]
      exact first
  | ok value =>
      have later := second value
      simp only [Run.andThen, answer]
      unfold Accounts at first later ⊢
      rw [Environment.replay_append, ← first]
      exact later

/-- Changing the value does not change what there is to account for. -/
theorem Accounts.map {run : Run ε α} (accounts : run.Accounts start) (f : α → β) :
    (run.map f).Accounts start := accounts

/-- Changing the error does not change what there is to account for. -/
theorem Accounts.mapError {run : Run ε α} (accounts : run.Accounts start) (f : ε → ε') :
    (run.mapError f).Accounts start := accounts

/-- Noting something that is no binding in front of a run does not change what there is to
account for. -/
theorem Accounts.withEvents {run : Run ε α} {event : Event} (none : event.binding? = none)
    (accounts : run.Accounts start) : (run.withEvents [event]).Accounts start := by
  unfold Accounts at accounts ⊢
  rw [Run.withEvents, List.singleton_append, Environment.replay_cons_of_none none]
  exact accounts

end Run

/-- A binding is noted. -/
theorem accounts_bindResult (name : String) (value : Datum) (environment : Environment) :
    (bindResult name value environment).Accounts environment := by
  cases value <;> rfl

/-- Applying an instruction notes no binding and makes none. -/
theorem accounts_applyInstruction (tag : Instruction) (arguments : List Datum)
    (environment : Environment) :
    (applyInstruction tag arguments environment).Accounts environment := by
  unfold applyInstruction
  split
  · rfl
  · split <;> rfl

/-- The events of evaluating a tree, or trees in order, account for the environment. -/
theorem accounts_eval_and_evalAll :
    (∀ tree environment, (eval tree environment).Accounts environment)
    ∧ ∀ items environment, (evalAll items environment).Accounts environment := by
  refine eval_induction ?key ?held ?definition ?instruction ?stuck ?none ?more
  case key =>
    intro name environment
    rw [eval_key]
    split
    · exact Run.accounts_done _ environment
    · exact Run.accounts_fail _ environment
  case held =>
    intro held noKey environment
    rw [eval_held noKey]
    exact Run.accounts_done held environment
  case definition =>
    intro operator name value head inductionHypothesis environment
    rw [eval_of_definition head]
    exact (inductionHypothesis environment).andThen fun result =>
      accounts_bindResult name result _
  case instruction =>
    intro operator operands tag head inductionHypothesis environment
    rw [eval_of_instruction head]
    exact (inductionHypothesis environment).andThen fun arguments =>
      accounts_applyInstruction tag arguments _
  case stuck =>
    intro tree fault stuck environment
    rw [stuck.fails]
    exact Run.accounts_fail fault environment
  case none =>
    intro environment
    rw [evalAll]
    exact Run.accounts_done [] environment
  case more =>
    intro item items first others environment
    rw [evalAll]
    exact (first environment).andThen fun value => (others _).map (value :: ·)

/-- A definition of what is no name, or without two operands, is one to which no rule
applies. -/
theorem exists_noRule_of_definition {operator : Datum} {operands : List Datum}
    (head : Head.ofOperator operator = .definition)
    (nameless : ¬∃ name value, operands = [.key name, value]) :
    ∃ fault, NoRule (.application operator operands) fault := by
  by_cases pair : ∃ target value, operands = [target, value]
  · obtain ⟨target, value, rfl⟩ := pair
    exact ⟨_, .target head fun name same => nameless ⟨name, value, by rw [same, Datum.key]⟩⟩
  · exact ⟨_, .count head fun target value same => pair ⟨target, value, same⟩⟩

/-- A definition ends in one of three ways. Without a name or without two operands it fails at
once. Otherwise its value is evaluated. If this makes an atom, the definition notes the binding
and makes it behind all that; if not, it fails and leaves just what this has left. -/
theorem eval_definition_cases {operator : Datum} {operands : List Datum}
    (head : Head.ofOperator operator = .definition) (environment : Environment) :
    (∃ fault, eval (.application operator operands) environment = .fail fault environment)
    ∨ ∃ name value, operands = [.key name, value]
      ∧ ((∃ atom, (eval value environment).outcome = .ok (.atom atom)
          ∧ eval (.application operator operands) environment =
            ⟨.ok (.atom (.key name)), (eval value environment).environment.bind name atom,
              (eval value environment).events ++ [.defined name atom]⟩)
        ∨ ∃ fault, (∀ atom, (eval value environment).outcome ≠ .ok (.atom atom))
          ∧ eval (.application operator operands) environment =
            ⟨.error fault, (eval value environment).environment,
              (eval value environment).events⟩) := by
  by_cases named : ∃ name value, operands = [.key name, value]
  · obtain ⟨name, value, rfl⟩ := named
    refine .inr ⟨name, value, rfl, ?_⟩
    rw [eval_of_definition head]
    cases answer : (eval value environment).outcome with
    | error fault => exact .inr ⟨fault, by simp, by simp only [Run.andThen, answer]⟩
    | ok result =>
        simp only [Run.andThen, answer]
        cases result with
        | atom atom => exact .inl ⟨atom, rfl, rfl⟩
        | plain | constant | application | ifThen | ifElse | quote =>
            simp only [bindResult, Run.fail, List.append_nil]
            exact .inr ⟨_, by simp, rfl⟩
  · obtain ⟨fault, noRule⟩ := exists_noRule_of_definition head named
    exact .inl ⟨fault, noRule.stuck.fails environment⟩

/-- Trees of which one fails leave what those before it and this one leave, and no more. -/
theorem evalAll_of_error {before : List Datum} {values : List Datum} {tree : Datum} {fault : Fault}
    {environment : Environment} (done : (evalAll before environment).outcome = .ok values)
    (failed : (eval tree (evalAll before environment).environment).outcome = .error fault)
    (behind : List Datum) :
    evalAll (before ++ tree :: behind) environment =
      ⟨.error fault, (eval tree (evalAll before environment).environment).environment,
        (evalAll before environment).events
          ++ (eval tree (evalAll before environment).environment).events⟩ := by
  rw [evalAll_append]
  simp only [Run.andThen, done, evalAll, failed, Run.map, Except.map]

end PocketLisp
