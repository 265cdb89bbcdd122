import PocketLisp.Proofs.Evaluation.Journal
import PocketLisp.Proofs.Session.Splitting

/-!
# The log of a session

Whatever is evaluated in a session, the events that it notes account for the environment that
it leaves: making the noted bindings again from the start leads to the very same bindings, in
the very same order. This holds of sessions of any length, and errors do not disturb it,
whether code cannot be read or fails halfway.
-/

namespace PocketLisp.Session

open Reading

/-- A request that has something evaluated: code, the expression at the start of a text, or a
tree. -/
def Request.IsEvaluation : Request → Prop
  | .code _ | .source _ | .tree _ => True
  | _ => False

instance (request : Request) : Decidable request.IsEvaluation := by
  cases request <;> unfold Request.IsEvaluation <;> infer_instance

/-- The events of a list of requests, in the order in which they happen. -/
def log : List Request → Environment → List Event
  | [], _ => []
  | request :: requests, environment =>
      (respond request environment).events
        ++ log requests (respond request environment).environment

variable {environment : Environment}

/-- The events of evaluating code account for the environment. -/
theorem accounts_evalCode (code : String) (environment : Environment) :
    (evalCode code environment).Accounts environment := by
  cases read : readAll code with
  | error refusal =>
      rw [evalCode_of_unread read]
      exact Run.accounts_fail _ environment
  | ok trees =>
      rw [evalCode, read]
      exact ((accounts_eval_and_evalAll.2 trees environment).mapError Problem.failed).withEvents rfl

/-- The events of evaluating a tree account for the environment. -/
theorem accounts_evalTree (tree : Datum) (environment : Environment) :
    (evalTree tree environment).Accounts environment :=
  (accounts_eval_and_evalAll.1 tree environment).mapError Problem.failed

/-- The events of evaluating the expression at the start of a text account for the
environment. -/
theorem accounts_evalSource (complete : Bool) (source : String) (environment : Environment) :
    (evalSource complete source environment).Accounts environment := by
  cases read : Reading.read complete source with
  | error refusal =>
      rw [evalSource, read]
      exact Run.accounts_fail _ environment
  | ok tree =>
      rw [evalSource, read]
      exact (accounts_evalTree tree environment).withEvents rfl

/-- The events of having something evaluated account for the environment. -/
theorem accounts_respond {request : Request} (given : request.IsEvaluation)
    (environment : Environment) : (respond request environment).Accounts environment := by
  cases request with
  | code code => exact (accounts_evalCode code environment).map _
  | source source => exact (accounts_evalSource false source environment).map _
  | tree tree => exact (accounts_evalTree tree environment).map _
  | _ => contradiction

/-- The log of a session accounts for its environment. -/
theorem after_eq_replay_log {requests : List Request}
    (given : ∀ request ∈ requests, request.IsEvaluation) (environment : Environment) :
    after requests environment = environment.replay (log requests environment) := by
  induction requests generalizing environment with
  | nil => rfl
  | cons request requests inductionHypothesis =>
      have others : ∀ other ∈ requests, other.IsEvaluation :=
        fun other member => given other (List.mem_cons_of_mem request member)
      have here : (respond request environment).environment =
          environment.replay (respond request environment).events :=
        accounts_respond (given request List.mem_cons_self) environment
      calc
        after (request :: requests) environment =
            after requests (respond request environment).environment := rfl
        _ = (respond request environment).environment.replay
              (log requests (respond request environment).environment) :=
          inductionHypothesis others _
        _ = environment.replay (log (request :: requests) environment) := by
          rw [log, Environment.replay_append, ← here]

/-- Code of which one expression fails leaves what the expressions before it and this one
leave, and no more. -/
theorem respond_code_of_error {code : String} {before behind values : List Datum} {tree : Datum}
    {fault : Fault} (read : readAll code = .ok (before ++ tree :: behind))
    (done : (evalAll before environment).outcome = .ok values)
    (failed : (eval tree (evalAll before environment).environment).outcome = .error fault) :
    respond (.code code) environment =
      ⟨.error (.failed fault), (eval tree (evalAll before environment).environment).environment,
        .parsedAll code (before ++ tree :: behind).length
          :: ((evalAll before environment).events
            ++ (eval tree (evalAll before environment).environment).events)⟩ := by
  simp only [respond, evalCode, read, evalAll_of_error done failed behind]
  rfl

/-- The log of a session in which things are evaluated accounts for its whole environment,
whatever fails on the way. A definition that fails has left no event and no binding of its
own, only what evaluating its value has left. Code that fails at one of its expressions has
left the events and the bindings of the expressions before it, and those that this one has
made before it failed. -/
theorem after_eq_replay (requests : List Request) (environment : Environment)
    (given : ∀ request ∈ requests, request.IsEvaluation) :
    after requests environment = environment.replay (log requests environment)
    ∧ (∀ operator operands start fault, Head.ofOperator operator = .definition →
      (eval (.application operator operands) start).outcome = .error fault →
      eval (.application operator operands) start = .fail fault start
      ∨ ∃ name value, operands = [.key name, value]
        ∧ eval (.application operator operands) start =
          ⟨.error fault, (eval value start).environment, (eval value start).events⟩)
    ∧ ∀ code before tree behind values start fault,
      readAll code = .ok (before ++ tree :: behind) →
      (evalAll before start).outcome = .ok values →
      (eval tree (evalAll before start).environment).outcome = .error fault →
      respond (.code code) start =
        ⟨.error (.failed fault), (eval tree (evalAll before start).environment).environment,
          .parsedAll code (before ++ tree :: behind).length
            :: ((evalAll before start).events
              ++ (eval tree (evalAll before start).environment).events)⟩ := by
  refine ⟨after_eq_replay_log given environment, ?_, ?_⟩
  · intro operator operands start fault head failed
    rcases eval_definition_cases head start with ⟨other, run⟩ |
      ⟨name, value, shape, ⟨atom, -, run⟩ | ⟨other, -, run⟩⟩
    · rw [run] at failed ⊢
      obtain rfl : other = fault := Except.error.inj failed
      exact .inl rfl
    · rw [run] at failed
      contradiction
    · rw [run] at failed ⊢
      obtain rfl : other = fault := Except.error.inj failed
      exact .inr ⟨name, value, shape, rfl⟩
  · intro code before tree behind values start fault read done failed
    exact respond_code_of_error read done failed

/-- Code that binds two names and fails behind a third, which is bound inside an operand, and
then a tree that is no definition because its name is none, and code that cannot be read. -/
theorem after_eq_replay_nested :
    (∀ request ∈ [Request.code "(define b (define a 1)) (+ (define c 2) d) e",
        .tree (.application (.key "define") [.int 1, .int 2]), .code "("],
      request.IsEvaluation)
    ∧ after [.code "(define b (define a 1)) (+ (define c 2) d) e",
        .tree (.application (.key "define") [.int 1, .int 2]), .code "("] ⟨[("c", .int 0)]⟩ =
      ⟨[("c", .int 2), ("a", .int 1), ("b", .key "a")]⟩
    ∧ Head.ofOperator (.key "define") = .definition
    ∧ (eval (.application (.key "define") [.int 1, .int 2]) .empty).environment = .empty
    ∧ readAll "(define b 1) (+ (define c 2) d) e" =
      .ok ([.application (.instruction .define) [.key "b", .int 1]]
        ++ .application (.instruction .add)
          [.application (.instruction .define) [.key "c", .int 2], .key "d"] :: [.key "e"])
    ∧ (respond (.code "(define b 1) (+ (define c 2) d) e") .empty).events =
      [.parsedAll "(define b 1) (+ (define c 2) d) e" 3, .defined "b" (.int 1),
        .defined "c" (.int 2)] := by
  have given : ∀ request ∈ [Request.code "(define b (define a 1)) (+ (define c 2) d) e",
      .tree (.application (.key "define") [.int 1, .int 2]), .code "("],
      request.IsEvaluation := by
    decide
  have head : Head.ofOperator (.key "define") = .definition := by decide
  have read : readAll "(define b 1) (+ (define c 2) d) e" =
      .ok ([.application (.instruction .define) [.key "b", .int 1]]
        ++ .application (.instruction .add)
          [.application (.instruction .define) [.key "c", .int 2], .key "d"] :: [.key "e"]) := by
    decide +kernel
  obtain ⟨accounts, definitions, stops⟩ := after_eq_replay _ ⟨[("c", .int 0)]⟩ given
  refine ⟨given, accounts.trans (by decide +kernel), head, ?_, read, ?_⟩
  · rcases definitions _ [.int 1, .int 2] .empty _ head rfl with run | ⟨name, value, shape, -⟩
    · rw [run]
      rfl
    · exact absurd shape nofun
  · rw [stops _ _ _ _ _ _ _ read rfl rfl]
    rfl

end PocketLisp.Session
