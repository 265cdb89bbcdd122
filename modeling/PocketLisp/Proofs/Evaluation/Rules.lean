import PocketLisp.Evaluation

/-!
# The rules of evaluation

A tree is evaluated by one of five rules. A key is looked up, any other constant answers with
what it holds, a definition goes on from its value and an instruction from its operands.
Every other tree is stuck: it fails in the same way in every environment, and none of its
parts is evaluated.

`rule_induction` is the induction along these rules. What is to be shown of all trees speaks
of the environments itself, so that it can be used for any number of them. `eval_induction` is
the same for what does not depend on why a tree is stuck.
-/

namespace PocketLisp

variable {operator held : Datum} {operands : List Datum} {tag : Instruction}

/-- A key is looked up. -/
theorem eval_key (name : String) (environment : Environment) :
    eval (.key name) environment =
      match environment.find? name with
      | some value => .done (.atom value) environment
      | none => .fail (.evaluation (.undefinedVariable name)) environment := by
  cases found : environment.find? name <;> simp only [Datum.key, eval, found]

/-- Any other constant answers with what it holds. -/
theorem eval_held (noKey : ∀ name, held = .atom (.key name) → False) (environment : Environment) :
    eval (.constant held) environment = .done held environment := by
  rw [eval]
  exact noKey

/-- A definition binds its name to its evaluated value. -/
theorem eval_of_definition (head : Head.ofOperator operator = .definition) (name : String)
    (value : Datum) (environment : Environment) :
    eval (.application operator [.key name, value]) environment =
      (eval value environment).andThen (bindResult name) := by
  rw [Datum.key, eval, head]

/-- An instruction is applied to its evaluated operands. -/
theorem eval_of_instruction (head : Head.ofOperator operator = .instruction tag)
    (environment : Environment) :
    eval (.application operator operands) environment =
      (evalAll operands environment).andThen (applyInstruction tag) := by
  rw [eval.eq_def]
  simp only [head]

/-- A tree that fails in every environment alike. A well-formed tree fails so with an
evaluation error. -/
structure Stuck (tree : Datum) (fault : Fault) : Prop where
  fails : ∀ environment, eval tree environment = .fail fault environment
  evaluation : tree.WellFormed → ∃ error, fault = .evaluation error

/-- A definition of what is no name is stuck. -/
theorem stuck_of_target (head : Head.ofOperator operator = .definition) {target value : Datum}
    (noKey : ∀ name, target = .constant (.atom (.key name)) → False) :
    Stuck (.application operator [target, value])
      (.evaluation (.typeMismatch "define" target "a variable name")) where
  fails environment := by
    rw [eval, head]
    exact noKey
  evaluation _ := ⟨_, rfl⟩

/-- A definition that does not have two operands is stuck. -/
theorem stuck_of_count (head : Head.ofOperator operator = .definition)
    (noPair : ∀ target value, operands = [target, value] → False) :
    Stuck (.application operator operands) (.evaluation defineArity) where
  fails environment := by
    rw [eval.eq_def]
    simp only [head]
    split
    · exact (noPair _ _ rfl).elim
    · exact (noPair _ _ rfl).elim
    · rfl
  evaluation _ := ⟨_, rfl⟩

/-- No other operator can be applied, and its operands are not looked at. -/
theorem stuck_of_invalid (head : Head.ofOperator operator = .invalid) :
    Stuck (.application operator operands) (.evaluation (.invalidOperator operator)) where
  fails environment := by
    rw [eval.eq_def]
    simp only [head]
  evaluation _ := ⟨_, rfl⟩

/-- The trees to which no rule applies, with the faults in which they end. -/
inductive NoRule : Datum → Fault → Prop
  | target {operator target value : Datum} (head : Head.ofOperator operator = .definition)
      (noKey : ∀ name, target = .constant (.atom (.key name)) → False) :
      NoRule (.application operator [target, value])
        (.evaluation (.typeMismatch "define" target "a variable name"))
  | count {operator : Datum} {operands : List Datum}
      (head : Head.ofOperator operator = .definition)
      (noPair : ∀ target value, operands = [target, value] → False) :
      NoRule (.application operator operands) (.evaluation defineArity)
  | operator {operator : Datum} {operands : List Datum}
      (head : Head.ofOperator operator = .invalid) :
      NoRule (.application operator operands) (.evaluation (.invalidOperator operator))
  | ifThen (condition consequence : Datum) :
      NoRule (.ifThen condition consequence)
        (.evaluation (.unsupportedExpression (.ifThen condition consequence)))
  | ifElse (condition consequence alternative : Datum) :
      NoRule (.ifElse condition consequence alternative)
        (.evaluation (.unsupportedExpression (.ifElse condition consequence alternative)))
  | quote (items : List Datum) :
      NoRule (.quote items) (.evaluation (.unsupportedExpression (.quote items)))
  | plain (value : Plain) : NoRule (.plain value) (.misuse (.notAnExpression (.plain value)))
  | atom (value : Atom) : NoRule (.atom value) (.misuse (.notAnExpression (.atom value)))

/-- A tree to which no rule applies is stuck. -/
theorem NoRule.stuck {tree : Datum} {fault : Fault} (noRule : NoRule tree fault) :
    Stuck tree fault := by
  cases noRule with
  | target head noKey => exact stuck_of_target head noKey
  | count head noPair => exact stuck_of_count head noPair
  | operator head => exact stuck_of_invalid head
  | ifThen | ifElse | quote => exact ⟨fun environment => by rw [eval], fun _ => ⟨_, rfl⟩⟩
  | plain | atom => exact ⟨fun environment => by rw [eval], by simp [Datum.WellFormed]⟩

/-- To show something of all trees it is enough to show it of every tree that a rule can be
applied to, and of those to which none applies. -/
theorem rule_induction {motive : Datum → Prop} {motiveAll : List Datum → Prop}
    (key : ∀ name, motive (.key name))
    (held : ∀ held, (∀ name, held = .atom (.key name) → False) → motive (.constant held))
    (definition : ∀ operator name value, Head.ofOperator operator = .definition → motive value →
      motive (.application operator [.key name, value]))
    (instruction : ∀ operator operands tag, Head.ofOperator operator = .instruction tag →
      motiveAll operands → motive (.application operator operands))
    (noRule : ∀ tree fault, NoRule tree fault → motive tree)
    (none : motiveAll [])
    (more : ∀ item items, motive item → motiveAll items → motiveAll (item :: items)) :
    (∀ tree, motive tree) ∧ ∀ items, motiveAll items := by
  -- The recursion of `eval` carries an environment along, about which nothing is said here.
  have both : (∀ tree, ∀ _ : Environment, motive tree)
      ∧ ∀ items, ∀ _ : Environment, motiveAll items := by
    refine eval.mutual_induct _ _ ?found ?unbound ?held ?definition ?badTarget ?badCount
      ?instruction ?invalid ?ifThen ?ifElse ?quote ?plain ?atom ?none ?more
    case found => exact fun name _ _ _ => key name
    case unbound => exact fun name _ _ => key name
    case held => exact fun value _ noKey => held value noKey
    case definition =>
      exact fun operator _ head name value holds => definition operator name value head holds
    case badTarget =>
      exact fun operator _ head target value noKey => noRule _ _ (.target head noKey)
    case badCount =>
      exact fun operator operands _ head _ noPair => noRule _ _ (.count head noPair)
    case instruction =>
      exact fun operator operands _ tag head holds => instruction operator operands tag head holds
    case invalid => exact fun operator operands _ head => noRule _ _ (.operator head)
    case ifThen => exact fun condition consequence _ => noRule _ _ (.ifThen condition consequence)
    case ifElse =>
      exact fun condition consequence alternative _ =>
        noRule _ _ (.ifElse condition consequence alternative)
    case quote => exact fun items _ => noRule _ _ (.quote items)
    case plain => exact fun value _ => noRule _ _ (.plain value)
    case atom => exact fun value _ => noRule _ _ (.atom value)
    case none => exact fun _ => none
    case more =>
      exact fun item items environment first others =>
        more item items first (others environment)
  exact ⟨fun tree => both.1 tree .empty, fun items => both.2 items .empty⟩

/-- To show something of all trees it is enough to show it of every tree that a rule can be
applied to, and of those that are stuck. -/
theorem eval_induction {motive : Datum → Prop} {motiveAll : List Datum → Prop}
    (key : ∀ name, motive (.key name))
    (held : ∀ held, (∀ name, held = .atom (.key name) → False) → motive (.constant held))
    (definition : ∀ operator name value, Head.ofOperator operator = .definition → motive value →
      motive (.application operator [.key name, value]))
    (instruction : ∀ operator operands tag, Head.ofOperator operator = .instruction tag →
      motiveAll operands → motive (.application operator operands))
    (stuck : ∀ tree fault, Stuck tree fault → motive tree)
    (none : motiveAll [])
    (more : ∀ item items, motive item → motiveAll items → motiveAll (item :: items)) :
    (∀ tree, motive tree) ∧ ∀ items, motiveAll items :=
  rule_induction key held definition instruction
    (fun tree fault noRule => stuck tree fault noRule.stuck) none more

end PocketLisp
