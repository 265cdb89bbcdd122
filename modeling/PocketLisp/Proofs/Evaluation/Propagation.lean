import PocketLisp.Proofs.Evaluation.Relevance

/-!
# Propagating what a name is bound to

A name that is bound, and that no definition inside a tree is for, stays bound to the same
atom for as long as the tree is evaluated. So the constant of the atom may be written for
the name wherever the name would be looked up. Operators and the names of definitions are
never looked up and stay as they are, and so does whatever is not evaluated at all.

A key is no such atom: its constant would be looked up again.
-/

namespace PocketLisp

variable {name : String} {value : Atom}

namespace Datum

/-- The name that an application is the definition of: what stands first behind a mark of
definitions, if it is a key. -/
def definedName (operator : Datum) (operands : List Datum) : List String :=
  match Head.ofOperator operator, operands with
  | .definition, .constant (.atom (.key name)) :: _ => [name]
  | _, _ => []

mutual

/-- The names that definitions anywhere inside a tree are for. -/
def targets : Datum → List String
  | .plain _ | .atom _ | .constant _ => []
  | .application operator operands =>
      definedName operator operands ++ operator.targets ++ allTargets operands
  | .ifThen condition consequence => condition.targets ++ consequence.targets
  | .ifElse condition consequence alternative =>
      condition.targets ++ consequence.targets ++ alternative.targets
  | .quote items => allTargets items

/-- The names that definitions anywhere inside some trees are for. -/
def allTargets : List Datum → List String
  | [] => []
  | item :: items => item.targets ++ allTargets items

end

/-- A part of a tree stands where it is evaluated: it is the tree, or it stands so in an
operand of an instruction or in the value of a definition. -/
inductive Evaluates : Datum → Datum → Prop
  | whole (tree : Datum) : Evaluates tree tree
  | operand {operator operand part : Datum} {operands : List Datum} {tag : Instruction}
      (head : Head.ofOperator operator = .instruction tag) (member : operand ∈ operands)
      (inside : Evaluates operand part) : Evaluates (.application operator operands) part
  | value {operator target value part : Datum} (head : Head.ofOperator operator = .definition)
      (inside : Evaluates value part) : Evaluates (.application operator [target, value]) part

mutual

/-- A tree with the constant of an atom written for a name wherever the name is evaluated. -/
def propagate (name : String) (value : Atom) : Datum → Datum
  | .constant (.atom (.key other)) =>
      if other = name then .constant (.atom value) else .constant (.atom (.key other))
  | .application operator operands =>
      match Head.ofOperator operator with
      | .definition =>
          match operands with
          | [target, bound] => .application operator [target, propagate name value bound]
          | operands => .application operator operands
      | .instruction _ => .application operator (propagateAll name value operands)
      | .invalid => .application operator operands
  | tree => tree

/-- Trees with the constant of an atom written for a name wherever the name is evaluated. -/
def propagateAll (name : String) (value : Atom) : List Datum → List Datum
  | [] => []
  | item :: items => propagate name value item :: propagateAll name value items

end

variable {operator : Datum} {operands : List Datum}

/-- The definitions inside an application are this one and those inside its parts. -/
theorem targets_application (operator : Datum) (operands : List Datum) :
    (application operator operands).targets =
      definedName operator operands ++ operator.targets ++ allTargets operands := rfl

/-- The definitions inside some trees are those inside each. -/
theorem allTargets_cons (item : Datum) (items : List Datum) :
    allTargets (item :: items) = item.targets ++ allTargets items := rfl

/-- A constant is replaced when it is the name, and stays otherwise. -/
theorem propagate_constant (name : String) (value : Atom) (held : Datum) :
    (constant held).propagate name value =
      if held = .atom (.key name) then .constant (.atom value) else .constant held := by
  cases held with
  | atom held =>
      cases held with
      | key other =>
          by_cases same : other = name
          · subst same
            rw [if_pos rfl]
            exact if_pos rfl
          · rw [if_neg fun equal => same (Atom.key.inj (atom.inj equal))]
            exact if_neg same
      | int | bool | instruction => rw [if_neg (by simp)]; rfl
  | plain | constant | application | ifThen | ifElse | quote => rw [if_neg (by simp)]; rfl

/-- The name itself is replaced. -/
theorem propagate_self (name : String) (value : Atom) :
    (key name).propagate name value = .constant (.atom value) := by
  rw [key, propagate_constant, if_pos rfl]

/-- What is not the name stays. -/
theorem propagate_other {held : Datum} (other : held ≠ .atom (.key name)) :
    (constant held).propagate name value = constant held := by
  rw [propagate_constant, if_neg other]

/-- What is reached in an application depends on its operator. -/
theorem propagate_application (name : String) (value : Atom) (operator : Datum)
    (operands : List Datum) :
    (application operator operands).propagate name value =
      match Head.ofOperator operator with
      | .definition =>
          match operands with
          | [target, bound] => application operator [target, bound.propagate name value]
          | operands => application operator operands
      | .instruction _ => application operator (propagateAll name value operands)
      | .invalid => application operator operands := by
  rw [propagate.eq_def]

/-- In a definition only the value is reached. -/
theorem propagate_of_definition (head : Head.ofOperator operator = .definition)
    (target bound : Datum) :
    (application operator [target, bound]).propagate name value =
      application operator [target, bound.propagate name value] := by
  rw [propagate_application, head]

/-- In the application of an instruction every operand is reached. -/
theorem propagate_of_instruction {tag : Instruction}
    (head : Head.ofOperator operator = .instruction tag) :
    (application operator operands).propagate name value =
      application operator (propagateAll name value operands) := by
  rw [propagate_application, head]

/-- A definition without two operands stays. -/
theorem propagate_of_count (head : Head.ofOperator operator = .definition)
    (noPair : ∀ target bound, operands = [target, bound] → False) :
    (application operator operands).propagate name value = application operator operands := by
  rw [propagate_application, head]
  exact match operands, noPair with
    | [], _ | [_], _ | _ :: _ :: _ :: _, _ => rfl
    | [target, bound], noPair => (noPair target bound rfl).elim

/-- An application of anything else stays. -/
theorem propagate_of_invalid (head : Head.ofOperator operator = .invalid) :
    (application operator operands).propagate name value = application operator operands := by
  rw [propagate_application, head]

/-- The first tree of a list is reached, and so are the others. -/
theorem propagateAll_cons (name : String) (value : Atom) (item : Datum) (items : List Datum) :
    propagateAll name value (item :: items) =
      item.propagate name value :: propagateAll name value items := rfl

/-- Every member of a list is reached. -/
theorem propagateAll_eq_map (items : List Datum) :
    propagateAll name value items = items.map (propagate name value) := by
  induction items with
  | nil => rfl
  | cons item items inductionHypothesis =>
      rw [propagateAll_cons, inductionHypothesis, List.map_cons]

end Datum

/-- No rule applies after propagation where none did before, and the fault is the same: it
speaks of no part that is evaluated. -/
theorem NoRule.propagate {tree : Datum} {fault : Fault} (noRule : NoRule tree fault) :
    NoRule (tree.propagate name value) fault := by
  cases noRule with
  | target head noKey =>
      rw [Datum.propagate_of_definition head]
      exact .target head noKey
  | count head noPair =>
      rw [Datum.propagate_of_count head noPair]
      exact .count head noPair
  | operator head =>
      rw [Datum.propagate_of_invalid head]
      exact .operator head
  | ifThen => exact .ifThen _ _
  | ifElse => exact .ifElse _ _ _
  | quote => exact .quote _
  | plain => exact .plain _
  | atom => exact .atom _

section Sparing

variable {names : Set String}

/-- A run that spares all but some names, followed by one that does. -/
theorem Run.spares_andThen {ε α β : Type} {start : Environment} {run : Run ε α}
    {next : α → Environment → Run ε β} (first : start.Spares names run.environment)
    (second : ∀ value, run.environment.Spares names (next value run.environment).environment) :
    start.Spares names (run.andThen next).environment := by
  cases answer : run.outcome with
  | error error => simpa only [Run.andThen, answer] using first
  | ok value => simpa only [Run.andThen, answer] using first.trans (second value)

/-- Applying an instruction leaves the environment alone. -/
theorem environment_applyInstruction (tag : Instruction) (arguments : List Datum)
    (environment : Environment) :
    (applyInstruction tag arguments environment).environment = environment := by
  unfold applyInstruction
  split
  · rfl
  · split <;> rfl

/-- The name of a definition is a target of it. -/
theorem mem_targets_of_definition {operator bound : Datum}
    (head : Head.ofOperator operator = .definition) (name : String) :
    name ∈ (Datum.application operator [.key name, bound]).targets := by
  simp [Datum.targets_application, Datum.definedName, Datum.key, head]

/-- Evaluation changes nothing but what the names are bound to that its definitions are
for. -/
theorem spares_eval_and_evalAll (names : Set String) :
    (∀ tree : Datum, (∀ name ∈ tree.targets, name ∈ names) → ∀ environment : Environment,
      environment.Spares names (eval tree environment).environment)
    ∧ ∀ items, (∀ name ∈ Datum.allTargets items, name ∈ names) → ∀ environment : Environment,
      environment.Spares names (evalAll items environment).environment := by
  refine eval_induction ?key ?held ?definition ?instruction ?stuck ?none ?more
  case key =>
    intro name _ environment
    rw [eval_key]
    cases environment.find? name <;> exact environment.spares_refl names
  case held =>
    intro held noKey _ environment
    rw [eval_held noKey]
    exact environment.spares_refl names
  case definition =>
    intro operator name bound head inductionHypothesis among environment
    rw [eval_of_definition head]
    have matters := among name (mem_targets_of_definition head name)
    have inside := inductionHypothesis fun other member =>
      among other (by simp [Datum.targets_application, Datum.allTargets_cons, member])
    refine Run.spares_andThen (inside environment) fun value => ?_
    cases value with
    | atom => exact Environment.spares_bind matters _ _
    | _ => exact Environment.spares_refl names _
  case instruction =>
    intro operator operands tag head inductionHypothesis among environment
    rw [eval_of_instruction head]
    have inside := inductionHypothesis fun other member =>
      among other (by simp [Datum.targets_application, member])
    refine Run.spares_andThen (inside environment) fun values => ?_
    rw [environment_applyInstruction]
    exact Environment.spares_refl names _
  case stuck =>
    intro tree fault stuck _ environment
    rw [stuck.fails]
    exact environment.spares_refl names
  case none =>
    intro _ environment
    rw [evalAll]
    exact environment.spares_refl names
  case more =>
    intro item items first others among environment
    rw [evalAll]
    have here := first fun other member => among other (by simp [Datum.allTargets_cons, member])
    have later := others fun other member => among other (by simp [Datum.allTargets_cons, member])
    exact Run.spares_andThen (here environment) fun value => later _

/-- A name that no definition inside a tree is for stays bound to what it was bound to. -/
theorem find?_eval {tree : Datum} (spared : name ∉ tree.targets) (environment : Environment) :
    (eval tree environment).environment.find? name = environment.find? name :=
  (spares_eval_and_evalAll {other | other ∈ tree.targets}).1 tree (fun _ member => member)
    environment name spared

end Sparing

section Propagation

/-- Two runs that go on from the same one in the same way. -/
theorem Run.andThen_congr {ε α β : Type} {run : Run ε α} {next other : α → Environment → Run ε β}
    (same : ∀ value, next value run.environment = other value run.environment) :
    run.andThen next = run.andThen other := by
  simp only [Run.andThen, same]

/-- Propagating what a name is bound to does not change how a tree, or trees in order, are
evaluated. -/
theorem eval_propagate_and_evalAll (noKey : ∀ other, value ≠ .key other) :
    (∀ tree : Datum, name ∉ tree.targets → ∀ environment : Environment,
      environment.find? name = some value →
      eval (tree.propagate name value) environment = eval tree environment)
    ∧ ∀ items, name ∉ Datum.allTargets items → ∀ environment : Environment,
      environment.find? name = some value →
      evalAll (Datum.propagateAll name value items) environment = evalAll items environment := by
  refine rule_induction ?key ?held ?definition ?instruction ?noRule ?none ?more
  case key =>
    intro other _ environment bound
    by_cases same : other = name
    · subst same
      have constant : ∀ other, Datum.atom value = .atom (.key other) → False :=
        fun other equal => noKey other (Datum.atom.inj equal)
      rw [Datum.propagate_self, eval_held constant, eval_key, bound]
    · have different : Datum.atom (.key other) ≠ .atom (.key name) :=
        fun equal => same (Atom.key.inj (Datum.atom.inj equal))
      rw [Datum.key, Datum.propagate_other different]
  case held =>
    intro held noKey _ environment _
    rw [Datum.propagate_other (noKey name)]
  case definition =>
    intro operator target inner head inductionHypothesis spared environment bound
    have inside : name ∉ inner.targets := fun member =>
      spared (by simp [Datum.targets_application, Datum.allTargets_cons, member])
    rw [Datum.propagate_of_definition head, eval_of_definition head, eval_of_definition head,
      inductionHypothesis inside environment bound]
  case instruction =>
    intro operator operands tag head inductionHypothesis spared environment bound
    have inside : name ∉ Datum.allTargets operands := fun member =>
      spared (by simp [Datum.targets_application, member])
    rw [Datum.propagate_of_instruction head, eval_of_instruction head, eval_of_instruction head,
      inductionHypothesis inside environment bound]
  case noRule =>
    intro tree fault noRule _ environment _
    rw [noRule.stuck.fails, noRule.propagate.stuck.fails]
  case none =>
    intro _ environment _
    rfl
  case more =>
    intro item items first others spared environment bound
    have here : name ∉ item.targets := fun member =>
      spared (by simp [Datum.allTargets_cons, member])
    have later : name ∉ Datum.allTargets items := fun member =>
      spared (by simp [Datum.allTargets_cons, member])
    rw [Datum.propagateAll_cons, evalAll, evalAll, first here environment bound]
    -- The name is still bound behind the first tree, which defines other names at most.
    refine Run.andThen_congr fun value => ?_
    rw [others later _ ((find?_eval here environment).trans bound)]

/-- An application stays an application of the same operator. -/
theorem Datum.exists_propagate_application (name : String) (value : Atom) (operator : Datum)
    (operands : List Datum) :
    ∃ reached, (application operator operands).propagate name value =
      application operator reached := by
  cases head : Head.ofOperator operator with
  | definition =>
      by_cases pair : ∃ target bound, operands = [target, bound]
      · obtain ⟨target, bound, rfl⟩ := pair
        exact ⟨_, propagate_of_definition head target bound⟩
      · exact ⟨_, propagate_of_count head fun target bound same => pair ⟨target, bound, same⟩⟩
  | instruction tag => exact ⟨_, propagate_of_instruction head⟩
  | invalid => exact ⟨_, propagate_of_invalid head⟩

/-- What has become an application was one of the same operator. -/
theorem Datum.exists_of_propagate_eq {tree operator : Datum} {operands : List Datum}
    (same : tree.propagate name value = .application operator operands) :
    ∃ before, tree = .application operator before := by
  cases tree with
  | application other before =>
      obtain ⟨reached, shape⟩ := exists_propagate_application name value other before
      obtain ⟨rfl, -⟩ := application.inj (shape.symm.trans same)
      exact ⟨before, rfl⟩
  | constant held =>
      rw [propagate_constant] at same
      split at same <;> contradiction
  | plain | atom | ifThen | ifElse | quote => exact absurd same nofun

/-- No tree becomes the name that is replaced. -/
theorem Datum.propagate_ne_key (noKey : ∀ other, value ≠ .key other) (tree : Datum) :
    tree.propagate name value ≠ .key name := by
  cases tree with
  | application operator operands =>
      obtain ⟨reached, shape⟩ := exists_propagate_application name value operator operands
      rw [shape, key]
      simp
  | constant held =>
      rw [propagate_constant, key]
      split
      · exact fun equal => noKey name (atom.inj (constant.inj equal))
      · next other => exact fun equal => other (constant.inj equal)
  | plain | atom | ifThen | ifElse | quote => simp [propagate, key]

/-- The name is evaluated nowhere in a tree once an atom that is no key has been propagated
for it. -/
theorem not_evaluates_propagate (noKey : ∀ other, value ≠ .key other) (tree : Datum) :
    ¬(tree.propagate name value).Evaluates (.key name) := by
  have apart : ∀ {image part : Datum}, image.Evaluates part →
      ∀ tree : Datum, tree.propagate name value = image → part ≠ .key name := by
    intro image part evaluates
    induction evaluates with
    | whole image =>
        rintro tree rfl
        exact tree.propagate_ne_key noKey
    | @operand operator operand part operands tag head member inside inductionHypothesis =>
        intro tree same
        obtain ⟨before, rfl⟩ := Datum.exists_of_propagate_eq same
        rw [Datum.propagate_of_instruction head, Datum.propagateAll_eq_map] at same
        obtain ⟨-, rfl⟩ := Datum.application.inj same
        obtain ⟨item, -, reached⟩ := List.mem_map.1 member
        exact inductionHypothesis item reached
    | @value operator target bound part head inside inductionHypothesis =>
        intro tree same
        obtain ⟨before, rfl⟩ := Datum.exists_of_propagate_eq same
        by_cases pair : ∃ first second, before = [first, second]
        · obtain ⟨first, second, rfl⟩ := pair
          rw [Datum.propagate_of_definition head] at same
          simp only [Datum.application.injEq, List.cons.injEq, and_true, true_and] at same
          exact inductionHypothesis second same.2
        · rw [Datum.propagate_of_count head fun first second shape => pair ⟨first, second, shape⟩]
            at same
          obtain ⟨-, shape⟩ := Datum.application.inj same
          exact absurd ⟨target, bound, shape⟩ pair
  exact fun evaluates => apart evaluates tree rfl rfl

/-- Propagating what a name is bound to is sound. When no definition inside a tree is for the
name, and the name is bound to an atom that is no key, then the tree with the constant of the
atom written for the name comes to the same: the same answer or the same fault, the same
environment and the same events. The name is evaluated nowhere in the new tree. -/
theorem eval_propagate (tree : Datum) (environment : Environment) (name : String) (value : Atom)
    (bound : environment.find? name = some value) (noKey : ∀ other, value ≠ .key other)
    (spared : name ∉ tree.targets) :
    eval (tree.propagate name value) environment = eval tree environment
    ∧ ¬(tree.propagate name value).Evaluates (.key name) :=
  ⟨(eval_propagate_and_evalAll noKey).1 tree spared environment bound,
    not_evaluates_propagate noKey tree⟩

/-- A name in an operand, in the value of a definition, and as an operator, where it stays and
is what the evaluation fails for. -/
theorem eval_propagate_sum :
    ∃ tree image : Datum,
      tree = .application (.instruction .add)
        [.key "x",
          .application (.key "define")
            [.key "y", .application (.instruction .multiply) [.key "x", .key "x"]],
          .application (.key "x") [.key "x"]]
      ∧ image = .application (.instruction .add)
        [.int 5,
          .application (.key "define")
            [.key "y", .application (.instruction .multiply) [.int 5, .int 5]],
          .application (.key "x") [.key "x"]]
      ∧ Environment.find? ⟨[("x", .int 5)]⟩ "x" = some (.int 5)
      ∧ (∀ other, Atom.int 5 ≠ .key other)
      ∧ "x" ∉ tree.targets
      ∧ tree.propagate "x" (.int 5) = image
      ∧ (eval image ⟨[("x", .int 5)]⟩).outcome =
        .error (.evaluation (.invalidOperator (.key "x")))
      ∧ (eval image ⟨[("x", .int 5)]⟩).environment = ⟨[("x", .int 5), ("y", .int 25)]⟩
      ∧ ¬image.Evaluates (.key "x") := by
  have bound : Environment.find? ⟨[("x", .int 5)]⟩ "x" = some (.int 5) := by decide
  have noKey : ∀ other, Atom.int 5 ≠ .key other := nofun
  refine ⟨_, _, rfl, rfl, bound, noKey, by decide, by decide, ?_⟩
  obtain ⟨same, apart⟩ := eval_propagate
    (.application (.instruction .add)
      [.key "x",
        .application (.key "define")
          [.key "y", .application (.instruction .multiply) [.key "x", .key "x"]],
        .application (.key "x") [.key "x"]])
    ⟨[("x", .int 5)]⟩ "x" (.int 5) bound noKey (by decide)
  exact ⟨(congrArg Run.outcome same).trans rfl, (congrArg Run.environment same).trans rfl, apart⟩

end Propagation

end PocketLisp
