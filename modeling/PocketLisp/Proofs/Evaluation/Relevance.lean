import Mathlib.Data.Set.Defs
import PocketLisp.Proofs.Evaluation.Rules

/-!
# The names that matter to a tree

Evaluation reads and binds no names but those that a tree mentions. In environments that
agree about these it comes to the same, also when it fails, and leaves environments that
agree about them again. The other names keep what they were bound to.

This is about two runs at once, one from each environment. A definition inside a tree
changes both environments while the evaluation goes on, so what the runs have in common is
carried from one part of the tree to the next.
-/

namespace PocketLisp

variable {names : Set String}

namespace Datum

mutual

/-- The names that stand in a tree as constants. -/
def mentioned : Datum → List String
  | .constant (.atom (.key name)) => [name]
  | .plain _ | .atom _ | .constant _ => []
  | .application operator operands => operator.mentioned ++ allMentioned operands
  | .ifThen condition consequence => condition.mentioned ++ consequence.mentioned
  | .ifElse condition consequence alternative =>
      condition.mentioned ++ consequence.mentioned ++ alternative.mentioned
  | .quote items => allMentioned items

/-- The names that stand in a list of trees as constants. -/
def allMentioned : List Datum → List String
  | [] => []
  | item :: items => item.mentioned ++ allMentioned items

end

/-- Every name that a tree mentions is among the given ones. -/
def MentionsOnly (names : Set String) (tree : Datum) : Prop :=
  ∀ name ∈ tree.mentioned, name ∈ names

/-- Every name that some trees mention is among the given ones. -/
def AllMentionOnly (names : Set String) (items : List Datum) : Prop :=
  ∀ name ∈ allMentioned items, name ∈ names

/-- A key mentions its name. -/
theorem mentionsOnly_key {name : String} :
    (constant (.atom (.key name))).MentionsOnly names ↔ name ∈ names := by
  simp [MentionsOnly, mentioned]

/-- An application mentions what its operator and its operands mention. -/
theorem mentionsOnly_application {operator : Datum} {operands : List Datum} :
    (application operator operands).MentionsOnly names ↔
      operator.MentionsOnly names ∧ AllMentionOnly names operands := by
  simp only [MentionsOnly, AllMentionOnly, mentioned, List.mem_append, or_imp, forall_and]

/-- A list of trees mentions what its members mention. -/
theorem allMentionOnly_cons {item : Datum} {items : List Datum} :
    AllMentionOnly names (item :: items) ↔
      item.MentionsOnly names ∧ AllMentionOnly names items := by
  simp only [MentionsOnly, AllMentionOnly, allMentioned, List.mem_append, or_imp, forall_and]

end Datum

namespace Environment

/-- Two environments find the same by some names. -/
def Agree (names : Set String) (first second : Environment) : Prop :=
  ∀ name ∈ names, second.find? name = first.find? name

/-- An environment finds the same as an earlier one by all but some names. -/
def Spares (names : Set String) (start environment : Environment) : Prop :=
  ∀ name ∉ names, environment.find? name = start.find? name

variable {first second start : Environment}

/-- Nothing is changed by doing nothing. -/
theorem spares_refl (names : Set String) (environment : Environment) :
    environment.Spares names environment :=
  fun _ _ => rfl

/-- What is spared twice is spared. -/
theorem Spares.trans (spares : start.Spares names first) (later : first.Spares names second) :
    start.Spares names second :=
  fun name other => (later name other).trans (spares name other)

/-- Environments that agree go on to when a name is bound in both. -/
theorem Agree.bind (agree : first.Agree names second) (name : String) (value : Atom) :
    (first.bind name value).Agree names (second.bind name value) := by
  intro other matters
  rw [find?_bind, find?_bind, agree other matters]

/-- Binding one of some names spares the others. -/
theorem spares_bind {name : String} (matters : name ∈ names) (environment : Environment)
    (value : Atom) : environment.Spares names (environment.bind name value) := by
  intro other apart
  have different : other ≠ name := fun same => apart (same ▸ matters)
  rw [find?_bind, if_neg different]

end Environment

namespace Run

variable {ε α β : Type} {left right : Environment}

/-- Two runs, each from an environment of its own, come to the same and note down the same.
The environments afterwards agree about some names, and each run has spared all others. -/
structure Alike (names : Set String) (left right : Environment) (first second : Run ε α) :
    Prop where
  outcome : second.outcome = first.outcome
  events : second.events = first.events
  agree : first.environment.Agree names second.environment
  sparesLeft : left.Spares names first.environment
  sparesRight : right.Spares names second.environment

/-- Runs that only answer the same are alike. -/
theorem alike_done (agree : left.Agree names right) (value : α) :
    Alike names left right (done value left : Run ε α) (done value right) :=
  ⟨rfl, rfl, agree, left.spares_refl names, right.spares_refl names⟩

/-- Runs that only fail the same way are alike. -/
theorem alike_fail (agree : left.Agree names right) (error : ε) :
    Alike names left right (fail error left : Run ε α) (fail error right) :=
  ⟨rfl, rfl, agree, left.spares_refl names, right.spares_refl names⟩

/-- Runs that are alike are alike when they are followed by runs that are. -/
theorem Alike.andThen {first second : Run ε α} {next : α → Environment → Run ε β}
    (alike : Alike names left right first second)
    (later : ∀ value, first.environment.Agree names second.environment →
      Alike names first.environment second.environment (next value first.environment)
        (next value second.environment)) :
    Alike names left right (first.andThen next) (second.andThen next) := by
  obtain ⟨outcome, events, agree, sparesLeft, sparesRight⟩ := alike
  cases answer : first.outcome with
  | error error =>
      have failed := outcome.trans answer
      simp only [Run.andThen, answer, failed]
      exact ⟨rfl, events, agree, sparesLeft, sparesRight⟩
  | ok value =>
      have answered := outcome.trans answer
      have after := later value agree
      simp only [Run.andThen, answer, answered]
      refine ⟨after.outcome, ?_, after.agree, sparesLeft.trans after.sparesLeft,
        sparesRight.trans after.sparesRight⟩
      rw [events, after.events]

/-- Changing the values of runs that are alike keeps them alike. -/
theorem Alike.map {first second : Run ε α} (alike : Alike names left right first second)
    (f : α → β) : Alike names left right (first.map f) (second.map f) where
  outcome := congrArg (Except.map f) alike.outcome
  events := alike.events
  agree := alike.agree
  sparesLeft := alike.sparesLeft
  sparesRight := alike.sparesRight

end Run

section Evaluation

variable {left right : Environment}

/-- Binding one of the names that matter to a value. -/
theorem alike_bindResult {name : String} (matters : name ∈ names) (value : Datum)
    (agree : left.Agree names right) :
    (bindResult name value left).Alike names left right (bindResult name value right) := by
  cases value with
  | atom atom =>
      exact ⟨rfl, rfl, agree.bind name atom, Environment.spares_bind matters left atom,
        Environment.spares_bind matters right atom⟩
  | _ => exact Run.alike_fail agree _

/-- Applying an instruction looks at no environment. -/
theorem alike_applyInstruction (tag : Instruction) (arguments : List Datum)
    (agree : left.Agree names right) :
    (applyInstruction tag arguments left).Alike names left right
      (applyInstruction tag arguments right) := by
  unfold applyInstruction
  split
  · exact Run.alike_fail agree _
  · split
    · exact Run.alike_fail agree _
    · exact ⟨rfl, rfl, agree, left.spares_refl names, right.spares_refl names⟩

/-- Evaluating a tree, and evaluating trees in order, in environments that agree about the
names that are mentioned. -/
theorem alike_eval_and_evalAll (names : Set String) :
    (∀ tree left, ∀ right, tree.MentionsOnly names → left.Agree names right →
      (eval tree left).Alike names left right (eval tree right))
    ∧ ∀ items left, ∀ right, Datum.AllMentionOnly names items → left.Agree names right →
      (evalAll items left).Alike names left right (evalAll items right) := by
  refine eval_induction ?key ?held ?definition ?instruction ?stuck ?none ?more
  case key =>
    intro name left right only agree
    rw [eval_key, eval_key, agree name (Datum.mentionsOnly_key.1 only)]
    cases left.find? name with
    | none => exact Run.alike_fail agree _
    | some value => exact Run.alike_done agree _
  case held =>
    intro held noKey left right _ agree
    rw [eval_held noKey, eval_held noKey]
    exact Run.alike_done agree held
  case definition =>
    intro operator name value head inductionHypothesis left right only agree
    obtain ⟨targetOnly, rest⟩ :=
      Datum.allMentionOnly_cons.1 (Datum.mentionsOnly_application.1 only).2
    have matters := Datum.mentionsOnly_key.1 targetOnly
    have valueOnly := (Datum.allMentionOnly_cons.1 rest).1
    rw [eval_of_definition head, eval_of_definition head]
    exact (inductionHypothesis left right valueOnly agree).andThen fun value agree =>
      alike_bindResult matters value agree
  case instruction =>
    intro operator operands tag head inductionHypothesis left right only agree
    have operandsOnly := (Datum.mentionsOnly_application.1 only).2
    rw [eval_of_instruction head, eval_of_instruction head]
    exact (inductionHypothesis left right operandsOnly agree).andThen fun values agree =>
      alike_applyInstruction tag values agree
  case stuck =>
    intro tree fault stuck left right _ agree
    rw [stuck.fails, stuck.fails]
    exact Run.alike_fail agree fault
  case none =>
    intro left right _ agree
    rw [evalAll, evalAll]
    exact Run.alike_done agree _
  case more =>
    intro item items first others left right only agree
    obtain ⟨itemOnly, itemsOnly⟩ := Datum.allMentionOnly_cons.1 only
    rw [evalAll, evalAll]
    refine (first left right itemOnly agree).andThen fun value agree => ?_
    exact (others _ _ itemsOnly agree).map (value :: ·)

/-- Evaluation depends on the names that a tree mentions and on no others. From environments
that agree about these it comes to the same answer or the same fault, notes down the same
and leaves environments that agree about them, and in both of them every other name keeps
what it was bound to. -/
theorem eval_alike (tree : Datum) (names : Set String) (left right : Environment)
    (only : tree.MentionsOnly names) (agree : left.Agree names right) :
    (eval tree left).Alike names left right (eval tree right) :=
  (alike_eval_and_evalAll names).1 tree left right only agree

/-- A definition inside an addition that fails behind it, in environments that agree about the
one name with a value that matters. -/
theorem eval_alike_sum :
    (Datum.application (.instruction .add)
        [.application (.instruction .define) [.key "x", .key "y"], .key "z"]).MentionsOnly
      {name | name ∈ ["x", "y", "z"]}
    ∧ Environment.Agree {name | name ∈ ["x", "y", "z"]} ⟨[("y", .int 1), ("v", .int 5)]⟩
      ⟨[("v", .bool true), ("y", .int 1)]⟩
    ∧ ∃ run, run = eval (.application (.instruction .add)
          [.application (.instruction .define) [.key "x", .key "y"], .key "z"])
        ⟨[("v", .bool true), ("y", .int 1)]⟩
      ∧ run.outcome = .error (.evaluation (.undefinedVariable "z"))
      ∧ run.environment.find? "x" = some (.int 1)
      ∧ run.environment.find? "v" = some (.bool true) := by
  have only : (Datum.application (.instruction .add)
      [.application (.instruction .define) [.key "x", .key "y"], .key "z"]).MentionsOnly
      {name | name ∈ ["x", "y", "z"]} := by
    intro name mentioned
    exact mentioned
  have agree : Environment.Agree {name | name ∈ ["x", "y", "z"]}
      ⟨[("y", .int 1), ("v", .int 5)]⟩ ⟨[("v", .bool true), ("y", .int 1)]⟩ := by
    change ∀ name ∈ ["x", "y", "z"], _ = _
    decide
  have alike := eval_alike _ _ _ _ only agree
  have bound : "x" ∈ ["x", "y", "z"] := by decide
  have spared : "v" ∉ ["x", "y", "z"] := by decide
  exact ⟨only, agree, _, rfl, alike.outcome.trans rfl, (alike.agree "x" bound).trans rfl,
    alike.sparesRight "v" spared⟩

end Evaluation

end PocketLisp
