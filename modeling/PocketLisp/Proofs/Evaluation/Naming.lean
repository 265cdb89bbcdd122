import PocketLisp.Proofs.Evaluation.Safety
import PocketLisp.Proofs.Reading.Readable

/-!
# Keys that name something

A definition answers with the key that it binds, so keys get about as values: they are
bound to other names and handed back by lookups. None of them dangles. Evaluating a
readable tree in a closed environment leaves a closed environment that has lost no name,
also when it fails halfway, and a key that it answers with is bound there.

Answers are judged in the environment that the whole run leaves. An earlier answer stays
good in it because names are only added.
-/

namespace PocketLisp

open Reading

namespace Environment

variable {environment : Environment} {name : String} {value : Atom}

/-- Every bound name is a name of the grammar, and every key that is bound to one is itself
bound. -/
structure Closed (environment : Environment) : Prop where
  isName : ∀ name ∈ environment.names, IsName name
  bound : ∀ binding ∈ environment.bindings, ∀ name, binding.2 = .key name →
    name ∈ environment.names

/-- A value does not dangle: if it is a key, the key is bound. -/
def Knows (environment : Environment) (value : Datum) : Prop :=
  ∀ name, value = .atom (.key name) → name ∈ environment.names

/-- Nothing dangles where nothing is bound. -/
theorem closed_empty : empty.Closed := ⟨nofun, nofun⟩

/-- A value that does not dangle goes on not to when names are added. -/
theorem Knows.mono {later : Environment} {value : Datum} (knows : environment.Knows value)
    (grows : environment.names ⊆ later.names) : later.Knows value :=
  fun name key => grows (knows name key)

/-- Binding a name keeps the others bound. -/
theorem names_subset_bind (environment : Environment) (name : String) (value : Atom) :
    environment.names ⊆ (environment.bind name value).names := by
  rw [names_bind]
  split
  · exact List.Subset.refl _
  · exact List.subset_append_left _ _

/-- A name that was bound is bound. -/
theorem mem_names_bind (environment : Environment) (name : String) (value : Atom) :
    name ∈ (environment.bind name value).names := by
  rw [names_bind]
  split
  · assumption
  · simp

/-- What is found is bound to the name. -/
theorem mem_of_find? (found : environment.find? name = some value) :
    (name, value) ∈ environment.bindings := by
  obtain ⟨bindings⟩ := environment
  simp only [find?] at found
  induction bindings with
  | nil => contradiction
  | cons binding bindings inductionHypothesis =>
      simp only [findIn] at found
      split at found
      · next same =>
          obtain rfl := Option.some.inj found
          obtain rfl := same
          exact List.mem_cons_self
      · exact List.mem_cons_of_mem _ (inductionHypothesis found)

/-- What is found in a closed environment does not dangle. -/
theorem Closed.find? (closed : environment.Closed)
    (found : environment.find? name = some value) : environment.Knows (.atom value) := by
  intro other same
  obtain rfl := Datum.atom.inj same
  exact closed.bound _ (mem_of_find? found) other rfl

/-- Binding a name of the grammar to what does not dangle keeps an environment closed. -/
theorem Closed.bind (closed : environment.Closed) (isName : IsName name)
    (knows : environment.Knows (.atom value)) : (environment.bind name value).Closed := by
  constructor
  · intro other member
    rw [names_bind] at member
    split at member
    · exact closed.isName other member
    · rcases List.mem_append.1 member with old | new
      · exact closed.isName other old
      · exact List.mem_singleton.1 new ▸ isName
  · intro binding member other key
    refine names_subset_bind environment name value ?_
    rcases mem_bindIn member with rfl | old
    · exact knows other (congrArg Datum.atom key)
    · exact closed.bound binding old other key

end Environment

namespace Run

variable {ε ε' α β : Type} {start environment : Environment}
  {good : Environment → α → Prop} {better : Environment → β → Prop}

/-- A run that leaves a closed environment, loses no name, and answers well there. -/
structure Tidy (start : Environment) (good : Environment → α → Prop) (run : Run ε α) : Prop where
  closed : run.environment.Closed
  grows : start.names ⊆ run.environment.names
  answers : ∀ value, run.outcome = .ok value → good run.environment value

/-- A good answer is tidy. -/
theorem tidy_done {value : α} (closed : environment.Closed) (promised : good environment value) :
    Tidy environment good (done value environment : Run ε α) where
  closed := closed
  grows := List.Subset.refl _
  answers := fun _ same => Except.ok.inj same ▸ promised

/-- Failing is tidy where the environment is closed. -/
theorem tidy_fail {error : ε} (closed : environment.Closed) :
    Tidy environment good (fail error environment) where
  closed := closed
  grows := List.Subset.refl _
  answers := nofun

/-- A tidy run followed by a run that is tidy after it is tidy. -/
theorem Tidy.andThen {run : Run ε α} {next : α → Environment → Run ε β}
    (first : Tidy start good run)
    (second : ∀ {value : α}, good run.environment value → run.environment.Closed →
      Tidy run.environment better (next value run.environment)) :
    Tidy start better (run.andThen next) := by
  obtain ⟨closed, grows, answers⟩ := first
  cases answer : run.outcome with
  | error error =>
      simp only [Run.andThen, answer]
      refine ⟨closed, grows, fun value answered => ?_⟩
      contradiction
  | ok value =>
      have later := second (answers value answer) closed
      simp only [Run.andThen, answer]
      exact ⟨later.closed, fun name member => later.grows (grows member), later.answers⟩

/-- Changing the value of a tidy run keeps it tidy. -/
theorem Tidy.map {run : Run ε α} {f : α → β} (tidy : Tidy start good run)
    (suits : ∀ {value : α}, good run.environment value → better run.environment (f value)) :
    Tidy start better (run.map f) where
  closed := tidy.closed
  grows := tidy.grows
  answers := by
    intro value answered
    cases answer : run.outcome with
    | error error => simp [Run.map, answer, Except.map] at answered
    | ok inner =>
        simp only [Run.map, answer, Except.map, Except.ok.injEq] at answered
        exact answered ▸ suits (tidy.answers inner answer)

/-- Changing the error of a tidy run keeps it tidy. -/
theorem Tidy.mapError {run : Run ε α} {f : ε → ε'} (tidy : Tidy start good run) :
    Tidy start good (run.mapError f) where
  closed := tidy.closed
  grows := tidy.grows
  answers := by
    intro value answered
    obtain ⟨outcome, environment, events⟩ := run
    cases outcome with
    | error error => contradiction
    | ok inner =>
        obtain rfl := Except.ok.inj answered
        exact tidy.answers _ rfl

/-- Noting something down keeps a tidy run tidy. -/
theorem Tidy.withEvents {run : Run ε α} (events : List Event) (tidy : Tidy start good run) :
    Tidy start good (run.withEvents events) :=
  ⟨tidy.closed, tidy.grows, tidy.answers⟩

end Run

section Evaluation

variable {environment : Environment}

/-- Evaluated values of which none dangles. -/
def Environment.KnowsAll (environment : Environment) (values : List Datum) : Prop :=
  ∀ value ∈ values, environment.Knows value

/-- Binding a name of the grammar to an evaluated value is tidy. -/
theorem tidy_bindResult {name : String} {value : Datum} (isName : IsName name)
    (closed : environment.Closed) (knows : environment.Knows value) :
    (bindResult name value environment).Tidy environment Environment.Knows := by
  cases value with
  | atom atom =>
      refine ⟨closed.bind isName knows, environment.names_subset_bind name atom, ?_⟩
      rintro _ same other key
      obtain rfl := Except.ok.inj same
      obtain rfl := Atom.key.inj (Datum.atom.inj key)
      exact environment.mem_names_bind name atom
  | _ => exact Run.tidy_fail closed

/-- What an operation makes is an integer. -/
theorem Operation.exists_int_of_apply {operation : Operation} {operands : List Datum} {result : Atom}
    (applied : operation.apply operands = .ok result) : ∃ value, result = .int value := by
  unfold apply at applied
  split at applied
  · contradiction
  · split at applied
    · contradiction
    · next value _ =>
        split at applied
        · next atom made =>
            obtain rfl := Except.ok.inj applied
            exact ⟨value, (Atom.ofInt?_eq_some_iff.1 made).2.symm⟩
        · contradiction

/-- Applying an instruction is tidy, for it answers with integers. -/
theorem tidy_applyInstruction (tag : Instruction) (arguments : List Datum)
    (closed : environment.Closed) :
    (applyInstruction tag arguments environment).Tidy environment Environment.Knows := by
  unfold applyInstruction
  split
  · exact Run.tidy_fail closed
  · split
    · exact Run.tidy_fail closed
    · next result applied =>
        obtain ⟨value, rfl⟩ := Operation.exists_int_of_apply applied
        refine ⟨closed, List.Subset.refl _, ?_⟩
        rintro _ same other key
        obtain rfl := Except.ok.inj same
        have := Datum.atom.inj key
        contradiction

/-- Evaluating a readable tree, and evaluating readable trees in order, is tidy. -/
theorem tidy_eval_and_evalAll :
    (∀ tree environment, tree.Readable → environment.Closed →
      (eval tree environment).Tidy environment Environment.Knows)
    ∧ ∀ items environment, Datum.AllReadable items → environment.Closed →
      (evalAll items environment).Tidy environment Environment.KnowsAll := by
  refine eval_induction ?key ?held ?definition ?instruction ?stuck ?none ?more
  case key =>
    intro name environment _ closed
    rw [eval_key]
    cases found : environment.find? name with
    | none => exact Run.tidy_fail closed
    | some value => exact Run.tidy_done closed (closed.find? found)
  case held =>
    intro held noKey environment _ closed
    rw [eval_held noKey]
    exact Run.tidy_done closed fun name key => absurd key (noKey name)
  case definition =>
    intro operator name value head inductionHypothesis environment readable closed
    simp only [Datum.Readable, Datum.AllReadable] at readable
    rw [eval_of_definition head]
    exact (inductionHypothesis environment readable.2.2.1 closed).andThen fun knows closed =>
      tidy_bindResult readable.2.1 closed knows
  case instruction =>
    intro operator operands tag head inductionHypothesis environment readable closed
    simp only [Datum.Readable] at readable
    rw [eval_of_instruction head]
    exact (inductionHypothesis environment readable.2 closed).andThen fun _ closed =>
      tidy_applyInstruction tag _ closed
  case stuck =>
    intro tree fault stuck environment _ closed
    rw [stuck.fails]
    exact Run.tidy_fail closed
  case none =>
    intro environment _ closed
    rw [evalAll]
    exact Run.tidy_done closed (List.forall_mem_nil _)
  case more =>
    intro item items first others environment readable closed
    simp only [Datum.AllReadable] at readable
    rw [evalAll]
    refine (first environment readable.1 closed).andThen fun {value} knows closed => ?_
    have rest := others (eval item environment).environment readable.2 closed
    exact rest.map fun {values} knowsAll =>
      List.forall_mem_cons.2 ⟨knows.mono rest.grows, knowsAll⟩

end Evaluation

end PocketLisp
