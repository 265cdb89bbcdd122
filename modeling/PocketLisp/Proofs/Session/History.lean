import Mathlib.Data.List.Basic
import PocketLisp.Proofs.Evaluation.Range
import PocketLisp.Session

/-!
# Environments as histories

What an environment answers can be told from the history of what was bound in it. A name has
the value that it was last bound to, and the names stand in the order in which they were
first bound. Emptying the environment starts a new history. A request that only looks, or
that is refused, leaves the history as it is.

The invariant `Environment.Holds` says that an environment and a history agree about the
bound names and about the value of each. Every request keeps it, and where it holds every
request is answered as the history says.
-/

namespace PocketLisp

/-- The names and values that were bound one after the other, oldest first. A name may occur
more than once. -/
abbrev History := List (String × Atom)

namespace History

variable {history : History} {name : String} {value : Atom}

/-- The atom that a name was last bound to. -/
def newest? (history : History) (name : String) : Option Atom :=
  history.reverse.lookup name

/-- The names in the order in which they were first bound. -/
def names (history : History) : List String :=
  (history.map Prod.fst).eraseDups

/-- Every name with the atom that it was last bound to. -/
def summary (history : History) : List (String × Atom) :=
  history.names.filterMap fun name => (history.newest? name).map fun value => (name, value)

/-- Binding a name gives it its newest value and leaves the others with theirs. -/
theorem newest?_concat (history : History) (name other : String) (value : Atom) :
    (history ++ [(name, value)] : History).newest? other =
      if other = name then some value else history.newest? other := by
  rw [newest?, List.reverse_append, List.reverse_singleton, List.singleton_append,
    List.lookup_cons]
  by_cases same : other = name
  · simp [same]
  · simp [newest?, beq_eq_false_iff_ne.2 same, same]

/-- Binding a name adds it behind the others, unless it was bound before. -/
theorem names_concat (history : History) (name : String) (value : Atom) :
    (history ++ [(name, value)] : History).names =
      if name ∈ history.names then history.names else history.names ++ [name] := by
  have single : [name].eraseDups = [name] := by simp [List.eraseDups_cons]
  by_cases bound : name ∈ history.map Prod.fst
  · simp [names, List.eraseDups_append, List.removeAll, bound]
  · simp [names, List.eraseDups_append, List.removeAll, bound, single]

end History

/-- A caller means a name by its text or by its key. -/
inductive Datum.Means : Datum → String → Prop
  | text (name : String) : Means (.plain (.text name)) name
  | key (name : String) : Means (.atom (.key name)) name

namespace Environment

variable {environment : Environment} {history : History} {given value : Datum} {name : String}

/-- The name that a caller means is made out. -/
theorem nameOf_eq_ok_iff : nameOf given = .ok name ↔ given.Means name := by
  constructor
  · intro meant
    unfold nameOf at meant
    split at meant
    · exact Except.ok.inj meant ▸ .text _
    · exact Except.ok.inj meant ▸ .key _
    · contradiction
  · rintro (_ | _) <;> rfl

/-- What means no name is refused for it. -/
theorem nameOf_of_nameless (nameless : ∀ name, ¬given.Means name) :
    nameOf given = .error (.unbindableName given) := by
  unfold nameOf
  split
  · exact absurd (.text _) (nameless _)
  · exact absurd (.key _) (nameless _)
  · rfl

/-- A name is bound where a caller means one and gives an atom for it. -/
theorem define_eq_ok_iff {changed : Environment} :
    environment.define given value = .ok changed ↔
      ∃ name atom, given.Means name ∧ value = .atom atom
        ∧ changed = environment.bind name atom := by
  constructor
  · intro defined
    unfold define at defined
    split at defined
    · next atom =>
        cases meant : nameOf given with
        | error misuse => simp [meant, Except.map] at defined
        | ok name =>
            rw [meant] at defined
            exact ⟨name, atom, nameOf_eq_ok_iff.1 meant, rfl, (Except.ok.inj defined).symm⟩
    · contradiction
  · rintro ⟨name, atom, means, rfl, rfl⟩
    rw [define, nameOf_eq_ok_iff.2 means]
    rfl

/-- A caller means a name, and gives an atom for it. -/
def Bindable (given value : Datum) : Prop :=
  ∃ name atom, given.Means name ∧ value = .atom atom

/-- What cannot be bound is refused. -/
theorem exists_define_eq_error (unbindable : ¬Bindable given value) (environment : Environment) :
    ∃ misuse, environment.define given value = .error misuse := by
  cases defined : environment.define given value with
  | error misuse => exact ⟨misuse, rfl⟩
  | ok changed =>
      obtain ⟨name, atom, means, atomic, -⟩ := define_eq_ok_iff.1 defined
      exact absurd ⟨name, atom, means, atomic⟩ unbindable

/-- An environment has the names of a history, each once and in its order, and finds what
they were last bound to. -/
structure Holds (environment : Environment) (history : History) : Prop where
  distinct : environment.names.Nodup
  names : environment.names = history.names
  newest : ∀ name, environment.find? name = history.newest? name

/-- Where nothing is bound nothing has been bound. -/
theorem holds_empty : empty.Holds [] := ⟨List.nodup_nil, rfl, fun _ => rfl⟩

/-- Binding a name is what the history goes on with. -/
theorem Holds.bind (holds : environment.Holds history) (name : String) (value : Atom) :
    (environment.bind name value).Holds (history ++ [(name, value)]) where
  distinct := nodup_names_bind holds.distinct name value
  names := by rw [names_bind, History.names_concat, holds.names]
  newest other := by rw [find?_bind, History.newest?_concat, holds.newest]

/-- Where names are distinct the bindings are what the names find. -/
theorem bindings_eq_filterMap (distinct : environment.names.Nodup) :
    environment.bindings = environment.names.filterMap fun name =>
      (environment.find? name).map fun value => (name, value) := by
  obtain ⟨bindings⟩ := environment
  simp only [Environment.names, find?] at distinct ⊢
  induction bindings with
  | nil => rfl
  | cons binding bindings inductionHypothesis =>
      obtain ⟨fresh, others⟩ := List.nodup_cons.1 distinct
      rw [List.map_cons, List.filterMap_cons]
      have here : findIn binding.1 (binding :: bindings) = some binding.2 := by simp [findIn]
      rw [here, Option.map_some]
      refine congrArg (binding :: ·) ((inductionHypothesis others).trans ?_)
      refine List.filterMap_congr fun name member => ?_
      have apart : binding.1 ≠ name := fun same => fresh (same ▸ member)
      rw [findIn, if_neg apart]

/-- The bindings are every name of the history with its newest value. -/
theorem Holds.bindings (holds : environment.Holds history) :
    environment.bindings = history.summary := by
  rw [bindings_eq_filterMap holds.distinct, History.summary, holds.names]
  simp only [holds.newest]

section Dictionaries

variable {pairs collected : List (Datum × Datum)}

/-- The keys of a dictionary are not equal to one another. -/
def Dictionary (pairs : List (Datum × Datum)) : Prop :=
  pairs.Pairwise fun first second => first.1.same second.1 = false

/-- A pair with a new key is collected behind the others. -/
theorem collectPair_of_fresh {pair : Datum × Datum}
    (fresh : ∀ other ∈ collected, other.1.same pair.1 = false) :
    collectPair pair collected = collected ++ [pair] := by
  induction collected with
  | nil => rfl
  | cons first rest inductionHypothesis =>
      have apart := fresh first List.mem_cons_self
      have others := inductionHypothesis fun other member =>
        fresh other (List.mem_cons_of_mem first member)
      simp [collectPair, apart, others]

/-- The pairs of a dictionary are collected as they stand. -/
theorem foldl_collectPair (dictionary : Dictionary (collected ++ pairs)) :
    pairs.foldl (fun collected pair => collectPair pair collected) collected =
      collected ++ pairs := by
  induction pairs generalizing collected with
  | nil => simp
  | cons pair pairs inductionHypothesis =>
      have fresh : ∀ other ∈ collected, other.1.same pair.1 = false := fun other member =>
        (List.pairwise_append.1 dictionary).2.2 other member pair List.mem_cons_self
      rw [List.foldl_cons, collectPair_of_fresh fresh, inductionHypothesis]
      · simp
      · simpa using dictionary

/-- An environment is made of a dictionary by binding one pair after the other. -/
theorem ofPairs_eq_foldlM (dictionary : Dictionary pairs) :
    ofPairs pairs =
      pairs.foldlM (fun environment pair => environment.define pair.1 pair.2) empty := by
  rw [ofPairs, foldl_collectPair (by simpa using dictionary), List.nil_append]

end Dictionaries

end Environment

namespace Session

variable {environment : Environment} {history : History}

/-- A request about the environment itself, with no code and no tree to evaluate. -/
def Request.OnStore : Request → Prop
  | .code _ | .source _ | .tree _ => False
  | _ => True

/-- A request that looks at the environment. -/
def Request.Looks : Request → Prop
  | .share | .lookup _ | .get _ _ | .contains _ | .size | .names | .snapshot | .written => True
  | _ => False

/-- The history after a request: a definition that names an atom goes behind the others, and
an environment that is emptied or new has none. -/
def record (history : History) : Request → History
  | .define (.plain (.text name)) (.atom value) => history ++ [(name, value)]
  | .define (.atom (.key name)) (.atom value) => history ++ [(name, value)]
  | .reset | .fresh => []
  | _ => history

/-- What a list of requests has bound since the environment was last emptied. -/
def recorded (requests : List Request) : History :=
  requests.foldl record []

/-- The requests to bind the pairs of a dictionary. -/
def definitions (pairs : List (Datum × Datum)) : List Request :=
  pairs.map fun pair => .define pair.1 pair.2

/-- An environment answers as a history says. -/
structure Answers (environment : Environment) (history : History) : Prop where
  lookup : ∀ given name, given.Means name →
    respond (.lookup given) environment =
      match history.newest? name with
      | some value => .done (.one (.atom value)) environment
      | none => .fail (.failed (.evaluation (.undefinedVariable name))) environment
  get : ∀ given default name, given.Means name →
    respond (.get given default) environment =
      .done (.one (((history.newest? name).map .atom).getD default)) environment
  contains : ∀ given name, given.Means name →
    respond (.contains given) environment =
      .done (.truth (history.newest? name).isSome) environment
  nameless : ∀ given default, (∀ name, ¬given.Means name) →
    respond (.lookup given) environment =
        .fail (.failed (.misuse (.unbindableName given))) environment
      ∧ respond (.get given default) environment =
        .fail (.failed (.misuse (.unbindableName given))) environment
      ∧ respond (.contains given) environment = .done (.truth false) environment
  distinct : history.names.Nodup
  names : respond .names environment = .done (.names history.names) environment
  size : respond .size environment = .done (.count history.names.length) environment
  snapshot : respond .snapshot environment = .done (.bindings history.summary) environment
  listed : history.summary.map Prod.fst = history.names
  define : ∀ given value, (respond (.define given value) environment).outcome = .ok .nothing ↔
    Environment.Bindable given value
  failing : ∀ request problem, request.OnStore →
    (respond request environment).outcome = .error problem →
    (respond request environment).environment = environment
  looking : ∀ request, request.Looks → (respond request environment).environment = environment

/-- Looking at an environment does not change it. -/
theorem environment_respond_of_looks {request : Request} (looks : request.Looks)
    (environment : Environment) : (respond request environment).environment = environment := by
  cases request with
  | share | contains | size | names | snapshot | written => rfl
  | lookup given =>
      rw [respond]
      split <;> rfl
  | get given default =>
      rw [respond]
      cases environment.get given default <;> rfl
  | _ => contradiction

/-- A name is bound to an atom, and the definition is recorded. -/
theorem respond_define_of_bindable {given value : Datum}
    (bindable : Environment.Bindable given value) (environment : Environment) (history : History) :
    ∃ name atom, respond (.define given value) environment =
        .done .nothing (environment.bind name atom)
      ∧ record history (.define given value) = history ++ [(name, atom)] := by
  obtain ⟨name, atom, means, rfl⟩ := bindable
  refine ⟨name, atom, ?_, ?_⟩
  · rw [respond, Environment.define_eq_ok_iff.2 ⟨name, atom, means, rfl, rfl⟩]
    rfl
  · cases means <;> rfl

/-- What cannot be bound is refused, and the definition is not recorded. -/
theorem respond_define_of_not_bindable {given value : Datum}
    (unbindable : ¬Environment.Bindable given value) (environment : Environment)
    (history : History) :
    (∃ misuse, respond (.define given value) environment =
        .fail (.failed (.misuse misuse)) environment)
      ∧ record history (.define given value) = history := by
  constructor
  · obtain ⟨misuse, refused⟩ := Environment.exists_define_eq_error unbindable environment
    refine ⟨misuse, ?_⟩
    rw [respond, refused]
    rfl
  · unfold record
    split
    · next same =>
        obtain ⟨rfl, rfl⟩ := Request.define.inj same
        exact absurd ⟨_, _, .text _, rfl⟩ unbindable
    · next same =>
        obtain ⟨rfl, rfl⟩ := Request.define.inj same
        exact absurd ⟨_, _, .key _, rfl⟩ unbindable
    · contradiction
    · contradiction
    · rfl

/-- A request to the environment leaves it with its history, or answers and empties both, or
answers and binds a name that goes into the history. -/
theorem respond_cases {request : Request} (onStore : request.OnStore) (environment : Environment)
    (history : History) :
    ((respond request environment).environment = environment ∧ record history request = history)
    ∨ (∃ answer, respond request environment = .done answer .empty ∧ record history request = [])
    ∨ ∃ answer name atom, respond request environment =
        .done answer (environment.bind name atom)
      ∧ record history request = history ++ [(name, atom)] := by
  cases request with
  | code | source | tree => contradiction
  | reset => exact .inr (.inl ⟨.nothing, rfl, rfl⟩)
  | fresh => exact .inr (.inl ⟨.silence, rfl, rfl⟩)
  | share | contains | size | names | snapshot | written => exact .inl ⟨rfl, rfl⟩
  | lookup given =>
      have looks : (Request.lookup given).Looks := trivial
      exact .inl ⟨environment_respond_of_looks looks environment, rfl⟩
  | get given default =>
      have looks : (Request.get given default).Looks := trivial
      exact .inl ⟨environment_respond_of_looks looks environment, rfl⟩
  | define given value =>
      by_cases bindable : Environment.Bindable given value
      · obtain ⟨name, atom, answered, noted⟩ :=
          respond_define_of_bindable bindable environment history
        exact .inr (.inr ⟨_, name, atom, answered, noted⟩)
      · obtain ⟨⟨misuse, refused⟩, noted⟩ :=
          respond_define_of_not_bindable bindable environment history
        exact .inl ⟨by rw [refused]; rfl, noted⟩

/-- A request to the environment is recorded. -/
theorem holds_respond {request : Request} (onStore : request.OnStore)
    (holds : environment.Holds history) :
    (respond request environment).environment.Holds (record history request) := by
  rcases respond_cases onStore environment history with
    ⟨kept, noted⟩ | ⟨answer, emptied, noted⟩ | ⟨answer, name, atom, bound, noted⟩
  · rwa [kept, noted]
  · rw [emptied, noted]
    exact Environment.holds_empty
  · rw [bound, noted]
    exact holds.bind name atom

/-- Requests to the environment are recorded one after the other. -/
theorem holds_after {requests : List Request} (onStore : ∀ request ∈ requests, request.OnStore)
    (holds : environment.Holds history) :
    (after requests environment).Holds (requests.foldl record history) := by
  induction requests generalizing environment history with
  | nil => exact holds
  | cons request requests inductionHypothesis =>
      refine inductionHypothesis
        (fun other member => onStore other (List.mem_cons_of_mem request member)) ?_
      exact holds_respond (onStore request List.mem_cons_self) holds

/-- Where an environment holds a history it answers as the history says. -/
theorem answers_of_holds (holds : environment.Holds history) : Answers environment history where
  lookup := by
    intro given name means
    rw [respond, Environment.lookup, Environment.nameOf_eq_ok_iff.2 means]
    simp only [holds.newest]
    cases history.newest? name <;> rfl
  get := by
    intro given default name means
    rw [respond, Environment.get, Environment.nameOf_eq_ok_iff.2 means]
    simp only [Except.map, holds.newest]
    cases history.newest? name <;> rfl
  contains := by
    intro given name means
    rw [respond, Environment.contains, Environment.nameOf_eq_ok_iff.2 means]
    simp only [holds.newest]
    rfl
  nameless := by
    intro given default nameless
    have refused := Environment.nameOf_of_nameless nameless
    simp only [respond, Environment.lookup, Environment.get, Environment.contains, refused]
    exact ⟨trivial, rfl, rfl⟩
  distinct := holds.names ▸ holds.distinct
  names := by
    rw [respond, holds.names]
    rfl
  size := by
    rw [respond, ← holds.names, Environment.names, List.length_map]
    rfl
  snapshot := by
    rw [respond, holds.bindings]
    rfl
  listed := by rw [← holds.bindings, ← holds.names, Environment.names]
  define := by
    intro given value
    constructor
    · intro answered
      by_contra unbindable
      obtain ⟨⟨misuse, refused⟩, -⟩ :=
        respond_define_of_not_bindable unbindable environment history
      rw [refused] at answered
      contradiction
    · intro bindable
      obtain ⟨name, atom, answered, -⟩ := respond_define_of_bindable bindable environment history
      rw [answered]
      rfl
  failing := by
    intro request problem onStore failed
    rcases respond_cases onStore environment history with
      ⟨kept, -⟩ | ⟨answer, emptied, -⟩ | ⟨answer, name, atom, bound, -⟩
    · exact kept
    · rw [emptied] at failed
      contradiction
    · rw [bound] at failed
      contradiction
  looking := fun request looks => environment_respond_of_looks looks environment

/-- A list of pairs is bound where every one of them can be, and then as if a caller had
asked for one after the other. -/
theorem foldlM_define_eq_ok_iff {pairs : List (Datum × Datum)} {start : Environment} :
    pairs.foldlM (fun environment pair => environment.define pair.1 pair.2) environment =
        .ok start ↔
      (∀ pair ∈ pairs, Environment.Bindable pair.1 pair.2)
        ∧ start = after (definitions pairs) environment := by
  induction pairs generalizing environment with
  | nil => simp [definitions, after, pure, Except.pure, eq_comm]
  | cons pair pairs inductionHypothesis =>
      rw [List.foldlM_cons, List.forall_mem_cons]
      by_cases bindable : Environment.Bindable pair.1 pair.2
      · obtain ⟨name, atom, means, atomic⟩ := bindable
        have bound : environment.define pair.1 pair.2 = .ok (environment.bind name atom) :=
          Environment.define_eq_ok_iff.2 ⟨name, atom, means, atomic, rfl⟩
        have answered : (respond (.define pair.1 pair.2) environment).environment =
            environment.bind name atom := by rw [respond, bound]; rfl
        rw [bound, definitions, List.map_cons, after, List.foldl_cons, answered, and_assoc]
        exact inductionHypothesis.trans (and_iff_right ⟨name, atom, means, atomic⟩).symm
      · obtain ⟨misuse, refused⟩ := Environment.exists_define_eq_error bindable environment
        simp [bindable, refused, bind, Except.bind]

/-- An environment answers as its history says. It is made of a dictionary, unless one of
the pairs cannot be bound, and its history begins with these pairs and goes on with every
request that is made to it, however many there are. -/
theorem after_answers (pairs : List (Datum × Datum)) (requests : List Request)
    (dictionary : Environment.Dictionary pairs)
    (onStore : ∀ request ∈ requests, request.OnStore) :
    ((∃ start, Environment.ofPairs pairs = .ok start) ↔
      ∀ pair ∈ pairs, Environment.Bindable pair.1 pair.2)
    ∧ ∀ start, Environment.ofPairs pairs = .ok start →
      Answers (after requests start) (recorded (definitions pairs ++ requests)) := by
  simp only [Environment.ofPairs_eq_foldlM dictionary, foldlM_define_eq_ok_iff]
  refine ⟨⟨fun ⟨_, bindable, _⟩ => bindable, fun bindable => ⟨_, bindable, rfl⟩⟩, ?_⟩
  rintro start ⟨-, rfl⟩
  have whole : ∀ request ∈ definitions pairs ++ requests, request.OnStore := by
    intro request member
    rcases List.mem_append.1 member with first | later
    · obtain ⟨pair, -, rfl⟩ := List.mem_map.1 first
      trivial
    · exact onStore request later
  have holds := holds_after whole Environment.holds_empty
  rw [after, List.foldl_append] at holds
  exact answers_of_holds holds

/-- A dictionary with a text and a key in it, a name that is bound anew, and a value that is
no atom. -/
theorem after_answers_overwritten :
    Environment.Dictionary [("a", .atom (.int 1)), (.atom (.key "b"), .atom (.bool true))]
    ∧ (∀ request ∈ [Request.define (.atom (.key "a")) (.atom (.int 2)), .define "c" "a",
        .define "c" (.atom (.int 3))], request.OnStore)
    ∧ Environment.ofPairs [("a", .atom (.int 1)), (.atom (.key "b"), .atom (.bool true))] =
      .ok ⟨[("a", .int 1), ("b", .bool true)]⟩
    ∧ Answers (after [.define (.atom (.key "a")) (.atom (.int 2)), .define "c" "a",
        .define "c" (.atom (.int 3))] ⟨[("a", .int 1), ("b", .bool true)]⟩)
      [("a", .int 1), ("b", .bool true), ("a", .int 2), ("c", .int 3)]
    ∧ History.summary [("a", .int 1), ("b", .bool true), ("a", .int 2), ("c", .int 3)] =
      [("a", .int 2), ("b", .bool true), ("c", .int 3)] := by
  have dictionary : Environment.Dictionary
      [("a", .atom (.int 1)), (.atom (.key "b"), .atom (.bool true))] := by
    simp [Environment.Dictionary, Datum.same]
  have onStore : ∀ request ∈ [Request.define (.atom (.key "a")) (.atom (.int 2)),
      .define "c" "a", .define "c" (.atom (.int 3))], request.OnStore := by
    simp [Request.OnStore]
  have built : Environment.ofPairs
      [("a", .atom (.int 1)), (.atom (.key "b"), .atom (.bool true))] =
      .ok ⟨[("a", .int 1), ("b", .bool true)]⟩ := by rfl
  have answers := (after_answers _ _ dictionary onStore).2 _ built
  exact ⟨dictionary, onStore, built, answers, by decide +kernel⟩

end Session

end PocketLisp
