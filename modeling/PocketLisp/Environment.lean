import PocketLisp.Fault

/-!
# Environments

An environment binds names to atoms. `Environment.find?` is the view by which the
operations are described: binding a name changes what that name finds and nothing
else. Names are listed in the order in which they were first bound, so binding a
name again keeps its place.

The language binds names by `bind` alone. `define`, `lookup`, `get` and `contains`
take whatever a caller hands over and say when it is no name or no atom.
-/

namespace PocketLisp

/-- Names with their atoms, in the order of first binding. -/
structure Environment where
  bindings : List (String × Atom)
  deriving DecidableEq, Repr

namespace Environment

/-- The environment without bindings. -/
def empty : Environment := ⟨[]⟩

/-- The bound names, oldest first. -/
def names (environment : Environment) : List String :=
  environment.bindings.map Prod.fst

/-- The number of bound names. -/
def size (environment : Environment) : Nat :=
  environment.bindings.length

/-- The atom that a list of bindings gives a name. -/
def findIn (name : String) : List (String × Atom) → Option Atom
  | [] => none
  | binding :: bindings => if binding.1 = name then some binding.2 else findIn name bindings

/-- The atom bound to a name. -/
def find? (environment : Environment) (name : String) : Option Atom :=
  findIn name environment.bindings

/-- A list of bindings with one name bound anew, at its old place if it has one. -/
def bindIn (name : String) (value : Atom) : List (String × Atom) → List (String × Atom)
  | [] => [(name, value)]
  | binding :: bindings =>
      if binding.1 = name then (name, value) :: bindings
      else binding :: bindIn name value bindings

/-- The environment with a name bound to an atom. -/
def bind (environment : Environment) (name : String) (value : Atom) : Environment :=
  ⟨bindIn name value environment.bindings⟩

/-- Nothing is bound in the empty environment. -/
@[simp] theorem find?_empty (name : String) : empty.find? name = none := rfl

/-- Binding a name changes what this name finds, and nothing else. -/
theorem find?_bind (environment : Environment) (name other : String) (value : Atom) :
    (environment.bind name value).find? other =
      if other = name then some value else environment.find? other := by
  obtain ⟨bindings⟩ := environment
  simp only [bind, find?]
  induction bindings with
  | nil => simp [bindIn, findIn, eq_comm]
  | cons binding bindings inductionHypothesis =>
      by_cases here : binding.1 = name
      · by_cases same : other = name
        · simp [bindIn, findIn, here, same]
        · simp [bindIn, findIn, here, same, Ne.symm same]
      · by_cases same : other = name
        · simp_all [bindIn, findIn]
        · simp [bindIn, findIn, here, same, inductionHypothesis]

/-- A bound name keeps its place and a new name goes last. -/
theorem names_bind (environment : Environment) (name : String) (value : Atom) :
    (environment.bind name value).names =
      if name ∈ environment.names then environment.names else environment.names ++ [name] := by
  obtain ⟨bindings⟩ := environment
  simp only [bind, names]
  induction bindings with
  | nil => simp [bindIn]
  | cons binding bindings inductionHypothesis =>
      by_cases here : binding.1 = name
      · simp [bindIn, here]
      · simp only [bindIn, if_neg here, List.map_cons, inductionHypothesis, List.mem_cons,
          Ne.symm here, false_or]
        split <;> simp_all

/-- Every atom in the environment is in range. -/
def InRange (environment : Environment) : Prop :=
  ∀ binding ∈ environment.bindings, binding.2.InRange

instance (environment : Environment) : Decidable environment.InRange :=
  inferInstanceAs (Decidable (∀ binding ∈ environment.bindings, binding.2.InRange))

/-- The name that a caller means: text, or a key. -/
def nameOf : Datum → Except Misuse String
  | .plain (.text name) => .ok name
  | .atom (.key name) => .ok name
  | other => .error (.unbindableName other)

/-- Bind a name to a value, both as a caller gives them. The value is looked at
before the name. -/
def define (environment : Environment) (name value : Datum) : Except Misuse Environment :=
  match value with
  | .atom atom => (nameOf name).map fun name => environment.bind name atom
  | other => .error (.unbindableValue other)

/-- The atom bound to a name, as a caller gives it. -/
def lookup (environment : Environment) (name : Datum) : Except Fault Atom :=
  match nameOf name with
  | .error misuse => .error (.misuse misuse)
  | .ok name =>
      match environment.find? name with
      | some value => .ok value
      | none => .error (.evaluation (.undefinedVariable name))

/-- The atom bound to a name, or else a given value. -/
def get (environment : Environment) (name default : Datum) : Except Misuse Datum :=
  (nameOf name).map fun name =>
    match environment.find? name with
    | some value => .atom value
    | none => default

/-- Whether a value names something bound. A value that is no name does not. -/
def contains (environment : Environment) (name : Datum) : Bool :=
  match nameOf name with
  | .ok name => (environment.find? name).isSome
  | .error _ => false

/-- Pairs with one more pair collected: an equal name keeps its place and takes the
new value. -/
def collectPair (pair : Datum × Datum) : List (Datum × Datum) → List (Datum × Datum)
  | [] => [pair]
  | first :: rest =>
      if first.1.same pair.1 then (first.1, pair.2) :: rest
      else first :: collectPair pair rest

/-- The environment of a list of pairs, as a caller gives them. Pairs of equal names
are merged before any name is bound. -/
def ofPairs (pairs : List (Datum × Datum)) : Except Misuse Environment :=
  (pairs.foldl (fun collected pair => collectPair pair collected) []).foldlM
    (fun environment pair => environment.define pair.1 pair.2) empty

/-- One binding as text. -/
def bindingText (binding : String × Atom) : String :=
  binding.1 ++ ": " ++ binding.2.written

/-- The bindings as text, oldest first. -/
def text (environment : Environment) : String :=
  "\x7b" ++ ", ".intercalate (environment.bindings.map bindingText) ++ "\x7d"

/-- The environment as it is written inside a larger written value. -/
def written (environment : Environment) : String :=
  "<Environment " ++ environment.text ++ ">"

end Environment

end PocketLisp
