import PocketLisp.Text.Quoted

/-!
# Atoms

The scalar values of the language: integers, keys, truth values and instructions.
An integer atom is meant to fit in 32 bits, which is what `Atom.InRange` says;
`Atom.ofInt?` is the only way by which the language itself makes one.
-/

namespace PocketLisp

/-- The built-in operators, in the order in which the grammar tries them. -/
inductive Instruction
  | add
  | subtract
  | multiply
  | divide
  | equal
  | not
  | define
  deriving DecidableEq, Repr

namespace Instruction

/-- All instructions, in the order of their declaration. -/
def all : List Instruction :=
  [.add, .subtract, .multiply, .divide, .equal, .not, .define]

/-- The source text of an instruction. -/
def token : Instruction → String
  | .add => "+"
  | .subtract => "-"
  | .multiply => "*"
  | .divide => "/"
  | .equal => "="
  | .not => "not"
  | .define => "define"

/-- The name of an instruction in written values. -/
def name : Instruction → String
  | .add => "ADD"
  | .subtract => "SUBTRACT"
  | .multiply => "MULTIPLY"
  | .divide => "DIVIDE"
  | .equal => "EQUAL"
  | .not => "NOT"
  | .define => "DEFINE"

/-- An instruction is a word when its token consists of letters. -/
def isWord : Instruction → Bool
  | .not | .define => true
  | _ => false

/-- The instruction with a given token. -/
def ofToken? (token : String) : Option Instruction :=
  all.find? fun tag => tag.token == token

/-- The list of instructions leaves none out. -/
theorem mem_all (tag : Instruction) : tag ∈ all := by
  cases tag <;> decide

/-- An instruction is found by its token. -/
@[simp] theorem ofToken?_token (tag : Instruction) : ofToken? tag.token = some tag := by
  cases tag <;> decide

end Instruction

/-- A scalar value of the language. -/
inductive Atom
  | int (value : Int)
  | key (name : String)
  | bool (value : Bool)
  | instruction (tag : Instruction)
  deriving DecidableEq, Repr

namespace Atom

/-- The least integer that fits. -/
def minInt : Int := -2147483648

/-- The greatest integer that fits. -/
def maxInt : Int := 2147483647

/-- A whole number that fits in 32 bits with a sign. -/
def Fits (value : Int) : Prop :=
  minInt ≤ value ∧ value ≤ maxInt

instance (value : Int) : Decidable (Fits value) :=
  inferInstanceAs (Decidable (_ ∧ _))

/-- An atom is in range when an integer in it fits. -/
def InRange : Atom → Prop
  | .int value => Fits value
  | _ => True

instance (atom : Atom) : Decidable atom.InRange :=
  match atom with
  | .int value => inferInstanceAs (Decidable (Fits value))
  | .key _ | .bool _ | .instruction _ => inferInstanceAs (Decidable True)

/-- The integer atom of a number that fits. -/
def ofInt? (value : Int) : Option Atom :=
  if Fits value then some (.int value) else none

/-- A number that fits has an integer atom, and no other number has one. -/
theorem ofInt?_eq_some_iff {value : Int} {atom : Atom} :
    ofInt? value = some atom ↔ Fits value ∧ int value = atom := by
  simp [ofInt?]

/-- The atom as it is written inside a larger written value, with names spelled in some way. -/
def writtenBy (spell : String → String) : Atom → String
  | .int value => "Int(" ++ toString value ++ ")"
  | .key name => "Key(" ++ spell name ++ ")"
  | .bool value => "Boolean(" ++ (if value then "True" else "False") ++ ")"
  | .instruction tag => "InstructionAtom(" ++ tag.name ++ ")"

/-- The atom as it is written inside a larger written value. Names are quoted. -/
def written (atom : Atom) : String :=
  atom.writtenBy Text.quoted

/-- How an integer is written. -/
theorem writtenBy_int (spell : String → String) (value : Int) :
    (int value).writtenBy spell = "Int(" ++ toString value ++ ")" := rfl

/-- How a key is written. -/
theorem writtenBy_key (spell : String → String) (name : String) :
    (key name).writtenBy spell = "Key(" ++ spell name ++ ")" := rfl

/-- How a truth value is written. -/
theorem writtenBy_bool (spell : String → String) (value : Bool) :
    (bool value).writtenBy spell = "Boolean(" ++ (if value then "True" else "False") ++ ")" := rfl

/-- How an instruction is written. -/
theorem writtenBy_instruction (spell : String → String) (tag : Instruction) :
    (instruction tag).writtenBy spell = "InstructionAtom(" ++ tag.name ++ ")" := rfl

/-- The atom on its own: a key stands for its name. -/
def shown : Atom → String
  | .key name => name
  | other => other.written

/-- The name of an atom's kind. -/
def kind : Atom → String
  | .int _ => "Int"
  | .key _ => "Key"
  | .bool _ => "Boolean"
  | .instruction _ => "InstructionAtom"

end Atom

end PocketLisp
