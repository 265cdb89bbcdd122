import PocketLisp.Datum

/-!
# Misuse

Errors of the caller: a value was handed over where it has no business, a name is no
name, an atom or an error cannot be made from what is given, something that never
changes was to be changed, or a number was to be divided by zero. No well-formed program
causes a misuse.

`Atom.ofInteger`, `Atom.ofBoolean`, `Atom.ofName` and `Atom.ofToken` make atoms from
plain values, and `Datum.assign` says why a part of a datum cannot be assigned.
-/

namespace PocketLisp

/-- An error of the caller. The first five arise where an atom is made from a plain
value, the next three where a value or a name is used, the following five where a part
of a value is to be changed, the next two where an error is made by its name, and the last
where a number is divided. -/
inductive Misuse
  | notAnInteger (given : Plain)
  | notABoolean (given : Plain)
  | notAName (given : Plain)
  | notAToken (given : Plain)
  | outOfRange (value : Int)
  | notAnExpression (value : Datum)
  | unbindableValue (value : Datum)
  | unbindableName (name : Datum)
  | immutableKey
  | immutableField (field : String)
  | unknownField
  | fieldless (kind field : String)
  | notAFieldName (given : Plain)
  | missingPart (maker part : String)
  | surplusParts (maker : String) (least most given : Nat)
  | zeroDivisor
  deriving DecidableEq, Repr

/-- How many parts a maker takes, itself included. -/
def Misuse.partCount (least most : Nat) : String :=
  if least = most then
    toString (least + 1) ++ " positional argument" ++ (if least = 0 then "" else "s")
  else "from " ++ toString (least + 1) ++ " to " ++ toString (most + 1) ++ " positional arguments"

/-- The text of a misuse. A missing value is not called by its kind where a name is
due. -/
def Misuse.message : Misuse → String
  | .notAnInteger given => "Int expects an int, got " ++ given.written
  | .notABoolean given => "Boolean expects a bool, got " ++ given.written
  | .notAName .none => "intern() argument must be str, not None"
  | .notAName given => "intern() argument must be str, not " ++ given.kind
  | .notAToken given => given.written ++ " is not a valid Instruction"
  | .outOfRange value => toString value ++ " does not fit in a signed 32-bit integer"
  | .notAnExpression value =>
      "Cannot evaluate " ++ value.written ++ ": not an expression"
  | .unbindableValue value =>
      "Cannot bind " ++ value.written ++ ": environments hold atoms"
  | .unbindableName name =>
      "Cannot bind " ++ name.written ++ ": variable names are strings"
  | .immutableKey => "Key is immutable"
  | .immutableField field => "cannot assign to field " ++ Text.quoted field
  | .unknownField => "super(type, obj): obj must be an instance or subtype of type"
  | .fieldless kind field =>
      "'" ++ kind ++ "' object has no attribute '" ++ field ++ "'"
  | .notAFieldName given => "attribute name must be string, not '" ++ given.kind ++ "'"
  | .missingPart maker part =>
      maker ++ ".__init__() missing 1 required positional argument: '" ++ part ++ "'"
  | .surplusParts maker least most given =>
      maker ++ ".__init__() takes " ++ Misuse.partCount least most ++ " but "
        ++ toString (given + 1) ++ " were given"
  | .zeroDivisor => "integer division or modulo by zero"

/-- What comes of assigning a part of a datum. No datum can be changed: a key refuses
every part, a plain value has no parts, and any other datum tells the parts that it
has from those that it lacks. -/
def Datum.assign (field : Plain) (datum : Datum) : Misuse :=
  match field, datum with
  | .text _, .atom (.key _) => .immutableKey
  | .text field, .plain value => .fieldless value.kind field
  | .text field, datum =>
      if datum.fields.contains field then .immutableField field else .unknownField
  | field, _ => .notAFieldName field

namespace Atom

/-- The integer atom of a plain value: an integer that fits. -/
def ofInteger : Plain → Except Misuse Atom
  | .int value =>
      match ofInt? value with
      | some atom => .ok atom
      | none => .error (.outOfRange value)
  | given => .error (.notAnInteger given)

/-- The truth atom of a plain value: a truth value. -/
def ofBoolean : Plain → Except Misuse Atom
  | .bool value => .ok (.bool value)
  | given => .error (.notABoolean given)

/-- The key of a plain value: any text. -/
def ofName : Plain → Except Misuse Atom
  | .text name => .ok (.key name)
  | given => .error (.notAName given)

/-- The instruction of a plain value: the text of a token. -/
def ofToken : Plain → Except Misuse Atom
  | .text token =>
      match Instruction.ofToken? token with
      | some tag => .ok (.instruction tag)
      | none => .error (.notAToken (.text token))
  | given => .error (.notAToken given)

end Atom

end PocketLisp
