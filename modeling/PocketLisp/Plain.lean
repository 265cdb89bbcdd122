import PocketLisp.Binary64
import PocketLisp.Text.Quoted

/-!
# Plain values

Values that belong to no part of the language: they are neither atoms nor
expressions, and meet the language only where a caller puts them by mistake. They
can be written, compared and tested for truth, and nothing else.

Numbers compare by value across their kinds, and a truth value is the number zero
or one. Every other comparison across kinds is false.
-/

namespace PocketLisp

/-- A value from outside the language. -/
inductive Plain
  | none
  | bool (value : Bool)
  | int (value : Int)
  | real (value : Binary64)
  | text (value : String)
  deriving DecidableEq, Repr

namespace Plain

/-- The value as it is written inside a larger written value. -/
def written : Plain → String
  | .none => "None"
  | .bool value => if value then "True" else "False"
  | .int value => toString value
  | .real value => value.text
  | .text value => Text.quoted value

/-- The value on its own: text stands for itself. -/
def shown : Plain → String
  | .text value => value
  | other => other.written

/-- The name of a value's kind. -/
def kind : Plain → String
  | .none => "NoneType"
  | .bool _ => "bool"
  | .int _ => "int"
  | .real _ => "float"
  | .text _ => "str"

/-- The whole number that a value is, if it is one without being a real. -/
def whole? : Plain → Option Int
  | .bool value => some (if value then 1 else 0)
  | .int value => some value
  | _ => Option.none

/-- Equality of values: numbers by what they are worth, all else within a kind. -/
def same (left right : Plain) : Bool :=
  match left, right with
  | .real left, .real right => left.same right
  | .real fraction, other | other, .real fraction =>
      match other.whole? with
      | some number => fraction.isInt number
      | Option.none => false
  | left, right =>
      match left.whole?, right.whole? with
      | some leftNumber, some rightNumber => leftNumber == rightNumber
      | _, _ => left == right

/-- Empty and zero values count as false. -/
def truth : Plain → Bool
  | .none => false
  | .bool value => value
  | .int value => value != 0
  | .real value => !value.isZero
  | .text value => !value.isEmpty

end Plain

end PocketLisp
