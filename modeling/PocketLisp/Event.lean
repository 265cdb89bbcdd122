import PocketLisp.Datum
import PocketLisp.Reading.Report

/-!
# Events

What reading, evaluation and the demonstration note down as they go. An event keeps the
values that it is about; its message is written from them.
-/

namespace PocketLisp

/-- Something that happened. -/
inductive Event
  | parsed (source : String) (tree : Datum)
  | parsedAll (source : String) (count : Nat)
  | applied (tag : Instruction) (arguments : List Datum) (result : Atom)
  | defined (name : String) (value : Atom)
  | refused (source : String) (error : Reading.ParseError)
  deriving DecidableEq, Repr

namespace Event

/-- The log to which an event belongs. -/
def channel : Event → String
  | .parsed _ _ | .parsedAll _ _ => "lisplib.reader.parser"
  | .applied _ _ _ => "lisplib.evaluation.evaluator"
  | .defined _ _ => "lisplib.evaluation.special_forms.define_form"
  | .refused _ _ => "lisplib.interpreter"

/-- The text of an event. -/
def message : Event → String
  | .parsed source tree => "parsed " ++ Text.quoted source ++ " -> " ++ tree.written
  | .parsedAll source count =>
      "parsed " ++ toString count ++ " expression(s) from " ++ Text.quoted source
  | .applied tag arguments result =>
      tag.token ++ " [" ++ ", ".intercalate (Datum.writtenAll arguments) ++ "] -> "
        ++ result.written
  | .defined name value => "define " ++ name ++ " = " ++ value.written
  | .refused source error =>
      "parse failure for " ++ Text.quoted source ++ ":\n" ++ error.trace

/-- The binding that an event made. -/
def binding? : Event → Option (String × Atom)
  | .defined name value => some (name, value)
  | _ => none

end Event

end PocketLisp
