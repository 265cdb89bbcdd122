import PocketLisp.Datum
import PocketLisp.Settings

/-!
# Layout of source text

Writing a tree as source text. A form stands on one line when it fits into the
width behind its indentation, or when it has fewer than two parts; otherwise its
parts after the first stand on lines of their own, each two columns further in than
the form. What is measured is the written text, with colours if there are any.

Whether to colour is looked up where something is to be coloured, so a broken
setting does not hurt a tree that has nothing to colour before its first fault.
-/

namespace PocketLisp

/-- Why a tree could not be written. -/
inductive LayoutError
  | setting (error : SettingError)
  | notAnExpression (value : Datum)
  | notAnAtom (value : Datum)
  deriving DecidableEq, Repr

/-- The text of a layout error. -/
def LayoutError.message : LayoutError → String
  | .setting error => error.message
  | .notAnExpression value => "Cannot format " ++ value.written ++ ": not an expression"
  | .notAnAtom value => "Cannot format " ++ value.written ++ ": not an atom"

/-- The parts of source text that have a colour of their own. -/
inductive Role
  | key
  | instruction
  | literal
  | reserved
  deriving DecidableEq, Repr

namespace Role

/-- The number of a colour in the control sequence that turns it on. -/
def code : Role → String
  | .key => "94"
  | .instruction => "95"
  | .literal => "92"
  | .reserved => "90"

/-- Text between the control sequences that turn a colour on and off. -/
def wrap (role : Role) (text : String) : String :=
  "\x1b[" ++ role.code ++ "m" ++ text ++ "\x1b[0m"

end Role

/-- How to lay out: the width of a line, and whether to colour. -/
structure Layout where
  width : Int
  color : Except SettingError Bool

namespace Layout

/-- The width of a line unless another is asked for. -/
def standardWidth : Int := 80

/-- The standard layout under some settings. -/
def standard (settings : Settings) : Layout :=
  ⟨standardWidth, settings.color⟩

/-- A layout without colours. -/
def plain (width : Int) : Layout :=
  ⟨width, .ok false⟩

/-- A layout with colours. -/
def colored (width : Int) : Layout :=
  ⟨width, .ok true⟩

/-- Text in the colour of its role, if there are colours. -/
def paint (layout : Layout) (role : Role) (text : String) : Except LayoutError String :=
  match layout.color with
  | .ok true => .ok (role.wrap text)
  | .ok false => .ok text
  | .error error => .error (.setting error)

/-- An atom as source text. -/
def writeAtom (layout : Layout) : Atom → Except LayoutError String
  | .int value => layout.paint .literal (toString value)
  | .bool value => layout.paint .literal (if value then "t" else "f")
  | .key name => layout.paint .key name
  | .instruction tag => layout.paint .instruction tag.token

/-- What a constant holds as source text. Only atoms have any. -/
def writeHeld (layout : Layout) : Datum → Except LayoutError String
  | .atom value => layout.writeAtom value
  | other => .error (.notAnAtom other)

/-- As many blanks as a number says; none for a negative number. -/
def blanks (count : Int) : String :=
  String.ofList (List.replicate count.toNat ' ')

/-- Parts in round brackets on one line. -/
def oneLine (parts : List String) : String :=
  "(" ++ " ".intercalate parts ++ ")"

/-- Parts in round brackets, each after the first on a line of its own. -/
def broken (indent : Int) (first : String) (rest : List String) : String :=
  "(" ++ "\n".intercalate (first :: rest.map fun part => blanks (2 * indent) ++ "  " ++ part)
    ++ ")"

/-- Written parts put together, at an indentation counted in steps of two columns. -/
def assemble (width indent : Int) (parts : List String) : String :=
  match parts with
  | first :: second :: rest =>
      let line := oneLine parts
      if (line.length : Int) + 2 * indent ≤ width then line
      else broken indent first (second :: rest)
  | _ => oneLine parts

mutual

/-- A tree as source text, at an indentation counted in steps of two columns. The
parts of a form are written before the word at its head. -/
def write (layout : Layout) : Int → Datum → Except LayoutError String
  | _, .constant held => layout.writeHeld held
  | indent, .application operator operands => do
      let first ← layout.write (indent + 1) operator
      let rest ← layout.writeAll (indent + 1) operands
      return assemble layout.width indent (first :: rest)
  | indent, .ifThen condition consequence => do
      let condition ← layout.write (indent + 1) condition
      let consequence ← layout.write (indent + 1) consequence
      let head ← layout.paint .reserved "if"
      return assemble layout.width indent [head, condition, consequence]
  | indent, .ifElse condition consequence alternative => do
      let condition ← layout.write (indent + 1) condition
      let consequence ← layout.write (indent + 1) consequence
      let alternative ← layout.write (indent + 1) alternative
      let head ← layout.paint .reserved "if"
      return assemble layout.width indent [head, condition, consequence, alternative]
  | indent, .quote items => do
      let parts ← layout.writeAll (indent + 1) items
      let head ← layout.paint .reserved "quote"
      return assemble layout.width indent (head :: parts)
  | _, .plain value => .error (.notAnExpression (.plain value))
  | _, .atom value => .error (.notAnExpression (.atom value))

/-- Every tree of a list as source text. -/
def writeAll (layout : Layout) : Int → List Datum → Except LayoutError (List String)
  | _, [] => .ok []
  | indent, item :: items => do
      let first ← layout.write indent item
      let rest ← layout.writeAll indent items
      return first :: rest

end

end Layout

end PocketLisp
