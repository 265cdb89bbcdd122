import PocketLisp.Level
import PocketLisp.Plain
import PocketLisp.Text.Blank
import PocketLisp.Text.Case
import PocketLisp.Text.Digit
import PocketLisp.Text.Quoted

/-!
# Settings

Settings come from named variables and from what is known about the terminal. A
flag is one of eight words, whatever their case. A log level is a number in the
digits of any script, or a name. Blanks around a setting do not count, and a flag
of blanks alone counts as absent.

A level can also be given outright, as a whole number or by its exact name; then the
variable is not looked at.
-/

namespace PocketLisp

/-- What is wrong with a setting. -/
inductive SettingError
  | notAFlag (source : String) (given : String)
  | unknownLevel (given : String)
  | notANumber (given : String)
  | overlong (digits : Nat)
  | unknownName (given : String)
  | notALevel (given : Plain)
  deriving DecidableEq, Repr

/-- The text of a setting error. Of a value that is no number at most two hundred
characters are quoted. -/
def SettingError.message : SettingError → String
  | .notAFlag source given =>
      source ++ " must be one of ['0', '1', 'false', 'no', 'off', 'on', 'true', 'yes'], got "
        ++ Text.quoted given
  | .unknownLevel given => "LISPLIB_LOG_LEVEL: unknown level " ++ Text.quoted given
  | .notANumber given =>
      "invalid literal for int() with base 10: "
        ++ String.ofList ((Text.quoted given).toList.take 200)
  | .overlong digits => Text.overlongMessage digits
  | .unknownName given => "Unknown level: " ++ Text.quoted given
  | .notALevel given => "Level not an integer or a valid string: " ++ given.written

/-- Named variables, and whether output goes to a terminal. -/
structure Settings where
  entries : List (String × String)
  terminal : Bool
  deriving DecidableEq, Repr

namespace Settings

/-- The value of a variable. -/
def find? (settings : Settings) (source : String) : Option String :=
  settings.entries.lookup source

/-- The flag that a word stands for. -/
def flagOf? (word : String) : Option Bool :=
  [("1", true), ("true", true), ("yes", true), ("on", true), ("0", false), ("false", false),
    ("no", false), ("off", false)].lookup word

/-- The flag in a variable. There is none when the variable is absent or blank. -/
def flag? (settings : Settings) (source : String) : Except SettingError (Option Bool) :=
  match settings.find? source with
  | none => .ok none
  | some given =>
      let word := Text.trim given
      if word.isEmpty then .ok none
      else
        match flagOf? (Text.lower word) with
        | some value => .ok (some value)
        | none => .error (.notAFlag source given)

/-- Whether to colour output. By default a terminal gets colours. -/
def color (settings : Settings) : Except SettingError Bool :=
  (settings.flag? "LISPLIB_COLOR").map fun flag => flag.getD settings.terminal

/-- A number in the decimal digits of any script. -/
def number (text : String) : Except SettingError Int :=
  let values := text.toList.map Text.decimalValue?
  let leading := (values.takeWhile Option.isSome).length
  if Text.digitLimit < leading then .error (.overlong leading)
  else if values.all Option.isSome then .ok (Text.ofDigits (values.filterMap id))
  else .error (.notANumber text)

/-- The level from which records are shown. -/
def logLevel (settings : Settings) : Except SettingError Int :=
  match settings.find? "LISPLIB_LOG_LEVEL" with
  | none => .ok Level.warning
  | some given =>
      let word := Text.trim given
      if !word.isEmpty && word.toList.all Text.isDigit then number word
      else
        match Level.ofName? (Text.upper word) with
        | some level => .ok level
        | none => .error (.unknownLevel word)

/-- The level from which records are shown, unless one is given outright. -/
def levelOr (settings : Settings) (given : Plain) : Except SettingError Int :=
  match given with
  | .none => settings.logLevel
  | .text name =>
      match Level.ofName? name with
      | some level => .ok level
      | none => .error (.unknownName name)
  | given =>
      match given.whole? with
      | some level => .ok level
      | none => .error (.notALevel given)

end Settings

end PocketLisp
