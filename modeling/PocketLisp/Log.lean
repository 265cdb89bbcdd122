import PocketLisp.Event
import PocketLisp.Settings

/-!
# The log

Events become records of the level at which they are traced. Records go to a stream
and, if one is wanted, to a file. The stream shows the records from its own level
on, with the name of the level padded and, on a terminal, coloured; the file takes
every record that the log takes, without either.

Records have no clock of their own: the column of the time is always the same.
-/

namespace PocketLisp.Log

/-- One entry of the log. -/
structure Record where
  channel : String
  level : Int
  message : String
  deriving DecidableEq, Repr

/-- The record of an event. -/
def Record.ofEvent (event : Event) : Record :=
  ⟨event.channel, Level.debug, event.message⟩

/-- The name of the log. Its channels have this name or one below it. -/
def name : String := "lisplib"

/-- The level below which the log takes no records. -/
def threshold : Int := Level.debug

/-- Text in a bold colour of the terminal. -/
def paint (color : Int) (text : String) : String :=
  "\x1b[1;" ++ toString (30 + color) ++ "m" ++ text ++ "\x1b[0m"

/-- The colour of a level name, for the names that have one: red for what is wrong,
yellow for what may be, green for news and blue for traces. -/
def colorOf? (levelName : String) : Option Int :=
  [("WARNING", 3), ("DEBUG", 4), ("CRITICAL", 1), ("ERROR", 1), ("INFO", 2)].lookup levelName

/-- Text filled up with blanks to eight columns. -/
def padded (text : String) : String :=
  text ++ String.ofList (List.replicate (8 - text.length) ' ')

/-- The columns of a line. -/
def columns (levelName channel message : String) : String :=
  " - ".intercalate ["00:00:00", levelName, padded channel, message]

/-- The name of a level as the stream shows it. -/
def streamLevelName (colored : Bool) (levelName : String) : String :=
  match colored, colorOf? levelName with
  | true, some color => paint color (padded levelName)
  | _, _ => padded levelName

/-- A line of the stream. -/
def streamLine (colored : Bool) (levelName channel message : String) : String :=
  columns (streamLevelName colored levelName) channel message

/-- A line of the file. -/
def fileLine (record : Record) : String :=
  columns (Level.name record.level) record.channel record.message

/-- Whether a record is about a channel of the log. -/
def belongs (record : Record) : Bool :=
  record.channel == name || (name ++ ".").toList.isPrefixOf record.channel.toList

/-- Whether a record gets through to a receiver with a level of its own. -/
def passes (level : Int) (record : Record) : Bool :=
  belongs record && threshold ≤ record.level && level ≤ record.level

/-- Lines as text, each with its line feed. -/
def linesText (lines : List String) : String :=
  String.join (lines.map fun line => line ++ "\n")

/-- The text of lines is each of them with a line feed behind it, in order, and nothing else. -/
theorem linesText_eq_join (lines : List String) :
    linesText lines = String.join (lines.map (· ++ "\n")) := rfl

/-- The receivers of the log: the level of the stream, whether it goes to a terminal,
and whether there is a file. -/
structure Receivers where
  streamLevel : Int
  terminal : Bool
  file : Bool
  deriving DecidableEq, Repr

namespace Receivers

/-- Receivers under some settings. The level of the stream is a setting unless it is
given. -/
def ofSettings (settings : Settings) (level : Plain) (file : Bool) :
    Except SettingError Receivers :=
  (settings.levelOr level).map fun level => ⟨level, settings.terminal, file⟩

/-- The level of the file, if there is one. -/
def fileLevel? (receivers : Receivers) : Option Int :=
  if receivers.file then some Level.debug else none

/-- What the stream shows of some records. -/
def streamText (receivers : Receivers) (records : List Record) : String :=
  linesText ((records.filter (passes receivers.streamLevel)).map fun record =>
    streamLine receivers.terminal (Level.name record.level) record.channel record.message)

/-- What the file takes of some records, if there is one. -/
def fileText? (receivers : Receivers) (records : List Record) : Option String :=
  receivers.fileLevel?.map fun level =>
    linesText ((records.filter (passes level)).map fileLine)

end Receivers

end PocketLisp.Log
