/-!
# Severity levels

The levels of log records are whole numbers, of which six have names.
-/

namespace PocketLisp.Level

/-- The level of records that trace what happens. -/
def debug : Int := 10

/-- The level below which records are dropped unless a setting says otherwise. -/
def warning : Int := 30

/-- The named levels, with the usual name of each level first. -/
def named : List (String × Int) :=
  [("CRITICAL", 50), ("FATAL", 50), ("ERROR", 40), ("WARNING", 30), ("WARN", 30), ("INFO", 20),
    ("DEBUG", 10), ("NOTSET", 0)]

/-- The level with a given name. -/
def ofName? (name : String) : Option Int :=
  named.lookup name

/-- The name of a level. A level without a name is called by its number. -/
def name (level : Int) : String :=
  match named.find? fun entry => entry.2 == level with
  | some entry => entry.1
  | none => "Level " ++ toString level

end PocketLisp.Level
