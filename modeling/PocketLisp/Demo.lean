import PocketLisp.Layout
import PocketLisp.Log
import PocketLisp.Session

/-!
# The demonstration

Reads and evaluates texts one after the other in one environment and shows what
became of each. A text that cannot be read is reported in one line, its trace is noted
down, and it changes nothing; a text that cannot be evaluated is reported and keeps what
it had bound by then. Only a broken setting or a literal with too many digits ends the
demonstration early.
-/

namespace PocketLisp.Demo

/-- The texts that are shown unless others are given. -/
def standardInputs : List String :=
  ["(+ 1 2 3)", "(- 1 2)", "(* 5 4)", "(/ 10 2)", "(define x 42)", "x", "'x'"]

/-- What becomes of one text. -/
inductive Item
  | rejected (error : Reading.ParseError)
  | accepted (tree : Datum) (layout : String) (outcome : Except EvalError Datum)

/-- The lines that show an item. -/
def Item.lines : Item → List String
  | .rejected error => ["Parse error: " ++ error.message]
  | .accepted tree layout outcome =>
      [ "Parsed expression: " ++ tree.written ++ "  ;; " ++ layout,
        match outcome with
        | .ok value => "Evaluated result: " ++ value.written
        | .error error => "Error: " ++ error.message ]

/-- Why the demonstration ended early. -/
inductive Interruption
  | overlong (digits : Nat)
  | layout (error : LayoutError)
  | misuse (error : Misuse)
  deriving DecidableEq, Repr

/-- Show one text. -/
def item (layout : Layout) (input : String) (environment : Environment) :
    Run Interruption Item :=
  match Reading.read true input with
  | .error (.overlong digits) => .fail (.overlong digits) environment
  | .error (.failure failure) =>
      let error := failure.report input
      ⟨.ok (.rejected error), environment, [.refused input error]⟩
  | .ok tree =>
      let shown : Run Interruption Item :=
        match layout.write 0 tree with
        | .error error => .fail (.layout error) environment
        | .ok text =>
            let run := eval tree environment
            match run.outcome with
            | .error (.misuse misuse) =>
                ⟨.error (.misuse misuse), run.environment, run.events⟩
            | .error (.evaluation error) =>
                ⟨.ok (.accepted tree text (.error error)), run.environment, run.events⟩
            | .ok value =>
                ⟨.ok (.accepted tree text (.ok value)), run.environment, run.events⟩
      shown.withEvents [.parsed input tree]

/-- Show texts one after the other. -/
def items (layout : Layout) : List String → Environment → Run Interruption (List Item)
  | [], environment => .done [] environment
  | input :: inputs, environment =>
      (item layout input environment).andThen fun first environment =>
        (items layout inputs environment).map (first :: ·)

/-- The demonstration of some texts, from an empty environment. -/
def run (settings : Settings) (inputs : List String) : Run Interruption (List Item) :=
  items (Layout.standard settings) inputs .empty

/-- The output of a demonstration. -/
def output (shown : List Item) : String :=
  Log.linesText (shown.flatMap Item.lines)

/-- The record of an event of the program. Notes of the demonstration itself go by the name of
the program, which is no channel of the log. -/
def record : Event → Log.Record
  | .refused source error => { Log.Record.ofEvent (.refused source error) with channel := "__main__" }
  | event => .ofEvent event

/-- The program as a whole: the output of the standard demonstration, and what the
log shows meanwhile. -/
structure Program where
  output : String
  log : String
  deriving DecidableEq, Repr

/-- Why the program ended early. -/
inductive Stop
  | setting (error : SettingError)
  | interruption (interruption : Interruption)
  deriving DecidableEq, Repr

/-- The text that the program ends with when it ends early. -/
def Stop.message : Stop → String
  | .setting error => error.message
  | .interruption (.overlong digits) => Text.overlongMessage digits
  | .interruption (.layout error) => error.message
  | .interruption (.misuse error) => error.message

/-- Run the program under some settings. -/
def program (settings : Settings) : Except Stop Program :=
  match Log.Receivers.ofSettings settings .none false with
  | .error error => .error (.setting error)
  | .ok receivers =>
      let shown := run settings standardInputs
      match shown.outcome with
      | .error interruption => .error (.interruption interruption)
      | .ok items =>
          .ok ⟨output items, receivers.streamText (shown.events.map record)⟩

end PocketLisp.Demo
