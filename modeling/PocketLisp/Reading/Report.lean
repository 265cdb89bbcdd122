import PocketLisp.Reading.Failure
import PocketLisp.Text.Place

/-!
# Reports

A failure to read becomes a `ParseError` once the text is added. The report has the
line and the column of the failure, a message of one line, and a trace with a line
for every rule that the failure came through.
-/

namespace PocketLisp.Reading

/-- What is reported about a failure. The position and the offsets of the contexts
are whatever the maker of the report gives. -/
structure ParseError where
  kind : Kind
  text : String
  position : Int
  detail : String
  committed : Bool
  contexts : List (String × Int)
  deriving DecidableEq, Repr

/-- The report of a failure to read a text. -/
def Failure.report (text : String) (failure : Failure) : ParseError where
  kind := failure.cause.kind
  text := text
  position := failure.position
  detail := failure.cause.detail
  committed := failure.committed
  contexts := failure.trail.map fun context => (context.1.name, (context.2 : Int))

namespace ParseError

/-- The line of the failure. -/
def line (error : ParseError) : Nat :=
  Text.line error.text.toList error.position

/-- The column of the failure. -/
def column (error : ParseError) : Int :=
  Text.column error.text.toList error.position

/-- The names of the rules, innermost first. -/
def rules (error : ParseError) : List String :=
  error.contexts.map Prod.fst

/-- What stands at the position of the failure: at most ten characters. -/
def snippet (error : ParseError) : String :=
  match Text.slice error.text.toList error.position (error.position + 10) with
  | [] => "found end of input"
  | chars => "found " ++ Text.quoted (String.ofList chars)

/-- The report in one line. -/
def message (error : ParseError) : String :=
  let place := error.kind.phrase ++ " at line " ++ toString error.line
    ++ ", column " ++ toString error.column
  let inner := match error.contexts with
    | [] => ""
    | (rule, _) :: _ => " in " ++ rule
  let detail := if error.detail.isEmpty then "" else ": " ++ error.detail
  place ++ inner ++ detail

/-- One line of the trace. -/
def contextLine (context : String × Int) : String :=
  "  in " ++ context.1 ++ " at offset " ++ toString context.2

/-- The report with one line for each rule, innermost first. -/
def trace (error : ParseError) : String :=
  let found := if error.detail.isEmpty then error.snippet else error.detail
  "\n".intercalate
    ((error.kind.phrase ++ " at offset " ++ toString error.position ++ ": " ++ found)
      :: error.contexts.map contextLine)

end ParseError

end PocketLisp.Reading
