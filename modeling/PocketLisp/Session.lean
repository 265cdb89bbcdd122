import PocketLisp.Evaluation
import PocketLisp.Reading.Report
import PocketLisp.Reading.Source

/-!
# Sessions

A session evaluates one piece of code after another in an environment that it
keeps. A piece of code is read as a whole before any of it is evaluated, so code
that cannot be read changes nothing. Code that fails halfway keeps what it had bound
by then.

A `Request` is one thing that a caller may ask of a session, and `respond` answers
it. A session can be handed over to another one with its bindings, or be replaced by
a fresh one.
-/

namespace PocketLisp

/-- Why code has no result: it could not be read, or evaluating it failed. -/
inductive Problem
  | unread (source : String) (refusal : Reading.Refusal)
  | failed (fault : Fault)
  deriving DecidableEq, Repr

/-- The text of a problem. -/
def Problem.message : Problem → String
  | .unread source (.failure failure) => (failure.report source).message
  | .unread _ (.overlong digits) => Text.overlongMessage digits
  | .failed fault => fault.message

namespace Session

/-- Evaluate every expression of a piece of code. -/
def evalCode (code : String) (environment : Environment) : Run Problem (List Datum) :=
  match Reading.readAll code with
  | .error refusal => .fail (.unread code refusal) environment
  | .ok trees =>
      ((evalAll trees environment).mapError .failed).withEvents
        [.parsedAll code trees.length]

/-- Evaluate one tree. -/
def evalTree (tree : Datum) (environment : Environment) : Run Problem Datum :=
  (eval tree environment).mapError .failed

/-- Evaluate the expression at the start of a text. With `complete` nothing may
follow it. -/
def evalSource (complete : Bool) (source : String) (environment : Environment) :
    Run Problem Datum :=
  match Reading.read complete source with
  | .error refusal => .fail (.unread source refusal) environment
  | .ok tree => (evalTree tree environment).withEvents [.parsed source tree]

/-- What a caller may ask of a session. Names and values are whatever the caller
gives. -/
inductive Request
  | code (code : String)
  | source (source : String)
  | tree (tree : Datum)
  | reset
  | share
  | fresh
  | define (name value : Datum)
  | lookup (name : Datum)
  | get (name default : Datum)
  | contains (name : Datum)
  | size
  | names
  | snapshot
  | written
  deriving DecidableEq, Repr

/-- What a session answers. -/
inductive Answer
  | silence
  | nothing
  | one (value : Datum)
  | many (values : List Datum)
  | truth (value : Bool)
  | count (value : Nat)
  | names (names : List String)
  | bindings (bindings : List (String × Atom))
  | text (text : String)
  deriving DecidableEq, Repr

/-- The answer that a piece of code has: nothing, its only result, or all of them. -/
def Answer.ofResults : List Datum → Answer
  | [] => .nothing
  | [value] => .one value
  | values => .many values

/-- A request that only looks at the environment. -/
def look (answer : Answer) (environment : Environment) : Run Problem Answer :=
  .done answer environment

/-- A request that a caller may have got wrong. -/
def ofMisuse {α : Type} (result : Except Misuse α) (environment : Environment)
    (next : α → Run Problem Answer) : Run Problem Answer :=
  match result with
  | .ok value => next value
  | .error misuse => .fail (.failed (.misuse misuse)) environment

/-- Answer a request. -/
def respond (request : Request) (environment : Environment) : Run Problem Answer :=
  match request with
  | .code code => (evalCode code environment).map Answer.ofResults
  | .source source => (evalSource false source environment).map .one
  | .tree tree => (evalTree tree environment).map .one
  | .reset => .done .nothing .empty
  | .share => look .silence environment
  | .fresh => .done .silence .empty
  | .define name value =>
      ofMisuse (environment.define name value) environment fun changed =>
        .done .nothing changed
  | .lookup name =>
      match environment.lookup name with
      | .ok value => look (.one (.atom value)) environment
      | .error fault => .fail (.failed fault) environment
  | .get name default =>
      ofMisuse (environment.get name default) environment fun value =>
        look (.one value) environment
  | .contains name => look (.truth (environment.contains name)) environment
  | .size => look (.count environment.size) environment
  | .names => look (.names environment.names) environment
  | .snapshot => look (.bindings environment.bindings) environment
  | .written => look (.text environment.written) environment

/-- The environment after a list of requests. -/
def after (requests : List Request) (environment : Environment) : Environment :=
  requests.foldl (fun environment request => (respond request environment).environment)
    environment

end Session

end PocketLisp
