import PocketLisp.Text.Quoted

/-!
# Failures of reading

A `Failure` says what was wrong, at which offset, and through which rules of the
grammar the reader had come. It keeps the cause as a value; the kind and the text of
a cause are read off it.

One thing is not a failure that the grammar can work around: a literal with too
many digits, which nothing but the end of reading follows. `Refusal` has both.
-/

namespace PocketLisp.Reading

/-- The rules of the grammar that show up in reports. -/
inductive Rule
  | integer
  | key
  | boolean
  | instruction
  | atom
  | constant
  | application
  | define
  | expr
  deriving DecidableEq, Repr

namespace Rule

/-- All rules. -/
def all : List Rule :=
  [.integer, .key, .boolean, .instruction, .atom, .constant, .application, .define, .expr]

/-- The name of a rule in reports. -/
def name : Rule → String
  | .integer => "integer"
  | .key => "key"
  | .boolean => "boolean"
  | .instruction => "instruction"
  | .atom => "atom"
  | .constant => "constant"
  | .application => "application"
  | .define => "define"
  | .expr => "expr"

/-- The rule with a given name. -/
def ofName? (name : String) : Option Rule :=
  all.find? fun rule => rule.name == name

end Rule

/-- The kinds of failure. -/
inductive Kind
  | malformedInteger
  | emptyApplication
  | unterminatedApplication
  | unrecognizedAtom
  | expectedToken
  | trailingInput
  deriving DecidableEq, Repr

namespace Kind

/-- All kinds. -/
def all : List Kind :=
  [.malformedInteger, .emptyApplication, .unterminatedApplication, .unrecognizedAtom,
    .expectedToken, .trailingInput]

/-- The kind as a reader is told it. -/
def phrase : Kind → String
  | .malformedInteger => "malformed integer"
  | .emptyApplication => "empty application"
  | .unterminatedApplication => "unterminated application"
  | .unrecognizedAtom => "unrecognized atom"
  | .expectedToken => "expected token"
  | .trailingInput => "trailing input"

/-- The kind as a program names it. -/
def name : Kind → String
  | .malformedInteger => "MALFORMED_INTEGER"
  | .emptyApplication => "EMPTY_APPLICATION"
  | .unterminatedApplication => "UNTERMINATED_APPLICATION"
  | .unrecognizedAtom => "UNRECOGNIZED_ATOM"
  | .expectedToken => "EXPECTED_TOKEN"
  | .trailingInput => "TRAILING_INPUT"

/-- The kind with a given name. -/
def ofName? (name : String) : Option Kind :=
  all.find? fun kind => kind.name == name

end Kind

/-- What was wrong. -/
inductive Cause
  | integerTooLarge (digits : String)
  | noOperator
  | noClosingBracket
  | unexpectedChar (char : Char)
  | unexpectedEnd
  | noDigit
  | noIdentifier
  | reservedWord (word : String)
  | noBoolean
  | noInstruction
  | noLiteral (literal : String)
  | leftover (text : String)
  deriving DecidableEq, Repr

namespace Cause

/-- The kind of failure that a cause makes. -/
def kind : Cause → Kind
  | .integerTooLarge _ => .malformedInteger
  | .noOperator => .emptyApplication
  | .noClosingBracket => .unterminatedApplication
  | .unexpectedChar _ | .unexpectedEnd => .unrecognizedAtom
  | .noDigit | .noIdentifier | .reservedWord _ | .noBoolean | .noInstruction
  | .noLiteral _ => .expectedToken
  | .leftover _ => .trailingInput

/-- The text of a cause. Whatever comes from the text that is read is quoted, except
a run of digits. -/
def detail : Cause → String
  | .integerTooLarge digits => digits ++ " does not fit in a signed 32-bit integer"
  | .noOperator => "an application needs at least an operator"
  | .noClosingBracket => "expected ')' before end of input"
  | .unexpectedChar char => "unexpected " ++ Text.quoted (String.singleton char)
  | .unexpectedEnd => "unexpected end of input"
  | .noDigit => "expected a digit"
  | .noIdentifier => "expected an identifier"
  | .reservedWord word => Text.quoted word ++ " is a reserved word"
  | .noBoolean => "expected 't' or 'f'"
  | .noInstruction => "expected an instruction"
  | .noLiteral literal => "expected " ++ Text.quoted literal
  | .leftover text => "unexpected " ++ Text.quoted text ++ " after expression"

end Cause

/-- A failure to read: its cause, its offset, whether other alternatives are ruled
out, and the rules it came through with their offsets, innermost first. -/
structure Failure where
  cause : Cause
  position : Nat
  committed : Bool
  trail : List (Rule × Nat)
  deriving DecidableEq, Repr

/-- Why a text was not read. -/
inductive Refusal
  | failure (failure : Failure)
  | overlong (digits : Nat)
  deriving DecidableEq, Repr

end PocketLisp.Reading
