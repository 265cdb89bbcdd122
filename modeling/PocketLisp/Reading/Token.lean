import PocketLisp.Datum
import PocketLisp.Reading.Step
import PocketLisp.Text.Digit

/-!
# Tokens

The rules of the grammar that do not nest: integers, keys, truth values and
instructions, and the atoms that these make up.

A digit run is always read whole, and so is a key. A truth value is one letter and
takes the blanks behind it along. An instruction that is a word ends at a delimiter.
The reserved words are no keys, so no text is both a key and an instruction.
-/

namespace PocketLisp.Reading

open Attempt

/-- Keys start with an ASCII letter or an underscore. -/
def startsKey (char : Char) : Bool :=
  char.isAlpha || char == '_'

/-- Keys go on with ASCII letters, digits and underscores. -/
def continuesKey (char : Char) : Bool :=
  char.isAlphanum || char == '_'

/-- Words that are no keys. -/
def reservedWords : List String :=
  ["define", "not", "t", "f"]

/-- What starts a key also continues one. -/
theorem continuesKey_of_startsKey {char : Char} (starts : startsKey char = true) :
    continuesKey char = true := by
  simp only [startsKey, continuesKey, Char.isAlphanum, Bool.or_eq_true] at starts ⊢
  exact starts.imp_left .inl

/-- A text that starts a key has a run of key characters ahead. -/
theorem keyRun_ne_nil {text : List Char} (starts : text.head?.any startsKey = true) :
    text.takeWhile continuesKey ≠ [] := by
  cases text with
  | nil => simp at starts
  | cons char text =>
      have continues : continuesKey char = true :=
        continuesKey_of_startsKey (by simpa using starts)
      simp [continues]

/-- A run of ASCII digits, worth no more than the greatest integer. -/
def integer (cursor : Cursor) : Attempt Int cursor :=
  within .integer cursor.offset <|
    let digits := cursor.ahead.takeWhile Char.isDigit
    if missing : digits = [] then fail .noDigit cursor.offset false
    else if Text.digitLimit < digits.length then .error (.overlong digits.length)
    else
      let value : Int := Nat.ofDigitChars 10 digits 0
      if Atom.maxInt < value then
        fail (.integerTooLarge (String.ofList digits)) cursor.offset true
      else .ok ⟨value, cursor.past Char.isDigit, Cursor.length_past_lt missing⟩

/-- A name that is no reserved word. -/
def key (cursor : Cursor) : Attempt String cursor :=
  within .key cursor.offset <|
    if starts : cursor.ahead.head?.any startsKey then
      let word := String.ofList (cursor.ahead.takeWhile continuesKey)
      if reservedWords.contains word then fail (.reservedWord word) cursor.offset false
      else .ok ⟨word, cursor.past continuesKey, Cursor.length_past_lt (keyRun_ne_nil starts)⟩
    else fail .noIdentifier cursor.offset false

/-- The truth value that a letter stands for. -/
def booleanOf? : Char → Option Bool
  | 't' => some true
  | 'f' => some false
  | _ => none

/-- The letter of a truth value, and the blanks behind it. -/
def boolean (cursor : Cursor) : Attempt Bool cursor :=
  within .boolean cursor.offset <|
    match shape : cursor.ahead with
    | [] => fail .noBoolean cursor.offset false
    | char :: rest =>
        match booleanOf? char with
        | none => fail .noBoolean cursor.offset false
        | some value =>
            let behind : Cursor := ⟨cursor.offset + 1, rest⟩
            .ok ⟨value, behind.skipGaps, by
              rw [shape]
              exact Nat.lt_succ_of_le behind.length_skipGaps_le⟩

/-- No token is empty. -/
theorem token_ne_nil (tag : Instruction) : tag.token.toList ≠ [] := by
  cases tag <;> decide

/-- An instruction whose token stands ahead. A word has to end there. -/
def instructionAt? (cursor : Cursor) (tag : Instruction) : Option (Step Instruction cursor) :=
  match found : cursor.behind? tag.token with
  | none => none
  | some next =>
      if tag.isWord && !next.atDelimiter then none
      else some ⟨tag, next, Cursor.length_lt_of_behind? found (token_ne_nil tag)⟩

/-- The first instruction whose token stands ahead. -/
def instruction (cursor : Cursor) : Attempt Instruction cursor :=
  within .instruction cursor.offset <|
    match Instruction.all.findSome? (instructionAt? cursor) with
    | some step => .ok step
    | none => fail .noInstruction cursor.offset false

/-- What stands at a cursor where no atom does. -/
def unrecognized (cursor : Cursor) : Cause :=
  match cursor.ahead with
  | [] => .unexpectedEnd
  | char :: _ => .unexpectedChar char

/-- An integer, a key, a truth value or an instruction, tried in this order. -/
def atomChoice (cursor : Cursor) : Attempt Atom cursor :=
  orElse ((integer cursor).map Atom.int) fun _ =>
  orElse ((key cursor).map Atom.key) fun _ =>
  orElse ((boolean cursor).map Atom.bool) fun _ =>
    (instruction cursor).map Atom.instruction

/-- One of the four kinds of atom. When it is none of them the failures of the four are
dropped for one about the character ahead. -/
def atom (cursor : Cursor) : Attempt Atom cursor :=
  within .atom cursor.offset <|
    match atomChoice cursor with
    | .error (.failure failure) =>
        if failure.committed then .error (.failure failure)
        else fail (unrecognized cursor) cursor.offset false
    | answer => answer

/-- An atom as an expression. -/
def constant (cursor : Cursor) : Attempt Datum cursor :=
  within .constant cursor.offset ((atom cursor).map fun value => .constant (.atom value))

end PocketLisp.Reading
