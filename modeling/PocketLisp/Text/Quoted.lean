import PocketLisp.Text.Printable

/-!
# Quoted text

Text between quote marks, on one line and free of unprintable characters. The
mark is an apostrophe unless the text has apostrophes and no double quotes.
A backslash stands before the mark in use, before another backslash, and before
the short names of line feed, carriage return and tab. Every other unprintable
character is written by its code point in two, four or eight hexadecimal digits.
-/

namespace PocketLisp.Text

/-- The last `width` hexadecimal digits of a number, most significant first and in
lower case. -/
def hexDigits : Nat → Nat → List Char
  | 0, _ => []
  | width + 1, number => hexDigits width (number / 16) ++ [Nat.digitChar (number % 16)]

/-- A width is a number of digits. -/
@[simp] theorem length_hexDigits (width number : Nat) :
    (hexDigits width number).length = width := by
  induction width generalizing number with
  | zero => rfl
  | succ width inductionHypothesis => simp [hexDigits, inductionHypothesis]

/-- The code point of a character, in the narrowest of the three widths. -/
def codePointEscape (char : Char) : List Char :=
  if char.toNat < 0x100 then '\\' :: 'x' :: hexDigits 2 char.toNat
  else if char.toNat < 0x10000 then '\\' :: 'u' :: hexDigits 4 char.toNat
  else '\\' :: 'U' :: hexDigits 8 char.toNat

/-- One character as it stands between two marks. -/
def escapeChar (mark char : Char) : List Char :=
  if char = mark ∨ char = '\\' then ['\\', char]
  else if char = '\n' then ['\\', 'n']
  else if char = '\r' then ['\\', 'r']
  else if char = '\t' then ['\\', 't']
  else if isPrintable char then [char]
  else codePointEscape char

/-- Double quotes are the marks of text that has apostrophes and no double quotes. -/
def quoteMark (chars : List Char) : Char :=
  if chars.contains '\x27' && !chars.contains '\x22' then '\x22' else '\x27'

/-- The characters of a quoted text, marks included. -/
def quoteChars (chars : List Char) : List Char :=
  let mark := quoteMark chars
  mark :: chars.flatMap (escapeChar mark) ++ [mark]

/-- Text in its quoted form. -/
def quoted (text : String) : String :=
  String.ofList (quoteChars text.toList)

/-- The characters of a quoted text are those of its character form. -/
@[simp] theorem toList_quoted (text : String) :
    (quoted text).toList = quoteChars text.toList := by
  simp [quoted]

end PocketLisp.Text
