import PocketLisp.Text.Quoted

/-!
# Code points

Text from outside is made of code points. Nearly all of them are characters. The others are
surrogates, halves of a character in one of the encodings, which mean nothing on their own.

Text with surrogates in it is read as if some character stood for each of them. The grammar gives
no meaning to any character outside ASCII, so any of these will do. Where such text is quoted, a
surrogate is written by its number, as every unprintable character is.
-/

namespace PocketLisp.Text

/-- A code point: a character, or one of the surrogates. -/
inductive CodePoint
  | character (char : Char)
  | surrogate (index : Fin 0x800)
  deriving DecidableEq, Repr

namespace CodePoint

/-- The character that a code point is, if it is one. -/
def char? : CodePoint → Option Char
  | .character char => some char
  | .surrogate _ => none

/-- The character that is read for a code point, given those that stand for the surrogates. -/
def stand (standIn : Fin 0x800 → Char) : CodePoint → Char
  | .character char => char
  | .surrogate index => standIn index

/-- The text that is read for a sequence of code points. -/
def readable (standIn : Fin 0x800 → Char) (points : List CodePoint) : String :=
  String.ofList (points.map (stand standIn))

/-- One code point as it stands between two marks. -/
def escape (mark : Char) : CodePoint → List Char
  | .character char => escapeChar mark char
  | .surrogate index => '\\' :: 'u' :: hexDigits 4 (0xd800 + index)

/-- Code points in their quoted form. -/
def quoted (points : List CodePoint) : String :=
  let mark := quoteMark (points.filterMap char?)
  String.ofList (mark :: points.flatMap (escape mark) ++ [mark])

/-- The characters of a text are all of its code points. -/
theorem filterMap_character (chars : List Char) :
    (chars.map character).filterMap char? = chars := by
  rw [List.filterMap_map]
  exact List.filterMap_some

/-- Characters are quoted as in a text. -/
theorem quoted_character (chars : List Char) :
    quoted (chars.map character) = Text.quoted (String.ofList chars) := by
  have same : ∀ mark, (chars.map character).flatMap (escape mark) = chars.flatMap (escapeChar mark) :=
    fun mark => List.flatMap_map character (escape mark) chars
  rw [quoted, filterMap_character, same, Text.quoted, String.toList_ofList, quoteChars]

end CodePoint

end PocketLisp.Text
