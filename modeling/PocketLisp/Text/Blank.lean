/-!
# Blank characters

Two kinds of blank are told apart. The grammar skips four ASCII characters
between its items. The settings are trimmed of every blank of the character
database, which has many more.
-/

namespace PocketLisp.Text

/-- The four blanks of the grammar: space, tab, carriage return and line feed. -/
def isGap (char : Char) : Bool :=
  char == ' ' || char == '\t' || char == '\r' || char == '\n'

/-- The stretches of blank code points, both ends included. -/
def blankStretches : List (Nat × Nat) :=
  [(0x9, 0xd), (0x1c, 0x20), (0x85, 0x85), (0xa0, 0xa0), (0x1680, 0x1680), (0x2000, 0x200a),
   (0x2028, 0x2029), (0x202f, 0x202f), (0x205f, 0x205f), (0x3000, 0x3000)]

/-- A blank lies in one of the blank stretches. -/
def isBlank (char : Char) : Bool :=
  blankStretches.any fun stretch => stretch.1 ≤ char.toNat && char.toNat ≤ stretch.2

/-- The text between its leading and its trailing blanks. -/
def trim (text : String) : String :=
  let leading := text.toList.dropWhile isBlank
  String.ofList (leading.reverse.dropWhile isBlank).reverse

end PocketLisp.Text
