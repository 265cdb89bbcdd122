/-!
# Letter case as far as ASCII words need it

Settings are compared with ASCII words whatever their case. A character outside
ASCII matters only if its other case is an ASCII letter that such a word has.
-/

namespace PocketLisp.Text

/-- The upper case of a character. Outside ASCII only the dotless i and the long s
have a single ASCII letter as their upper case; every other character is kept. -/
def upperChar (char : Char) : Char :=
  if char == 'ı' then 'I' else if char == 'ſ' then 'S' else char.toUpper

/-- The lower case of a character. Outside ASCII only the Kelvin sign has an ASCII
letter as its lower case; every other character is kept. -/
def lowerChar (char : Char) : Char :=
  if char == '\u212a' then 'k' else char.toLower

/-- The text in upper case. -/
def upper (text : String) : String :=
  String.ofList (text.toList.map upperChar)

/-- The text in lower case. -/
def lower (text : String) : String :=
  String.ofList (text.toList.map lowerChar)

end PocketLisp.Text
