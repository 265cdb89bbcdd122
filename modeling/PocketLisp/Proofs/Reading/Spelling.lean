import PocketLisp.Reading.Token

/-!
# Spellings of trees

The grammar as a relation between trees and texts. It says which texts may stand for
a tree and knows nothing of the order in which a reader tries its rules. Blanks may
stand between any two items, and have to stand only where the two would run into
one.

How many digits a numeral may have is a parameter. The grammar itself sets no limit,
but a reader may have one.
-/

namespace PocketLisp.Reading

/-- Characters that are all blanks of the grammar. -/
def Gap (chars : List Char) : Prop :=
  ∀ char ∈ chars, Text.isGap char = true

/-- A gap may be empty. -/
theorem gap_nil : Gap [] := nofun

/-- A space is a gap. -/
theorem gap_space : Gap [' '] := by simp [Gap, Text.isGap]

/-- Two gaps make up one. -/
theorem Gap.append {first second : List Char} (isGap : Gap first) (isGapToo : Gap second) :
    Gap (first ++ second) :=
  fun char member => (List.mem_append.1 member).elim (isGap char) (isGapToo char)

/-- A key of the grammar: a letter or an underscore, then letters, digits and
underscores, and not one of the reserved words. -/
structure IsName (name : String) : Prop where
  starts : ∃ char, name.toList.head? = some char ∧ startsKey char = true
  continues : ∀ char ∈ name.toList, continuesKey char = true
  free : name ∉ reservedWords

/-- A key is recognised by its characters. -/
theorem isName_iff {name : String} :
    IsName name ↔ name.toList.head?.any startsKey = true ∧ name.toList.all continuesKey = true
      ∧ name ∉ reservedWords := by
  rw [Option.any_eq_true, List.all_eq_true]
  exact ⟨fun ⟨starts, continues, free⟩ => ⟨starts, continues, free⟩,
    fun ⟨starts, continues, free⟩ => ⟨starts, continues, free⟩⟩

instance (name : String) : Decidable (IsName name) :=
  decidable_of_iff _ isName_iff.symm

/-- Digits that spell an integer which fits, as many as are admitted. -/
structure Numeral (admitted : Nat → Prop) (digits : List Char) (value : Int) : Prop where
  written : digits ≠ []
  decimal : ∀ char ∈ digits, char.isDigit = true
  worth : value = Nat.ofDigitChars 10 digits 0
  fits : value ≤ Atom.maxInt
  length : admitted digits.length

/-- The letter of a truth value. -/
def letter : Bool → Char
  | true => 't'
  | false => 'f'

/-- Blanks have to stand behind a tree when what comes next would be taken for a part
of it. A word instruction always needs them, a key or a truth value before whatever
continues a key, and an integer before a digit. -/
def NeedsGap (left : Datum) (right : List Char) : Prop :=
  match left with
  | .constant (.atom (.instruction tag)) => tag.isWord = true
  | .constant (.atom (.key _)) | .constant (.atom (.bool _)) =>
      ∃ char, right.head? = some char ∧ continuesKey char = true
  | .constant (.atom (.int _)) => ∃ char, right.head? = some char ∧ char.isDigit = true
  | _ => False

mutual

/-- A text stands for a tree. -/
inductive Spells (admitted : Nat → Prop) : Datum → List Char → Prop
  | integer {value : Int} {digits : List Char} (numeral : Numeral admitted digits value) :
      Spells admitted (.constant (.atom (.int value))) digits
  | key {name : String} (isName : IsName name) :
      Spells admitted (.constant (.atom (.key name))) name.toList
  | boolean (value : Bool) : Spells admitted (.constant (.atom (.bool value))) [letter value]
  | instruction (tag : Instruction) :
      Spells admitted (.constant (.atom (.instruction tag))) tag.token.toList
  | application {operator : Datum} {operands : List Datum} {lead items : List Char}
      (leadGap : Gap lead) (spelled : SpellsItems admitted operator operands items) :
      Spells admitted (.application operator operands) ('(' :: (lead ++ items ++ [')']))
  | definition {name : String} {value : Datum} {lead inner spelling behind : List Char}
      (leadGap : Gap lead) (isName : IsName name) (innerGap : Gap inner)
      (spelled : Spells admitted value spelling) (behindGap : Gap behind) :
      Spells admitted (.application (.constant (.atom (.key name))) [value])
        ("define(".toList ++ lead ++ name.toList ++ '(' :: (inner ++ spelling ++ behind)
          ++ "))".toList)

/-- A text stands for a tree and others behind it, blanks behind the last included. -/
inductive SpellsItems (admitted : Nat → Prop) : Datum → List Datum → List Char → Prop
  | last {item : Datum} {spelling behind : List Char} (spelled : Spells admitted item spelling)
      (behindGap : Gap behind) : SpellsItems admitted item [] (spelling ++ behind)
  | more {item next : Datum} {items : List Datum} {spelling gap rest : List Char}
      (spelled : Spells admitted item spelling) (isGap : Gap gap)
      (apart : NeedsGap item rest → gap ≠ []) (others : SpellsItems admitted next items rest) :
      SpellsItems admitted item (next :: items) (spelling ++ gap ++ rest)

end

/-- Numerals of any length: the grammar itself. -/
def AnyLength (_ : Nat) : Prop := True

/-- Numerals that a reader of integers converts. -/
def WithinLimit (length : Nat) : Prop := length ≤ Text.digitLimit

/-- The items of an application stand inside it. -/
theorem items_isInfix (lead items : List Char) : items <:+: '(' :: (lead ++ items ++ [')']) :=
  ⟨'(' :: lead, [')'], rfl⟩

/-- An item stands before the blanks and the items behind it. -/
theorem item_isInfix (spelling gap rest : List Char) : spelling <:+: spelling ++ gap ++ rest :=
  ⟨[], gap ++ rest, by simp⟩

/-- The value of a definition in the long style stands inside it. -/
theorem value_isInfix (head inner spelling behind tail : List Char) :
    spelling <:+: head ++ '(' :: (inner ++ spelling ++ behind) ++ tail :=
  ⟨head ++ '(' :: inner, behind ++ tail, by simp⟩

mutual

/-- A text goes on standing for a tree when all runs of digits in it stay admitted. -/
theorem Spells.widen {admitted admitted' : Nat → Prop} {tree : Datum} {spelling : List Char} :
    Spells admitted tree spelling →
      (∀ run, run <:+: spelling → (∀ char ∈ run, char.isDigit = true) →
        admitted run.length → admitted' run.length) →
      Spells admitted' tree spelling
  | .integer numeral, wider =>
      .integer { numeral with
        length := wider _ (List.infix_refl _) numeral.decimal numeral.length }
  | .key isName, _ => .key isName
  | .boolean value, _ => .boolean value
  | .instruction tag, _ => .instruction tag
  | .application leadGap spelled, wider =>
      .application leadGap (spelled.widen fun run inside =>
        wider run (inside.trans (items_isInfix _ _)))
  | .definition leadGap isName innerGap spelled behindGap, wider =>
      .definition leadGap isName innerGap
        (spelled.widen fun run inside => wider run (inside.trans (value_isInfix _ _ _ _ _)))
        behindGap

/-- A text goes on standing for several trees when all runs of digits in it stay
admitted. -/
theorem SpellsItems.widen {admitted admitted' : Nat → Prop} {item : Datum} {items : List Datum}
    {spelling : List Char} :
    SpellsItems admitted item items spelling →
      (∀ run, run <:+: spelling → (∀ char ∈ run, char.isDigit = true) →
        admitted run.length → admitted' run.length) →
      SpellsItems admitted' item items spelling
  | .last spelled behindGap, wider =>
      .last (spelled.widen fun run inside =>
        wider run (inside.trans (List.prefix_append _ _).isInfix)) behindGap
  | .more spelled isGap apart others, wider =>
      .more
        (spelled.widen fun run inside =>
          wider run (inside.trans (item_isInfix _ _ _)))
        isGap apart
        (others.widen fun run inside =>
          wider run (inside.trans (List.suffix_append _ _).isInfix))

end

end PocketLisp.Reading
