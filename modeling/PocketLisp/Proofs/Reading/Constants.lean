import PocketLisp.Proofs.Reading.Nesting

/-!
# Constants and their spellings

A constant is read exactly where one of its spellings stands and nothing behind it
goes on with it. `Stops` says for every tree which characters do not, and `settle`
where a reading comes to: a truth value takes the blanks behind it along.
-/

namespace PocketLisp.Reading

open Attempt

/-- A character that ends every spelling of a tree before it. -/
def Stops (tree : Datum) (char : Char) : Prop :=
  match tree with
  | .constant (.atom (.int _)) => char.isDigit = false
  | .constant (.atom (.key _)) | .constant (.atom (.bool _)) => continuesKey char = false
  | .constant (.atom (.instruction tag)) => tag.isWord = true → Text.isGap char = true ∨ char = ')'
  | _ => True

/-- What may stand behind a spelling of a tree: the end of the text, or a character that
ends the spelling. -/
def Ends (tree : Datum) (rest : List Char) : Prop :=
  ∀ char, rest.head? = some char → Stops tree char

/-- Where the reading of a tree comes to behind its spelling. -/
def settle (tree : Datum) (cursor : Cursor) : Cursor :=
  match tree with
  | .constant (.atom (.bool _)) => cursor.skipGaps
  | _ => cursor

/-- A spelling of a tree that stands at a cursor, and where its reading comes to. -/
def Stands (cursor : Cursor) (tree : Datum) (next : Cursor) : Prop :=
  ∃ spelling behind, Spells WithinLimit tree spelling ∧ cursor.Takes spelling behind
    ∧ Ends tree behind.ahead ∧ next = settle tree behind

variable {cursor next : Cursor} {tree : Datum} {char : Char}

section Characters

/-- A blank continues neither a key nor a number. -/
theorem continuesKey_of_isGap (gap : Text.isGap char = true) : continuesKey char = false := by
  simp only [Text.isGap, Bool.or_eq_true, beq_iff_eq] at gap
  rcases gap with ((rfl | rfl) | rfl) | rfl <;> decide

/-- A digit continues a key. -/
theorem continuesKey_of_isDigit (digit : char.isDigit = true) : continuesKey char = true := by
  simp [continuesKey, Char.isAlphanum, digit]

/-- What does not continue a key is no digit. -/
theorem isDigit_of_not_continuesKey (other : continuesKey char = false) : char.isDigit = false := by
  cases digit : char.isDigit with
  | false => rfl
  | true => exact absurd (continuesKey_of_isDigit digit) (by simp [other])

/-- What starts a key is no digit. -/
theorem isDigit_of_startsKey (starts : startsKey char = true) : char.isDigit = false := by
  rw [← Bool.not_eq_true]
  intro digit
  have small : char.toNat ≤ 57 := (Char.isDigit_iff_toNat.1 digit).2
  have letter : (decide (char.val ≥ 'A'.val ∧ char.val ≤ 'Z'.val)
      || (decide (char.val ≥ 'a'.val) && decide (char.val ≤ 'z'.val)) || char == '_') = true :=
    starts
  simp only [Bool.or_eq_true, Bool.and_eq_true, decide_eq_true_eq, beq_iff_eq] at letter
  rcases letter with (upper | lower) | rfl
  · have : 65 ≤ char.toNat := UInt32.le_iff_toNat_le.1 upper.1
    omega
  · have : 97 ≤ char.toNat := UInt32.le_iff_toNat_le.1 lower.1
    omega
  · contradiction

/-- A blank ends every spelling. -/
theorem stops_of_isGap (tree : Datum) (gap : Text.isGap char = true) : Stops tree char := by
  have other := continuesKey_of_isGap gap
  unfold Stops
  split
  · exact isDigit_of_not_continuesKey other
  · exact other
  · exact other
  · exact fun _ => .inl gap
  · trivial

/-- A closing bracket ends every spelling. -/
theorem stops_bracket (tree : Datum) : Stops tree ')' := by
  unfold Stops
  split
  · decide
  · decide
  · decide
  · exact fun _ => .inr rfl
  · trivial

end Characters

section Writing

variable {behind : Cursor}

/-- The first character ahead is that of what is taken. -/
theorem Cursor.Takes.head {taken : List Char} (takes : cursor.Takes taken next)
    (first : taken.head? = some char) : cursor.ahead.head? = some char := by
  rw [takes.1, List.head?_append, first, Option.some_or]

/-- A numeral that no digit follows is read as a constant. -/
theorem yields_constant_of_numeral {digits : List Char} {value : Int}
    (numeral : Numeral WithinLimit digits value) (takes : cursor.Takes digits next)
    (ends : Ends (.int value) next.ahead) : Yields (constant cursor) (.int value) next :=
  yields_constant_iff.2 ⟨.int value, yields_atom_iff.2 (.inl ⟨value,
    yields_integer_iff.2 ⟨digits, numeral, takes, ends⟩, rfl⟩), rfl⟩

/-- No integer stands where something other than a digit does. -/
theorem declines_integer_of_head (head : cursor.ahead.head? = some char)
    (other : char.isDigit = false) : Declines (integer cursor) :=
  declines_integer_iff.2 fun _ same => Option.some.inj (head.symm.trans same) ▸ other

/-- A name that nothing continues is read as a constant. -/
theorem yields_constant_of_isName {name : String} (isName : IsName name)
    (takes : cursor.Takes name.toList next) (ends : Ends (.key name) next.ahead) :
    Yields (constant cursor) (.key name) next := by
  obtain ⟨char, head, starts⟩ := isName.starts
  have integers := declines_integer_of_head (takes.head head) (isDigit_of_startsKey starts)
  have read : Yields (key cursor) name next := yields_key_iff.2 ⟨isName, takes, ends⟩
  exact yields_constant_iff.2
    ⟨.key name, yields_atom_iff.2 (.inr ⟨integers, .inl ⟨name, read, rfl⟩⟩), rfl⟩

/-- Reserved words are spelled like keys. -/
theorem continuesKey_of_mem_reservedWords :
    ∀ word ∈ reservedWords, ∀ char ∈ word.toList, continuesKey char = true := by
  have letters : (reservedWords.all fun word => word.toList.all continuesKey) = true := by decide
  exact fun word reserved => List.all_eq_true.1 (List.all_eq_true.1 letters word reserved)

/-- A reserved word that nothing continues is no key. -/
theorem declines_key_of_reserved {word : String} (reserved : word ∈ reservedWords)
    (takes : cursor.Takes word.toList next)
    (stops : ∀ char, next.ahead.head? = some char → continuesKey char = false) :
    Declines (key cursor) := by
  have letters := continuesKey_of_mem_reservedWords word reserved
  have run := (Cursor.past_eq_of_takes takes letters stops).1
  refine declines_key_iff.2 (.inr ?_)
  rwa [run, String.ofList_toList]

/-- The letter of a truth value that nothing continues is read as a constant. -/
theorem yields_constant_of_letter (value : Bool) (takes : cursor.Takes [letter value] behind)
    (ends : Ends (.bool value) behind.ahead) :
    Yields (constant cursor) (.bool value) behind.skipGaps := by
  have integers : Declines (integer cursor) :=
    declines_integer_of_head (takes.head rfl) (by cases value <;> decide)
  have keys : Declines (key cursor) := by
    have reserved : String.singleton (letter value) ∈ reservedWords := by cases value <;> decide
    exact declines_key_of_reserved reserved (by simpa using takes) ends
  have read : Yields (boolean cursor) value behind.skipGaps :=
    yields_boolean_iff.2 ⟨behind, takes, rfl⟩
  exact yields_constant_iff.2 ⟨.bool value,
    yields_atom_iff.2 (.inr ⟨integers, .inr ⟨keys, .inl ⟨value, read, rfl⟩⟩⟩), rfl⟩

/-- How the token of an instruction starts. -/
theorem token_head {tag : Instruction} (head : tag.token.toList.head? = some char) :
    char.isDigit = false ∧ booleanOf? char = none
      ∧ (tag.isWord = false → startsKey char = false) := by
  cases tag <;> obtain rfl := Option.some.inj head <;> decide

/-- A token is no key: it starts like none, or it is a reserved word. -/
theorem declines_key_of_token {tag : Instruction} (takes : cursor.Takes tag.token.toList next)
    (ends : Ends (.instruction tag) next.ahead) : Declines (key cursor) := by
  obtain ⟨first, rest, token⟩ := List.exists_cons_of_ne_nil (token_ne_nil tag)
  have head : tag.token.toList.head? = some first := by rw [token, List.head?_cons]
  cases word : tag.isWord with
  | false =>
      refine declines_key_iff.2 (.inl fun char same => ?_)
      obtain rfl := Option.some.inj ((takes.head head).symm.trans same)
      exact (token_head head).2.2 word
  | true =>
      have reserved : tag.token ∈ reservedWords := by cases tag <;> revert word <;> decide
      refine declines_key_of_reserved reserved takes fun char same => ?_
      rcases ends char same word with gap | rfl
      · exact continuesKey_of_isGap gap
      · decide

/-- The token of an instruction is ended by a delimiter, if it has to be. -/
theorem ends_instruction_iff {tag : Instruction} :
    Ends (.instruction tag) cursor.ahead ↔ (tag.isWord = true → cursor.atDelimiter = true) := by
  cases ahead : cursor.ahead with
  | nil => simp [Ends, Cursor.atDelimiter, ahead]
  | cons char rest =>
      have stops : Stops (.instruction tag) char ↔
          (tag.isWord = true → Text.isGap char = true ∨ char = ')') := Iff.rfl
      simp [Ends, Cursor.atDelimiter, ahead, stops]

/-- Where a token is ended, neither an integer nor a key nor a truth value is read. -/
theorem declines_of_token {tag : Instruction} (takes : cursor.Takes tag.token.toList next)
    (ends : Ends (.instruction tag) next.ahead) :
    Declines (integer cursor) ∧ Declines (key cursor) ∧ Declines (boolean cursor) := by
  obtain ⟨first, rest, token⟩ := List.exists_cons_of_ne_nil (token_ne_nil tag)
  have head : tag.token.toList.head? = some first := by rw [token, List.head?_cons]
  obtain ⟨noDigit, noLetter, -⟩ := token_head head
  refine ⟨declines_integer_of_head (takes.head head) noDigit, declines_key_of_token takes ends,
    declines_boolean_iff.2 fun char same => ?_⟩
  rwa [← Option.some.inj ((takes.head head).symm.trans same)]

/-- A token is read as a constant when a delimiter ends it if it is a word. -/
theorem yields_constant_of_token (tag : Instruction) (takes : cursor.Takes tag.token.toList next)
    (ends : Ends (.instruction tag) next.ahead) :
    Yields (constant cursor) (.instruction tag) next := by
  obtain ⟨integers, keys, booleans⟩ := declines_of_token takes ends
  have read : Yields (instruction cursor) tag next :=
    yields_instruction_iff.2 ⟨takes, ends_instruction_iff.1 ends⟩
  exact yields_constant_iff.2 ⟨.instruction tag,
    yields_atom_iff.2 (.inr ⟨integers, .inr ⟨keys, .inr ⟨booleans, tag, read, rfl⟩⟩⟩), rfl⟩

end Writing

section Reading

/-- The reserved words that start with the letter of a truth value are these letters. -/
theorem length_of_mem_reservedWords :
    ∀ word ∈ reservedWords, ∀ value, word.toList.head? = some (letter value) →
      word.toList.length = 1 := by
  decide

/-- A letter that a key declined is not the start of a longer word. -/
theorem ends_of_declines_key {value : Bool} {behind : Cursor} (declines : Declines (key cursor))
    (takes : cursor.Takes [letter value] behind) : Ends (.bool value) behind.ahead := by
  intro char head
  cases continues : continuesKey char with
  | false => exact continues
  | true =>
      obtain ⟨rest, ahead⟩ := List.head?_eq_some_iff.1 head
      rcases declines_key_iff.1 declines with other | reserved
      · have := other (letter value) (takes.head rfl)
        cases value <;> contradiction
      · have first : continuesKey (letter value) = true := by cases value <;> decide
        have run : cursor.ahead.takeWhile continuesKey =
            letter value :: char :: rest.takeWhile continuesKey := by
          rw [takes.1, ahead]
          simp [first, continues]
        have short := length_of_mem_reservedWords _ reserved value (by rw [run]; simp)
        rw [run] at short
        simp at short

/-- What is read as a constant is spelled there. -/
theorem Stands.of_constant (yields : Yields (constant cursor) tree next) :
    Stands cursor tree next := by
  obtain ⟨value, atoms, rfl⟩ := yields_constant_iff.1 yields
  rcases yields_atom_iff.1 atoms with ⟨number, read, rfl⟩ | ⟨-, ⟨name, read, rfl⟩ | ⟨keys, others⟩⟩
  · obtain ⟨digits, numeral, takes, ends⟩ := yields_integer_iff.1 read
    exact ⟨digits, next, .integer numeral, takes, ends, rfl⟩
  · obtain ⟨isName, takes, ends⟩ := yields_key_iff.1 read
    exact ⟨name.toList, next, .key isName, takes, ends, rfl⟩
  · rcases others with ⟨truth, read, rfl⟩ | ⟨-, tag, read, rfl⟩
    · obtain ⟨behind, takes, rfl⟩ := yields_boolean_iff.1 read
      exact ⟨[letter truth], behind, .boolean truth, takes, ends_of_declines_key keys takes, rfl⟩
    · obtain ⟨takes, delimited⟩ := yields_instruction_iff.1 read
      exact ⟨tag.token.toList, next, .instruction tag, takes, ends_instruction_iff.2 delimited, rfl⟩

end Reading

end PocketLisp.Reading
