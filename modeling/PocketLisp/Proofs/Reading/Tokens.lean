import PocketLisp.Proofs.Reading.Outcome
import PocketLisp.Proofs.Reading.Spelling

/-!
# Readings of tokens

What the rules that do not nest yield, and when they decline, in terms of the
characters that they take. An integer and a key come to the end of their run; what
follows neither goes on with it. Of the four only an integer can be refused for good.
-/

namespace PocketLisp.Reading

open Attempt

variable {cursor next : Cursor}

/-- A literal is read where it stands ahead. -/
theorem yields_literal_iff {text : String} {written : text.toList ≠ []} :
    Yields (literal text written cursor) () next ↔ cursor.Takes text.toList next := by
  rw [← Cursor.behind?_eq_some_iff]
  unfold literal
  split
  · next behind found => simp [found]
  · next missing => simp [missing]

/-- A literal makes a step where it stands ahead. -/
theorem exists_literal_of_takes (text : String) (written : text.toList ≠ [])
    (takes : cursor.Takes text.toList next) :
    ∃ step, literal text written cursor = .ok step ∧ step.next = next := by
  obtain ⟨step, read, -, behind⟩ := yields_literal_iff.2 takes
  exact ⟨step, read, behind⟩

/-- The step of a literal takes it. -/
theorem takes_of_literal {text : String} {written : text.toList ≠ []} {step : Step Unit cursor}
    (read : literal text written cursor = .ok step) : cursor.Takes text.toList step.next :=
  yields_literal_iff.1 ⟨step, read, rfl, rfl⟩

/-- A literal that does not stand ahead is no final failure. -/
theorem declines_literal_iff {text : String} {written : text.toList ≠ []} :
    Declines (literal text written cursor) ↔ ∀ next, ¬cursor.Takes text.toList next := by
  simp only [← Cursor.behind?_eq_some_iff]
  unfold literal
  split
  · next behind found => simp [found]
  · next missing => simp [missing]

/-- A literal is never refused for good. -/
theorem not_aborts_literal {text : String} {written : text.toList ≠ []} {refusal : Refusal} :
    ¬Aborts (literal text written cursor) refusal := by
  unfold literal
  split
  · simp
  · simp

/-- The run of digits that a cursor stands in front of. -/
def Cursor.digits (cursor : Cursor) : List Char :=
  cursor.ahead.takeWhile Char.isDigit

/-- The longest run of digits, when it is a numeral, is read as an integer. -/
theorem yields_integer_iff {value : Int} :
    Yields (integer cursor) value next ↔
      ∃ digits, Numeral WithinLimit digits value ∧ cursor.Takes digits next
        ∧ ∀ char, next.ahead.head? = some char → char.isDigit = false := by
  constructor
  · intro yields
    simp only [integer, yields_within_iff] at yields
    split at yields
    · simp at yields
    · next written =>
        split at yields
        · simp at yields
        · next short =>
            split at yields
            · simp at yields
            · next fits =>
                obtain ⟨rfl, rfl⟩ := yields_ok.1 yields
                refine ⟨_, ⟨written, ?_, rfl, Int.not_lt.1 fits, Nat.not_lt.1 short⟩,
                  cursor.takes_past _, fun _ => Cursor.head_past⟩
                exact List.all_eq_true.1 List.all_takeWhile
  · rintro ⟨digits, numeral, takes, stops⟩
    obtain ⟨run, rfl⟩ := Cursor.past_eq_of_takes takes numeral.decimal stops
    have written := numeral.written
    have fits := numeral.fits
    have short := numeral.length
    simp only [integer, yields_within_iff, run]
    rw [dif_neg written, if_neg (Nat.not_lt.2 short), if_neg]
    · simp [numeral.worth]
    · rw [← numeral.worth]
      exact Int.not_lt.2 fits

/-- Where no digit stands an integer declines. -/
theorem declines_integer_iff :
    Declines (integer cursor) ↔ ∀ char, cursor.ahead.head? = some char → char.isDigit = false := by
  rw [← Cursor.takeWhile_eq_nil_iff]
  simp only [integer, declines_within_iff]
  split
  · next missing => simp [missing]
  · next written =>
      split
      · simp [written]
      · split <;> simp [written]

/-- A run of digits is refused for good when there are too many of them, or when they
are worth too much. -/
theorem aborts_integer_iff {refusal : Refusal} :
    Aborts (integer cursor) refusal ↔
      Text.digitLimit < cursor.digits.length ∧ refusal = .overlong cursor.digits.length
      ∨ cursor.digits.length ≤ Text.digitLimit
        ∧ Atom.maxInt < Nat.ofDigitChars 10 cursor.digits 0
        ∧ refusal = .failure ⟨.integerTooLarge (String.ofList cursor.digits), cursor.offset, true,
            [(.integer, cursor.offset)]⟩ := by
  simp only [integer, Cursor.digits, aborts_within_iff]
  split
  · next missing => simp [missing, Atom.maxInt]
  · next written =>
      split
      · next long =>
          have := Nat.not_le.2 long
          simp [long, this, Refusal.through]
      · next short =>
          have := Nat.not_lt.1 short
          split
          · next large => simp [short, this, large, Refusal.through]
          · next fits => simp [short, fits]

/-- The longest run of key characters, when it is a name, is read as a key. -/
theorem yields_key_iff {name : String} :
    Yields (key cursor) name next ↔
      IsName name ∧ cursor.Takes name.toList next
        ∧ ∀ char, next.ahead.head? = some char → continuesKey char = false := by
  constructor
  · intro yields
    simp only [key, yields_within_iff] at yields
    split at yields
    · next starts =>
        split at yields
        · simp at yields
        · next free =>
            obtain ⟨rfl, rfl⟩ := yields_ok.1 yields
            have takes := cursor.takes_past continuesKey
            refine ⟨⟨?_, ?_, by simpa using free⟩, by simpa using takes, fun _ => Cursor.head_past⟩
            · obtain ⟨char, head, first⟩ := (Option.any_eq_true _ _).1 starts
              refine ⟨char, ?_, first⟩
              rw [String.toList_ofList, List.head?_takeWhile, head]
              simp [continuesKey_of_startsKey first]
            · rw [String.toList_ofList]
              exact List.all_eq_true.1 List.all_takeWhile
    · simp at yields
  · rintro ⟨isName, takes, stops⟩
    obtain ⟨run, rfl⟩ := Cursor.past_eq_of_takes takes isName.continues stops
    obtain ⟨char, head, first⟩ := isName.starts
    have starts : cursor.ahead.head?.any startsKey = true := by
      rw [takes.1, List.head?_append, head]
      simpa using first
    have free : reservedWords.contains name = false := by simpa using isName.free
    simp only [key, yields_within_iff, run]
    rw [dif_pos starts, if_neg (by simpa using isName.free)]
    simp

/-- A key declines where nothing starts one, and at a reserved word. -/
theorem declines_key_iff :
    Declines (key cursor) ↔
      (∀ char, cursor.ahead.head? = some char → startsKey char = false)
        ∨ String.ofList (cursor.ahead.takeWhile continuesKey) ∈ reservedWords := by
  simp only [key, declines_within_iff]
  split
  · next starts =>
      obtain ⟨char, head, first⟩ := (Option.any_eq_true _ _).1 starts
      split
      · next taken => simpa using .inr (by simpa using taken)
      · next free =>
          simp only [not_declines_ok, false_iff, not_or]
          refine ⟨fun other => ?_, by simpa using free⟩
          rw [other char head] at first
          contradiction
  · next other =>
      rw [declines_fail]
      refine iff_of_true rfl (.inl fun char head => ?_)
      simpa [head] using other

/-- A key is never refused for good. -/
theorem not_aborts_key {refusal : Refusal} : ¬Aborts (key cursor) refusal := by
  simp only [key, aborts_within_iff]
  split
  · split <;> simp
  · simp

/-- A letter stands for the truth value whose letter it is. -/
theorem booleanOf?_eq_some_iff {char : Char} {value : Bool} :
    booleanOf? char = some value ↔ char = letter value := by
  unfold booleanOf?
  split <;> cases value <;> simp_all [letter]

/-- The letter of a truth value is read together with the blanks behind it. -/
theorem yields_boolean_iff {value : Bool} :
    Yields (boolean cursor) value next ↔
      ∃ behind, cursor.Takes [letter value] behind ∧ next = behind.skipGaps := by
  constructor
  · intro yields
    simp only [boolean, yields_within_iff] at yields
    split at yields
    · simp at yields
    · next char rest ahead =>
        split at yields
        · simp at yields
        · next read found =>
            obtain ⟨rfl, rfl⟩ := yields_ok.1 yields
            obtain rfl := booleanOf?_eq_some_iff.1 found
            exact ⟨⟨cursor.offset + 1, rest⟩, ⟨ahead, rfl⟩, rfl⟩
  · rintro ⟨⟨behind, rest⟩, ⟨ahead, moved⟩, rfl⟩
    obtain ⟨offset, chars⟩ := cursor
    obtain rfl : chars = letter value :: rest := ahead
    obtain rfl : behind = offset + 1 := moved
    cases value <;> simp [boolean, letter, booleanOf?]

/-- A truth value declines where neither letter stands. -/
theorem declines_boolean_iff :
    Declines (boolean cursor) ↔
      ∀ char, cursor.ahead.head? = some char → booleanOf? char = none := by
  simp only [boolean, declines_within_iff]
  split
  · next ahead => simp [ahead]
  · next char rest ahead =>
      split
      · next other => simp [ahead, other]
      · next value found => simp [ahead, found]

/-- A truth value is never refused for good. -/
theorem not_aborts_boolean {refusal : Refusal} : ¬Aborts (boolean cursor) refusal := by
  simp only [boolean, aborts_within_iff]
  split
  · simp
  · split <;> simp

/-- Tokens differ in their first character. -/
theorem token_head_injective {left right : Instruction}
    (same : left.token.toList.head? = right.token.toList.head?) : left = right := by
  cases left <;> cases right <;> first | rfl | exact absurd same (by decide)

/-- At most one token stands ahead. -/
theorem token_unique {left right : Instruction} {other : Cursor}
    (first : cursor.Takes left.token.toList next)
    (second : cursor.Takes right.token.toList other) : left = right := by
  obtain ⟨leftHead, leftTail, leftToken⟩ := List.exists_cons_of_ne_nil (token_ne_nil left)
  obtain ⟨rightHead, rightTail, rightToken⟩ := List.exists_cons_of_ne_nil (token_ne_nil right)
  have same := first.1.symm.trans second.1
  rw [leftToken, rightToken] at same
  apply token_head_injective
  rw [leftToken, rightToken, List.head?_cons, List.head?_cons, (List.cons.inj same).1]

/-- The instruction whose token stands ahead, with a delimiter behind a word. -/
theorem instructionAt?_eq_some_iff {tag : Instruction} {step : Step Instruction cursor} :
    instructionAt? cursor tag = some step ↔
      step.value = tag ∧ cursor.Takes tag.token.toList step.next
        ∧ (tag.isWord = true → step.next.atDelimiter = true) := by
  obtain ⟨value, next, shorter⟩ := step
  rw [← Cursor.behind?_eq_some_iff]
  unfold instructionAt?
  split
  · next missing => simp [missing]
  · next behind found =>
      split
      · next undelimited =>
          obtain ⟨word, goesOn⟩ : tag.isWord = true ∧ behind.atDelimiter = false := by
            simpa using undelimited
          refine iff_of_false nofun ?_
          rintro ⟨-, same, delimited⟩
          obtain rfl := Option.some.inj (found.symm.trans same)
          rw [delimited word] at goesOn
          contradiction
      · next delimited =>
          constructor
          · intro same
            obtain ⟨rfl, rfl⟩ := Step.mk.inj (Option.some.inj same)
            exact ⟨rfl, found, fun word => by simpa [word] using delimited⟩
          · rintro ⟨rfl, same, -⟩
            obtain rfl := Option.some.inj (found.symm.trans same)
            rfl

/-- An instruction is read where its token stands ahead, with a delimiter behind a
word. -/
theorem yields_instruction_iff {tag : Instruction} :
    Yields (instruction cursor) tag next ↔
      cursor.Takes tag.token.toList next ∧ (tag.isWord = true → next.atDelimiter = true) := by
  simp only [instruction, yields_within_iff]
  constructor
  · intro yields
    split at yields
    · next step found =>
        obtain ⟨other, -, here⟩ := List.exists_of_findSome?_eq_some found
        obtain ⟨rfl, rfl⟩ := yields_ok.1 yields
        obtain ⟨rfl, stands⟩ := instructionAt?_eq_some_iff.1 here
        exact stands
    · simp at yields
  · rintro ⟨takes, delimited⟩
    split
    · next step found =>
        -- Another instruction found first would have a token that starts alike.
        obtain ⟨other, -, here⟩ := List.exists_of_findSome?_eq_some found
        obtain ⟨rfl, stands, -⟩ := instructionAt?_eq_some_iff.1 here
        obtain rfl := token_unique takes stands
        exact yields_ok.2 ⟨rfl, stands.unique takes⟩
    · next none =>
        have shorter : next.ahead.length < cursor.ahead.length :=
          Cursor.length_lt_of_behind? (Cursor.behind?_eq_some_iff.2 takes) (token_ne_nil tag)
        have missing := List.findSome?_eq_none_iff.1 none tag (Instruction.mem_all tag)
        have found : instructionAt? cursor tag = some ⟨tag, next, shorter⟩ :=
          instructionAt?_eq_some_iff.2 ⟨rfl, takes, delimited⟩
        rw [found] at missing
        contradiction

/-- An instruction is never refused for good. -/
theorem not_aborts_instruction {refusal : Refusal} : ¬Aborts (instruction cursor) refusal := by
  simp only [instruction, aborts_within_iff]
  split <;> simp

/-- An atom is what its choice yields. -/
theorem yields_atom_iff_choice {value : Atom} :
    Yields (atom cursor) value next ↔ Yields (atomChoice cursor) value next := by
  simp only [atom, yields_within_iff]
  split
  · next failure failed =>
      rw [failed]
      split <;> simp
  · rfl

/-- An atom is what the first of the four rules that does not decline yields. -/
theorem yields_atom_iff {value : Atom} :
    Yields (atom cursor) value next ↔
      (∃ number, Yields (integer cursor) number next ∧ value = .int number)
      ∨ Declines (integer cursor) ∧
        ((∃ name, Yields (key cursor) name next ∧ value = .key name)
        ∨ Declines (key cursor) ∧
          ((∃ truth, Yields (boolean cursor) truth next ∧ value = .bool truth)
          ∨ Declines (boolean cursor) ∧
            ∃ tag, Yields (instruction cursor) tag next ∧ value = .instruction tag)) := by
  rw [yields_atom_iff_choice]
  simp only [atomChoice, yields_orElse_iff, yields_map_iff, declines_map_iff]

/-- An atom declines when all four rules do. -/
theorem declines_atom_iff :
    Declines (atom cursor) ↔
      Declines (integer cursor) ∧ Declines (key cursor) ∧ Declines (boolean cursor)
        ∧ Declines (instruction cursor) := by
  have choice : Declines (atom cursor) ↔ Declines (atomChoice cursor) := by
    simp only [atom, declines_within_iff]
    split
    · next failure failed =>
        rw [failed]
        split <;> simp_all
    · rfl
  rw [choice]
  simp only [atomChoice, declines_orElse_iff, declines_map_iff]

/-- An atom is refused for good when an integer is. -/
theorem aborts_atom_iff {refusal : Refusal} :
    Aborts (atom cursor) refusal ↔
      ∃ inner, Aborts (integer cursor) inner ∧ refusal = inner.through .atom cursor.offset := by
  have choice : Aborts (atom cursor) refusal ↔
      ∃ inner, Aborts (atomChoice cursor) inner ∧ refusal = inner.through .atom cursor.offset := by
    simp only [atom, aborts_within_iff]
    split
    · next failure failed =>
        rw [failed]
        split <;> simp_all
    · rfl
  rw [choice]
  simp only [atomChoice, aborts_orElse_iff, aborts_map_iff, not_aborts_key, not_aborts_boolean,
    not_aborts_instruction, and_false, or_false]

/-- A constant holds an atom. -/
theorem yields_constant_iff {tree : Datum} :
    Yields (constant cursor) tree next ↔
      ∃ value, Yields (atom cursor) value next ∧ tree = .constant (.atom value) := by
  simp only [constant, yields_within_iff, yields_map_iff]

/-- A constant declines when an atom does. -/
theorem declines_constant_iff : Declines (constant cursor) ↔ Declines (atom cursor) := by
  simp only [constant, declines_within_iff, declines_map_iff]

/-- A constant is refused for good when an atom is. -/
theorem aborts_constant_iff {refusal : Refusal} :
    Aborts (constant cursor) refusal ↔
      ∃ inner, Aborts (atom cursor) inner ∧ refusal = inner.through .constant cursor.offset := by
  simp only [constant, aborts_within_iff, aborts_map_iff]

end PocketLisp.Reading
