import Mathlib.Algebra.Group.Nat.Defs
import Mathlib.Tactic.SplitIfs
import PocketLisp.Text.CodePoint

/-!
# Quoted text is unambiguous

Each character of a quoted text can be told from its escape, whatever stands behind it: an escape
starts with a backslash, its second character says how many digits belong to it, and any other
character stands for itself. The mark in use starts no escape, so the end of a quoted text can be
told as well. Different texts may be quoted with different marks; the first character says with
which.

This holds of code points too, because no character has the number of a surrogate.
-/

namespace PocketLisp.Text

/-- What is written for a value can be told from what is written for any other, and its end from
what stands behind it. -/
def PrefixFree {α : Type} (write : α → List Char) : Prop :=
  ∀ left right rest restToo,
    write left ++ rest = write right ++ restToo → left = right ∧ rest = restToo

variable {α : Type} {write : α → List Char} {char mark : Char} {left right rest restToo : List Char}

/-- What is written without any character on end behind it can be told as well. -/
theorem PrefixFree.injective (free : PrefixFree write) {value other : α}
    (same : write value = write other) : value = other :=
  (free value other [] [] (congrArg (· ++ []) same)).1

/-- What can be read back in front of any text is free of prefixes. -/
theorem prefixFree_of_reads {read : List Char → Option (α × List Char)}
    (reads : ∀ value rest, read (write value ++ rest) = some (value, rest)) : PrefixFree write := by
  intro value other rest restToo same
  have answers : some (value, rest) = some (other, restToo) := by
    rw [← reads value rest, same, reads other restToo]
  exact Prod.mk.inj (Option.some.inj answers)

/-- Two texts without a character that stands behind both of them are the same text. -/
theorem append_cons_inj (leftFree : char ∉ left) (rightFree : char ∉ right)
    (same : left ++ char :: rest = right ++ char :: restToo) : left = right ∧ rest = restToo := by
  induction left generalizing right with
  | nil =>
      cases right with
      | nil => exact ⟨rfl, (List.cons.inj same).2⟩
      | cons other right =>
          obtain ⟨rfl, -⟩ := List.cons.inj same
          exact absurd List.mem_cons_self rightFree
  | cons first left inductionHypothesis =>
      cases right with
      | nil =>
          obtain ⟨rfl, -⟩ := List.cons.inj same
          exact absurd List.mem_cons_self leftFree
      | cons other right =>
          obtain ⟨rfl, behind⟩ := List.cons.inj same
          obtain ⟨rfl, others⟩ := inductionHypothesis (mt (List.mem_cons_of_mem _) leftFree)
            (mt (List.mem_cons_of_mem _) rightFree) behind
          exact ⟨rfl, others⟩

/-- A quote mark: an apostrophe or a double quote. -/
def IsMark (mark : Char) : Prop :=
  mark = '\x27' ∨ mark = '\x22'

/-- One of the two marks is in use. -/
theorem isMark_quoteMark (chars : List Char) : IsMark (quoteMark chars) := by
  unfold quoteMark
  split
  · exact .inr rfl
  · exact .inl rfl

/-- A character between two marks is escaped, or stands for itself. -/
theorem escapeChar_cases (mark char : Char) :
    escapeChar mark char = [char] ∧ char ≠ mark ∨ ∃ behind, escapeChar mark char = '\\' :: behind := by
  unfold escapeChar codePointEscape
  split_ifs with plain
  all_goals first
    | exact .inr ⟨_, rfl⟩
    | exact .inl ⟨rfl, fun same => plain (.inl same)⟩

section Escapes

/-- What a hexadecimal digit is worth. -/
def hexDigit (char : Char) : Nat :=
  if char.isDigit then char.toNat - '0'.toNat else char.toNat - 'a'.toNat + 10

/-- What some hexadecimal digits are worth. -/
def hexNumber (digits : List Char) : Nat :=
  digits.foldl (fun number char => 16 * number + hexDigit char) 0

/-- A number that does not need more digits is what its digits are worth. -/
theorem hexNumber_hexDigits {width number : Nat} (fits : number < 16 ^ width) :
    hexNumber (hexDigits width number) = number := by
  induction width generalizing number with
  | zero =>
      obtain rfl : number = 0 := by simpa using fits
      rfl
  | succ width inductionHypothesis =>
      have last : ∀ digit < 16, hexDigit (Nat.digitChar digit) = digit := by decide
      have front : hexNumber (hexDigits width (number / 16)) = number / 16 :=
        inductionHypothesis (Nat.div_lt_of_lt_mul (by rwa [Nat.pow_succ, Nat.mul_comm] at fits))
      rw [hexNumber] at front ⊢
      rw [hexDigits, List.foldl_append, front, List.foldl_cons, List.foldl_nil,
        last _ (Nat.mod_lt number (by decide))]
      omega

namespace CodePoint

/-- The code point with a number. -/
def ofNumber (number : Nat) : CodePoint :=
  if between : 0xd800 ≤ number ∧ number < 0xe000 then .surrogate ⟨number - 0xd800, by omega⟩
  else .character (Char.ofNat number)

/-- A character has its number. -/
theorem ofNumber_toNat (char : Char) : ofNumber char.toNat = .character char := by
  have valid : char.toNat < 0xd800 ∨ 0xdfff < char.toNat ∧ char.toNat < 0x110000 := char.valid
  rw [ofNumber, dif_neg (by omega), Char.ofNat_toNat]

/-- A surrogate has its number. -/
theorem ofNumber_surrogate (index : Fin 0x800) :
    ofNumber (0xd800 + index) = .surrogate index := by
  rw [ofNumber, dif_pos (by omega)]
  simp

/-- The code point that a number of digits stand for, and what is behind them. -/
def readNumber (width : Nat) (chars : List Char) : CodePoint × List Char :=
  (ofNumber (hexNumber (chars.take width)), chars.drop width)

/-- The code point whose escape goes on in this way behind its backslash, and what is behind
it. -/
def readEscape : List Char → Option (CodePoint × List Char)
  | [] => none
  | 'n' :: rest => some (.character '\n', rest)
  | 'r' :: rest => some (.character '\r', rest)
  | 't' :: rest => some (.character '\t', rest)
  | 'x' :: rest => some (readNumber 2 rest)
  | 'u' :: rest => some (readNumber 4 rest)
  | 'U' :: rest => some (readNumber 8 rest)
  | char :: rest => some (.character char, rest)

/-- The first code point of an escaped text, and what is behind it. -/
def readFirst : List Char → Option (CodePoint × List Char)
  | [] => none
  | char :: rest => if char = '\\' then readEscape rest else some (.character char, rest)

/-- The digits of a number that does not need more of them are read back. -/
theorem readNumber_hexDigits {width number : Nat} (fits : number < 16 ^ width) (rest : List Char) :
    readNumber width (hexDigits width number ++ rest) = (ofNumber number, rest) := by
  have length := length_hexDigits width number
  rw [readNumber, List.take_left' length, List.drop_left' length, hexNumber_hexDigits fits]

/-- A character that is escaped by its number is read back. -/
theorem readFirst_codePointEscape (char : Char) (rest : List Char) :
    readFirst (codePointEscape char ++ rest) = some (.character char, rest) := by
  have valid : char.toNat < 0xd800 ∨ 0xdfff < char.toNat ∧ char.toNat < 0x110000 := char.valid
  rw [← ofNumber_toNat char]
  unfold codePointEscape
  split
  · next narrow => exact congrArg some (readNumber_hexDigits narrow rest)
  split
  · next narrow => exact congrArg some (readNumber_hexDigits narrow rest)
  · exact congrArg some (readNumber_hexDigits (by omega) rest)

/-- An escaped character is read back. -/
theorem readFirst_escapeChar (isMark : IsMark mark) (char : Char) (rest : List Char) :
    readFirst (escapeChar mark char ++ rest) = some (.character char, rest) := by
  unfold escapeChar
  split
  · next marked =>
      rcases marked with rfl | rfl
      · rcases isMark with rfl | rfl <;> rfl
      · rfl
  · next plain =>
      split
      · next ends => rw [ends]; rfl
      split
      · next returns => rw [returns]; rfl
      split
      · next tab => rw [tab]; rfl
      split
      · exact if_neg fun backslash => plain (.inr backslash)
      · exact readFirst_codePointEscape char rest

/-- An escaped code point is read back. -/
theorem readFirst_escape (isMark : IsMark mark) (point : CodePoint) (rest : List Char) :
    readFirst (escape mark point ++ rest) = some (point, rest) := by
  cases point with
  | character char => exact readFirst_escapeChar isMark char rest
  | surrogate index =>
      have fits : 0xd800 + (index : Nat) < 16 ^ 4 := by omega
      have read := congrArg some (readNumber_hexDigits fits rest)
      rwa [ofNumber_surrogate] at read

/-- Escapes are free of prefixes. -/
theorem prefixFree_escape (isMark : IsMark mark) : PrefixFree (escape mark) :=
  prefixFree_of_reads (readFirst_escape isMark)

/-- The mark in use starts no escape. -/
theorem exists_escape_eq (isMark : IsMark mark) (point : CodePoint) :
    ∃ first behind, escape mark point = first :: behind ∧ first ≠ mark := by
  have other : '\\' ≠ mark := by rcases isMark with rfl | rfl <;> decide
  cases point with
  | surrogate index => exact ⟨_, _, rfl, other⟩
  | character char =>
      rcases escapeChar_cases mark char with ⟨itself, plain⟩ | ⟨behind, escaped⟩
      · exact ⟨char, [], itself, plain⟩
      · exact ⟨'\\', behind, escaped, other⟩

/-- Escaped code points can be told one by one, up to the mark behind them. -/
theorem escapes_append_inj (isMark : IsMark mark) {points others : List CodePoint}
    (same : points.flatMap (escape mark) ++ mark :: rest
      = others.flatMap (escape mark) ++ mark :: restToo) : points = others ∧ rest = restToo := by
  induction points generalizing others with
  | nil =>
      cases others with
      | nil => exact ⟨rfl, (List.cons.inj same).2⟩
      | cons other others =>
          obtain ⟨first, behind, shape, starts⟩ := exists_escape_eq isMark other
          rw [List.flatMap_cons, shape] at same
          exact absurd (List.cons.inj same).1.symm starts
  | cons point points inductionHypothesis =>
      cases others with
      | nil =>
          obtain ⟨first, behind, shape, starts⟩ := exists_escape_eq isMark point
          rw [List.flatMap_cons, shape] at same
          exact absurd (List.cons.inj same).1 starts
      | cons other others =>
          rw [List.flatMap_cons, List.flatMap_cons, List.append_assoc, List.append_assoc] at same
          obtain ⟨rfl, behind⟩ := prefixFree_escape isMark _ _ _ _ same
          obtain ⟨rfl, rests⟩ := inductionHypothesis behind
          exact ⟨rfl, rests⟩

/-- Quoted code points are free of prefixes. -/
theorem prefixFree_quoted : PrefixFree fun points => (quoted points).toList := by
  intro points others rest restToo same
  simp only [quoted, String.toList_ofList, List.cons_append, List.append_assoc] at same
  obtain ⟨mark, behind⟩ := List.cons.inj same
  rw [mark] at behind
  exact escapes_append_inj (isMark_quoteMark _) behind

end CodePoint

/-- Quoted texts are free of prefixes. -/
theorem prefixFree_quoted : PrefixFree fun text => (quoted text).toList := by
  intro text other rest restToo same
  have quotedPoints (text : String) : quoted text = CodePoint.quoted (text.toList.map .character) := by
    rw [CodePoint.quoted_character, String.ofList_toList]
  simp only [quotedPoints] at same
  obtain ⟨points, rests⟩ := CodePoint.prefixFree_quoted _ _ _ _ same
  have chars := congrArg (List.filterMap CodePoint.char?) points
  rw [CodePoint.filterMap_character, CodePoint.filterMap_character] at chars
  exact ⟨String.toList_inj.1 chars, rests⟩

end Escapes

end PocketLisp.Text
