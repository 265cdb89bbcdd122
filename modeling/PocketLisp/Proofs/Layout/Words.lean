import PocketLisp.Proofs.Layout.Fitting
import PocketLisp.Proofs.Layout.Erasure
import PocketLisp.Proofs.Reading.Constants

/-!
# Words

A text can only be told apart into words, brackets and blanks if no word has a bracket or a
blank in it. The words of trees whose keys are identifiers are solid in this sense, and no
escape is in them either.
-/

namespace PocketLisp

namespace Text

/-- Characters of words: all but the blanks of the grammar, round brackets and escapes. -/
def isInk (char : Char) : Bool :=
  !isGap char && char != '(' && char != ')' && char != escape

/-- Text that is one word. -/
structure Solid (chars : List Char) : Prop where
  written : chars ≠ []
  ink : ∀ char ∈ chars, isInk char = true

instance (chars : List Char) : Decidable (Solid chars) :=
  decidable_of_iff (chars ≠ [] ∧ (chars.all isInk) = true)
    ⟨fun ⟨written, ink⟩ => ⟨written, List.all_eq_true.1 ink⟩,
      fun ⟨written, ink⟩ => ⟨written, List.all_eq_true.2 ink⟩⟩

variable {chars : List Char}

/-- What is no character of words is not in a word. -/
theorem Solid.not_mem (solid : Solid chars) {char : Char} (other : isInk char = false) :
    char ∉ chars :=
  fun member => absurd (solid.ink char member) (by simp [other])

/-- Words have no escapes. -/
theorem Solid.unescaped (solid : Solid chars) : Unescaped chars := by
  rintro char member rfl
  exact solid.not_mem (by decide) member

/-- What continues a key is a character of words. -/
theorem isInk_of_continuesKey {char : Char} (continues : Reading.continuesKey char = true) :
    isInk char = true := by
  have other {mark : Char} (stops : Reading.continuesKey mark = false) : char ≠ mark := by
    rintro rfl
    simp [continues] at stops
  have gap : isGap char = false := by
    by_contra gap
    rw [Bool.not_eq_false] at gap
    simp [Reading.continuesKey_of_isGap gap] at continues
  have opening : char ≠ '(' := other (by decide)
  have closing : char ≠ ')' := other (by decide)
  have escaped : char ≠ escape := other (by decide)
  simp [isInk, gap, opening, closing, escaped]

/-- A number that is not negative is written by its digits. -/
theorem toList_toString_ofNat (number : Nat) :
    (toString (Int.ofNat number)).toList = Nat.toDigits 10 number :=
  Nat.toList_repr

/-- A negative number is written by a sign and digits. -/
theorem toList_toString_negSucc (number : Nat) :
    (toString (Int.negSucc number)).toList = '-' :: Nat.toDigits 10 (number + 1) := by
  rw [← List.singleton_append, ← Nat.toList_repr]
  exact String.toList_append

/-- The digits of a number are digits. -/
theorem isDigit_of_mem_toDigits {number : Nat} {char : Char}
    (member : char ∈ Nat.toDigits 10 number) : char.isDigit = true :=
  Nat.isDigit_of_mem_toDigits (by decide) (by decide) member

/-- A whole number is one word. -/
theorem solid_toString_int (value : Int) : Solid (toString value).toList := by
  have digits {number : Nat} : ∀ char ∈ Nat.toDigits 10 number, isInk char = true :=
    fun _ member => isInk_of_continuesKey (Reading.continuesKey_of_isDigit
      (isDigit_of_mem_toDigits member))
  cases value with
  | ofNat number =>
      rw [toList_toString_ofNat]
      exact ⟨Nat.toDigits_ne_nil, digits⟩
  | negSucc number =>
      rw [toList_toString_negSucc]
      exact ⟨List.cons_ne_nil _ _, List.forall_mem_cons.2 ⟨by decide, digits⟩⟩

/-- Whole numbers that are written alike are the same. -/
theorem toString_int_injective {value other : Int} (same : toString value = toString other) :
    value = other := by
  have sign (number : Nat) : '-' ∉ Nat.toDigits 10 number := fun member =>
    absurd (isDigit_of_mem_toDigits member) (by decide)
  have digits {first second : Nat} (alike : Nat.toDigits 10 first = Nat.toDigits 10 second) :
      first = second := by
    rw [← Nat.ofDigitChars_ten_toDigits (n := first), alike, Nat.ofDigitChars_ten_toDigits]
  have chars := congrArg String.toList same
  cases value with
  | ofNat number =>
      cases other with
      | ofNat numberToo =>
          rw [toList_toString_ofNat, toList_toString_ofNat] at chars
          rw [digits chars]
      | negSucc numberToo =>
          rw [toList_toString_ofNat, toList_toString_negSucc] at chars
          exact absurd (chars ▸ List.mem_cons_self) (sign number)
  | negSucc number =>
      cases other with
      | ofNat numberToo =>
          rw [toList_toString_negSucc, toList_toString_ofNat] at chars
          exact absurd (chars ▸ List.mem_cons_self) (sign numberToo)
      | negSucc numberToo =>
          rw [toList_toString_negSucc, toList_toString_negSucc] at chars
          rw [Nat.succ.inj (digits (List.cons.inj chars).2)]

end Text

/-- An identifier: a letter or an underscore, then letters, digits and underscores. The
reserved words are identifiers too. -/
def IsIdentifier (name : String) : Prop :=
  name.toList.head?.any Reading.startsKey = true ∧ name.toList.all Reading.continuesKey = true

instance (name : String) : Decidable (IsIdentifier name) :=
  inferInstanceAs (Decidable (_ ∧ _))

/-- An identifier is one word. -/
theorem IsIdentifier.solid {name : String} (identifier : IsIdentifier name) :
    Text.Solid name.toList where
  written := by
    rintro empty
    simp [IsIdentifier, empty] at identifier
  ink := fun char member =>
    Text.isInk_of_continuesKey (List.all_eq_true.1 identifier.2 char member)

namespace Outline

/-- Every word in an outline is one word of its text. -/
inductive Solid : Outline → Prop
  | word {role : Role} {text : String} (solid : Text.Solid text.toList) : Solid (.word role text)
  | form {first : Outline} {rest : List Outline} (parts : ∀ part ∈ first :: rest, Solid part) :
      Solid (.form first rest)

/-- What stands within an outline has no words but those of the outline. -/
theorem Solid.of_holds {outline inner : Outline} {indent place : Int} (solid : outline.Solid)
    (holds : outline.Holds indent inner place) : inner.Solid := by
  induction holds with
  | self outline indent => exact solid
  | part member holds inductionHypothesis =>
      cases solid with
      | form parts => exact inductionHypothesis (parts _ member)

/-- On one line an outline with solid words has characters of words, brackets and spaces. -/
theorem Solid.mem_line {outline : Outline} (solid : outline.Solid) {char : Char}
    (member : char ∈ outline.line false) :
    Text.isInk char = true ∨ char = ' ' ∨ char = '(' ∨ char = ')' := by
  induction outline with
  | word role text =>
      cases solid with
      | word solid => exact .inl (solid.ink char member)
  | form first rest inductionHypothesis =>
      cases solid with
      | form parts =>
          simp only [line_form, bracketed, List.mem_cons, List.mem_append, List.mem_flatMap,
            List.not_mem_nil, or_false] at member
          rcases member with rfl | (inside | ⟨part, among, rfl | inside⟩) | rfl
          · exact .inr (.inr (.inl rfl))
          · have head := parts first List.mem_cons_self
            exact inductionHypothesis first List.mem_cons_self head inside
          · exact .inr (.inl rfl)
          · have among := List.mem_cons_of_mem first among
            exact inductionHypothesis part among (parts part among) inside
          · exact .inr (.inr (.inr rfl))

/-- On one line an outline with solid words opens as many brackets as it closes. -/
theorem Solid.count_line {outline : Outline} (solid : outline.Solid) :
    (outline.line false).count '(' = (outline.line false).count ')' := by
  induction outline with
  | word role text =>
      cases solid with
      | word solid =>
          rw [line]
          exact (List.count_eq_zero.2 (solid.not_mem (by decide))).trans
            (List.count_eq_zero.2 (solid.not_mem (by decide))).symm
  | form first rest inductionHypothesis =>
      cases solid with
      | form parts =>
          have head := inductionHypothesis first List.mem_cons_self (parts first List.mem_cons_self)
          have behind : (rest.flatMap fun part => [' '] ++ part.line false).count '(' =
              (rest.flatMap fun part => [' '] ++ part.line false).count ')' := by
            rw [List.count_flatMap, List.count_flatMap]
            refine congrArg List.sum (List.map_congr_left fun part member => ?_)
            have among := List.mem_cons_of_mem first member
            simp [inductionHypothesis part among (parts part among)]
          simp only [line_form, bracketed, List.count_cons, List.count_append, head, behind]
          simp

/-- An outline with solid words does not start with a blank. -/
theorem Solid.exists_line_eq {outline : Outline} (solid : outline.Solid) :
    ∃ char rest, outline.line false = char :: rest ∧ Text.isGap char = false := by
  cases solid with
  | @word role text solid =>
      obtain ⟨char, rest, spelled⟩ := List.exists_cons_of_ne_nil solid.written
      have ink : Text.isInk char = true := solid.ink char (by simp [spelled])
      refine ⟨char, rest, spelled, ?_⟩
      by_contra gap
      rw [Bool.not_eq_false] at gap
      simp [Text.isInk, gap] at ink
  | form parts => exact ⟨'(', _, line_form, by decide⟩

end Outline

namespace Datum

mutual

/-- Built from constants and applications alone, with identifiers for keys. -/
def Named : Datum → Prop
  | .constant (.atom (.key name)) => IsIdentifier name
  | .constant (.atom _) => True
  | .application operator operands => operator.Named ∧ AllNamed operands
  | _ => False

/-- Every tree of a list is built in this way. -/
def AllNamed : List Datum → Prop
  | [] => True
  | item :: items => item.Named ∧ AllNamed items

end

mutual

/-- The words of such a tree are solid. -/
theorem Named.solid : {tree : Datum} → tree.Named → tree.outline.Solid
  | .constant (.atom (.int value)), _ => .word (Text.solid_toString_int value)
  | .constant (.atom (.bool true)), _ => .word (by decide)
  | .constant (.atom (.bool false)), _ => .word (by decide)
  | .constant (.atom (.key _)), named => by
      rw [Named] at named
      exact .word named.solid
  | .constant (.atom (.instruction tag)), _ => .word (by cases tag <;> decide)
  | .application operator operands, named => by
      rw [Named] at named
      exact .form (List.forall_mem_cons.2 ⟨named.1.solid, named.2.solid⟩)
  | .plain _, named | .atom _, named | .ifThen _ _, named | .ifElse _ _ _, named
  | .quote _, named | .constant (.plain _), named | .constant (.constant _), named
  | .constant (.application _ _), named | .constant (.ifThen _ _), named
  | .constant (.ifElse _ _ _), named | .constant (.quote _), named => by
      simp [Named] at named

/-- The words of such trees are solid. -/
theorem AllNamed.solid : {items : List Datum} → AllNamed items →
    ∀ part ∈ outlines items, part.Solid
  | [], _ => List.forall_mem_nil _
  | _ :: _, named => by
      rw [AllNamed] at named
      exact List.forall_mem_cons.2 ⟨named.1.solid, named.2.solid⟩

end

end Datum

end PocketLisp
