import PocketLisp.Proofs.Layout.Shape

/-!
# Erasing colours

A colour is a control sequence in front of a text and another behind it. `Text.bare`
deletes control sequences from a text. To reason about both kinds of layout at once,
an erasure for a layout is whatever takes painted text back to the text: deleting
control sequences where there are colours, and nothing at all where there are none.
-/

namespace PocketLisp

namespace Text

/-- The character that a control sequence starts with. -/
def escape : Char := '\x1b'

/-- The characters that can end a control sequence. -/
def endsControl (char : Char) : Bool :=
  '@' ≤ char && char ≤ '~'

/-- What is left when the control sequences are deleted: an escape and a square bracket,
and what follows these up to the character that ends the sequence. -/
def bare : List Char → List Char
  | [] => []
  | char :: rest =>
      if char = escape ∧ rest.head? = some '[' then
        bare ((rest.drop 1).dropWhile fun inside => !endsControl inside).tail
      else char :: bare rest
termination_by chars => chars.length
decreasing_by
  · have noLonger : ∀ chars : List Char,
        (chars.dropWhile fun inside => !endsControl inside).length ≤ chars.length :=
      fun chars => (List.dropWhile_suffix _).length_le
    have := noLonger (rest.drop 1)
    simp only [List.length_tail, List.length_drop, List.length_cons] at this ⊢
    omega
  · simp

/-- Text without an escape has no control sequences. -/
def Unescaped (chars : List Char) : Prop :=
  ∀ char ∈ chars, char ≠ escape

instance (chars : List Char) : Decidable (Unescaped chars) :=
  decidable_of_iff ((chars.all fun char => char != escape) = true) (by simp [Unescaped])

/-- A character that is no escape stays. -/
theorem bare_cons {char : Char} (other : char ≠ escape) (rest : List Char) :
    bare (char :: rest) = char :: bare rest := by
  rw [bare, if_neg fun both => other both.1]

/-- A control sequence is deleted. -/
theorem bare_control {inside : List Char} {final : Char}
    (goesOn : (inside.all fun char => !endsControl char) = true) (ends : endsControl final = true)
    (rest : List Char) : bare (escape :: '[' :: (inside ++ final :: rest)) = bare rest := by
  rw [bare, if_pos ⟨rfl, rfl⟩]
  rw [List.drop_succ_cons, List.drop_zero,
    List.dropWhile_append_of_pos (List.all_eq_true.1 goesOn)]
  simp [ends]

/-- What leaves each character alone that is no escape leaves text without an escape
alone. -/
theorem append_of_cons {erase : List Char → List Char}
    (cons : ∀ {char : Char}, char ≠ escape → ∀ rest, erase (char :: rest) = char :: erase rest)
    {chars : List Char} (unescaped : Unescaped chars) (rest : List Char) :
    erase (chars ++ rest) = chars ++ erase rest := by
  induction chars with
  | nil => rfl
  | cons char chars inductionHypothesis =>
      have others : Unescaped chars :=
        fun other member => unescaped other (List.mem_cons_of_mem char member)
      rw [List.cons_append, cons (unescaped char List.mem_cons_self), inductionHypothesis others]
      rfl

end Text

namespace Layout

open Text (Unescaped)

/-- Blanks are no escapes. -/
theorem unescaped_of_gap {gap : List Char} (isGap : Reading.Gap gap) : Unescaped gap := by
  rintro char member rfl
  have := isGap _ member
  contradiction

/-- A function on texts that takes back what a layout does to painted text, and leaves
every other text as it is. -/
structure Erasure (layout : Layout) (erase : List Char → List Char) : Prop where
  nil : erase [] = []
  cons : ∀ {char : Char}, char ≠ Text.escape → ∀ rest, erase (char :: rest) = char :: erase rest
  painted : ∀ {role : Role} {text painted : String}, Unescaped text.toList →
    layout.paint role text = .ok painted →
      ∀ rest, erase (painted.toList ++ rest) = text.toList ++ erase rest

/-- Erasing leaves text without an escape as it is. -/
theorem Erasure.append {layout : Layout} {erase : List Char → List Char}
    (erasure : layout.Erasure erase) {chars : List Char} (unescaped : Unescaped chars)
    (rest : List Char) : erase (chars ++ rest) = chars ++ erase rest :=
  Text.append_of_cons erasure.cons unescaped rest

/-- Where there are no colours nothing has to be erased. -/
theorem erasure_plain (width : Int) : (plain width).Erasure id where
  nil := rfl
  cons := fun _ _ => rfl
  painted := by
    intro role text painted _ paint rest
    obtain rfl := Except.ok.inj paint
    rfl

/-- The sequence that turns a colour on is deleted. -/
theorem bare_on (role : Role) (rest : List Char) :
    Text.bare (("\x1b[" ++ role.code ++ "m").toList ++ rest) = Text.bare rest := by
  have digits : (role.code.toList.all fun char => !Text.endsControl char) = true := by
    cases role <;> decide
  have deleted : Text.bare (Text.escape :: '[' :: (role.code.toList ++ 'm' :: rest)) =
      Text.bare rest := Text.bare_control digits rfl rest
  simpa [Text.escape] using deleted

/-- The sequence that turns colours off is deleted. -/
theorem bare_off (rest : List Char) : Text.bare ("\x1b[0m".toList ++ rest) = Text.bare rest := by
  have digits : (['0'].all fun char => !Text.endsControl char) = true := by decide
  exact Text.bare_control digits rfl rest

/-- Where there are colours it is the control sequences that have to be erased. -/
theorem erasure_colored (width : Int) : (colored width).Erasure Text.bare where
  nil := by rw [Text.bare]
  cons := Text.bare_cons
  painted := by
    intro role text painted unescaped paint rest
    obtain rfl := Except.ok.inj paint
    calc
      Text.bare ((role.wrap text).toList ++ rest) =
          Text.bare (("\x1b[" ++ role.code ++ "m").toList
            ++ (text.toList ++ ("\x1b[0m".toList ++ rest))) := by
        rw [Role.wrap, String.toList_append, String.toList_append, List.append_assoc,
          List.append_assoc]
      _ = text.toList ++ Text.bare ("\x1b[0m".toList ++ rest) := by
        rw [bare_on, Text.append_of_cons Text.bare_cons unescaped]
      _ = text.toList ++ Text.bare rest := by rw [bare_off]

end Layout

end PocketLisp
