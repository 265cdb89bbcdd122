import PocketLisp.Layout
import PocketLisp.Proofs.Reading.Spelling

/-!
# Shapes of written forms

A form has the same shape on one line and on several: its parts in round brackets,
with the same blanks before each part after the first. Which of the two layouts was
chosen, and how far it is indented, is only a matter of what these blanks are.
-/

namespace PocketLisp

namespace Layout

open Reading (Gap)

/-- Parts behind a first one, each with the same characters in front of it. -/
def tail (gap : List Char) (parts : List String) : List Char :=
  parts.flatMap fun part => gap ++ part.toList

/-- A separator between parts stands in front of each part but the first. -/
theorem toList_intercalate (separator first : String) (rest : List String) :
    (separator.intercalate (first :: rest)).toList =
      first.toList ++ tail separator.toList rest := by
  induction rest generalizing first with
  | nil => simp [tail]
  | cons second rest inductionHypothesis =>
      rw [String.intercalate_cons_cons, String.toList_append, String.toList_append,
        inductionHypothesis second]
      simp [tail]

/-- Characters put in front of every part stand behind the separator. -/
theorem tail_map (gap : List Char) (before : String) (parts : List String) :
    tail gap (parts.map fun part => before ++ part) = tail (gap ++ before.toList) parts := by
  simp [tail, List.flatMap_map]

/-- Written blanks are blanks of the grammar. -/
theorem gap_blanks (count : Int) : Gap (blanks count).toList := by
  intro char written
  rw [blanks, String.toList_ofList] at written
  obtain rfl := List.eq_of_mem_replicate written
  rfl

/-- A form on one line. -/
theorem toList_oneLine (first : String) (rest : List String) :
    (oneLine (first :: rest)).toList = '(' :: (first.toList ++ tail [' '] rest ++ [')']) := by
  simp only [oneLine, String.toList_append, toList_intercalate]
  simp

/-- A form on several lines. -/
theorem toList_broken (indent : Int) (first : String) (rest : List String) :
    (broken indent first rest).toList =
      '(' :: (first.toList ++ tail ('\n' :: (blanks (2 * indent) ++ "  ").toList) rest
        ++ [')']) := by
  simp only [broken, String.toList_append, toList_intercalate, tail_map]
  simp

/-- In either layout the parts of a form are in round brackets, with the same blanks
before each part but the first. -/
theorem exists_gap_assemble (width indent : Int) (first : String) (rest : List String) :
    ∃ gap, Gap gap ∧ gap ≠ [] ∧ (assemble width indent (first :: rest)).toList =
      '(' :: (first.toList ++ tail gap rest ++ [')']) := by
  have space : Gap [' '] := by simp [Gap, Text.isGap]
  cases rest with
  | nil => exact ⟨[' '], space, by simp, toList_oneLine first []⟩
  | cons second rest =>
      simp only [assemble]
      split
      · exact ⟨[' '], space, by simp, toList_oneLine first (second :: rest)⟩
      · refine ⟨_, ?_, List.cons_ne_nil _ _, toList_broken indent first (second :: rest)⟩
        intro char written
        rw [String.toList_append, List.mem_cons, List.mem_append] at written
        rcases written with rfl | inside | inside
        · rfl
        · exact gap_blanks _ char inside
        · exact gap_blanks 2 char inside

/-- An application is written when its parts are. -/
theorem write_application_eq_ok_iff {layout : Layout} {indent : Int} {operator : Datum}
    {operands : List Datum} {text : String} :
    layout.write indent (.application operator operands) = .ok text ↔
      ∃ first rest, layout.write (indent + 1) operator = .ok first
        ∧ layout.writeAll (indent + 1) operands = .ok rest
        ∧ text = assemble layout.width indent (first :: rest) := by
  rw [write]
  cases layout.write (indent + 1) operator with
  | error error => simp [bind, Except.bind]
  | ok first =>
      cases layout.writeAll (indent + 1) operands with
      | error error => simp [bind, Except.bind]
      | ok rest => simp [bind, Except.bind, pure, Except.pure, eq_comm]

/-- A list is written when its members are. -/
theorem writeAll_cons_eq_ok_iff {layout : Layout} {indent : Int} {item : Datum}
    {items : List Datum} {texts : List String} :
    layout.writeAll indent (item :: items) = .ok texts ↔
      ∃ first rest, layout.write indent item = .ok first
        ∧ layout.writeAll indent items = .ok rest ∧ texts = first :: rest := by
  rw [writeAll]
  cases layout.write indent item with
  | error error => simp [bind, Except.bind]
  | ok first =>
      cases layout.writeAll indent items with
      | error error => simp [bind, Except.bind]
      | ok rest => simp [bind, Except.bind, pure, Except.pure, eq_comm]

end Layout

end PocketLisp
