import Mathlib.Control.Monad.Basic
import PocketLisp.Proofs.Reading.Language
import PocketLisp.Proofs.Reading.Transport

/-!
# What stands around a text

The same expressions are read in a text on its own and in a text with something around it.
In brackets a text is an application, whose operator and operands are the expressions of the
text. With more characters behind it a text starts with the same expression as before, unless
the expression could go on with them.

Brackets and the end of a text are looked for by different rules, one of which stops at the
first expression that fails while the other has to come to the end. They agree because both
read what the grammar calls a sequence of items.
-/

namespace PocketLisp.Reading

open Attempt

variable {cursor next : Cursor} {tree item operator : Datum} {others operands : List Datum}
  {text : String} {inside : List Char}

section Brackets

/-- Expressions that are read up to the end of a text are spelled there, up to it. -/
theorem exists_standTogether_of_forms {cursor : Cursor} {item : Datum} {others : List Datum}
    (read : forms cursor = .ok (item :: others)) :
    ∃ last, StandTogether cursor.skipGaps item others last ∧ last.ahead = [] := by
  rcases forms_eq_ok_iff.1 read with ⟨-, none⟩ | ⟨first, next, rest, yields, readRest, same⟩
  · contradiction
  obtain ⟨rfl, rfl⟩ := List.cons.inj same
  have stands := Stands.of_expr yields
  have := yields.shorter
  have := cursor.length_skipGaps_le
  cases others with
  | nil =>
      rcases forms_eq_ok_iff.1 readRest with ⟨finished, -⟩ | ⟨_, _, _, _, _, some⟩
      · exact ⟨next.skipGaps, .of_stands stands, finished⟩
      · contradiction
  | cons tree trees =>
      obtain ⟨last, together, finished⟩ := exists_standTogether_of_forms readRest
      exact ⟨last, .cons stands together, finished⟩
termination_by cursor.ahead.length

/-- Where a text ends behind spellings of several trees, all of them are read. -/
theorem SpellsItems.forms_eq_ok {cursor behind : Cursor} {item : Datum} {others : List Datum}
    {spelling : List Char} :
    SpellsItems WithinLimit item others spelling → cursor.skipGaps.Takes spelling behind →
      behind.ahead = [] → forms cursor = .ok (item :: others)
  | .last spelled behindGap, takes, finished => by
      obtain ⟨middle, takes, gap⟩ := takes.split
      have skipped : middle.skipGaps = behind :=
        skipGaps_of_takes behindGap gap (by simp [finished])
      have ends : Ends item middle.ahead := by
        refine ends_of_gap item fun char head => behindGap char ?_
        rw [gap.1, finished, List.append_nil] at head
        exact List.mem_of_head? head
      refine forms_eq_ok_iff.2 (.inr ⟨item, _, [], spelled.yields takes ends, ?_, rfl⟩)
      exact forms_eq_ok_iff.2 (.inl ⟨by rw [skipGaps_settle, skipped, finished], rfl⟩)
  | .more spelled isGap apart spelledRest, takes, finished => by
      obtain ⟨start, takes, rest⟩ := takes.split
      obtain ⟨middle, takes, gap⟩ := takes.split
      have skipped := skipGaps_of_opens isGap gap rest spelledRest.head
      have ends := ends_of_takes_rest isGap apart gap rest spelledRest.head
      rw [← skipped, ← skipGaps_settle item] at rest
      have read := spelledRest.forms_eq_ok rest finished
      exact forms_eq_ok_iff.2 (.inr ⟨item, _, _, spelled.yields takes ends, read, rfl⟩)

/-- The expressions of a text are read when the text is a spelling of them behind blanks. -/
theorem readAll_eq_ok_iff_spells :
    readAll text = .ok (item :: others) ↔
      ∃ lead items, text.toList = lead ++ items ∧ Gap lead
        ∧ SpellsItems WithinLimit item others items := by
  obtain ⟨lead, isGap, skipped⟩ := exists_takes_skipGaps (.ofText text)
  constructor
  · intro read
    obtain ⟨last, ⟨items, spelled, takes⟩, finished⟩ := exists_standTogether_of_forms read
    refine ⟨lead, items, ?_, isGap, spelled⟩
    have whole := (skipped.trans takes).1
    rwa [finished, List.append_nil] at whole
  · rintro ⟨lead, items, whole, isGap, spelled⟩
    have all : (Cursor.ofText text).Takes (lead ++ items) ⟨(Cursor.ofText text).stop, []⟩ :=
      whole ▸ (Cursor.ofText text).takes_ahead
    obtain ⟨middle, front, takes⟩ := all.split
    have atItems := skipGaps_of_opens isGap front takes spelled.head
    exact spelled.forms_eq_ok (atItems ▸ takes) rfl

/-- A spelling of an application that starts with a bracket has its items inside. -/
theorem spells_brackets_iff :
    Spells WithinLimit (.application operator operands) ('(' :: (inside ++ [')'])) ↔
      ∃ lead items, inside = lead ++ items ∧ Gap lead
        ∧ SpellsItems WithinLimit operator operands items := by
  constructor
  · intro spelled
    generalize shape : '(' :: (inside ++ [')']) = spelling at spelled
    cases spelled with
    | @application _ _ lead items leadGap spelled =>
        exact ⟨lead, items, List.append_cancel_right (List.cons.inj shape).2, leadGap, spelled⟩
    | definition => simp at shape
  · rintro ⟨lead, items, rfl, leadGap, spelled⟩
    exact .application leadGap spelled

/-- A text in brackets is an application of the first of its expressions to the others, and it
is one only when they are read on their own. -/
theorem read_brackets_iff (body : String) (operator : Datum) (operands : List Datum) :
    read true ("(" ++ body ++ ")") = .ok (.application operator operands) ↔
      readAll body = .ok (operator :: operands) := by
  have whole : ("(" ++ body ++ ")").toList = '(' :: (body.toList ++ [')']) := by simp
  rw [read_complete_eq_ok_iff_withinLimit, readAll_eq_ok_iff_spells, ← spells_brackets_iff, whole]
  constructor
  · rintro ⟨spelling, gap, same, spelled, -, only⟩
    cases gap with
    | nil =>
        rw [List.append_nil] at same
        exact same ▸ spelled
    | cons char gap =>
        obtain ⟨value, other⟩ := only (List.cons_ne_nil char gap)
        contradiction
  · exact fun spelled => ⟨_, [], (List.append_nil _).symm, spelled, trails_nil _⟩

/-- An operator that ends at a blank, a definition in the long style in front of a digit, and an
application behind it, read in brackets and on their own. -/
example :
    read true "( not define(x(1))2(g)\n)" =
        .ok (.application (.instruction .not)
          [.application (.key "x") [.int 1], .int 2, .application (.key "g") []])
      ∧ readAll " not define(x(1))2(g)\n" =
        .ok [.instruction .not, .application (.key "x") [.int 1], .int 2,
          .application (.key "g") []] := by
  decide +kernel

end Brackets

section Behind

/-- Where a reading has come to there is nothing left to settle. -/
theorem settle_of_yields (yields : Yields (expr cursor) tree next) : settle tree next = next := by
  obtain ⟨spelling, behind, -, -, -, rfl⟩ := yields_expr_iff_stands.1 yields
  rcases settle_cases tree with skips | stays
  · rw [skips, skips, skipGaps_skipGaps]
  · rw [stays, stays]

/-- Where a text goes on behind a reading, it still does in an extended text. -/
theorem settle_extend (settled : settle tree next = next) (written : next.ahead ≠ [])
    (more : List Char) : settle tree (next.extend more) = next.extend more := by
  rcases settle_cases tree with skips | stays
  · rw [skips] at settled ⊢
    rw [skipGaps_extend_of_written (settled.symm ▸ written), settled]
  · exact stays _

/-- What is read stays read in an extended text, if the text goes on behind it anyway or if it
is an application, which its own bracket ends. -/
theorem Attempt.Yields.extend (yields : Yields (expr cursor) tree next)
    (ended : next.ahead ≠ [] ∨ ∃ operator operands, tree = .application operator operands)
    (more : List Char) : Yields (expr (cursor.extend more)) tree (next.extend more) := by
  obtain ⟨taken, takes, -⟩ := yields.exists_takes
  rcases ended with written | ⟨operator, operands, rfl⟩
  · rw [← settle_extend (settle_of_yields yields) written more]
    refine yields.elsewhere takes (takes.extend more) fun ends char head => ?_
    rw [head?_extend written] at head
    exact ends char head
  · exact yields.elsewhere takes (takes.extend more) fun _ _ _ => trivial

/-- The leading expression of a text and the rest of the text behind it. -/
theorem readLeading_eq_ok_iff {rest : String} :
    readLeading text = .ok (tree, rest) ↔
      ∃ next, Yields (expr (.ofText text)) tree next ∧ rest = String.ofList next.ahead :=
  readRule_eq_ok_iff

/-- More text behind a text does not change the expression at its start, and comes behind the
rest of it. The expression has to be an application, or something has to be left behind it,
for otherwise it might go on. -/
theorem readLeading_append (first second rest : String) (tree : Datum)
    (read : readLeading first = .ok (tree, rest))
    (ended : rest ≠ "" ∨ ∃ operator operands, tree = .application operator operands) :
    readLeading (first ++ second) = .ok (tree, rest ++ second) := by
  obtain ⟨next, yields, rfl⟩ := readLeading_eq_ok_iff.1 read
  have whole : Cursor.ofText (first ++ second) = (Cursor.ofText first).extend second.toList := by
    simp [Cursor.ofText, Cursor.extend]
  have written (some : String.ofList next.ahead ≠ "") : next.ahead ≠ [] :=
    fun none => some (congrArg String.ofList none)
  rw [readLeading_eq_ok_iff, whole]
  refine ⟨next.extend second.toList, yields.extend (ended.imp_left written) _, ?_⟩
  simp [Cursor.extend, String.ofList_append]

/-- A truth value in front of a name that goes on, and a definition in the long style in front of
a digit. -/
theorem readLeading_append_cases :
    readLeading "t x" = .ok (.bool true, "x") ∧ "x" ≠ ""
      ∧ readLeading ("t x" ++ "y") = .ok (.bool true, "x" ++ "y")
      ∧ readLeading "define(x(1))" = .ok (.application (.key "x") [.int 1], "")
      ∧ readLeading ("define(x(1))" ++ "2") =
        .ok (.application (.key "x") [.int 1], "" ++ "2") := by
  have truth : readLeading "t x" = .ok (.bool true, "x") := by decide +kernel
  have definition : readLeading "define(x(1))" = .ok (.application (.key "x") [.int 1], "") := by
    decide +kernel
  have written : "x" ≠ "" := by decide
  exact ⟨truth, written, readLeading_append _ "y" _ _ truth (.inl written), definition,
    readLeading_append _ "2" _ _ definition (.inr ⟨_, _, rfl⟩)⟩

end Behind

end PocketLisp.Reading
