import Mathlib.Control.Monad.Basic
import PocketLisp.Proofs.Reading.Translation
import PocketLisp.Proofs.Reading.Transport

/-!
# Texts one behind the other

A text that is read does not change how what follows it behind blanks is read. The blanks
end its last token, whichever that is, and from there on reading goes as it would alone,
only further on. So the expressions of the two are read one behind the other, and what is
wrong with the second text is wrong with both, at a place that has moved.
-/

namespace PocketLisp.Reading

open Attempt

variable {before gap : String} {first second : List Datum}

/-- The second report is the first about the same place with more text in front: nothing but
its offsets has changed, each by the same number. -/
structure ParseError.Moves (count : Nat) (error moved : ParseError) : Prop where
  kind : moved.kind = error.kind
  detail : moved.detail = error.detail
  committed : moved.committed = error.committed
  rules : moved.rules = error.rules
  position : moved.position = error.position + count
  contexts : moved.contexts =
    error.contexts.map fun context => (context.1, context.2 + (count : Int))

/-- What is reported about a failure further on. -/
theorem moves_report (count : Nat) (text whole : String) (failure : Failure) :
    (failure.report text).Moves count ((failure.shift count).report whole) where
  kind := rfl
  detail := rfl
  committed := rfl
  rules := by simp [ParseError.rules, Failure.report, Failure.shift]
  position := Int.natCast_add failure.position count
  contexts := by simp [Failure.report, Failure.shift]

/-- Behind a text that is read and some blanks the next text is read as it is alone. -/
theorem moves_readAll (behind : String) (isGap : Gap gap.toList) (written : gap.toList ≠ [])
    (read : readAll before = .ok first) :
    Moves (.further (before ++ gap).length) (fun trees all => all = first ++ trees) (readAll behind)
      (readAll (before ++ gap ++ behind)) := by
  let middle : Cursor := ⟨before.length, (gap ++ behind).toList⟩
  let rest : Cursor := (Cursor.ofText behind).shift (before ++ gap).length
  have front : (Cursor.ofText (before ++ gap ++ behind)).Takes before.toList middle := by
    simp [Cursor.Takes, Cursor.ofText, String.length_toList, middle]
  have blank : middle.Takes gap.toList rest := by
    simp [Cursor.Takes, Cursor.shift, Cursor.ofText, String.length_toList, middle, rest]
  have blanks : ∀ char, middle.ahead.head? = some char → Text.isGap char = true := by
    intro char head
    obtain ⟨other, others, shape⟩ := List.exists_cons_of_ne_nil written
    obtain rfl : other = char := by simpa [middle, shape] using head
    exact isGap other (by simp [shape])
  have whole : readAll (before ++ gap ++ behind) = (forms rest).map (first ++ ·) := by
    rw [← forms_congr (skipGaps_eq_of_takes isGap blank)]
    exact forms_of_takes read front blanks rfl
  have alone : Moves _ _ (forms (Cursor.ofText behind)) (forms rest) :=
    moves_forms (Cursor.under_further _ _).symm
  rw [whole, readAll]
  generalize forms (Cursor.ofText behind) = here, forms rest = there at alone ⊢
  cases alone with
  | ok same => exact .ok (congrArg (first ++ ·) same)
  | error refusal => exact .error refusal

/-- Two texts that are read are read one behind the other. -/
theorem readAll_append {behind : String} (isGap : Gap gap.toList) (written : gap.toList ≠ [])
    (read : readAll before = .ok first) (readBehind : readAll behind = .ok second) :
    readAll (before ++ gap ++ behind) = .ok (first ++ second) :=
  (moves_readAll behind isGap written read).eq_ok_iff.2 ⟨second, readBehind, rfl⟩

/-- Behind a text that is read and some blanks, another text is read whenever it is read
alone, and its expressions come behind those of the first. A failure to read it alone is
reported about both in the same words, further on by the length of what is in front, and a
literal that is too long for it is too long for both. -/
theorem readAll_append_cases (before gap behind : String) (first : List Datum)
    (isGap : Gap gap.toList) (written : gap.toList ≠ []) (read : readAll before = .ok first) :
    (∀ trees, readAll (before ++ gap ++ behind) = .ok trees ↔
      ∃ second, readAll behind = .ok second ∧ trees = first ++ second)
    ∧ (∀ failure, readAll behind = .error (.failure failure) →
      ∃ moved, readAll (before ++ gap ++ behind) = .error (.failure moved)
        ∧ (failure.report behind).Moves (before ++ gap).length
          (moved.report (before ++ gap ++ behind)))
    ∧ ∀ digits, readAll behind = .error (.overlong digits) →
      readAll (before ++ gap ++ behind) = .error (.overlong digits) := by
  have moves := moves_readAll behind isGap written read
  have reports := moves_report (before ++ gap).length behind (before ++ gap ++ behind)
  generalize readAll behind = here, readAll (before ++ gap ++ behind) = there at moves ⊢
  cases moves with
  | ok same =>
      subst same
      refine ⟨fun trees => ⟨?_, ?_⟩, nofun, nofun⟩
      · rintro ⟨⟩
        exact ⟨_, rfl, rfl⟩
      · rintro ⟨second, ⟨⟩, rfl⟩
        rfl
  | error refusal =>
      rw [Refusal.under_further]
      refine ⟨fun trees => ⟨nofun, ?_⟩, ?_, ?_⟩
      · rintro ⟨second, ⟨⟩, -⟩
      · rintro failure ⟨⟩
        exact ⟨_, rfl, reports failure⟩
      · rintro digits ⟨⟩
        rfl

/-- The word `define` at the end of a text, in front of a bracket that would run on from it
without the blanks, and in front of a definition that lacks a bracket of its own. -/
theorem readAll_append_cases_define :
    Gap " \n".toList ∧ " \n".toList ≠ []
      ∧ readAll "x define" = .ok [.key "x", .instruction .define]
      ∧ readAll ("x define" ++ " \n" ++ "(1)") =
        .ok [.key "x", .instruction .define, .application (.int 1) []]
      ∧ ∃ failure moved, readAll "(f define(x 1))" = .error (.failure failure)
        ∧ readAll ("x define" ++ " \n" ++ "(f define(x 1))") = .error (.failure moved)
        ∧ (failure.report "(f define(x 1))").Moves 10
          (moved.report ("x define" ++ " \n" ++ "(f define(x 1))")) := by
  have isGap : Gap " \n".toList := by simp [Gap, Text.isGap]
  have written : " \n".toList ≠ [] := by decide
  have front : readAll "x define" = .ok [.key "x", .instruction .define] := by decide +kernel
  have application : readAll "(1)" = .ok [.application (.int 1) []] := by decide +kernel
  have unread : readAll "(f define(x 1))" = .error (.failure ⟨.noLiteral "(", 11, true,
      [(.define, 3), (.expr, 3), (.application, 0), (.expr, 0)]⟩) := by decide +kernel
  have read := (readAll_append_cases _ _ "(1)" _ isGap written front).1
  obtain ⟨moved, failed, moves⟩ :=
    (readAll_append_cases _ _ "(f define(x 1))" _ isGap written front).2.1 _ unread
  have both := (read _).2 ⟨_, application, rfl⟩
  exact ⟨isGap, written, front, both, _, moved, unread, failed, moves⟩

end PocketLisp.Reading
