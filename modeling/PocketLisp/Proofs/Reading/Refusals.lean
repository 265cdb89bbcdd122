import PocketLisp.Proofs.Reading.Nesting

/-!
# Refusals of nested forms

When the rules that nest are refused for good. A refusal of an inner expression is
always one of the form around it. An application can also be refused on its own
account, at its end; a definition in the long style cannot.
-/

namespace PocketLisp.Reading

open Attempt

variable {cursor next : Cursor} {refusal : Refusal}

namespace Refusal

/-- The refusal as it was first made, without the rules that it came through. -/
def origin : Refusal → Refusal
  | .failure reason => .failure { reason with trail := [] }
  | .overlong digits => .overlong digits

/-- The rules that a refusal came through do not change where it comes from. -/
@[simp] theorem origin_through (rule : Rule) (offset : Nat) (refusal : Refusal) :
    (refusal.through rule offset).origin = refusal.origin := by
  cases refusal <;> rfl

/-- Only an overlong literal is refused as an overlong literal further out. -/
@[simp] theorem through_eq_overlong_iff {rule : Rule} {offset digits : Nat} :
    Refusal.overlong digits = refusal.through rule offset ↔ refusal = .overlong digits := by
  cases refusal <;> simp [through, eq_comm]

end Refusal

/-- An expression is refused for good when the first of its alternatives that does not
decline is. -/
theorem aborts_expr_iff :
    Aborts (expr cursor) refusal ↔
      ∃ inner, (Aborts (constant cursor) inner
        ∨ Declines (constant cursor) ∧
          (Aborts (application cursor) inner
          ∨ Declines (application cursor) ∧ Aborts (define cursor) inner))
        ∧ refusal = inner.through .expr cursor.offset := by
  rw [expr]
  simp only [aborts_within_iff, aborts_orElse_iff]

/-- Expressions are refused for good when the first of them is, or the others behind
it. -/
theorem aborts_items_step_iff :
    Aborts (items cursor) refusal ↔
      Aborts (expr cursor.skipGaps) refusal
        ∨ ∃ tree next, Yields (expr cursor.skipGaps) tree next ∧ Aborts (items next) refusal := by
  rw [items]
  split
  · next digits failed => simp [failed]
  · next failure failed =>
      split
      · next committed => simp [failed]
      · next uncommitted => simp [failed, uncommitted]
  · next first read =>
      simp only [read, aborts_bind_iff, not_aborts_ok, false_or, yields_ok]
      constructor
      · rintro (aborts | ⟨rest, -, aborts⟩)
        · exact ⟨first.value, first.next, ⟨rfl, rfl⟩, aborts⟩
        · exact absurd aborts not_aborts_ok
      · rintro ⟨_, _, ⟨rfl, rfl⟩, aborts⟩
        exact .inl aborts

/-- Some expressions are read one behind the other, with blanks before each. -/
inductive Passes : Cursor → Cursor → Prop
  | none (cursor : Cursor) : Passes cursor cursor
  | some {cursor next last : Cursor} {tree : Datum}
      (yields : Yields (expr cursor.skipGaps) tree next) (rest : Passes next last) :
      Passes cursor last

/-- Behind expressions that are read there is no more ahead than before them. -/
theorem Passes.length_le {last : Cursor} (passes : Passes cursor last) :
    last.ahead.length ≤ cursor.ahead.length := by
  induction passes with
  | none => exact Nat.le_refl _
  | @some cursor next last tree yields rest inductionHypothesis =>
      have := yields.shorter
      have := cursor.length_skipGaps_le
      omega

/-- Expressions are refused for good when one of them is, behind those that are read. -/
theorem aborts_items_iff {cursor : Cursor} :
    Aborts (items cursor) refusal ↔
      ∃ last, Passes cursor last ∧ Aborts (expr last.skipGaps) refusal := by
  constructor
  · intro aborts
    rcases aborts_items_step_iff.1 aborts with here | ⟨tree, next, yields, later⟩
    · exact ⟨cursor, .none cursor, here⟩
    · have := yields.shorter
      have := cursor.length_skipGaps_le
      obtain ⟨last, passes, there⟩ := aborts_items_iff.1 later
      exact ⟨last, .some yields passes, there⟩
  · rintro ⟨last, passes, aborts⟩
    induction passes with
    | none => exact aborts_items_step_iff.2 (.inl aborts)
    | some yields rest inductionHypothesis =>
        exact aborts_items_step_iff.2 (.inr ⟨_, _, yields, inductionHypothesis aborts⟩)
termination_by cursor.ahead.length

/-- An application is refused for good when one of its items is. -/
theorem aborts_application_of_items {opened : Cursor} (bracket : cursor.Takes ['('] opened)
    (aborts : Aborts (items opened) refusal) :
    Aborts (application cursor) (refusal.through .application cursor.offset) := by
  obtain ⟨step, found, rfl⟩ := exists_literal_of_takes "(" (by decide) bracket
  rw [application]
  refine aborts_within_iff.2 ⟨refusal, ?_, rfl⟩
  exact aborts_bind_iff.2 (.inr ⟨step, found, aborts_bind_iff.2 (.inl aborts)⟩)

/-- The end of an application has no overlong literal. -/
theorem not_overlong_close {start : Cursor} {read : Items start}
    {opened : start.ahead.length < cursor.ahead.length} {digits : Nat} :
    ¬Aborts (close cursor read opened) (.overlong digits) := by
  obtain ⟨values, last, ending, noLonger⟩ := read
  simp only [close]
  split
  · simp
  · split
    · cases values <;> simp
    · simp

/-- An overlong literal in an application is one in its items. -/
theorem exists_items_of_overlong_application {digits : Nat}
    (aborts : Aborts (application cursor) (.overlong digits)) :
    ∃ opened, cursor.Takes ['('] opened ∧ Aborts (items opened) (.overlong digits) := by
  rw [application] at aborts
  obtain ⟨inner, aborts, through⟩ := aborts_within_iff.1 aborts
  obtain rfl := Refusal.through_eq_overlong_iff.1 through
  rcases aborts_bind_iff.1 aborts with bracket | ⟨opened, found, aborts⟩
  · exact absurd bracket not_aborts_literal
  rcases aborts_bind_iff.1 aborts with inside | ⟨read, -, ending⟩
  · exact ⟨opened.next, takes_of_literal found, inside⟩
  · exact absurd ending not_overlong_close

/-- A definition in the long style is refused for good when its value is. -/
theorem aborts_define_iff :
    Aborts (define cursor) refusal ↔
      ∃ value inner, ComesToValue cursor value ∧ Aborts (expr value) inner
        ∧ refusal = inner.through .define cursor.offset := by
  rw [define]
  simp only [aborts_within_iff, aborts_bind_iff, not_aborts_literal, not_aborts_key, false_or]
  constructor
  · rintro ⟨inner, ⟨word, wordRead, outer, outerRead, name, nameRead, bracket, bracketRead,
      aborts⟩, rfl⟩
    rcases aborts with inside | ⟨value, -, closed, -, finished, -, done⟩
    · have comes := comesToValue_of_steps wordRead outerRead nameRead bracketRead
      exact ⟨_, inner, comes, inside, rfl⟩
    · exact absurd done not_aborts_ok
  · rintro ⟨value, inner, comes, inside, rfl⟩
    obtain ⟨_, _, _, _, _, wordTakes, outerTakes, ⟨name, nameRead, rfl, rfl⟩, bracketTakes,
      rfl⟩ := comes
    obtain ⟨word, wordRead, rfl⟩ := exists_literal_of_takes "define" (by decide) wordTakes
    obtain ⟨outer, outerRead, rfl⟩ := exists_literal_of_takes "(" (by decide) outerTakes
    obtain ⟨bracket, bracketRead, rfl⟩ := exists_literal_of_takes "(" (by decide) bracketTakes
    exact ⟨inner, ⟨word, wordRead, outer, outerRead, name, nameRead, bracket, bracketRead,
      .inl inside⟩, rfl⟩

end PocketLisp.Reading
