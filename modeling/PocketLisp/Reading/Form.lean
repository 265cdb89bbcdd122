import PocketLisp.Reading.Token

/-!
# Forms

The rules of the grammar that nest. An expression is a constant, an application or
a definition in the long style, `define(name(value))`, which is read as the
application of the name to the value.

An application reads expressions until one fails, and then looks at what stands
ahead. Its closing bracket ends it. Any other text makes the failure of the last
expression final, for nothing else could have been meant by the opening bracket.
-/

namespace PocketLisp.Reading

open Attempt

/-- The expressions of an application up to the first that failed, the cursor behind
the last of them, and why there are no more. -/
structure Items (start : Cursor) where
  values : List Datum
  next : Cursor
  ending : Failure
  noLonger : next.ahead.length ≤ start.ahead.length

/-- Behind a closing bracket there is less ahead than in front of the items. -/
theorem Items.length_lt {start cursor : Cursor} {char : Char} {rest : List Char} (items : Items start)
    (shape : items.next.skipGaps.ahead = char :: rest)
    (opened : start.ahead.length < cursor.ahead.length) : rest.length < cursor.ahead.length := by
  have closed : (char :: rest).length ≤ items.next.ahead.length :=
    shape ▸ items.next.length_skipGaps_le
  have := items.noLonger
  simp only [List.length_cons] at closed
  omega

/-- End an application behind its items. -/
def close {start : Cursor} (cursor : Cursor) (items : Items start)
    (opened : start.ahead.length < cursor.ahead.length) : Attempt Datum cursor :=
  let stop := items.next.skipGaps
  match shape : stop.ahead with
  | [] => fail .noClosingBracket stop.offset true
  | char :: rest =>
      if char = ')' then
        match items.values with
        | [] => fail .noOperator cursor.offset true
        | operator :: operands =>
            .ok ⟨.application operator operands, ⟨stop.offset + 1, rest⟩,
              items.length_lt shape opened⟩
      else .error (.failure { items.ending with committed := true })

mutual

/-- An expression: a constant, an application or a definition in the long style. -/
def expr (cursor : Cursor) : Attempt Datum cursor :=
  within .expr cursor.offset <|
    orElse (constant cursor) fun _ =>
    orElse (application cursor) fun _ =>
      define cursor
termination_by 3 * cursor.ahead.length + 1

/-- An operator and its operands in round brackets. -/
def application (cursor : Cursor) : Attempt Datum cursor :=
  within .application cursor.offset do
    let opened ← literal "(" (by decide) cursor
    let read ← items opened.next
    close cursor read opened.shorter
termination_by 3 * cursor.ahead.length
decreasing_by
  have := opened.shorter
  omega

/-- The expressions ahead, up to the first that fails. A committed failure is not an
end but a failure of the whole. -/
def items (cursor : Cursor) : Except Refusal (Items cursor) :=
  match expr cursor.skipGaps with
  | .error (.overlong digits) => .error (.overlong digits)
  | .error (.failure failure) =>
      if failure.committed then .error (.failure failure)
      else .ok ⟨[], cursor, failure, Nat.le_refl _⟩
  | .ok first => do
      let rest ← items first.next
      return ⟨first.value :: rest.values, rest.next, rest.ending, by
        have := first.shorter
        have := cursor.length_skipGaps_le
        have := rest.noLonger
        omega⟩
termination_by 3 * cursor.ahead.length + 2
decreasing_by
  · have := cursor.length_skipGaps_le
    omega
  · have := first.shorter
    have := cursor.length_skipGaps_le
    omega

/-- A definition in the long style. -/
def define (cursor : Cursor) : Attempt Datum cursor :=
  within .define cursor.offset do
    let word ← literal "define" (by decide) cursor
    let outer ← literal "(" (by decide) word.next
    let name ← key outer.next.skipGaps
    let inner ← literal "(" (by decide) name.next
    let value ← expr inner.next.skipGaps
    let closed ← literal ")" (by decide) value.next.skipGaps
    let finished ← literal ")" (by decide) closed.next
    return ⟨.application (.key name.value) [value.value], finished.next, by
      have := word.shorter
      have := outer.shorter
      have := outer.next.length_skipGaps_le
      have := name.shorter
      have := inner.shorter
      have := inner.next.length_skipGaps_le
      have := value.shorter
      have := value.next.length_skipGaps_le
      have := closed.shorter
      have := finished.shorter
      omega⟩
termination_by 3 * cursor.ahead.length
decreasing_by
  have := word.shorter
  have := outer.shorter
  have := outer.next.length_skipGaps_le
  have := name.shorter
  have := inner.shorter
  have := inner.next.length_skipGaps_le
  omega

end

end PocketLisp.Reading
