import PocketLisp.Proofs.Reading.Tokens

/-!
# Readings of nested forms

What the rules that nest yield, and when they decline, in terms of the readings they
are made of. Each statement is one level of the recursion of the grammar; inductions
over it go along `expr.mutual_induct`, which has one case for each rule.
-/

namespace PocketLisp.Reading

open Attempt

/-- The expressions of an application are read, up to a cursor at which none is. -/
def Collects {start : Cursor} (attempt : Except Refusal (Items start)) (values : List Datum)
    (next : Cursor) : Prop :=
  ∃ read, attempt = .ok read ∧ read.values = values ∧ read.next = next

variable {cursor next : Cursor} {tree : Datum}

/-- An expression is the first of its alternatives that does not decline. -/
theorem yields_expr_iff :
    Yields (expr cursor) tree next ↔
      Yields (constant cursor) tree next
      ∨ Declines (constant cursor) ∧
        (Yields (application cursor) tree next
        ∨ Declines (application cursor) ∧ Yields (define cursor) tree next) := by
  rw [expr]
  simp only [yields_within_iff, yields_orElse_iff]

/-- An expression declines when its alternatives do. -/
theorem declines_expr_iff :
    Declines (expr cursor) ↔
      Declines (constant cursor) ∧ Declines (application cursor) ∧ Declines (define cursor) := by
  rw [expr]
  simp only [declines_within_iff, declines_orElse_iff]

/-- Expressions are read up to the first that declines. -/
theorem collects_items_iff {values : List Datum} :
    Collects (items cursor) values next ↔
      values = [] ∧ next = cursor ∧ Declines (expr cursor.skipGaps)
      ∨ ∃ first behind rest, values = first :: rest
          ∧ Yields (expr cursor.skipGaps) first behind ∧ Collects (items behind) rest next := by
  rw [items]
  split
  · next digits failed => simp [failed, Collects]
  · next failure failed =>
      split
      · next committed => simp [failed, committed, Collects]
      · next uncommitted =>
          have declines : failure.committed = false := by simpa using uncommitted
          simp only [failed, declines_error, Refusal.isFinal_failure, declines, and_true,
            not_yields_error, false_and, and_false, exists_false, or_false]
          constructor
          · rintro ⟨read, same, rfl, rfl⟩
            obtain rfl := Except.ok.inj same
            exact ⟨rfl, rfl⟩
          · rintro ⟨rfl, rfl⟩
            exact ⟨_, rfl, rfl, rfl⟩
  · next first read =>
      simp only [read, not_declines_ok, and_false, false_or, yields_ok]
      constructor
      · rintro ⟨all, same, rfl, rfl⟩
        cases others : items first.next with
        | error refusal =>
            rw [others] at same
            contradiction
        | ok rest =>
            rw [others] at same
            obtain rfl := Except.ok.inj same
            exact ⟨first.value, first.next, rest.values, rfl, ⟨rfl, rfl⟩, rest, others, rfl, rfl⟩
      · rintro ⟨_, _, _, rfl, ⟨rfl, rfl⟩, rest, others, rfl, rfl⟩
        rw [others]
        exact ⟨_, rfl, rfl, rfl⟩

/-- An application ends where its closing bracket stands behind one item or more. -/
theorem yields_close_iff {start : Cursor} {read : Items start}
    {opened : start.ahead.length < cursor.ahead.length} :
    Yields (close cursor read opened) tree next ↔
      ∃ operator operands, read.values = operator :: operands
        ∧ read.next.skipGaps.Takes [')'] next ∧ tree = .application operator operands := by
  obtain ⟨values, last, ending, noLonger⟩ := read
  simp only [close]
  constructor
  · intro yields
    cases values with
    | nil =>
        split at yields
        · simp at yields
        · split at yields <;> simp at yields
    | cons operator operands =>
        split at yields
        · simp at yields
        · next char rest ahead =>
            split at yields
            · next bracket =>
                obtain ⟨rfl, rfl⟩ := yields_ok.1 yields
                exact ⟨operator, operands, rfl, ⟨bracket ▸ ahead, rfl⟩, rfl⟩
            · simp at yields
  · rintro ⟨operator, operands, rfl, takes, rfl⟩
    split
    · next none =>
        have ahead := takes.1
        simp [none] at ahead
    · next char rest same =>
        have ahead := same.symm.trans takes.1
        obtain ⟨rfl, rfl⟩ := List.cons.inj ahead
        rw [if_pos rfl]
        refine yields_ok.2 ⟨rfl, ?_⟩
        exact Cursor.Takes.unique ⟨same, rfl⟩ takes

/-- An application is an opening bracket, one item or more, and a closing bracket. -/
theorem yields_application_iff :
    Yields (application cursor) tree next ↔
      ∃ opened operator operands behind, cursor.Takes ['('] opened
        ∧ Collects (items opened) (operator :: operands) behind
        ∧ behind.skipGaps.Takes [')'] next ∧ tree = .application operator operands := by
  rw [application]
  simp only [yields_within_iff, yields_bind_iff, yields_close_iff]
  constructor
  · rintro ⟨opened, found, read, collected, operator, operands, values, closed, rfl⟩
    exact ⟨opened.next, operator, operands, read.next, takes_of_literal found,
      ⟨read, collected, values, rfl⟩, closed, rfl⟩
  · rintro ⟨opened, operator, operands, behind, takes, ⟨read, collected, values, rfl⟩, closed, rfl⟩
    obtain ⟨step, found, rfl⟩ := exists_literal_of_takes "(" (by decide) takes
    exact ⟨step, found, read, collected, operator, operands, values, closed, rfl⟩

/-- The items of an application are read or refused for good. -/
theorem not_declines_items (cursor : Cursor) : ¬Declines (items cursor) := by
  rw [items]
  split
  · simp
  · next failure failed =>
      split
      · next committed => simpa using committed
      · simp
  · next first read =>
      have shorter : first.next.ahead.length < cursor.ahead.length :=
        Nat.lt_of_lt_of_le first.shorter cursor.length_skipGaps_le
      rw [declines_bind_iff]
      rintro (declines | ⟨rest, -, declines⟩)
      · exact not_declines_items first.next declines
      · exact not_declines_ok declines
termination_by cursor.ahead.length

/-- The end of an application is read or refused for good. -/
theorem not_declines_close {start : Cursor} {read : Items start}
    {opened : start.ahead.length < cursor.ahead.length} : ¬Declines (close cursor read opened) := by
  obtain ⟨values, last, ending, noLonger⟩ := read
  simp only [close]
  split
  · simp
  · split
    · cases values <;> simp
    · simp

/-- An application declines where there is no opening bracket, and nowhere else. -/
theorem declines_application_iff :
    Declines (application cursor) ↔ ∀ next, ¬cursor.Takes ['('] next := by
  rw [application]
  simp only [declines_within_iff, declines_bind_iff, not_declines_close, not_declines_items,
    and_false, exists_false, or_false]
  exact declines_literal_iff

/-- A definition in the long style declines where its word does not stand. -/
theorem declines_define_of_not_takes (missing : ∀ next, ¬cursor.Takes "define".toList next) :
    Declines (define cursor) := by
  rw [define]
  simp only [declines_within_iff, declines_bind_iff]
  exact .inl (declines_literal_iff.2 missing)

/-- A definition in the long style comes to read its value at a cursor. -/
def ComesToValue (cursor value : Cursor) : Prop :=
  ∃ word outer name named inner, cursor.Takes "define".toList word ∧ word.Takes ['('] outer
    ∧ Yields (key outer.skipGaps) name named ∧ named.Takes ['('] inner ∧ value = inner.skipGaps

/-- The steps in front of a value come to it. -/
theorem comesToValue_of_steps {written : "define".toList ≠ []} {writtenToo : "(".toList ≠ []}
    {word : Step Unit cursor} {outer : Step Unit word.next} {name : Step String outer.next.skipGaps}
    {bracket : Step Unit name.next} (wordRead : literal "define" written cursor = .ok word)
    (outerRead : literal "(" writtenToo word.next = .ok outer)
    (nameRead : key outer.next.skipGaps = .ok name)
    (bracketRead : literal "(" writtenToo name.next = .ok bracket) :
    ComesToValue cursor bracket.next.skipGaps :=
  ⟨word.next, outer.next, name.value, name.next, bracket.next, takes_of_literal wordRead,
    takes_of_literal outerRead, ⟨name, nameRead, rfl, rfl⟩, takes_of_literal bracketRead, rfl⟩

/-- A value stands behind the start of its definition. -/
theorem ComesToValue.shorter {value : Cursor} (comes : ComesToValue cursor value) :
    value.ahead.length < cursor.ahead.length := by
  obtain ⟨word, outer, name, named, inner, define, opened, key, bracket, rfl⟩ := comes
  have := inner.length_skipGaps_le
  have := outer.length_skipGaps_le
  have := key.shorter
  have := opened.length_eq
  have := bracket.length_eq
  have := define.length_eq
  omega

/-- A definition in the long style is one name and one value between its brackets. -/
theorem yields_define_iff :
    Yields (define cursor) tree next ↔
      ∃ word outer name named inner value behind closed,
        cursor.Takes "define".toList word ∧ word.Takes ['('] outer
        ∧ Yields (key outer.skipGaps) name named ∧ named.Takes ['('] inner
        ∧ Yields (expr inner.skipGaps) value behind ∧ behind.skipGaps.Takes [')'] closed
        ∧ closed.Takes [')'] next ∧ tree = .application (.key name) [value] := by
  rw [define]
  simp only [yields_within_iff, yields_bind_iff]
  constructor
  · rintro ⟨word, wordRead, outer, outerRead, name, nameRead, inner, innerRead, value, valueRead,
      closed, closedRead, finished, finishedRead, yields⟩
    obtain ⟨rfl, rfl⟩ := yields_ok.1 yields
    exact ⟨word.next, outer.next, name.value, name.next, inner.next, value.value, value.next,
      closed.next, takes_of_literal wordRead, takes_of_literal outerRead,
      ⟨name, nameRead, rfl, rfl⟩, takes_of_literal innerRead, ⟨value, valueRead, rfl, rfl⟩,
      takes_of_literal closedRead, takes_of_literal finishedRead, rfl⟩
  · rintro ⟨_, _, _, _, _, _, _, _, wordTakes, outerTakes, ⟨name, nameRead, rfl, rfl⟩, innerTakes,
      ⟨value, valueRead, rfl, rfl⟩, closedTakes, finishedTakes, rfl⟩
    obtain ⟨word, wordRead, rfl⟩ := exists_literal_of_takes "define" (by decide) wordTakes
    obtain ⟨outer, outerRead, rfl⟩ := exists_literal_of_takes "(" (by decide) outerTakes
    obtain ⟨inner, innerRead, rfl⟩ := exists_literal_of_takes "(" (by decide) innerTakes
    obtain ⟨closed, closedRead, rfl⟩ := exists_literal_of_takes ")" (by decide) closedTakes
    obtain ⟨finished, finishedRead, rfl⟩ := exists_literal_of_takes ")" (by decide) finishedTakes
    exact ⟨word, wordRead, outer, outerRead, name, nameRead, inner, innerRead, value, valueRead,
      closed, closedRead, finished, finishedRead, yields_ok.2 ⟨rfl, rfl⟩⟩

end PocketLisp.Reading
