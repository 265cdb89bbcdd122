import PocketLisp.Reading.Cursor

/-!
# Stretches of text

`Cursor.Takes` says which characters lie between two cursors of a text. Passing a
run of characters and passing a literal are both described by it, so that readings
which follow one another add up to one stretch, and the offset behind a reading need
not be counted.
-/

namespace PocketLisp.Reading

namespace Cursor

/-- The characters between a cursor and a later one. -/
def Takes (start : Cursor) (taken : List Char) (next : Cursor) : Prop :=
  start.ahead = taken ++ next.ahead ∧ next.offset = start.offset + taken.length

namespace Takes

/-- No characters lie between a cursor and itself. -/
theorem refl (cursor : Cursor) : cursor.Takes [] cursor := by
  simp [Takes]

/-- What two stretches that meet take, they take together. -/
theorem trans {start middle next : Cursor} {first second : List Char}
    (before : start.Takes first middle) (behind : middle.Takes second next) :
    start.Takes (first ++ second) next := by
  obtain ⟨firstAhead, firstOffset⟩ := before
  obtain ⟨secondAhead, secondOffset⟩ := behind
  constructor
  · rw [firstAhead, secondAhead, List.append_assoc]
  · rw [secondOffset, firstOffset, List.length_append, Nat.add_assoc]

/-- A stretch determines the cursor behind it. -/
theorem unique {start next other : Cursor} {taken : List Char}
    (first : start.Takes taken next) (second : start.Takes taken other) : next = other := by
  obtain ⟨firstAhead, firstOffset⟩ := first
  obtain ⟨secondAhead, secondOffset⟩ := second
  have ahead : next.ahead = other.ahead :=
    List.append_cancel_left (firstAhead.symm.trans secondAhead)
  cases next
  cases other
  simp_all

/-- A stretch in two parts has a cursor between them. -/
theorem split {start next : Cursor} {first second : List Char}
    (whole : start.Takes (first ++ second) next) :
    ∃ middle, start.Takes first middle ∧ middle.Takes second next := by
  obtain ⟨ahead, offset⟩ := whole
  refine ⟨⟨start.offset + first.length, second ++ next.ahead⟩, ⟨?_, rfl⟩, rfl, ?_⟩
  · rw [ahead, List.append_assoc]
  · rw [offset, List.length_append, Nat.add_assoc]

/-- A stretch that is not empty has a cursor behind its first character. -/
theorem split_cons {start next : Cursor} {char : Char} {rest : List Char}
    (whole : start.Takes (char :: rest) next) :
    ∃ middle, start.Takes [char] middle ∧ middle.Takes rest next := by
  rw [← List.singleton_append] at whole
  exact whole.split

/-- What is taken is no longer ahead. -/
theorem length_eq {start next : Cursor} {taken : List Char} (takes : start.Takes taken next) :
    start.ahead.length = taken.length + next.ahead.length := by
  rw [takes.1, List.length_append]

end Takes

/-- The longest run of accepted characters lies between a cursor and the one past
the run. -/
theorem takes_past (accepts : Char → Bool) (cursor : Cursor) :
    cursor.Takes (cursor.ahead.takeWhile accepts) (cursor.past accepts) :=
  ⟨(cursor.takeWhile_append_past accepts).symm, rfl⟩

/-- A run of accepted characters is empty where no accepted character stands. -/
theorem takeWhile_eq_nil_iff {accepts : Char → Bool} {cursor : Cursor} :
    cursor.ahead.takeWhile accepts = [] ↔
      ∀ char, cursor.ahead.head? = some char → accepts char = false := by
  cases cursor.ahead with
  | nil => simp
  | cons first rest => cases accepted : accepts first <;> simp [accepted]

/-- What lies past the longest run of accepted characters does not start with one. -/
theorem head_past {accepts : Char → Bool} {cursor : Cursor} {char : Char}
    (head : (cursor.past accepts).ahead.head? = some char) : accepts char = false := by
  have stops := List.head?_dropWhile_not accepts cursor.ahead
  simp only [past] at head
  rw [head] at stops
  simpa using stops

/-- A run of accepted characters that nothing accepted follows is the longest one. -/
theorem past_eq_of_takes {accepts : Char → Bool} {start next : Cursor} {run : List Char}
    (takes : start.Takes run next) (accepted : ∀ char ∈ run, accepts char = true)
    (stops : ∀ char, next.ahead.head? = some char → accepts char = false) :
    start.ahead.takeWhile accepts = run ∧ start.past accepts = next := by
  have longest : start.ahead.takeWhile accepts = run := by
    rw [takes.1, List.takeWhile_append_of_pos accepted]
    cases shape : next.ahead with
    | nil => simp
    | cons char rest => simp [stops char (by simp [shape])]
  have past := start.takes_past accepts
  rw [longest] at past
  exact ⟨longest, past.unique takes⟩

/-- A literal that stands ahead lies between the cursor and the one behind it. -/
theorem behind?_eq_some_iff {literal : String} {cursor next : Cursor} :
    cursor.behind? literal = some next ↔ cursor.Takes literal.toList next := by
  constructor
  · intro found
    refine ⟨ahead_eq_of_behind? found, ?_⟩
    obtain ⟨ahead, _, rfl⟩ := Option.map_eq_some_iff.1 found
    rw [String.length_toList]
  · rintro ⟨ahead, offset⟩
    refine Option.map_eq_some_iff.2 ⟨next.ahead, strip?_eq_some_iff.2 ahead, ?_⟩
    rw [← String.length_toList, ← offset]

end Cursor

end PocketLisp.Reading
