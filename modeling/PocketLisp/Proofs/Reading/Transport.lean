import PocketLisp.Proofs.Reading.Entries
import PocketLisp.Proofs.Reading.Language

/-!
# Reading the same characters elsewhere

A reading depends on the characters that it takes and on whether the text goes on with
the last token behind them. Where it starts does not matter, and neither does anything
further on. So what is read in one text is read in every other text in which the same
characters stand, as long as what is behind them there ends the same tokens.

Behind a truth value the blanks are part of what is read, and there may be more of them
elsewhere. Hence a moved reading comes to `settle`, and sequences of readings are
compared by the cursors behind their blanks.
-/

namespace PocketLisp.Reading

open Attempt

variable {cursor next start last : Cursor} {tree : Datum} {taken gap : List Char}
  {chars more : List Char}

section Stretches

/-- Two stretches between the same cursors take the same characters. -/
theorem Cursor.Takes.taken_unique {other : List Char} (first : cursor.Takes taken next)
    (second : cursor.Takes other next) : taken = other :=
  List.append_cancel_right (first.1.symm.trans second.1)

/-- A cursor stands in front of all that is ahead of it. -/
theorem Cursor.takes_ahead (cursor : Cursor) : cursor.Takes cursor.ahead ⟨cursor.stop, []⟩ :=
  ⟨(List.append_nil _).symm, rfl⟩

/-- Behind some blanks the same blanks are left to skip as in front of them. -/
theorem skipGaps_eq_of_takes (isGap : Gap gap) (takes : cursor.Takes gap next) :
    cursor.skipGaps = next.skipGaps := by
  obtain ⟨others, isGapToo, skipped⟩ := exists_takes_skipGaps next
  exact skipGaps_of_takes (isGap.append isGapToo) (takes.trans skipped) fun _ => isGap_head_skipGaps

/-- A reading settles behind a truth value's blanks, and nowhere else behind a spelling. -/
theorem settle_cases (tree : Datum) :
    (∀ cursor, settle tree cursor = cursor.skipGaps) ∨ ∀ cursor, settle tree cursor = cursor := by
  unfold settle
  split
  · exact .inl fun _ => rfl
  · exact .inr fun _ => rfl

/-- Nothing more than blanks lies between a spelling and where its reading comes to. -/
theorem exists_takes_settle (tree : Datum) (cursor : Cursor) :
    ∃ gap, Gap gap ∧ cursor.Takes gap (settle tree cursor) := by
  rcases settle_cases tree with skips | stays
  · rw [skips]
    exact exists_takes_skipGaps cursor
  · rw [stays]
    exact ⟨[], nofun, .refl cursor⟩

/-- What is read takes a first character that can start an item. -/
theorem Attempt.Yields.exists_takes (yields : Yields (expr cursor) tree next) :
    ∃ taken, cursor.Takes taken next ∧ ∃ char, taken.head? = some char ∧ Opens char := by
  obtain ⟨spelling, behind, spelled, takes, -, rfl⟩ := yields_expr_iff_stands.1 yields
  obtain ⟨gap, -, rest⟩ := exists_takes_settle tree behind
  obtain ⟨char, head, opens⟩ := spelled.head
  exact ⟨spelling ++ gap, takes.trans rest, char, by rw [List.head?_append, head, Option.some_or],
    opens⟩

/-- Readings one behind the other take what lies between. -/
theorem Passes.exists_takes (passes : Passes cursor last) : ∃ taken, cursor.Takes taken last := by
  induction passes with
  | none cursor => exact ⟨[], .refl cursor⟩
  | @some cursor next last tree yields rest inductionHypothesis =>
      obtain ⟨lead, -, skipped⟩ := exists_takes_skipGaps cursor
      obtain ⟨read, takes, -⟩ := yields.exists_takes
      obtain ⟨others, behind⟩ := inductionHypothesis
      exact ⟨_, (skipped.trans takes).trans behind⟩

end Stretches

section Extending

/-- The cursor at the same place of a text with more characters at its end. -/
def Cursor.extend (cursor : Cursor) (more : List Char) : Cursor :=
  ⟨cursor.offset, cursor.ahead ++ more⟩

/-- An extended text goes on at a cursor as before, unless it ended there. -/
theorem head?_extend (written : cursor.ahead ≠ []) (more : List Char) :
    (cursor.extend more).ahead.head? = cursor.ahead.head? := by
  obtain ⟨char, rest, shape⟩ := List.exists_cons_of_ne_nil written
  simp [Cursor.extend, shape]

/-- A stretch of a text stays one when the text is extended. -/
theorem Cursor.Takes.extend (takes : cursor.Takes taken next) (more : List Char) :
    (cursor.extend more).Takes taken (next.extend more) := by
  obtain ⟨ahead, offset⟩ := takes
  refine ⟨?_, offset⟩
  simp only [Cursor.extend, ahead, List.append_assoc]

/-- The blanks of a text are skipped in an extended text. -/
theorem skipGaps_extend (cursor : Cursor) (more : List Char) :
    (cursor.extend more).skipGaps = (cursor.skipGaps.extend more).skipGaps := by
  obtain ⟨gap, isGap, skipped⟩ := exists_takes_skipGaps cursor
  exact skipGaps_eq_of_takes isGap (skipped.extend more)

/-- No more than these are skipped where the text itself goes on behind them. -/
theorem skipGaps_extend_of_written (written : cursor.skipGaps.ahead ≠ []) (more : List Char) :
    (cursor.extend more).skipGaps = cursor.skipGaps.extend more := by
  rw [skipGaps_extend]
  refine skipGaps_of_takes gap_nil (.refl _) fun char head => ?_
  rw [head?_extend written] at head
  exact isGap_head_skipGaps head

end Extending

section Ends

/-- Blanks end every spelling. -/
theorem ends_of_gap (tree : Datum) (blank : ∀ char, chars.head? = some char → Text.isGap char = true) :
    Ends tree chars :=
  fun char head => stops_of_isGap tree (blank char head)

/-- What stands in front decides whether a spelling ends, if anything does. -/
theorem Ends.of_append {other : List Char} (ends : Ends tree (taken ++ chars))
    (alike : taken = [] → Ends tree chars → Ends tree other) : Ends tree (taken ++ other) := by
  cases taken with
  | nil => exact alike rfl ends
  | cons first rest => exact ends

end Ends

/-- What is read is read again wherever the same characters stand, if what is behind them
there ends the same spelling. -/
theorem Attempt.Yields.elsewhere (yields : Yields (expr cursor) tree next)
    (here : cursor.Takes taken next) (there : start.Takes taken last)
    (ends : Ends tree next.ahead → Ends tree last.ahead) :
    Yields (expr start) tree (settle tree last) := by
  obtain ⟨spelling, behind, spelled, takes, stops, rfl⟩ := yields_expr_iff_stands.1 yields
  obtain ⟨gap, isGap, rest⟩ := exists_takes_settle tree behind
  obtain rfl := here.taken_unique (takes.trans rest)
  obtain ⟨middle, taken, blank⟩ := there.split
  have settled : settle tree middle = settle tree last := by
    rcases settle_cases tree with skips | stays
    · rw [skips, skips, skipGaps_eq_of_takes isGap blank]
    · rw [stays] at rest
      obtain rfl := rest.taken_unique (.refl behind)
      rw [blank.unique (.refl middle)]
  rw [← settled]
  refine spelled.yields taken ?_
  rw [blank.1]
  rw [rest.1] at stops
  refine stops.of_append fun none => ?_
  exact ends

/-- Expressions that are read one behind the other are read again wherever the same
characters stand, if what is behind them there ends the same spellings. -/
theorem Passes.elsewhere {front : Cursor} (passes : Passes cursor next)
    (here : cursor.Takes taken next) (there : start.Takes taken last)
    (ends : ∀ tree, Ends tree next.ahead → Ends tree last.ahead)
    (same : front.skipGaps = start.skipGaps) :
    ∃ place, Passes front place ∧ place.skipGaps = last.skipGaps := by
  induction passes generalizing front start taken with
  | none cursor =>
      obtain rfl := here.taken_unique (.refl cursor)
      obtain rfl := there.unique (.refl start)
      exact ⟨front, .none front, same⟩
  | @some cursor middle next tree yields rest inductionHypothesis =>
      obtain ⟨lead, isGap, skipped⟩ := exists_takes_skipGaps cursor
      obtain ⟨read, takes, char, head, opens⟩ := yields.exists_takes
      obtain ⟨others, behind⟩ := rest.exists_takes
      obtain rfl := here.taken_unique ((skipped.trans takes).trans behind)
      obtain ⟨middleThere, there, behindThere⟩ := there.split
      obtain ⟨place, leadThere, readThere⟩ := there.split
      have atPlace : start.skipGaps = place :=
        skipGaps_of_opens isGap leadThere readThere ⟨char, head, opens⟩
      have moved : Yields (expr front.skipGaps) tree (settle tree middleThere) := by
        rw [same, atPlace]
        refine yields.elsewhere takes readThere fun stops => ?_
        rw [behind.1] at stops
        rw [behindThere.1]
        exact stops.of_append fun _ => ends tree
      obtain ⟨final, passes, settled⟩ := inductionHypothesis behind behindThere ends
        (skipGaps_settle tree middleThere)
      exact ⟨final, .some moved passes, settled⟩

section Sequences

/-- Blanks in front of a sequence of expressions do not matter. -/
theorem forms_congr (same : cursor.skipGaps = start.skipGaps) : forms cursor = forms start := by
  rw [forms, forms.eq_def start, same]

/-- A sequence of expressions is read to the end of the text. -/
theorem forms_eq_ok_iff {trees : List Datum} :
    forms cursor = .ok trees ↔
      cursor.skipGaps.ahead = [] ∧ trees = []
        ∨ ∃ first next rest, Yields (expr cursor.skipGaps) first next ∧ forms next = .ok rest
          ∧ trees = first :: rest := by
  rw [forms]
  split
  · next finished =>
      have none : cursor.skipGaps.ahead = [] := by simpa using finished
      constructor
      · intro same
        exact .inl ⟨none, (Except.ok.inj same).symm⟩
      · rintro (⟨-, rfl⟩ | ⟨first, next, rest, yields, -⟩)
        · rfl
        · have := yields.shorter
          simp [none] at this
  · next unfinished =>
      have some : cursor.skipGaps.ahead ≠ [] := by simpa using unfinished
      cases read : expr cursor.skipGaps with
      | error refusal => simp [some, bind, Except.bind]
      | ok step =>
          cases others : forms step.next with
          | error refusal =>
              simp only [some, others, bind, Except.bind, yields_ok, reduceCtorEq, false_and,
                false_or, false_iff]
              rintro ⟨_, _, rest, ⟨rfl, rfl⟩, failed, -⟩
              rw [others] at failed
              contradiction
          | ok rest =>
              simp only [some, others, bind, Except.bind, pure, Except.pure, yields_ok, false_and,
                false_or, Except.ok.injEq]
              constructor
              · rintro rfl
                exact ⟨step.value, step.next, rest, ⟨rfl, rfl⟩, others, rfl⟩
              · rintro ⟨_, _, again, ⟨rfl, rfl⟩, same, rfl⟩
                rw [others] at same
                rw [Except.ok.inj same]

/-- A sequence of expressions that is read to the end of its text is read at the start of
any other text that goes on with a blank behind it, and reading goes on from there. -/
theorem forms_of_takes {cursor start last front : Cursor} {trees : List Datum}
    (read : forms cursor = .ok trees) (takes : start.Takes cursor.ahead last)
    (blank : ∀ char, last.ahead.head? = some char → Text.isGap char = true)
    (same : front.skipGaps = start.skipGaps) :
    forms front = (forms last).map (trees ++ ·) := by
  rcases forms_eq_ok_iff.1 read with ⟨finished, rfl⟩ | ⟨first, next, rest, yields, others, rfl⟩
  · obtain ⟨gap, isGap, skipped⟩ := exists_takes_skipGaps cursor
    have all : cursor.ahead = gap := by rw [skipped.1, finished, List.append_nil]
    rw [all] at takes
    rw [forms_congr (same.trans (skipGaps_eq_of_takes isGap takes))]
    cases forms last <;> rfl
  · obtain ⟨lead, isGap, skipped⟩ := exists_takes_skipGaps cursor
    obtain ⟨taken, read, char, head, opens⟩ := yields.exists_takes
    have whole := (skipped.trans read).1
    rw [whole] at takes
    obtain ⟨middle, takes, behind⟩ := takes.split
    obtain ⟨place, leadThere, readThere⟩ := takes.split
    have atPlace : start.skipGaps = place :=
      skipGaps_of_opens isGap leadThere readThere ⟨char, head, opens⟩
    have moved : Yields (expr front.skipGaps) first (settle first middle) := by
      rw [same, atPlace]
      refine yields.elsewhere read readThere fun stops => ?_
      rw [behind.1]
      rw [← List.append_nil next.ahead] at stops
      exact stops.of_append fun _ _ => ends_of_gap first blank
    have := yields.shorter
    have := cursor.length_skipGaps_le
    have later := forms_of_takes others behind blank (skipGaps_settle first middle)
    cases answer : forms last with
    | ok after =>
        rw [answer] at later
        exact forms_eq_ok_iff.2 (.inr ⟨first, _, _, moved, later, rfl⟩)
    | error refusal =>
        rw [answer] at later
        exact forms_eq_error_step_iff.2 (.inr ⟨first, _, moved, later⟩)
termination_by cursor.ahead.length

/-- A whole text that is read as one expression is a sequence of this one. -/
theorem readAll_of_read {text : String} (read : read true text = .ok tree) :
    readAll text = .ok [tree] := by
  obtain ⟨next, yields, finished⟩ := read_complete_eq_ok_iff.1 read
  obtain ⟨taken, takes, head⟩ := yields.exists_takes
  have front : (Cursor.ofText text).skipGaps = .ofText text :=
    skipGaps_of_opens gap_nil (.refl _) takes head
  have behind : next.skipGaps.ahead = [] := by
    have := next.length_skipGaps_le
    rwa [finished, List.length_nil, Nat.le_zero, List.length_eq_zero_iff] at this
  have rest : forms next = .ok [] := forms_eq_ok_iff.2 (.inl ⟨behind, rfl⟩)
  refine forms_eq_ok_iff.2 (.inr ⟨tree, next, [], ?_, rest, rfl⟩)
  rwa [front]

end Sequences

end PocketLisp.Reading
