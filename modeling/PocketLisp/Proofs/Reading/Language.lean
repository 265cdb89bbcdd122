import PocketLisp.Proofs.Reading.Grammar

/-!
# The texts that are read

A whole text is read as a tree when it is a spelling of the tree. Behind a truth value
the blanks are part of what is read, so they may end such a text and no other.

Integers are converted only up to a number of digits, which is the one difference
between the texts that the grammar allows and those that are read.
-/

namespace PocketLisp.Reading

open Attempt

variable {cursor next : Cursor} {tree : Datum} {text : String} {chars : List Char}

/-- What may stand behind a spelling of a tree at the end of a text: blanks, and only
behind a truth value. -/
def Trails (tree : Datum) (chars : List Char) : Prop :=
  Gap chars ∧ (chars ≠ [] → ∃ value, tree = .bool value)

/-- Nothing is left of a text where what is behind a spelling may end it. -/
theorem ahead_settle_eq_nil_iff : (settle tree cursor).ahead = [] ↔ Trails tree cursor.ahead := by
  obtain ⟨gap, isGap, skipped⟩ := exists_takes_skipGaps cursor
  unfold settle
  split
  · next value =>
      constructor
      · intro finished
        rw [skipped.1, finished, List.append_nil]
        exact ⟨isGap, fun _ => ⟨value, rfl⟩⟩
      · rintro ⟨trailing, -⟩
        have all : cursor.Takes cursor.ahead ⟨cursor.offset + cursor.ahead.length, []⟩ :=
          ⟨(List.append_nil _).symm, rfl⟩
        rw [skipGaps_of_takes trailing all nofun]
  · next other =>
      constructor
      · intro finished
        rw [finished]
        exact ⟨nofun, fun some => absurd rfl some⟩
      · rintro ⟨-, only⟩
        refine Classical.byContradiction fun some => ?_
        obtain ⟨value, rfl⟩ := only some
        exact other value rfl

/-- Blanks end every spelling. -/
theorem Trails.ends (trails : Trails tree chars) : Ends tree chars :=
  fun _ head => stops_of_isGap tree (trails.1 _ (List.mem_of_mem_head? head))

/-- Nothing may stand behind any spelling. -/
theorem trails_nil (tree : Datum) : Trails tree [] :=
  ⟨gap_nil, fun some => absurd rfl some⟩

/-- The leading expression of a text is read whatever follows it. -/
theorem read_leading_eq_ok_iff :
    read false text = .ok tree ↔ ∃ next, Yields (expr (.ofText text)) tree next := by
  cases attempt : expr (.ofText text) with
  | error refusal => simp [read, attempt, bind, Except.bind]
  | ok step => simp [read, attempt, bind, Except.bind, pure, Except.pure]

/-- A whole text is read when nothing is left of it. -/
theorem read_complete_eq_ok_iff :
    read true text = .ok tree ↔
      ∃ next, Yields (expr (.ofText text)) tree next ∧ next.ahead = [] := by
  cases attempt : expr (.ofText text) with
  | error refusal => simp [read, attempt, bind, Except.bind]
  | ok step =>
      cases left : step.next.ahead with
      | nil =>
          simp only [read, attempt, left, yields_ok, bind, Except.bind, pure, Except.pure]
          constructor
          · intro same
            exact ⟨step.next, ⟨Except.ok.inj same, rfl⟩, left⟩
          · rintro ⟨_, ⟨rfl, -⟩, -⟩
            rfl
      | cons char rest => simp [read, attempt, left, bind, Except.bind, fail]

/-- The leading expression of a text is read where the text starts with a spelling that
what follows does not go on with. -/
theorem read_leading_eq_ok_iff_withinLimit :
    read false text = .ok tree ↔
      ∃ spelling rest, text.toList = spelling ++ rest ∧ Spells WithinLimit tree spelling
        ∧ Ends tree rest := by
  rw [read_leading_eq_ok_iff]
  simp only [yields_expr_iff_stands]
  constructor
  · rintro ⟨_, spelling, behind, spelled, takes, ends, rfl⟩
    exact ⟨spelling, behind.ahead, takes.1, spelled, ends⟩
  · rintro ⟨spelling, rest, whole, spelled, ends⟩
    exact ⟨_, spelling, ⟨0 + spelling.length, rest⟩, spelled, ⟨whole, rfl⟩, ends, rfl⟩

/-- A whole text is read as a tree when it is a spelling of it, up to the blanks that may
trail. -/
theorem read_complete_eq_ok_iff_withinLimit :
    read true text = .ok tree ↔
      ∃ spelling gap, text.toList = spelling ++ gap ∧ Spells WithinLimit tree spelling
        ∧ Trails tree gap := by
  rw [read_complete_eq_ok_iff]
  simp only [yields_expr_iff_stands]
  constructor
  · rintro ⟨_, ⟨spelling, behind, spelled, takes, -, rfl⟩, finished⟩
    exact ⟨spelling, behind.ahead, takes.1, spelled, ahead_settle_eq_nil_iff.1 finished⟩
  · rintro ⟨spelling, gap, whole, spelled, trails⟩
    exact ⟨_, ⟨spelling, ⟨0 + spelling.length, gap⟩, spelled, ⟨whole, rfl⟩, trails.ends, rfl⟩,
      ahead_settle_eq_nil_iff.2 trails⟩

/-- A text that is a spelling is read as its tree. -/
theorem Spells.read_eq_ok (spelled : Spells WithinLimit tree text.toList) :
    read true text = .ok tree :=
  read_complete_eq_ok_iff_withinLimit.2
    ⟨_, [], (List.append_nil _).symm, spelled, trails_nil tree⟩

/-- No run of digits in a text is too long to be converted. -/
def ShortRuns (chars : List Char) : Prop :=
  ∀ run, run <:+: chars → (∀ char ∈ run, char.isDigit = true) → run.length ≤ Text.digitLimit

/-- Inside a text without long runs of digits the grammar and the reader agree on what
is a spelling. -/
theorem ShortRuns.spells_iff {before rest : List Char} (short : ShortRuns chars)
    (whole : chars = before ++ rest) :
    Spells WithinLimit tree before ↔ Spells AnyLength tree before := by
  constructor
  · exact fun spelled => spelled.widen fun _ _ _ _ => trivial
  · refine fun spelled => spelled.widen fun run inside decimal _ => ?_
    refine short run ?_ decimal
    rw [whole]
    exact inside.trans (List.prefix_append _ _).isInfix

/-- The reader accepts its grammar and nothing else. A whole text is read as a tree
exactly when it is a spelling of the tree, with blanks behind it if the tree is a truth
value. A leading expression is read exactly when the text starts with a spelling that
what follows does not go on with. -/
theorem read_eq_ok_iff_spells (text : String) (short : ShortRuns text.toList) (tree : Datum) :
    (read true text = .ok tree ↔
      ∃ spelling gap, text.toList = spelling ++ gap ∧ Spells AnyLength tree spelling
        ∧ Trails tree gap)
    ∧ (read false text = .ok tree ↔
      ∃ spelling rest, text.toList = spelling ++ rest ∧ Spells AnyLength tree spelling
        ∧ Ends tree rest) := by
  rw [read_complete_eq_ok_iff_withinLimit, read_leading_eq_ok_iff_withinLimit]
  constructor
  · constructor
    · rintro ⟨spelling, gap, whole, spelled, trails⟩
      exact ⟨spelling, gap, whole, (short.spells_iff whole).1 spelled, trails⟩
    · rintro ⟨spelling, gap, whole, spelled, trails⟩
      exact ⟨spelling, gap, whole, (short.spells_iff whole).2 spelled, trails⟩
  · constructor
    · rintro ⟨spelling, rest, whole, spelled, ends⟩
      exact ⟨spelling, rest, whole, (short.spells_iff whole).1 spelled, ends⟩
    · rintro ⟨spelling, rest, whole, spelled, ends⟩
      exact ⟨spelling, rest, whole, (short.spells_iff whole).2 spelled, ends⟩

/-- A definition in the long style is read as the application of its name. -/
theorem read_define_eq_ok :
    ShortRuns "define( x(01 ))".toList
      ∧ read true "define( x(01 ))" = .ok (.application (.key "x") [.int 1]) := by
  have short : ShortRuns "define( x(01 ))".toList :=
    fun run inside _ => Nat.le_trans inside.length_le (by decide)
  have isName : IsName "x" := by decide
  have numeral : Numeral AnyLength ['0', '1'] 1 :=
    ⟨by decide, List.all_eq_true.1 rfl, by decide, by decide, trivial⟩
  have lead : Gap [' '] := by simp [Gap, Text.isGap]
  have none : Gap [] := by simp [Gap]
  have spelled := Spells.definition lead isName none (.integer numeral) lead
  exact ⟨short, (read_eq_ok_iff_spells _ short _).1.2
    ⟨_, [], (List.append_nil _).symm, spelled, none, fun some => absurd rfl some⟩⟩

end PocketLisp.Reading
