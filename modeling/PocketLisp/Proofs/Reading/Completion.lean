import Mathlib.Control.Monad.Basic
import PocketLisp.Proofs.Reading.Failures
import PocketLisp.Proofs.Reading.Language
import PocketLisp.Proofs.Reading.Transport

/-!
# Completing what was read

A failure is reported at a place up to which the text can be completed: the characters in
front of it start a spelling of some tree. What is still open there is closed around an
item, which may be a new one or the beginning of one that stands there already.

Behind the last of the items that are read the completion goes on with the next one. No
blank is needed between the two where the text itself goes on with the same character, and
a completion that goes on otherwise starts with one.
-/

namespace PocketLisp.Reading

open Attempt

variable {cursor opened last word outer named value place : Cursor} {tree : Datum}
  {lead spelling gap : List Char} {offset : Nat} {failure : Failure} {text : String}

/-- The digit that stands for zero. -/
theorem spells_zero : Spells WithinLimit (.int 0) ['0'] :=
  .integer ⟨by decide, List.all_eq_true.1 rfl, by decide, by decide, Nat.le_of_ble_eq_true rfl⟩

section Forms

/-- Behind expressions that are read an item can be added: behind some blanks, or without
them where the text goes on with the first character of the item. -/
theorem Passes.exists_items (passes : Passes cursor last) (leadGap : Gap lead)
    (spelled : Spells WithinLimit tree spelling)
    (joined : lead = [] → last.skipGaps.ahead.head? = spelling.head?) :
    ∃ taken gap item others items, cursor.Takes taken last.skipGaps ∧ Gap gap
      ∧ SpellsItems WithinLimit item others items ∧ taken ++ lead ++ spelling = gap ++ items := by
  induction passes with
  | none cursor =>
      obtain ⟨gap, isGap, skipped⟩ := exists_takes_skipGaps cursor
      exact ⟨gap, gap ++ lead, tree, [], spelling ++ [], skipped, isGap.append leadGap,
        .last spelled gap_nil, by simp⟩
  | @some cursor next last first yields rest inductionHypothesis =>
      obtain ⟨taken, gap, item, others, items, takes, isGap, spelledItems, shape⟩ :=
        inductionHypothesis joined
      obtain ⟨front, frontGap, skipped⟩ := exists_takes_skipGaps cursor
      obtain ⟨written, behind, spelledFirst, stands, ends, rfl⟩ := yields_expr_iff_stands.1 yields
      obtain ⟨between, betweenGap, settled⟩ := exists_takes_settle first behind
      have apart : NeedsGap first items → between ++ gap ≠ [] := by
        intro needs none
        obtain ⟨rfl, rfl⟩ := List.append_eq_nil_iff.1 none
        obtain ⟨char, head, opens⟩ := spelledItems.head
        refine not_needsGap_of_stops head opens (ends char ?_) needs
        -- The text goes on with the first of the items behind.
        rw [settled.unique (.refl behind)] at takes
        rw [takes.1, List.head?_append]
        rw [← List.nil_append items, ← shape, List.append_assoc, List.head?_append] at head
        cases taken with
        | cons other rest => exact head
        | nil =>
            cases lead with
            | nil => simpa [joined rfl] using head
            | cons blank rest =>
                obtain rfl : blank = char := by simpa using head
                exact absurd (leadGap blank List.mem_cons_self) (by simp [opens.1])
      refine ⟨_, front, first, item :: others, written ++ (between ++ gap) ++ items,
        (skipped.trans (stands.trans settled)).trans takes, frontGap,
        .more spelledFirst (betweenGap.append isGap) apart spelledItems, ?_⟩
      simpa using shape

/-- An application of which some items are read can be completed by one more. -/
theorem Passes.exists_application (passes : Passes opened last) (bracket : cursor.Takes ['('] opened)
    (leadGap : Gap lead) (spelled : Spells WithinLimit tree spelling)
    (joined : lead = [] → last.skipGaps.ahead.head? = spelling.head?) :
    ∃ taken whole, cursor.Takes taken last.skipGaps
      ∧ Spells WithinLimit whole (taken ++ lead ++ spelling ++ [')']) := by
  obtain ⟨taken, gap, item, others, items, takes, isGap, spelledItems, shape⟩ :=
    passes.exists_items leadGap spelled joined
  refine ⟨_, .application item others, bracket.trans takes, ?_⟩
  have := Spells.application isGap spelledItems
  rw [← shape] at this
  simpa using this

/-- What stands in front of the name of a definition in the long style. -/
theorem exists_takes_name (define : cursor.Takes "define".toList word)
    (opened : word.Takes ['('] outer) :
    ∃ lead, Gap lead ∧ cursor.Takes ("define(".toList ++ lead) outer.skipGaps := by
  obtain ⟨lead, isGap, skipped⟩ := exists_takes_skipGaps outer
  exact ⟨lead, isGap, (define.trans opened).trans skipped⟩

/-- What stands in front of the second bracket of a definition in the long style. -/
theorem exists_takes_bracket {name : String} (define : cursor.Takes "define".toList word)
    (opened : word.Takes ['('] outer) (key : Yields (key outer.skipGaps) name named) :
    ∃ lead, Gap lead ∧ IsName name
      ∧ cursor.Takes ("define(".toList ++ lead ++ name.toList) named := by
  obtain ⟨lead, isGap, takes⟩ := exists_takes_name define opened
  obtain ⟨isName, written, -⟩ := yields_key_iff.1 key
  exact ⟨lead, isGap, isName, takes.trans written⟩

/-- A definition in the long style that comes to its value can be completed behind it. -/
theorem ComesToValue.exists_definition (comes : ComesToValue cursor value)
    (spelled : Spells WithinLimit tree spelling) (isGap : Gap gap) :
    ∃ taken whole, cursor.Takes taken value
      ∧ Spells WithinLimit whole (taken ++ spelling ++ gap ++ "))".toList) := by
  obtain ⟨word, outer, name, named, inner, define, opened, key, bracket, rfl⟩ := comes
  obtain ⟨lead, leadGap, isName, takes⟩ := exists_takes_bracket define opened key
  obtain ⟨space, innerGap, skipped⟩ := exists_takes_skipGaps inner
  have whole := Spells.definition leadGap isName innerGap spelled isGap
  exact ⟨_, _, takes.trans (bracket.trans skipped), by simpa using whole⟩

/-- Up to the end of its value a definition in the long style can be completed. -/
theorem ComesToValue.exists_closing {start behind : Cursor} (comes : ComesToValue cursor start)
    (read : Yields (expr start) tree behind) :
    ∃ taken whole, cursor.Takes taken behind.skipGaps
      ∧ Spells WithinLimit whole (taken ++ "))".toList) := by
  obtain ⟨spelling, middle, spelled, takes, -, rfl⟩ := yields_expr_iff_stands.1 read
  obtain ⟨gap, isGap, skipped⟩ := exists_takes_skipGaps middle
  obtain ⟨front, whole, before, spelled⟩ := comes.exists_definition spelled isGap
  rw [skipGaps_settle]
  refine ⟨_, whole, before.trans (takes.trans skipped), ?_⟩
  simpa using spelled

end Forms

/-- The characters from a cursor up to an offset start a spelling of some tree. -/
def Viable (cursor : Cursor) (offset : Nat) : Prop :=
  ∃ taken place more tree, cursor.Takes taken place ∧ place.offset = offset
    ∧ Spells WithinLimit tree (taken ++ more)

namespace Viable

/-- No characters start a spelling. -/
theorem here (cursor : Cursor) : Viable cursor cursor.offset :=
  ⟨[], cursor, ['0'], .int 0, .refl cursor, rfl, spells_zero⟩

/-- What starts a spelling of an item starts one of the application around it. -/
theorem of_passes (bracket : cursor.Takes ['('] opened) (passes : Passes opened last)
    (inside : Viable last.skipGaps offset) : Viable cursor offset := by
  obtain ⟨taken, place, more, tree, takes, rfl, spelled⟩ := inside
  cases taken with
  | nil =>
      -- Nothing of the item stands there yet. A new one is put behind a blank.
      obtain rfl := takes.unique (.refl _)
      obtain ⟨front, whole, before, spelled⟩ :=
        passes.exists_application bracket gap_space spelled nofun
      refine ⟨front, _, [' '] ++ more ++ [')'], whole, before, rfl, ?_⟩
      simpa using spelled
  | cons char rest =>
      obtain ⟨front, whole, before, spelled⟩ :=
        passes.exists_application bracket gap_nil spelled fun _ => takes.head rfl
      refine ⟨front ++ char :: rest, place, more ++ [')'], whole, before.trans takes, rfl, ?_⟩
      simpa using spelled

/-- What starts a spelling of a value starts one of the definition around it. -/
theorem of_value (comes : ComesToValue cursor value) (inside : Viable value offset) :
    Viable cursor offset := by
  obtain ⟨taken, place, more, tree, takes, rfl, spelled⟩ := inside
  obtain ⟨front, whole, before, spelled⟩ := comes.exists_definition spelled gap_nil
  refine ⟨front ++ taken, place, more ++ "))".toList, whole, before.trans takes, rfl, ?_⟩
  simpa using spelled

/-- A definition in the long style can be completed where its name is looked for. -/
theorem of_name (define : cursor.Takes "define".toList word) (opened : word.Takes ['('] outer) :
    Viable cursor outer.skipGaps.offset := by
  obtain ⟨lead, leadGap, takes⟩ := exists_takes_name define opened
  have isName : IsName "a" := by decide
  have whole := Spells.definition leadGap isName gap_nil spells_zero gap_nil
  exact ⟨_, _, "a(0))".toList, _, takes, rfl, by simpa using whole⟩

/-- A definition in the long style can be completed where it comes to look for a literal. -/
theorem of_awaits {literal : String} (awaits : Awaits cursor literal place) :
    Viable cursor place.offset := by
  cases awaits with
  | opening define =>
      have isName : IsName "a" := by decide
      have whole := Spells.definition gap_nil isName gap_nil spells_zero gap_nil
      exact ⟨_, _, "(a(0))".toList, _, define, rfl, whole⟩
  | bracket define opened key =>
      obtain ⟨lead, leadGap, isName, takes⟩ := exists_takes_bracket define opened key
      have whole := Spells.definition leadGap isName gap_nil spells_zero gap_nil
      exact ⟨_, _, "(0))".toList, _, takes, rfl, by simpa using whole⟩
  | closing comes read =>
      obtain ⟨taken, whole, takes, spelled⟩ := comes.exists_closing read
      exact ⟨taken, _, _, whole, takes, rfl, spelled⟩
  | ending comes read first =>
      obtain ⟨taken, whole, takes, spelled⟩ := comes.exists_closing read
      refine ⟨_, _, [')'], whole, takes.trans first, rfl, ?_⟩
      simpa using spelled

end Viable

/-- Every failure is at a place up to which the text can be completed. -/
theorem Fails.viable {rule : Rule} (fails : Fails rule cursor failure) :
    Viable cursor failure.position := by
  induction fails with
  | tooLarge | noIdentifier | reservedWord | unrecognized | empty => exact .here _
  | integer _ inductionHypothesis | atom _ inductionHypothesis | constant _ inductionHypothesis
  | application _ inductionHypothesis | define _ inductionHypothesis => exact inductionHypothesis
  | unterminated bracket passes => exact .of_passes bracket passes (.here _)
  | item bracket passes _ inductionHypothesis => exact .of_passes bracket passes inductionHypothesis
  | literal awaits => exact .of_awaits awaits
  | name define opened inside => cases inside <;> exact .of_name define opened
  | value comes _ inductionHypothesis => exact .of_value comes inductionHypothesis

/-- No rule finds that something is left behind an expression. -/
theorem Fails.kind_ne {rule : Rule} (fails : Fails rule cursor failure) :
    failure.cause.kind ≠ .trailingInput := by
  induction fails with
  | unrecognized cursor =>
      simp only [Reading.unrecognized]
      split <;> nofun
  | integer _ inductionHypothesis | atom _ inductionHypothesis | constant _ inductionHypothesis
  | application _ inductionHypothesis | define _ inductionHypothesis | item _ _ _ inductionHypothesis
  | name _ _ _ inductionHypothesis | value _ _ inductionHypothesis => exact inductionHypothesis
  | _ => nofun

section Texts

/-- A text is not read when its expression fails, or when something is left behind it and
the reading has to be complete. -/
theorem read_eq_failure_iff {complete : Bool} :
    read complete text = .error (.failure failure) ↔
      expr (.ofText text) = .error (.failure failure)
      ∨ complete = true ∧ ∃ tree next, Yields (expr (.ofText text)) tree next ∧ next.ahead ≠ []
        ∧ failure = ⟨.leftover (String.ofList (next.ahead.take 10)), next.offset, false, []⟩ := by
  cases answer : expr (.ofText text) with
  | error refusal => simp [read, answer, bind, Except.bind]
  | ok step =>
      constructor
      · intro refused
        simp only [read, answer, bind, Except.bind] at refused
        split at refused
        · next left =>
            simp only [Bool.and_eq_true, Bool.not_eq_true', List.isEmpty_eq_false_iff] at left
            obtain rfl := Refusal.failure.inj (Except.error.inj refused)
            exact .inr ⟨left.1, step.value, step.next, ⟨step, rfl, rfl, rfl⟩, left.2, rfl⟩
        · contradiction
      · rintro (refused | ⟨rfl, _, _, ⟨_, same, rfl, rfl⟩, left, rfl⟩)
        · contradiction
        · obtain rfl := Except.ok.inj same
          simp [read, answer, bind, Except.bind, fail, left]

/-- A text is not read when a rule fails where reading comes to run it, or when something is
left behind the expression. -/
theorem Entry.Refuses.cases {entry : Entry} (refuses : entry.Refuses text (.failure failure)) :
    (∃ rule start, entry.Starts text rule start ∧ attempt rule start = .error (.failure failure))
      ∨ entry = .whole true ∧ ∃ tree next, Yields (expr (.ofText text)) tree next ∧ next.ahead ≠ []
        ∧ failure = ⟨.leftover (String.ofList (next.ahead.take 10)), next.offset, false, []⟩ := by
  cases entry with
  | rule rule => exact .inl ⟨rule, _, .rule rule, readRule_eq_error_iff.1 refuses⟩
  | leading => exact .inl ⟨.expr, _, .leading, readRule_eq_error_iff.1 refuses⟩
  | whole complete =>
      rcases read_eq_failure_iff.1 refuses with failed | ⟨rfl, left⟩
      · exact .inl ⟨.expr, _, .whole complete, failed⟩
      · exact .inr ⟨rfl, left⟩
  | all =>
      obtain ⟨last, passes, written, failed⟩ := forms_eq_error_iff.1 refuses
      exact .inl ⟨.expr, _, .all passes written, failed⟩

/-- What lies in front of a cursor is the part of the text before its offset. -/
theorem take_of_takes {taken : List Char} (takes : (Cursor.ofText text).Takes taken place) :
    place.offset ≤ text.length ∧ text.toList.take place.offset = taken := by
  obtain ⟨whole, counted⟩ := takes
  have whole : text.toList = taken ++ place.ahead := whole
  have counted : place.offset = taken.length := counted.trans (Nat.zero_add _)
  rw [counted, ← String.length_toList, whole, List.length_append, List.take_left]
  exact ⟨Nat.le_add_right _ _, rfl⟩

/-- Where a spelling is started the text can be completed. -/
theorem Viable.exists_suffix (viable : Viable (.ofText text) offset) :
    offset ≤ text.length
      ∧ ∃ suffix tree, read true (String.ofList (text.toList.take offset) ++ suffix) = .ok tree := by
  obtain ⟨taken, place, more, tree, takes, rfl, spelled⟩ := viable
  obtain ⟨inside, front⟩ := take_of_takes takes
  rw [front]
  exact ⟨inside, String.ofList more, tree, Spells.read_eq_ok (by simpa using spelled)⟩

/-- What is read at the start of a text is read alone. -/
theorem read_take_eq_ok (yields : Yields (expr (.ofText text)) tree place) :
    place.offset ≤ text.length
      ∧ read true (String.ofList (text.toList.take place.offset)) = .ok tree := by
  obtain ⟨taken, takes, -⟩ := yields.exists_takes
  obtain ⟨inside, front⟩ := take_of_takes takes
  rw [front]
  let alone : Cursor := .ofText (String.ofList taken)
  have there : alone.Takes taken ⟨alone.stop, []⟩ := by
    simpa [alone, Cursor.ofText] using alone.takes_ahead
  have moved := yields.elsewhere takes there fun _ => (trails_nil tree).ends
  exact ⟨inside, read_complete_eq_ok_iff.2
    ⟨_, moved, ahead_settle_eq_nil_iff.2 (trails_nil tree)⟩⟩

/-- The part of the text in front of the position of a failure. -/
def ParseError.front (error : ParseError) : String :=
  String.ofList (Text.before error.text.toList error.position)

/-- The position of a failure counts from the start of the text. -/
theorem front_report (text : String) (failure : Failure) :
    (failure.report text).front = String.ofList (text.toList.take failure.position) :=
  congrArg String.ofList (Text.before_natCast text.toList failure.position)

/-- What is in front of the position of a failure can be completed to a text that is read.
When the failure is that something is left behind an expression, it is such a text. -/
theorem read_front_completed (text : String) (failure : Failure)
    (failed : read true text = .error (.failure failure)) :
    0 ≤ (failure.report text).position ∧ (failure.report text).position ≤ text.length
      ∧ (∃ suffix tree, read true ((failure.report text).front ++ suffix) = .ok tree)
      ∧ ((failure.report text).kind = .trailingInput →
        ∃ tree, read true (failure.report text).front = .ok tree) := by
  have unsigned : 0 ≤ (failure.report text).position := Int.natCast_nonneg failure.position
  rw [front_report]
  rcases read_eq_failure_iff.1 failed with refused | ⟨-, tree, next, yields, -, rfl⟩
  · have fails := fails_of_expr refused
    obtain ⟨inside, completed⟩ := fails.viable.exists_suffix
    exact ⟨unsigned, Int.ofNat_le.2 inside, completed, fun kind => absurd kind fails.kind_ne⟩
  · obtain ⟨inside, alone⟩ := read_take_eq_ok yields
    exact ⟨unsigned, Int.ofNat_le.2 inside, ⟨"", tree, by simpa using alone⟩, fun _ => ⟨tree, alone⟩⟩

/-- A definition without its second bracket is completed behind its name, and what is left
behind a truth value is left out. -/
theorem read_front_completed_define :
    (∃ failure, read true "(a define(b 1))" = .error (.failure failure)
      ∧ ∃ suffix tree, read true ("(a define(b" ++ suffix) = .ok tree)
    ∧ ∃ failure, read true "t (1)" = .error (.failure failure)
      ∧ (failure.report "t (1)").kind = .trailingInput ∧ ∃ tree, read true "t " = .ok tree := by
  have unnamed : read true "(a define(b 1))" = .error (.failure ⟨.noLiteral "(", 11, true,
      [(.define, 3), (.expr, 3), (.application, 0), (.expr, 0)]⟩) := by decide +kernel
  have left : read true "t (1)" = .error (.failure ⟨.leftover "(1)", 2, false, []⟩) := by
    decide +kernel
  exact ⟨⟨_, unnamed, (read_front_completed _ _ unnamed).2.2.1⟩,
    _, left, rfl, (read_front_completed _ _ left).2.2.2 rfl⟩

end Texts

end PocketLisp.Reading
