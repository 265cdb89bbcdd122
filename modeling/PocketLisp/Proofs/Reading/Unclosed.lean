import PocketLisp.Proofs.Reading.Completion

/-!
# Forms that are not closed

Where a text ends inside an application, the forms around its end are all open. The
report of the failure lists them, and so it says how many closing brackets are missing:
one for an application, two for a definition in the long style, whose value has a bracket
of its own.

Behind one more item that many brackets complete the text. With fewer of them every form
that is still open fails for its own bracket, and the failure is reported again.
-/

namespace PocketLisp.Reading

open Attempt

variable {α β : Type} {rule : Rule} {cursor next last opened start : Cursor} {tree : Datum}
  {taken more : List Char} {count fewer offset : Nat} {failure : Failure} {text : String}

section Reporting

namespace Attempt

/-- The attempt fails, and there is a failure to report. -/
def Reported (attempt : Except Refusal α) : Prop :=
  ∃ failure, attempt = .error (.failure failure)

/-- What declines is reported. -/
theorem Declines.reported {attempt : Except Refusal α} (declines : Declines attempt) :
    Reported attempt := by
  obtain ⟨failure | digits, rfl, final⟩ := declines
  · exact ⟨failure, rfl⟩
  · contradiction

/-- What is reported inside a rule is reported. -/
theorem Reported.within {attempt : Except Refusal α} (reported : Reported attempt) :
    Reported (within rule offset attempt) := by
  obtain ⟨failure, rfl⟩ := reported
  exact ⟨failure.through rule offset, rfl⟩

/-- A sequence is reported when its first part is. -/
theorem Reported.bind {first : Except Refusal α} {second : α → Except Refusal β}
    (reported : Reported first) : Reported (first >>= second) := by
  obtain ⟨failure, rfl⟩ := reported
  exact ⟨failure, rfl⟩

/-- A sequence is reported when its second part is, behind what its first part reads. -/
theorem reported_bind_of_ok {first : Except Refusal α} {second : α → Except Refusal β} {read : α}
    (done : first = .ok read) (reported : Reported (second read)) :
    Reported (first >>= second) := by
  rw [done]
  exact reported

/-- A choice is reported when both alternatives are. -/
theorem Reported.orElse {first : Except Refusal α} {second : Unit → Except Refusal α}
    (reported : Reported first) (reportedToo : Reported (second ())) :
    Reported (orElse first second) := by
  obtain ⟨failure, rfl⟩ := reported
  obtain ⟨other, answer⟩ := reportedToo
  simp only [Attempt.orElse, answer]
  split
  · exact ⟨failure, rfl⟩
  · split
    · exact ⟨other, rfl⟩
    · exact ⟨further failure other, rfl⟩

end Attempt

/-- An expression is reported when its alternatives are. -/
theorem reported_expr (constant : Reported (constant cursor))
    (application : Reported (application cursor)) (define : Reported (define cursor)) :
    Reported (expr cursor) := by
  rw [expr]
  exact (constant.orElse (application.orElse define)).within

/-- The end of an application is reported where something else than its bracket stands. -/
theorem reported_close {read : Items start} {shorter : start.ahead.length < cursor.ahead.length}
    (missing : read.next.skipGaps.ahead.head? ≠ some ')') :
    Reported (close cursor read shorter) := by
  simp only [close]
  split
  · exact ⟨_, rfl⟩
  · next char rest shape =>
      have other : char ≠ ')' := by simpa [shape] using missing
      rw [if_neg other]
      exact ⟨_, rfl⟩

/-- An application is reported when what stands in place of its next item is. -/
theorem reported_expr_of_item (bracket : cursor.Takes ['('] opened) (passes : Passes opened last)
    (inside : Reported (expr last.skipGaps)) (missing : last.skipGaps.ahead.head? ≠ some ')') :
    Reported (expr cursor) := by
  have noConstant := declines_constant_of_application bracket
  refine reported_expr noConstant.reported ?_ (declines_define_of_bracket bracket).reported
  obtain ⟨step, found, rfl⟩ := exists_literal_of_takes "(" (by decide) bracket
  rw [application]
  refine (reported_bind_of_ok found ?_).within
  obtain ⟨failure, failed⟩ := inside
  cases committed : failure.committed with
  | true =>
      obtain ⟨refused, -⟩ := aborts_items_iff.2 ⟨last, passes, failed, committed⟩
      exact .bind ⟨failure, refused⟩
  | false =>
      obtain ⟨read, collected, rfl, -⟩ := items_eq_ok_iff.2 ⟨passes, failed, committed⟩
      exact reported_bind_of_ok collected (reported_close missing)

/-- An application is reported where the text ends inside it. -/
theorem reported_expr_of_finished (bracket : cursor.Takes ['('] opened)
    (passes : Passes opened last) (finished : last.skipGaps.ahead = []) :
    Reported (expr cursor) := by
  have inside : Declines (expr last.skipGaps) := declines_expr_of_bracket (by simp [finished])
  exact reported_expr_of_item bracket passes inside.reported (by simp [finished])

/-- A definition in the long style is reported when its value is, or when a bracket is missing
behind its value. -/
theorem reported_expr_of_value {value : Cursor} (comes : ComesToValue cursor value)
    (unclosed : Reported (expr value) ∨ ∃ tree next, Yields (expr value) tree next
      ∧ ∀ last, ¬next.skipGaps.Takes "))".toList last) : Reported (expr cursor) := by
  obtain ⟨_, _, _, _, _, wordTakes, outerTakes, ⟨name, nameRead, rfl, rfl⟩, bracketTakes, rfl⟩ :=
    comes
  have noConstant := declines_constant_of_define wordTakes outerTakes
  have noApplication := declines_application_of_define wordTakes
  refine reported_expr noConstant.reported noApplication.reported ?_
  obtain ⟨word, wordRead, rfl⟩ := exists_literal_of_takes "define" (by decide) wordTakes
  obtain ⟨outer, outerRead, rfl⟩ := exists_literal_of_takes "(" (by decide) outerTakes
  obtain ⟨bracket, bracketRead, rfl⟩ := exists_literal_of_takes "(" (by decide) bracketTakes
  rw [define]
  refine Reported.within ?_
  refine reported_bind_of_ok wordRead ?_
  refine reported_bind_of_ok outerRead ?_
  refine reported_bind_of_ok nameRead ?_
  refine reported_bind_of_ok bracketRead ?_
  rcases unclosed with inside | ⟨_, _, ⟨value, valueRead, rfl, rfl⟩, missing⟩
  · exact inside.bind
  refine reported_bind_of_ok valueRead ?_
  by_cases closing : ∃ first, value.next.skipGaps.Takes [')'] first
  · obtain ⟨first, closing⟩ := closing
    obtain ⟨step, closingRead, rfl⟩ := exists_literal_of_takes ")" (by decide) closing
    refine reported_bind_of_ok closingRead (Declines.reported ?_).bind
    exact declines_literal_iff.2 fun last ending => missing last (closing.trans ending)
  · exact (declines_literal_iff.2 (not_exists.1 closing)).reported.bind

end Reporting

section Extending

/-- One item more and some closing brackets. -/
def patch (count : Nat) : List Char :=
  ' ' :: '0' :: List.replicate count ')'

/-- Expressions that are read one behind the other, and one more behind them. -/
theorem Passes.snoc (passes : Passes cursor last) (yields : Yields (expr last.skipGaps) tree next) :
    Passes cursor next := by
  induction passes with
  | none => exact .some yields (.none next)
  | some first _ inductionHypothesis => exact .some first (inductionHypothesis yields)

/-- Expressions that are read one behind the other are read in a text that is extended by an
item and closing brackets. -/
theorem exists_passes_extend (passes : Passes cursor last) (count : Nat) :
    ∃ place, Passes (cursor.extend (patch count)) place
      ∧ place.skipGaps = (last.extend (patch count)).skipGaps := by
  obtain ⟨taken, takes⟩ := passes.exists_takes
  refine passes.elsewhere takes (takes.extend (patch count)) (fun tree ends => ?_) rfl
  rw [← List.append_nil last.ahead] at ends
  refine ends.of_append fun _ _ => ends_of_gap tree ?_
  rintro _ ⟨⟩
  rfl

/-- Where a text ends the item that it is extended by is read. -/
theorem exists_yields_patch (finished : cursor.ahead = []) :
    ∃ next, Yields (expr (cursor.extend (patch 0)).skipGaps) (.int 0) next
      ∧ next.skipGaps.ahead = [] := by
  let item : Cursor := ⟨cursor.offset + 1, ['0']⟩
  have blank : (cursor.extend (patch 0)).Takes [' '] item := by
    simp [Cursor.Takes, Cursor.extend, patch, finished, item]
  have zero : item.Takes ['0'] ⟨item.stop, []⟩ := item.takes_ahead
  rw [skipGaps_of_opens gap_space blank zero spells_zero.head]
  exact ⟨_, spells_zero.yields zero (trails_nil _).ends, rfl⟩

/-- A definition in the long style comes to its value in an extended text. -/
theorem ComesToValue.extend {value : Cursor} (comes : ComesToValue cursor value)
    (written : value.ahead ≠ []) (more : List Char) :
    ComesToValue (cursor.extend more) (value.extend more) := by
  obtain ⟨word, outer, name, named, inner, define, opened, key, bracket, rfl⟩ := comes
  obtain ⟨isName, spelled, stops⟩ := yields_key_iff.1 key
  obtain ⟨char, head, -⟩ := isName.starts
  have atName : outer.skipGaps.ahead ≠ [] :=
    List.ne_nil_of_mem (List.mem_of_head? (spelled.head head))
  refine ⟨_, _, name, _, _, define.extend more, opened.extend more, ?_, bracket.extend more, ?_⟩
  · rw [skipGaps_extend_of_written atName]
    refine yields_key_iff.2 ⟨isName, spelled.extend more, fun char head => ?_⟩
    obtain rfl := Option.some.inj (((bracket.extend more).head rfl).symm.trans head)
    decide
  · exact (skipGaps_extend_of_written written more).symm

end Extending

section Unclosed

/-- Behind a cursor the text ends inside an application, and a number of closing brackets are
missing there. -/
inductive Unclosed : Cursor → Nat → Prop
  | application {cursor opened last : Cursor} (bracket : cursor.Takes ['('] opened)
      (passes : Passes opened last) (finished : last.skipGaps.ahead = []) : Unclosed cursor 1
  | item {cursor opened last : Cursor} {count : Nat} (bracket : cursor.Takes ['('] opened)
      (passes : Passes opened last) (inside : Unclosed last.skipGaps count) :
      Unclosed cursor (count + 1)
  | value {cursor value : Cursor} {count : Nat} (comes : ComesToValue cursor value)
      (inside : Unclosed value count) : Unclosed cursor (count + 2)

/-- A form that is not closed starts with something else than a closing bracket. -/
theorem Unclosed.exists_head (unclosed : Unclosed cursor count) :
    ∃ char, cursor.ahead.head? = some char ∧ char ≠ ')' := by
  cases unclosed with
  | application bracket | item bracket => exact ⟨'(', bracket.head rfl, by decide⟩
  | value comes =>
      obtain ⟨word, outer, name, named, inner, define, -⟩ := comes
      exact ⟨'d', define.head rfl, by decide⟩

/-- With the brackets that are missing a form is spelled, and the text ends with it. -/
theorem Unclosed.spells (unclosed : Unclosed cursor count) :
    ∃ tree, Spells WithinLimit tree (cursor.ahead ++ patch count) := by
  induction unclosed with
  | application bracket passes finished =>
      obtain ⟨taken, tree, takes, spelled⟩ :=
        passes.exists_application bracket gap_space spells_zero nofun
      refine ⟨tree, ?_⟩
      rw [takes.1, finished]
      simpa [patch] using spelled
  | @item cursor opened last count bracket passes inside inductionHypothesis =>
      obtain ⟨item, spelled⟩ := inductionHypothesis
      obtain ⟨char, head, -⟩ := inside.exists_head
      obtain ⟨taken, tree, takes, spelled⟩ :=
        passes.exists_application bracket gap_nil spelled fun _ => by simp [head]
      refine ⟨tree, ?_⟩
      rw [takes.1]
      simpa [patch, List.replicate_succ'] using spelled
  | @value cursor start count comes inside inductionHypothesis =>
      obtain ⟨value, spelled⟩ := inductionHypothesis
      obtain ⟨taken, tree, takes, spelled⟩ := comes.exists_definition spelled gap_nil
      refine ⟨tree, ?_⟩
      rw [takes.1]
      simpa [patch, List.replicate_succ'] using spelled

/-- With the brackets that are missing a form is read, whatever brackets stand behind it. -/
theorem Unclosed.exists_yields (unclosed : Unclosed cursor count) (extra : Nat) :
    ∃ tree next, Yields (expr (cursor.extend (patch (count + extra)))) tree next
      ∧ next.skipGaps.ahead = List.replicate extra ')' := by
  obtain ⟨tree, spelled⟩ := unclosed.spells
  have takes : (cursor.extend (patch (count + extra))).Takes (cursor.ahead ++ patch count)
      ⟨cursor.offset + (cursor.ahead ++ patch count).length, List.replicate extra ')'⟩ := by
    refine ⟨?_, rfl⟩
    simp [Cursor.extend, patch, List.replicate_append_replicate]
  have bracket : ∀ char, (List.replicate extra ')').head? = some char → char = ')' :=
    fun char head => List.eq_of_mem_replicate (List.mem_of_head? head)
  refine ⟨tree, _, spelled.yields takes fun char head => ?_, ?_⟩
  · rw [bracket char head]
    exact stops_bracket tree
  · rw [skipGaps_settle, skipGaps_of_takes gap_nil (.refl _)]
    intro char head
    rw [bracket char head]
    rfl

/-- With fewer brackets than are missing a form is reported. -/
theorem Unclosed.reported (unclosed : Unclosed cursor count) (few : fewer < count) :
    Reported (expr (cursor.extend (patch fewer))) := by
  induction unclosed generalizing fewer with
  | @application cursor opened last bracket passes finished =>
      obtain rfl : fewer = 0 := by omega
      obtain ⟨place, passes, skipped⟩ := exists_passes_extend passes 0
      obtain ⟨next, yields, ended⟩ := exists_yields_patch finished
      rw [← skipGaps_extend, ← skipped] at yields
      exact reported_expr_of_finished (bracket.extend _) (passes.snoc yields) ended
  | @item cursor opened last count bracket passes inside inductionHypothesis =>
      obtain ⟨place, passes, skipped⟩ := exists_passes_extend passes fewer
      obtain ⟨char, head, other⟩ := inside.exists_head
      have written : last.skipGaps.ahead ≠ [] := List.ne_nil_of_mem (List.mem_of_head? head)
      rw [skipGaps_extend_of_written written] at skipped
      rcases Nat.lt_or_ge fewer count with few | enough
      · refine reported_expr_of_item (bracket.extend _) passes ?_ ?_
        · rw [skipped]
          exact inductionHypothesis few
        · rw [skipped, head?_extend written, head]
          simpa using other
      · -- The item takes all the brackets, and the text ends behind it.
        obtain rfl : fewer = count := by omega
        obtain ⟨tree, next, yields, ended⟩ := inside.exists_yields 0
        rw [Nat.add_zero, ← skipped] at yields
        exact reported_expr_of_finished (bracket.extend _) (passes.snoc yields) ended
  | @value cursor start count comes inside inductionHypothesis =>
      obtain ⟨char, head, -⟩ := inside.exists_head
      have written : start.ahead ≠ [] := List.ne_nil_of_mem (List.mem_of_head? head)
      refine reported_expr_of_value (comes.extend written _) ?_
      rcases Nat.lt_or_ge fewer count with few | enough
      · exact .inl (inductionHypothesis few)
      · obtain ⟨extra, rfl⟩ := Nat.exists_eq_add_of_le enough
        obtain ⟨tree, next, yields, ended⟩ := inside.exists_yields extra
        refine .inr ⟨tree, next, yields, fun last takes => ?_⟩
        -- At most one closing bracket is left behind the value.
        have length := takes.length_eq
        rw [ended, List.length_replicate] at length
        have : "))".toList.length = 2 := rfl
        omega

end Unclosed

section Missing

/-- Rules are told apart by their names. -/
theorem name_inj {other : Rule} : rule.name = other.name ↔ rule = other := by
  cases rule <;> cases other <;> decide

/-- How many closing brackets a form of a rule has. -/
def Rule.brackets : Rule → Nat
  | .application => 1
  | .define => 2
  | _ => 0

/-- How many closing brackets the forms have that a failure came through. -/
def Failure.missing (failure : Failure) : Nat :=
  failure.trail.countP (·.1 == .application) + 2 * failure.trail.countP (·.1 == .define)

/-- Each rule that a failure comes through adds the brackets of its forms. -/
@[simp] theorem missing_through (rule : Rule) (offset : Nat) (failure : Failure) :
    (failure.through rule offset).missing = failure.missing + rule.brackets := by
  simp only [Failure.missing, Failure.through, List.countP_append, List.countP_singleton]
  cases rule <;> simp [Rule.brackets] <;> omega

/-- A failure comes through the same rules when it is not left to the other alternatives. -/
@[simp] theorem missing_commit (failure : Failure) : failure.commit.missing = failure.missing := rfl

/-- The closing brackets that a report says to be missing: one for each application and two
for each definition in the long style that it lists. -/
def ParseError.missing (error : ParseError) : Nat :=
  error.rules.count "application" + 2 * error.rules.count "define"

/-- A report lists the forms that the failure came through. -/
theorem missing_report (text : String) (failure : Failure) :
    (failure.report text).missing = failure.missing := by
  have counts : ∀ rule : Rule, (failure.report text).rules.count rule.name =
      failure.trail.countP (·.1 == rule) := by
    intro rule
    simp only [ParseError.rules, Failure.report, List.map_map, List.count_eq_countP,
      List.countP_map]
    refine congrArg (List.countP · failure.trail) (funext fun context => ?_)
    simp [name_inj]
  exact congrArg₂ (· + 2 * ·) (counts .application) (counts .define)

/-- A closing bracket that is missing at the end of a text is one of a form that is not closed,
and the failure comes through the forms of all that are missing. -/
theorem Fails.unclosed (fails : Fails rule cursor failure)
    (cause : failure.cause = .noClosingBracket) : Unclosed cursor failure.missing := by
  induction fails with
  | unterminated bracket passes finished => exact .application bracket passes finished
  | item bracket passes _ inductionHypothesis =>
      rw [missing_through, missing_commit]
      exact .item bracket passes (inductionHypothesis cause)
  | value comes _ inductionHypothesis =>
      rw [missing_through]
      exact .value comes (inductionHypothesis cause)
  | integer _ inductionHypothesis | atom _ inductionHypothesis | constant _ inductionHypothesis
  | application _ inductionHypothesis | define _ inductionHypothesis =>
      rw [missing_through]
      exact inductionHypothesis cause
  | unrecognized cursor =>
      simp only [Reading.unrecognized] at cause
      split at cause <;> contradiction
  | name _ _ inside => cases inside <;> contradiction
  | tooLarge | noIdentifier | reservedWord | empty | literal => contradiction

/-- Closing brackets. -/
def closings (count : Nat) : String :=
  String.ofList (List.replicate count ')')

/-- A text with an item and closing brackets behind it is the text extended by them. -/
theorem ofText_append_closings (text : String) (count : Nat) :
    Cursor.ofText (text ++ " 0" ++ closings count) = (Cursor.ofText text).extend (patch count) := by
  simp [Cursor.ofText, Cursor.extend, closings, patch]

/-- A report that an application is not terminated says exactly what is missing: with one more
item and as many closing brackets as it says the text is read, and with fewer brackets it is
reported again, whether or not the reading has to be complete. -/
theorem read_closings (complete : Bool) (text : String) (failure : Failure)
    (failed : read complete text = .error (.failure failure))
    (kind : (failure.report text).kind = .unterminatedApplication) :
    (∃ tree, read true (text ++ " 0" ++ closings (failure.report text).missing) = .ok tree)
      ∧ ∀ fewer < (failure.report text).missing, ∀ whole,
        ∃ refusal, read whole (text ++ " 0" ++ closings fewer) = .error (.failure refusal) := by
  have cause : failure.cause = .noClosingBracket := by
    obtain ⟨cause, position, committed, trail⟩ := failure
    cases cause <;> first | rfl | contradiction
  rw [missing_report]
  rcases read_eq_failure_iff.1 failed with refused | ⟨-, tree, next, -, -, rfl⟩
  · have unclosed := (fails_of_expr refused).unclosed cause
    constructor
    · obtain ⟨tree, spelled⟩ := unclosed.spells
      refine ⟨tree, Spells.read_eq_ok ?_⟩
      have extended : (text ++ " 0" ++ closings failure.missing).toList =
          (Cursor.ofText text).ahead ++ patch failure.missing :=
        congrArg Cursor.ahead (ofText_append_closings text failure.missing)
      rwa [extended]
    · intro fewer few whole
      obtain ⟨refusal, reported⟩ := unclosed.reported few
      rw [← ofText_append_closings] at reported
      exact ⟨refusal, read_eq_failure_iff.2 (.inl reported)⟩
  · contradiction

/-- An application in a definition in an application lacks four brackets at its end. -/
theorem read_closings_define :
    ∃ failure, read false "(f define(x((+ 1" = .error (.failure failure)
      ∧ (failure.report "(f define(x((+ 1").kind = .unterminatedApplication
      ∧ (failure.report "(f define(x((+ 1").missing = 4
      ∧ (∃ tree, read true ("(f define(x((+ 1" ++ " 0" ++ closings 4) = .ok tree)
      ∧ ∀ fewer < 4, ∀ whole, ∃ refusal,
        read whole ("(f define(x((+ 1" ++ " 0" ++ closings fewer) = .error (.failure refusal) := by
  let failure : Failure := ⟨.noClosingBracket, 16, true, [(.application, 12), (.expr, 12),
    (.define, 3), (.expr, 3), (.application, 0), (.expr, 0)]⟩
  have failed : read false "(f define(x((+ 1" = .error (.failure failure) := by decide +kernel
  have four : (failure.report "(f define(x((+ 1").missing = 4 := by decide
  have both := read_closings false _ failure failed rfl
  rw [four] at both
  exact ⟨failure, failed, rfl, four, both⟩

end Missing

end PocketLisp.Reading
