import PocketLisp.Proofs.Reading.Refusals

/-!
# How reading fails

A failure is made at one place and handed on through the rules that led there. `Fails`
describes it that way, with one constructor for each place where a failure is made and one
for each rule that hands it on. Every failure of an expression is of this kind.

An expression that is none of its three alternatives reports the one that came furthest.
A constant is given up where it starts, so an application without its bracket and a
definition without its word are never what is reported. A rule that is run on its own does
report that nothing of it stands there, and `Lacks` describes such a failure.
-/

namespace PocketLisp.Reading

open Attempt

variable {α β : Type} {cursor next last opened : Cursor} {rule : Rule} {offset : Nat}
  {failure : Failure} {refusal : Refusal}

namespace Failure

/-- The failure with one more rule noted that it came through. -/
def through (rule : Rule) (offset : Nat) (failure : Failure) : Failure :=
  { failure with trail := failure.trail ++ [(rule, offset)] }

/-- The failure when it is not left to the other alternatives. -/
def commit (failure : Failure) : Failure :=
  { failure with committed := true }

end Failure

section Combinators

/-- What is refused inside a rule is refused with the rule noted. -/
theorem within_eq_error_iff {attempt : Except Refusal α} :
    within rule offset attempt = .error refusal ↔
      ∃ inner, attempt = .error inner ∧ refusal = inner.through rule offset := by
  cases attempt <;> simp [eq_comm]

/-- What fails inside a rule fails with the rule noted. -/
theorem within_eq_failure_iff {attempt : Except Refusal α} :
    within rule offset attempt = .error (.failure failure) ↔
      ∃ inner, attempt = .error (.failure inner) ∧ failure = inner.through rule offset := by
  rw [within_eq_error_iff]
  constructor
  · rintro ⟨inner | digits, refused, same⟩
    · exact ⟨inner, refused, Refusal.failure.inj same⟩
    · contradiction
  · rintro ⟨inner, refused, rfl⟩
    exact ⟨.failure inner, refused, rfl⟩

/-- A sequence is refused when one of its parts is. -/
theorem bind_eq_error_iff {first : Except Refusal α} {second : α → Except Refusal β} :
    first >>= second = .error refusal ↔
      first = .error refusal ∨ ∃ read, first = .ok read ∧ second read = .error refusal := by
  cases first <;> simp [bind, Except.bind]

/-- Changing the value does not change what is refused. -/
theorem map_eq_error_iff {f : α → β} {attempt : Attempt α cursor} :
    attempt.map f = .error refusal ↔ attempt = .error refusal := by
  cases attempt <;> simp [Attempt.map, Except.map]

/-- A choice reports one of its alternatives. It is the second only if that is committed or
came further than the first. -/
theorem orElse_eq_failure {first : Except Refusal α} {second : Unit → Except Refusal α}
    (failed : orElse first second = .error (.failure failure)) :
    first = .error (.failure failure)
      ∨ Declines first ∧ second () = .error (.failure failure)
        ∧ (failure.committed = true
          ∨ ∃ other, first = .error (.failure other) ∧ other.position < failure.position) := by
  rcases first with (reason | digits) | value
  · cases committed : reason.committed with
    | true => exact .inl (by simpa [orElse, committed] using failed)
    | false =>
        have declines : Declines (.error (.failure reason) : Except Refusal α) := by
          simpa using committed
        rcases answer : second () with (other | digits) | value
        · simp only [orElse, committed, answer, Bool.false_eq_true, if_false] at failed
          split at failed
          · next final =>
              obtain rfl := Refusal.failure.inj (Except.error.inj failed)
              exact .inr ⟨declines, rfl, .inl final⟩
          · obtain rfl := Refusal.failure.inj (Except.error.inj failed)
            unfold further
            split
            · next further => exact .inr ⟨declines, rfl, .inr ⟨reason, rfl, further⟩⟩
            · exact .inl rfl
        · simp [orElse, committed, answer] at failed
        · simp [orElse, committed, answer] at failed
  · simp [orElse] at failed
  · simp [orElse] at failed

/-- A literal fails where it does not stand. -/
theorem literal_eq_error_iff {text : String} {written : text.toList ≠ []} :
    literal text written cursor = .error refusal ↔
      (∀ next, ¬cursor.Takes text.toList next)
        ∧ refusal = .failure ⟨.noLiteral text, cursor.offset, false, []⟩ := by
  simp only [← Cursor.behind?_eq_some_iff]
  unfold literal
  split
  · next behind found => simp [found]
  · next missing => simp [missing, fail, eq_comm]

end Combinators

section Tokens

/-- An integer that fails to be read for good is worth too much. -/
theorem integer_eq_failure (failed : integer cursor = .error (.failure failure))
    (committed : failure.committed = true) :
    failure = ⟨.integerTooLarge (String.ofList cursor.digits), cursor.offset, true,
      [(.integer, cursor.offset)]⟩ := by
  rcases aborts_integer_iff.1 ⟨failed, committed⟩ with ⟨-, other⟩ | ⟨-, -, same⟩
  · contradiction
  · exact Refusal.failure.inj same

/-- A key fails where it starts. -/
theorem key_eq_error (failed : key cursor = .error refusal) :
    ∃ cause, refusal = .failure ⟨cause, cursor.offset, false, [(.key, cursor.offset)]⟩
      ∧ (cause = .noIdentifier ∨ ∃ word, cause = .reservedWord word) := by
  simp only [key] at failed
  split at failed
  · split at failed
    · exact ⟨_, (Except.error.inj failed).symm, .inr ⟨_, rfl⟩⟩
    · contradiction
  · exact ⟨_, (Except.error.inj failed).symm, .inl rfl⟩

/-- An atom fails with the failure of an integer, or because it is nothing at all. -/
theorem atom_eq_failure (failed : atom cursor = .error (.failure failure)) :
    (∃ inner, integer cursor = .error (.failure inner) ∧ inner.committed = true
        ∧ failure = inner.through .atom cursor.offset)
      ∨ failure = ⟨unrecognized cursor, cursor.offset, false, [(.atom, cursor.offset)]⟩ := by
  cases committed : failure.committed with
  | true =>
      obtain ⟨inner, ⟨refused, final⟩, same⟩ := aborts_atom_iff.1 ⟨failed, committed⟩
      cases inner with
      | failure inner => exact .inl ⟨inner, refused, final, Refusal.failure.inj same⟩
      | overlong digits => contradiction
  | false =>
      obtain ⟨inner, refused, rfl⟩ := within_eq_failure_iff.1 failed
      split at refused
      · next reason choice =>
          split at refused
          · next final =>
              obtain rfl := Refusal.failure.inj (Except.error.inj refused)
              exact absurd committed (by simp [Failure.through, final])
          · obtain rfl := Refusal.failure.inj (Except.error.inj refused)
            exact .inr rfl
      · next other => exact absurd refused (other inner)

end Tokens

section Nesting

/-- The items of an application end at the first expression that fails without being
committed. -/
theorem items_eq_ok_iff {cursor last : Cursor} {failure : Failure} :
    (∃ read, items cursor = .ok read ∧ read.next = last ∧ read.ending = failure) ↔
      Passes cursor last ∧ expr last.skipGaps = .error (.failure failure)
        ∧ failure.committed = false := by
  constructor
  · rintro ⟨read, collected, rfl, rfl⟩
    rw [items] at collected
    split at collected
    · contradiction
    · next reason failed =>
        split at collected
        · contradiction
        · next uncommitted =>
            obtain rfl := Except.ok.inj collected
            exact ⟨.none cursor, failed, by simpa using uncommitted⟩
    · next first here =>
        cases others : items first.next with
        | error refusal =>
            rw [others] at collected
            contradiction
        | ok rest =>
            rw [others] at collected
            obtain rfl := Except.ok.inj collected
            have := first.shorter
            have := cursor.length_skipGaps_le
            obtain ⟨passes, ended⟩ := items_eq_ok_iff.1 ⟨rest, others, rfl, rfl⟩
            exact ⟨.some ⟨first, here, rfl, rfl⟩ passes, ended⟩
  · rintro ⟨passes, failed, uncommitted⟩
    induction passes with
    | none cursor =>
        rw [items, failed]
        simp [uncommitted]
    | some yields rest inductionHypothesis =>
        obtain ⟨first, here, rfl, rfl⟩ := yields
        obtain ⟨read, collected, rfl, rfl⟩ := inductionHypothesis failed
        rw [items, here]
        simp only [collected]
        exact ⟨_, rfl, rfl, rfl⟩
termination_by cursor.ahead.length

/-- The end of an application fails when there are no items, when the text ends, and when
something else than a bracket stands there. -/
theorem close_eq_failure {start : Cursor} {read : Items start}
    {shorter : start.ahead.length < cursor.ahead.length}
    (failed : close cursor read shorter = .error (.failure failure)) :
    failure = ⟨.noOperator, cursor.offset, true, []⟩
      ∨ read.next.skipGaps.ahead = []
        ∧ failure = ⟨.noClosingBracket, read.next.skipGaps.offset, true, []⟩
      ∨ failure = read.ending.commit := by
  obtain ⟨values, last, ending, noLonger⟩ := read
  simp only [close] at failed
  split at failed
  · next finished =>
      exact .inr (.inl ⟨finished, (Refusal.failure.inj (Except.error.inj failed)).symm⟩)
  · split at failed
    · cases values with
      | nil => exact .inl (Refusal.failure.inj (Except.error.inj failed)).symm
      | cons => contradiction
    · exact .inr (.inr (Refusal.failure.inj (Except.error.inj failed)).symm)

/-- An application fails without its bracket, or for good behind it: because it is empty,
because the text ends, or with the failure of an item. -/
theorem application_eq_failure (failed : application cursor = .error (.failure failure)) :
    failure = ⟨.noLiteral "(", cursor.offset, false, [(.application, cursor.offset)]⟩
      ∨ ∃ opened inner, cursor.Takes ['('] opened
        ∧ failure = inner.through .application cursor.offset
        ∧ (inner = ⟨.noOperator, cursor.offset, true, []⟩
          ∨ ∃ last, Passes opened last
            ∧ (last.skipGaps.ahead = []
                ∧ inner = ⟨.noClosingBracket, last.skipGaps.offset, true, []⟩
              ∨ ∃ reason, expr last.skipGaps = .error (.failure reason)
                ∧ inner = reason.commit)) := by
  rw [application] at failed
  obtain ⟨inner, inside, rfl⟩ := within_eq_failure_iff.1 failed
  rcases bind_eq_error_iff.1 inside with bracket | ⟨opened, found, inside⟩
  · obtain rfl := Refusal.failure.inj (literal_eq_error_iff.1 bracket).2
    exact .inl rfl
  refine .inr ⟨opened.next, inner, takes_of_literal found, rfl, ?_⟩
  rcases bind_eq_error_iff.1 inside with refused | ⟨read, collected, ending⟩
  · cases committed : inner.committed with
    | true =>
        obtain ⟨last, passes, failed, -⟩ := aborts_items_iff.1 ⟨refused, committed⟩
        exact .inr ⟨last, passes, .inr ⟨inner, failed, by simp [Failure.commit, ← committed]⟩⟩
    | false => exact absurd ⟨.failure inner, refused, committed⟩ (not_declines_items opened.next)
  · obtain ⟨passes, failed, -⟩ := items_eq_ok_iff.1 ⟨read, collected, rfl, rfl⟩
    rcases close_eq_failure ending with empty | finished | other
    · exact .inl empty
    · exact .inr ⟨read.next, passes, .inl finished⟩
    · exact .inr ⟨read.next, passes, .inr ⟨read.ending, failed, other⟩⟩

/-- A literal that a definition in the long style comes to look for at a cursor, behind its
word. -/
inductive Awaits (cursor : Cursor) : String → Cursor → Prop
  | opening {word : Cursor} (define : cursor.Takes "define".toList word) : Awaits cursor "(" word
  | bracket {word outer named : Cursor} {name : String} (define : cursor.Takes "define".toList word)
      (opened : word.Takes ['('] outer) (key : Yields (key outer.skipGaps) name named) :
      Awaits cursor "(" named
  | closing {start behind : Cursor} {value : Datum} (comes : ComesToValue cursor start)
      (read : Yields (expr start) value behind) : Awaits cursor ")" behind.skipGaps
  | ending {start behind closed : Cursor} {value : Datum} (comes : ComesToValue cursor start)
      (read : Yields (expr start) value behind) (first : behind.skipGaps.Takes [')'] closed) :
      Awaits cursor ")" closed

/-- A definition in the long style is refused without its word, for a literal that it comes
to look for, for its name, or for its value. -/
theorem define_eq_error (failed : define cursor = .error refusal) :
    refusal = .failure ⟨.noLiteral "define", cursor.offset, false, [(.define, cursor.offset)]⟩
      ∨ ∃ inner, refusal = inner.through .define cursor.offset
        ∧ ((∃ text place, Awaits cursor text place
            ∧ inner = .failure ⟨.noLiteral text, place.offset, false, []⟩)
          ∨ (∃ word outer, cursor.Takes "define".toList word ∧ word.Takes ['('] outer
            ∧ key outer.skipGaps = .error inner)
          ∨ ∃ value, ComesToValue cursor value ∧ expr value = .error inner) := by
  rw [define] at failed
  obtain ⟨inner, inside, rfl⟩ := within_eq_error_iff.1 failed
  rcases bind_eq_error_iff.1 inside with missing | ⟨word, wordRead, inside⟩
  · obtain rfl := (literal_eq_error_iff.1 missing).2
    exact .inl rfl
  have define := takes_of_literal wordRead
  refine .inr ⟨inner, rfl, ?_⟩
  rcases bind_eq_error_iff.1 inside with missing | ⟨outer, outerRead, inside⟩
  · exact .inl ⟨_, _, .opening define, (literal_eq_error_iff.1 missing).2⟩
  have opened := takes_of_literal outerRead
  rcases bind_eq_error_iff.1 inside with nameless | ⟨name, nameRead, inside⟩
  · exact .inr (.inl ⟨word.next, outer.next, define, opened, nameless⟩)
  have key : Yields (key outer.next.skipGaps) name.value name.next := ⟨name, nameRead, rfl, rfl⟩
  rcases bind_eq_error_iff.1 inside with missing | ⟨bracket, bracketRead, inside⟩
  · exact .inl ⟨_, _, .bracket define opened key, (literal_eq_error_iff.1 missing).2⟩
  have comes := comesToValue_of_steps wordRead outerRead nameRead bracketRead
  rcases bind_eq_error_iff.1 inside with valueless | ⟨value, valueRead, inside⟩
  · exact .inr (.inr ⟨_, comes, valueless⟩)
  have read : Yields (expr bracket.next.skipGaps) value.value value.next := ⟨value, valueRead, rfl, rfl⟩
  rcases bind_eq_error_iff.1 inside with missing | ⟨closed, closedRead, inside⟩
  · exact .inl ⟨_, _, .closing comes read, (literal_eq_error_iff.1 missing).2⟩
  have first := takes_of_literal closedRead
  rcases bind_eq_error_iff.1 inside with missing | ⟨finished, -, done⟩
  · exact .inl ⟨_, _, .ending comes read first, (literal_eq_error_iff.1 missing).2⟩
  · contradiction

end Nesting

section Failing

/-- A rule that is run at a cursor fails: with what, and how the failure came about. -/
inductive Fails : Rule → Cursor → Failure → Prop
  | tooLarge (cursor : Cursor) :
      Fails .integer cursor ⟨.integerTooLarge (String.ofList cursor.digits), cursor.offset, true,
        [(.integer, cursor.offset)]⟩
  | noIdentifier (cursor : Cursor) :
      Fails .key cursor ⟨.noIdentifier, cursor.offset, false, [(.key, cursor.offset)]⟩
  | reservedWord (cursor : Cursor) (word : String) :
      Fails .key cursor ⟨.reservedWord word, cursor.offset, false, [(.key, cursor.offset)]⟩
  | unrecognized (cursor : Cursor) :
      Fails .atom cursor ⟨unrecognized cursor, cursor.offset, false, [(.atom, cursor.offset)]⟩
  | integer {cursor : Cursor} {failure : Failure} (inside : Fails .integer cursor failure) :
      Fails .atom cursor (failure.through .atom cursor.offset)
  | atom {cursor : Cursor} {failure : Failure} (inside : Fails .atom cursor failure) :
      Fails .constant cursor (failure.through .constant cursor.offset)
  | empty {cursor opened : Cursor} (bracket : cursor.Takes ['('] opened) :
      Fails .application cursor ⟨.noOperator, cursor.offset, true, [(.application, cursor.offset)]⟩
  | unterminated {cursor opened last : Cursor} (bracket : cursor.Takes ['('] opened)
      (passes : Passes opened last) (finished : last.skipGaps.ahead = []) :
      Fails .application cursor ⟨.noClosingBracket, last.skipGaps.offset, true,
        [(.application, cursor.offset)]⟩
  | item {cursor opened last : Cursor} {failure : Failure} (bracket : cursor.Takes ['('] opened)
      (passes : Passes opened last) (inside : Fails .expr last.skipGaps failure) :
      Fails .application cursor (failure.commit.through .application cursor.offset)
  | literal {cursor place : Cursor} {text : String} (awaits : Awaits cursor text place) :
      Fails .define cursor ⟨.noLiteral text, place.offset, false, [(.define, cursor.offset)]⟩
  | name {cursor word outer : Cursor} {failure : Failure}
      (define : cursor.Takes "define".toList word) (opened : word.Takes ['('] outer)
      (inside : Fails .key outer.skipGaps failure) :
      Fails .define cursor (failure.through .define cursor.offset)
  | value {cursor start : Cursor} {failure : Failure} (comes : ComesToValue cursor start)
      (inside : Fails .expr start failure) :
      Fails .define cursor (failure.through .define cursor.offset)
  | constant {cursor : Cursor} {failure : Failure} (inside : Fails .constant cursor failure) :
      Fails .expr cursor (failure.through .expr cursor.offset)
  | application {cursor : Cursor} {failure : Failure} (inside : Fails .application cursor failure) :
      Fails .expr cursor (failure.through .expr cursor.offset)
  | define {cursor : Cursor} {failure : Failure} (inside : Fails .define cursor failure) :
      Fails .expr cursor (failure.through .expr cursor.offset)

/-- A rule that is run at a cursor fails because nothing of it stands there. -/
inductive Lacks : Rule → Cursor → Failure → Prop
  | integer (cursor : Cursor) :
      Lacks .integer cursor ⟨.noDigit, cursor.offset, false, [(.integer, cursor.offset)]⟩
  | boolean (cursor : Cursor) :
      Lacks .boolean cursor ⟨.noBoolean, cursor.offset, false, [(.boolean, cursor.offset)]⟩
  | instruction (cursor : Cursor) :
      Lacks .instruction cursor ⟨.noInstruction, cursor.offset, false, [(.instruction, cursor.offset)]⟩
  | application (cursor : Cursor) :
      Lacks .application cursor ⟨.noLiteral "(", cursor.offset, false, [(.application, cursor.offset)]⟩
  | define (cursor : Cursor) :
      Lacks .define cursor ⟨.noLiteral "define", cursor.offset, false, [(.define, cursor.offset)]⟩

/-- Where nothing of a rule stands, the other alternatives are tried from the same place. -/
theorem Lacks.stays (lacks : Lacks rule cursor failure) :
    failure.position = cursor.offset ∧ failure.committed = false := by
  cases lacks <;> exact ⟨rfl, rfl⟩

/-- An integer fails as described, or because no digit stands there. -/
theorem lacks_or_fails_of_integer (failed : integer cursor = .error (.failure failure)) :
    Lacks .integer cursor failure ∨ Fails .integer cursor failure := by
  obtain ⟨inner, inside, rfl⟩ := within_eq_failure_iff.1 failed
  dsimp only at inside
  split at inside
  · obtain rfl := Refusal.failure.inj (Except.error.inj inside)
    exact .inl (.integer cursor)
  split at inside
  · exact nomatch Except.error.inj inside
  split at inside
  · obtain rfl := Refusal.failure.inj (Except.error.inj inside)
    exact .inr (.tooLarge cursor)
  · contradiction

/-- A truth value fails because no letter of one stands there. -/
theorem lacks_of_boolean (failed : boolean cursor = .error (.failure failure)) :
    Lacks .boolean cursor failure := by
  obtain ⟨inner, inside, rfl⟩ := within_eq_failure_iff.1 failed
  obtain rfl : inner = ⟨.noBoolean, cursor.offset, false, []⟩ := by
    split at inside
    · exact (Refusal.failure.inj (Except.error.inj inside)).symm
    · split at inside
      · exact (Refusal.failure.inj (Except.error.inj inside)).symm
      · contradiction
  exact .boolean cursor

/-- An instruction fails because no token stands there. -/
theorem lacks_of_instruction (failed : instruction cursor = .error (.failure failure)) :
    Lacks .instruction cursor failure := by
  obtain ⟨inner, inside, rfl⟩ := within_eq_failure_iff.1 failed
  split at inside
  · contradiction
  · obtain rfl := Refusal.failure.inj (Except.error.inj inside)
    exact .instruction cursor

/-- A key fails as described. -/
theorem fails_of_key (failed : key cursor = .error (.failure failure)) :
    Fails .key cursor failure := by
  obtain ⟨cause, same, rfl | ⟨word, rfl⟩⟩ := key_eq_error failed
  · obtain rfl := Refusal.failure.inj same
    exact .noIdentifier cursor
  · obtain rfl := Refusal.failure.inj same
    exact .reservedWord cursor word

/-- An atom fails as described. -/
theorem fails_of_atom (failed : atom cursor = .error (.failure failure)) :
    Fails .atom cursor failure := by
  rcases atom_eq_failure failed with ⟨reason, refused, final, rfl⟩ | rfl
  · obtain rfl := integer_eq_failure refused final
    exact .integer (.tooLarge cursor)
  · exact .unrecognized cursor

/-- A constant fails as described. -/
theorem fails_of_constant (failed : constant cursor = .error (.failure failure)) :
    Fails .constant cursor failure := by
  obtain ⟨inner, mapped, rfl⟩ := within_eq_failure_iff.1 failed
  exact .atom (fails_of_atom (map_eq_error_iff.1 mapped))

/-- A constant that leaves the text to the other alternatives fails where it starts. -/
theorem position_of_constant (failed : constant cursor = .error (.failure failure))
    (declines : Declines (constant cursor)) : failure.position = cursor.offset := by
  have uncommitted : failure.committed = false := by
    rw [failed] at declines
    simpa using declines
  cases fails_of_constant failed with
  | atom inside =>
      cases inside with
      | unrecognized => rfl
      | integer inside =>
          cases inside
          contradiction

/-- An application that fails behind its bracket fails as described, when its items do. -/
theorem fails_of_application
    (inside : ∀ {place : Cursor} {failure : Failure}, place.ahead.length < cursor.ahead.length →
      expr place = .error (.failure failure) → Fails .expr place failure)
    (failed : application cursor = .error (.failure failure)) :
    Lacks .application cursor failure ∨ Fails .application cursor failure := by
  refine (application_eq_failure failed).imp ?_ ?_
  · rintro rfl
    exact .application cursor
  rintro ⟨opened, inner, bracket, rfl, rfl | ⟨last, passes, ⟨finished, rfl⟩ | ⟨reason, refused, rfl⟩⟩⟩
  · exact .empty bracket
  · exact .unterminated bracket passes finished
  · have := passes.length_le
    have := last.length_skipGaps_le
    have := bracket.length_eq
    simp only [List.length_singleton] at this
    exact .item bracket passes (inside (by omega) refused)

/-- A definition in the long style that fails behind its word fails as described, when its
value does. -/
theorem fails_of_define
    (inside : ∀ {place : Cursor} {failure : Failure}, place.ahead.length < cursor.ahead.length →
      expr place = .error (.failure failure) → Fails .expr place failure)
    (failed : define cursor = .error (.failure failure)) :
    Lacks .define cursor failure ∨ Fails .define cursor failure := by
  refine (define_eq_error failed).imp (fun same => ?_) ?_
  · obtain rfl := Refusal.failure.inj same
    exact .define cursor
  rintro ⟨inner | digits, same, causes⟩
  · obtain rfl := Refusal.failure.inj same
    rcases causes with ⟨text, place, awaits, made⟩ | ⟨word, outer, define, opened, nameless⟩
      | ⟨start, comes, valueless⟩
    · obtain rfl := Refusal.failure.inj made
      exact .literal awaits
    · exact .name define opened (fails_of_key nameless)
    · exact .value comes (inside comes.shorter valueless)
  · contradiction

/-- Every failure of an expression is as described. -/
theorem fails_of_expr {cursor : Cursor} {failure : Failure}
    (failed : expr cursor = .error (.failure failure)) : Fails .expr cursor failure := by
  rw [expr] at failed
  obtain ⟨inner, choice, rfl⟩ := within_eq_failure_iff.1 failed
  rcases orElse_eq_failure choice with refused | ⟨constants, choice, further⟩
  · exact .constant (fails_of_constant refused)
  have ahead : inner.committed = true ∨ cursor.offset < inner.position := by
    refine further.imp_right ?_
    rintro ⟨other, refused, further⟩
    rwa [position_of_constant refused constants] at further
  have advanced (rule : Rule) : ¬Lacks rule cursor inner := by
    intro lacks
    obtain ⟨here, uncommitted⟩ := lacks.stays
    rcases ahead with committed | further
    · simp [uncommitted] at committed
    · omega
  rcases orElse_eq_failure choice with refused | ⟨applications, refused, -⟩
  · exact .application ((fails_of_application (fun _ => fails_of_expr) refused).resolve_left (advanced _))
  · exact .define ((fails_of_define (fun _ => fails_of_expr) refused).resolve_left (advanced _))
termination_by cursor.ahead.length

/-- Every rule fails because nothing of it stands where it is run, or as described. -/
theorem lacks_or_fails (failed : attempt rule cursor = .error (.failure failure)) :
    Lacks rule cursor failure ∨ Fails rule cursor failure := by
  cases rule with
  | integer => exact lacks_or_fails_of_integer (map_eq_error_iff.1 failed)
  | key => exact .inr (fails_of_key (map_eq_error_iff.1 failed))
  | boolean => exact .inl (lacks_of_boolean (map_eq_error_iff.1 failed))
  | instruction => exact .inl (lacks_of_instruction (map_eq_error_iff.1 failed))
  | atom => exact .inr (fails_of_atom (map_eq_error_iff.1 failed))
  | constant => exact .inr (fails_of_constant failed)
  | application => exact fails_of_application (fun _ => fails_of_expr) failed
  | define => exact fails_of_define (fun _ => fails_of_expr) failed
  | expr => exact .inr (fails_of_expr failed)

end Failing

end PocketLisp.Reading
