import PocketLisp.Proofs.Reading.Moves
import PocketLisp.Proofs.Reading.Tokens

/-!
# Reading after a move

Every rule comes to the same after a move: the same values are read, the same causes are
reported through the same rules, and an overlong literal breaks off in the same way. This is
shown for one rule after the other, from the tokens up. What a rule looks for is made of ASCII
characters, which is all that it needs.
-/

namespace PocketLisp.Reading

variable {move : Move} {cursor other start place : Cursor}

open Attempt

section Tokens

/-- Tokens are made of ASCII characters. -/
theorem ascii_token (tag : Instruction) :
    tag.token.toList.all (fun char => char.toNat < 128) = true := by
  cases tag <;> decide

/-- A literal is read alike after a move. -/
theorem moves_literal {text : String} (written : text.toList ≠ [])
    (ascii : text.toList.all (fun char => char.toNat < 128) = true)
    (same : other = cursor.under move) :
    Moves move (Step.Moves move) (literal text written cursor) (literal text written other) := by
  subst same
  have behind := Cursor.behind?_under ascii move cursor
  unfold literal
  split
  · next next found =>
      split
      · next place foundHere =>
          rw [found, foundHere] at behind
          exact .ok ⟨rfl, Option.some.inj behind⟩
      · next missing => simp [found, missing] at behind
  · next missing =>
      split
      · next place foundHere => simp [missing, foundHere] at behind
      · exact .fail _ _ _

/-- An integer is read alike after a move. -/
theorem moves_integer (move : Move) (cursor : Cursor) :
    Moves move (Step.Moves move) (integer cursor) (integer (cursor.under move)) := by
  have run : (cursor.under move).ahead.takeWhile Char.isDigit =
      cursor.ahead.takeWhile Char.isDigit := Move.takeWhile_recast onlyAscii_isDigit _
  unfold integer
  -- The run is the same one, and so is every condition on it.
  simp only [run]
  refine .within (.dite (fun missing => .fail _ _ _) fun written => ?_) _ _
  refine .ite (.error (.overlong _)) (.ite (.fail _ _ _) ?_)
  exact .ok ⟨rfl, Cursor.past_under onlyAscii_isDigit move cursor⟩

/-- A key is read alike after a move. -/
theorem moves_key (same : other = cursor.under move) :
    Moves move (Step.Moves move) (key cursor) (key other) := by
  subst same
  have run : (cursor.under move).ahead.takeWhile continuesKey =
      cursor.ahead.takeWhile continuesKey := Move.takeWhile_recast onlyAscii_continuesKey _
  have front : (cursor.under move).ahead.head?.any startsKey =
      cursor.ahead.head?.any startsKey := by
    rw [Cursor.under, List.head?_map, Option.any_map]
    exact congrArg (cursor.ahead.head?.any ·) (funext (Move.accepts_recast onlyAscii_startsKey))
  unfold key
  simp only [run, front]
  refine .within (.dite (fun starts => .ite (.fail _ _ _) ?_) fun missing => .fail _ _ _) _ _
  exact .ok ⟨rfl, Cursor.past_under onlyAscii_continuesKey move cursor⟩

/-- A letter stands for the same truth value as the one in its place. -/
theorem booleanOf?_recast (move : Move) (char : Char) :
    booleanOf? (move.recast char) = booleanOf? char := by
  refine Option.ext fun value => ?_
  have ascii : (letter value).toNat < 128 := by cases value <;> decide
  rw [booleanOf?_eq_some_iff, booleanOf?_eq_some_iff, Move.recast_eq_iff ascii]

/-- There is no truth value at the end of the text. -/
theorem boolean_of_nil (shape : cursor.ahead = []) :
    boolean cursor = within .boolean cursor.offset (fail .noBoolean cursor.offset false) := by
  unfold boolean
  split
  · rfl
  · next char rest found => simp [shape] at found

/-- The truth value that the character ahead stands for, if it stands for one. -/
theorem boolean_of_cons {char : Char} {rest : List Char} (shape : cursor.ahead = char :: rest) :
    boolean cursor = within .boolean cursor.offset
      (match booleanOf? char with
      | none => fail .noBoolean cursor.offset false
      | some value =>
          .ok ⟨value, Cursor.skipGaps ⟨cursor.offset + 1, rest⟩, by
            rw [shape]
            exact Nat.lt_succ_of_le (Cursor.length_skipGaps_le _)⟩) := by
  unfold boolean
  split
  · next finished => simp [shape] at finished
  · next first others found =>
      obtain ⟨rfl, rfl⟩ := List.cons.inj (shape.symm.trans found)
      rfl

/-- A truth value is read alike after a move. -/
theorem moves_boolean (move : Move) (cursor : Cursor) :
    Moves move (Step.Moves move) (boolean cursor) (boolean (cursor.under move)) := by
  have ahead : (cursor.under move).ahead = cursor.ahead.map move.recast := rfl
  cases shape : cursor.ahead with
  | nil =>
      rw [shape] at ahead
      rw [boolean_of_nil shape, boolean_of_nil ahead]
      exact .within (.fail _ _ _) _ _
  | cons char rest =>
      rw [shape] at ahead
      rw [boolean_of_cons shape, boolean_of_cons ahead, booleanOf?_recast]
      refine .within ?_ _ _
      cases booleanOf? char with
      | none => exact .fail _ _ _
      | some value =>
          refine .ok ⟨rfl, Cursor.skipGaps_of_under ?_⟩
          rw [Cursor.under, Cursor.under, Nat.add_right_comm]

/-- An instruction whose token stands ahead. -/
theorem instructionAt?_of_found {tag : Instruction} {next : Cursor}
    (found : cursor.behind? tag.token = some next) :
    instructionAt? cursor tag =
      if tag.isWord && !next.atDelimiter then none
      else some ⟨tag, next, Cursor.length_lt_of_behind? found (token_ne_nil tag)⟩ := by
  unfold instructionAt?
  split
  · next missing => simp [missing] at found
  · next place foundHere =>
      obtain rfl := Option.some.inj (found.symm.trans foundHere)
      rfl

/-- No instruction whose token does not stand ahead. -/
theorem instructionAt?_of_missing {tag : Instruction} (missing : cursor.behind? tag.token = none) :
    instructionAt? cursor tag = none := by
  unfold instructionAt?
  split
  · rfl
  · next place found => simp [missing] at found

/-- An instruction is read alike after a move. -/
theorem moves_instruction (move : Move) (cursor : Cursor) :
    Moves move (Step.Moves move) (instruction cursor) (instruction (cursor.under move)) := by
  unfold instruction
  refine .within ?_ _ _
  induction Instruction.all with
  | nil => exact .fail _ _ _
  | cons tag tags inductionHypothesis =>
      have behind := Cursor.behind?_under (ascii_token tag) move cursor
      cases found : cursor.behind? tag.token with
      | none =>
          rw [found] at behind
          simp only [List.findSome?_cons, instructionAt?_of_missing found,
            instructionAt?_of_missing behind]
          exact inductionHypothesis
      | some next =>
          rw [found] at behind
          simp only [List.findSome?_cons, instructionAt?_of_found found,
            instructionAt?_of_found behind]
          rw [Cursor.atDelimiter_under]
          by_cases ends : (tag.isWord && !next.atDelimiter) = true
          · simp only [if_pos ends]
            exact inductionHypothesis
          · simp only [if_neg ends]
            exact .ok ⟨rfl, rfl⟩

/-- Where no atom stands, the character that is told is the one in the place of the other. -/
theorem unrecognized_under (move : Move) (cursor : Cursor) :
    unrecognized (cursor.under move) = (unrecognized cursor).under move := by
  obtain ⟨offset, ahead⟩ := cursor
  cases ahead <;> rfl

/-- An atom is read alike after a move. -/
theorem moves_atom (move : Move) (cursor : Cursor) :
    Moves move (Step.Moves move) (atom cursor) (atom (cursor.under move)) := by
  have choice : Moves move (Step.Moves move) (atomChoice cursor)
      (atomChoice (cursor.under move)) :=
    .orElse ((moves_integer move cursor).map _) (.orElse ((moves_key rfl).map _)
      (.orElse ((moves_boolean move cursor).map _) ((moves_instruction move cursor).map _)))
  unfold atom
  refine .within ?_ _ _
  generalize atomChoice cursor = here, atomChoice (cursor.under move) = there at choice
  cases choice with
  | ok suited => exact .ok suited
  | error refusal =>
      rcases refusal with failure | digits
      · rw [unrecognized_under]
        exact .ite (.error (.failure failure)) (.fail _ _ _)
      · exact .error (.overlong digits)

/-- A constant is read alike after a move. -/
theorem moves_constant (move : Move) (cursor : Cursor) :
    Moves move (Step.Moves move) (constant cursor) (constant (cursor.under move)) :=
  ((moves_atom move cursor).map _).within _ _

end Tokens

section Forms

section Closing

variable {read : Items start} {opened : start.ahead.length < cursor.ahead.length}

/-- An application does not end with the text. -/
theorem close_of_nil (finished : read.next.skipGaps.ahead = []) :
    close cursor read opened = fail .noClosingBracket read.next.skipGaps.offset true := by
  simp only [close]
  split
  · rfl
  · next char rest shape => simp [finished] at shape

/-- What an application makes of the character behind its items. -/
theorem close_of_cons {char : Char} {rest : List Char}
    (shape : read.next.skipGaps.ahead = char :: rest) :
    close cursor read opened =
      if char = ')' then
        match read.values with
        | [] => fail .noOperator cursor.offset true
        | operator :: operands =>
            .ok ⟨.application operator operands, ⟨read.next.skipGaps.offset + 1, rest⟩,
              read.length_lt shape opened⟩
      else .error (.failure { read.ending with committed := true }) := by
  simp only [close]
  split
  · next finished => simp [shape] at finished
  · next first others shapeToo =>
      obtain ⟨rfl, rfl⟩ := List.cons.inj (shape.symm.trans shapeToo)
      rfl

/-- The end of an application is read alike after a move. -/
theorem moves_close {readToo : Items place}
    {openedToo : place.ahead.length < (cursor.under move).ahead.length}
    (moves : read.Moves move readToo) :
    Moves move (Step.Moves move) (close cursor read opened)
      (close (cursor.under move) readToo openedToo) := by
  obtain ⟨values, next, ending⟩ := moves
  have skipped := Cursor.skipGaps_of_under next
  have ahead : readToo.next.skipGaps.ahead = read.next.skipGaps.ahead.map move.recast := by
    rw [skipped, Cursor.under]
  have bracket : (')').toNat < 128 := by decide
  cases shape : read.next.skipGaps.ahead with
  | nil =>
      rw [shape] at ahead
      rw [close_of_nil shape, close_of_nil ahead, skipped]
      exact .fail _ _ _
  | cons char rest =>
      rw [shape] at ahead
      rw [close_of_cons shape, close_of_cons ahead]
      simp only [Move.recast_eq_iff bracket]
      refine .ite ?_ ?_
      · cases known : read.values with
        | nil =>
            simp only [values, known]
            exact .fail _ _ _
        | cons operator operands =>
            simp only [values, known]
            refine .ok ⟨rfl, ?_⟩
            simp only [skipped, Cursor.under, Nat.add_right_comm]
      · rw [ending]
        exact .error (.failure { read.ending with committed := true })

end Closing

-- The cursor that a step comes to is only known to equal the moved one, so the rules that go
-- on from it are stated for a cursor with that equation.
mutual

/-- An expression is read alike after a move. -/
theorem moves_expr {move : Move} {cursor other : Cursor} (same : other = cursor.under move) :
    Moves move (Step.Moves move) (expr cursor) (expr other) := by
  rw [expr, expr.eq_def other]
  subst same
  exact .within (.orElse (moves_constant move cursor)
    (.orElse (moves_application rfl) (moves_define rfl))) _ _
termination_by 3 * cursor.ahead.length + 1

/-- An application is read alike after a move. -/
theorem moves_application {move : Move} {cursor other : Cursor}
    (same : other = cursor.under move) :
    Moves move (Step.Moves move) (application cursor) (application other) := by
  rw [application, application.eq_def other]
  subst same
  refine .within (.bind (moves_literal _ (by decide) rfl) fun opened openedToo ⟨_, here⟩ => ?_) _ _
  have := opened.shorter
  exact .bind (moves_items here) fun read readToo => moves_close
termination_by 3 * cursor.ahead.length

/-- The items of an application are read alike after a move. -/
theorem moves_items {move : Move} {cursor other : Cursor} (same : other = cursor.under move) :
    Moves move (Items.Moves move) (items cursor) (items other) := by
  have := cursor.length_skipGaps_le
  have skipped := Cursor.skipGaps_of_under same
  have first := moves_expr skipped
  rw [items, items.eq_def other]
  generalize expr cursor.skipGaps = here, expr other.skipGaps = there at first ⊢
  cases first with
  | error refusal =>
      rcases refusal with failure | digits
      · exact .ite (.error (.failure failure)) (.ok ⟨rfl, same, rfl⟩)
      · exact .error (.overlong digits)
  | @ok first firstToo suited =>
      have := first.shorter
      refine .bind (moves_items suited.2) fun rest restToo ⟨values, next, ending⟩ => ?_
      refine .ok ⟨?_, next, ending⟩
      rw [suited.1, values]
termination_by 3 * cursor.ahead.length + 2

/-- A definition in the long style is read alike after a move. -/
theorem moves_define {move : Move} {cursor other : Cursor} (same : other = cursor.under move) :
    Moves move (Step.Moves move) (define cursor) (define other) := by
  rw [define, define.eq_def other]
  subst same
  refine .within (.bind (moves_literal _ (by decide) rfl) fun word wordToo ⟨_, behindWord⟩ => ?_) _ _
  refine .bind (moves_literal _ (by decide) behindWord) fun outer outerToo ⟨_, behindOuter⟩ => ?_
  refine .bind (moves_key (Cursor.skipGaps_of_under behindOuter))
    fun name nameToo ⟨sameName, behindName⟩ => ?_
  refine .bind (moves_literal _ (by decide) behindName) fun inner innerToo ⟨_, behindInner⟩ => ?_
  have := word.shorter
  have := outer.shorter
  have := outer.next.length_skipGaps_le
  have := name.shorter
  have := inner.shorter
  have := inner.next.length_skipGaps_le
  refine .bind (moves_expr (Cursor.skipGaps_of_under behindInner))
    fun value valueToo ⟨sameValue, behindValue⟩ => ?_
  refine .bind (moves_literal _ (by decide) (Cursor.skipGaps_of_under behindValue))
    fun closed closedToo ⟨_, behindClosed⟩ => ?_
  refine .bind (moves_literal _ (by decide) behindClosed) fun last lastToo ⟨_, behindLast⟩ => ?_
  refine .ok ⟨?_, behindLast⟩
  rw [sameName, sameValue]
termination_by 3 * cursor.ahead.length

end

/-- The expressions of a text are read alike after a move. -/
theorem moves_forms {move : Move} {cursor other : Cursor} (same : other = cursor.under move) :
    Moves move (fun trees moved => moved = trees) (forms cursor) (forms other) := by
  have := cursor.length_skipGaps_le
  have skipped := Cursor.skipGaps_of_under same
  have first := moves_expr skipped
  rw [forms, forms.eq_def other]
  have finished : other.skipGaps.ahead.isEmpty = cursor.skipGaps.ahead.isEmpty := by
    rw [skipped, Cursor.under, List.isEmpty_map]
  rw [finished]
  refine .ite (.ok rfl) (.bind first fun step moved suited => ?_)
  have := step.shorter
  refine .bind (moves_forms suited.2) fun trees treesToo rest => .ok ?_
  rw [suited.1, rest]
termination_by cursor.ahead.length

end Forms

section Rules

/-- Every rule comes to the same after a move. -/
theorem moves_attempt (rule : Rule) (move : Move) (cursor : Cursor) :
    Moves move (Step.Moves move) (attempt rule cursor) (attempt rule (cursor.under move)) := by
  cases rule with
  | integer => exact (moves_integer move cursor).map _
  | key => exact (moves_key rfl).map _
  | boolean => exact (moves_boolean move cursor).map _
  | instruction => exact (moves_instruction move cursor).map _
  | atom => exact (moves_atom move cursor).map _
  | constant => exact moves_constant move cursor
  | application => exact moves_application rfl
  | define => exact moves_define rfl
  | expr => exact moves_expr rfl

/-- Every rule reads the same after a move, and comes to the cursor that has moved. -/
theorem moves_readAt (rule : Rule) (move : Move) (cursor : Cursor) :
    Moves move (fun read moved => moved = (read.1, read.2.under move)) (readAt rule cursor)
      (readAt rule (cursor.under move)) :=
  .bind (moves_attempt rule move cursor) fun _ _ ⟨value, next⟩ => .ok (Prod.ext value next)

end Rules

end PocketLisp.Reading
