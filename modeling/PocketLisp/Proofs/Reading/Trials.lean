import PocketLisp.Proofs.Reading.Calls
import PocketLisp.Proofs.Reading.Translation

/-!
# Rules that may be cut off

The rules that nest, without any proof that they come to an end. A rule is given the rule for
the expressions inside it, and goes round in loops that nothing but a failure or the end of the
text ends. So that they can be written down at all, a loop is cut off after a number of turns,
and an expression where forms are nested too deep.

A trial of such a rule comes to what the reader comes to whenever the inner rule does so at the
places that `Calls` lists: the rule asks for an expression nowhere else, because an inner rule
that is cut off cuts off the rule around it. Every call leaves less ahead, and so does every
turn of a loop. Hence nothing is cut off once there are as many turns and levels as characters.
-/

namespace PocketLisp.Reading

open Attempt

variable {α β γ : Type} {rule : Rule} {cursor start place : Cursor} {limit depth : Nat}

section Trials

/-- What a trial comes to. There is nothing when it is cut off. -/
abbrev Trial (α : Type) := ExceptT Refusal Option α

namespace Trial

/-- A trial that is cut off. -/
def cut : Trial α := .mk none

/-- A trial that ends by itself. -/
def done (answer : Except Refusal α) : Trial α := .mk (some answer)

/-- A trial inside a rule at an offset. -/
def within (rule : Rule) (offset : Nat) (trial : Trial α) : Trial α :=
  .mk (trial.run.map (Attempt.within rule offset))

/-- Ordered choice. The second alternative is tried only when the first declines. -/
def orElse (first : Trial α) (second : Unit → Trial α) : Trial α :=
  match first.run with
  | none => cut
  | some (.ok value) => done (.ok value)
  | some (.error refusal) =>
      if refusal.isFinal then done (.error refusal)
      else .mk ((second ()).run.map fun answer => Attempt.orElse (.error refusal) fun _ => answer)

/-- A rule is noted when the trial inside it ends. -/
theorem within_eq_done {trial : Trial α} {answer : Except Refusal α} (ended : trial = done answer)
    (rule : Rule) (offset : Nat) :
    within rule offset trial = done (Attempt.within rule offset answer) :=
  congrArg (within rule offset) ended

/-- A sequence ends when its parts do. Its first part may come to a part of an answer only. -/
theorem bind_eq_done {trial : Trial γ} {answer : Except Refusal α} {view : α → γ}
    {second : γ → Trial β} {others : α → Except Refusal β} (first : trial = done (answer.map view))
    (rest : ∀ value, answer = .ok value → second (view value) = done (others value)) :
    trial >>= second = done (answer >>= others) := by
  subst first
  cases answer with
  | ok value => exact rest value rfl
  | error refusal => rfl

/-- A choice ends when its first alternative does, and its second where the first declines. -/
theorem orElse_eq_done {trial : Trial α} {answer : Except Refusal α} {second : Unit → Trial α}
    {other : Unit → Except Refusal α} (first : trial = done answer)
    (rest : Declines answer → second () = done (other ())) :
    orElse trial second = done (Attempt.orElse answer other) := by
  subst first
  cases answer with
  | ok value => rfl
  | error refusal =>
      -- The second alternative is tried only behind a refusal that is not final.
      cases final : refusal.isFinal with
      | true => simp only [orElse, done, ExceptT.run_mk, final, if_true, orElse_of_final final]
      | false =>
          have behind := rest (declines_error.2 final)
          simp only [orElse, done, ExceptT.run_mk, final, behind, Bool.false_eq_true, if_false,
            Option.map_some]

end Trial

/-- What an attempt reads, and the cursor behind it. -/
def plain (attempt : Attempt α start) : Except Refusal (α × Cursor) :=
  Except.map (fun step => (step.value, step.next)) attempt

/-- What a step reads. -/
@[simp] theorem plain_ok (step : Step α start) :
    plain (.ok step) = .ok (step.value, step.next) := rfl

/-- A refusal stays as it is. -/
@[simp] theorem plain_error (refusal : Refusal) :
    plain (.error refusal : Attempt α start) = .error refusal := rfl

/-- What a rule reads at a cursor is what its attempt reads. -/
theorem readAt_eq_plain (rule : Rule) (cursor : Cursor) :
    readAt rule cursor = plain (attempt rule cursor) := by
  rw [readAt]
  cases attempt rule cursor <;> rfl

/-- Noting a rule does not change what is read. -/
theorem plain_within (rule : Rule) (offset : Nat) (attempt : Attempt α start) :
    plain (within rule offset attempt) = within rule offset (plain attempt) := by
  cases attempt with
  | ok step => rfl
  | error refusal => cases refusal <;> rfl

/-- A sequence reads what its second part reads. -/
theorem plain_bind (first : Except Refusal α) (second : α → Attempt β start) :
    plain (first >>= second) = first >>= fun value => plain (second value) := by
  cases first <;> rfl

/-- A choice reads what one of its alternatives reads. -/
theorem plain_orElse (first : Attempt α start) (second : Unit → Attempt α start) :
    plain (orElse first second) = orElse (plain first) fun _ => plain (second ()) := by
  rcases first with (failure | digits) | step
  · cases committed : failure.committed with
    | true => simp [orElse, committed]
    | false =>
        rcases behind : second () with (other | digits) | step
        · cases committedToo : other.committed <;> simp [orElse, committed, behind, committedToo]
        · simp [orElse, committed, behind]
        · simp [orElse, committed, behind]
  · rfl
  · rfl

end Trials

section Rules

/-- What the loop of an application comes to: the expressions that were read, the cursor behind
the last of them, and why there are no more. -/
structure Gathered where
  values : List Datum
  next : Cursor
  ending : Failure

/-- The items of an application behind others, without the proof that they leave no more ahead. -/
def Items.gathered (trees : List Datum) (items : Items start) : Gathered :=
  ⟨trees ++ items.values, items.next, items.ending⟩

/-- The cursor behind a literal that has to stand ahead. -/
def passLiteral (text : String) (cursor : Cursor) : Except Refusal Cursor :=
  match cursor.behind? text with
  | some next => .ok next
  | none => fail (.noLiteral text) cursor.offset false

/-- How an application ends behind what its loop came to. -/
def closeBehind (cursor : Cursor) (read : Gathered) : Except Refusal (Datum × Cursor) :=
  match read.next.skipGaps.ahead with
  | [] => fail .noClosingBracket read.next.skipGaps.offset true
  | char :: rest =>
      if char = ')' then
        match read.values with
        | [] => fail .noOperator cursor.offset true
        | operator :: operands =>
            .ok (.application operator operands, ⟨read.next.skipGaps.offset + 1, rest⟩)
      else .error (.failure { read.ending with committed := true })

variable (inner : Cursor → Trial (Datum × Cursor))

/-- The loop of an application. Every turn reads one more expression, and nothing but a failure
ends it. It is cut off after a number of turns. -/
def loopItems : Nat → List Datum → Cursor → Trial Gathered
  | 0, _, _ => .cut
  | limit + 1, trees, cursor =>
      match (inner cursor.skipGaps).run with
      | none => .cut
      | some (.ok (tree, next)) => loopItems limit (trees ++ [tree]) next
      | some (.error (.overlong digits)) => .done (.error (.overlong digits))
      | some (.error (.failure failure)) =>
          .done (if failure.committed then .error (.failure failure)
            else .ok ⟨trees, cursor, failure⟩)

/-- The loop of an application has no end of its own: a rule that reads something and comes no
further keeps it going until it is cut off. -/
theorem loopItems_of_idle {inner : Cursor → Trial (Datum × Cursor)} {tree : Datum}
    (idle : inner cursor.skipGaps = .done (.ok (tree, cursor))) (limit : Nat)
    (trees : List Datum) : loopItems inner limit trees cursor = .cut := by
  induction limit generalizing trees with
  | zero => rfl
  | succ limit inductionHypothesis =>
      rw [loopItems, idle]
      exact inductionHypothesis (trees ++ [tree])

/-- The loop over the expressions of a text. Every turn but the last reads one more expression.
It is cut off after a number of turns. -/
def loopForms : Nat → List Datum → Cursor → Trial (List Datum)
  | 0, _, _ => .cut
  | limit + 1, trees, cursor =>
      if cursor.ahead.isEmpty then .done (.ok trees)
      else do
        let read ← inner cursor
        loopForms limit (trees ++ [read.1]) read.2.skipGaps

/-- An application whose items are read by a rule that is given. -/
def tryApplication (limit : Nat) (cursor : Cursor) : Trial (Datum × Cursor) :=
  .within .application cursor.offset do
    let opened ← Trial.done (passLiteral "(" cursor)
    let read ← loopItems inner limit [] opened
    .done (closeBehind cursor read)

/-- A definition in the long style whose value is read by a rule that is given. -/
def tryDefine (cursor : Cursor) : Trial (Datum × Cursor) :=
  .within .define cursor.offset do
    let word ← Trial.done (passLiteral "define" cursor)
    let outer ← Trial.done (passLiteral "(" word)
    let name ← Trial.done (plain (key outer.skipGaps))
    let bracket ← Trial.done (passLiteral "(" name.2)
    let value ← inner bracket.skipGaps
    let closed ← Trial.done (passLiteral ")" value.2.skipGaps)
    let finished ← Trial.done (passLiteral ")" closed)
    return (.application (.key name.1) [value.1], finished)

/-- An expression whose inner expressions are read by a rule that is given. -/
def tryExpr (limit : Nat) (cursor : Cursor) : Trial (Datum × Cursor) :=
  .within .expr cursor.offset <|
    .orElse (.done (plain (constant cursor))) fun _ =>
    .orElse (tryApplication inner limit cursor) fun _ =>
      tryDefine inner cursor

/-- A rule whose inner expressions are read by a rule that is given. -/
def tryRule (limit : Nat) (rule : Rule) (cursor : Cursor) : Trial (Datum × Cursor) :=
  match rule with
  | .application => tryApplication inner limit cursor
  | .define => tryDefine inner cursor
  | .expr => tryExpr inner limit cursor
  | token => .done (readAt token cursor)

/-- An expression, with loops of so many turns. It is cut off below so many levels. -/
def exprWithin (limit : Nat) : Nat → Cursor → Trial (Datum × Cursor)
  | 0, _ => .cut
  | depth + 1, cursor => tryExpr (exprWithin limit depth) limit cursor

/-- What one rule reads, with loops of so many turns and so many levels of expressions in it. -/
def readAtWithin (limit depth : Nat) (rule : Rule) (cursor : Cursor) : Trial (Datum × Cursor) :=
  tryRule (exprWithin limit depth) limit rule cursor

/-- Every expression of a text, with loops of so many turns and so many levels of expressions in
each. -/
def readAllWithin (limit depth : Nat) (text : String) : Trial (List Datum) :=
  loopForms (readAtWithin limit depth .expr) limit [] (Cursor.ofText text).skipGaps

end Rules

section Agreement

variable {inner : Cursor → Trial (Datum × Cursor)}

/-- Where a literal stands ahead it is passed. -/
theorem passLiteral_eq (text : String) (written : text.toList ≠ []) (cursor : Cursor) :
    passLiteral text cursor = Except.map Step.next (literal text written cursor) := by
  unfold passLiteral literal
  split
  · next next found =>
      split
      · next place foundToo => exact congrArg Except.ok (Option.some.inj (found.symm.trans foundToo))
      · next missing => simp [found] at missing
  · next missing =>
      split
      · next place found => simp [missing] at found
      · rfl

/-- A sequence that starts with a literal ends when what follows the literal does. -/
theorem Trial.bind_passLiteral_eq_done {text : String} {written : text.toList ≠ []}
    {second : Cursor → Trial β} {others : Step Unit cursor → Except Refusal β}
    (rest : ∀ step, literal text written cursor = .ok step →
      second step.next = done (others step)) :
    done (passLiteral text cursor) >>= second = done (literal text written cursor >>= others) :=
  bind_eq_done (congrArg done (passLiteral_eq text written cursor)) rest

/-- An application ends in the same way when nothing is known of its items. -/
theorem plain_close {read : Items start} (opened : start.ahead.length < cursor.ahead.length) :
    plain (close cursor read opened) = closeBehind cursor (read.gathered []) := by
  cases shape : read.next.skipGaps.ahead with
  | nil =>
      simp only [closeBehind, Items.gathered, shape, close_of_nil shape]
      rfl
  | cons char rest =>
      simp only [closeBehind, Items.gathered, shape, close_of_cons shape]
      split
      · cases read.values <;> rfl
      · rfl

/-- The loop of an application reads its items, when there are more turns than characters. -/
theorem loopItems_eq_done (trees : List Datum)
    (answers : ∀ last, Passes cursor last →
      inner last.skipGaps = .done (readAt .expr last.skipGaps))
    (enough : cursor.ahead.length < limit) :
    loopItems inner limit trees cursor = .done ((items cursor).map (Items.gathered trees)) := by
  -- On the turns that are left: an item leaves less ahead, so behind it one turn fewer is enough.
  induction limit generalizing trees cursor with
  | zero => contradiction
  | succ limit inductionHypothesis =>
      rw [loopItems, answers cursor (.none cursor), readAt_eq_plain, attempt, items]
      cases first : expr cursor.skipGaps with
      | error refusal =>
          rcases refusal with failure | digits
          · cases committed : failure.committed <;>
              simp [Trial.done, committed, Except.map, Items.gathered]
          · rfl
      | ok step =>
          have yields : Yields (expr cursor.skipGaps) step.value step.next :=
            ⟨step, first, rfl, rfl⟩
          have := step.shorter
          have := cursor.length_skipGaps_le
          have others : loopItems inner limit (trees ++ [step.value]) step.next = _ :=
            inductionHypothesis _ (fun last passes => answers last (.some yields passes)) (by omega)
          refine others.trans (congrArg Trial.done ?_)
          dsimp only
          generalize items step.next = rest
          cases rest with
          | error refusal => rfl
          | ok rest =>
              simp [Except.map, Items.gathered, bind, Except.bind, pure, Except.pure]

/-- An application asks for the expressions that it calls, and for no others. -/
theorem tryApplication_eq_done
    (answers : ∀ place, Calls .application cursor .expr place →
      inner place = .done (readAt .expr place))
    (enough : cursor.ahead.length ≤ limit) :
    tryApplication inner limit cursor = .done (readAt .application cursor) := by
  rw [readAt_eq_plain, attempt, application, plain_within]
  simp only [plain_bind, plain_close]
  refine Trial.within_eq_done (Trial.bind_passLiteral_eq_done fun opened found => ?_) _ _
  have bracket : cursor.Takes ['('] opened.next := takes_of_literal found
  have := opened.shorter
  rw [loopItems_eq_done [] (fun last passes => answers _ (.item bracket passes)) (by omega)]
  cases items opened.next <;> rfl

/-- A definition in the long style asks for the value that it calls, and for nothing else. -/
theorem tryDefine_eq_done
    (answers : ∀ place, Calls .define cursor .expr place →
      inner place = .done (readAt .expr place)) :
    tryDefine inner cursor = .done (readAt .define cursor) := by
  rw [readAt_eq_plain, attempt, define, plain_within]
  simp only [plain_bind]
  refine Trial.within_eq_done (Trial.bind_passLiteral_eq_done fun word wordRead => ?_) _ _
  refine Trial.bind_passLiteral_eq_done fun outer outerRead => ?_
  refine Trial.bind_eq_done rfl fun name nameRead => ?_
  refine Trial.bind_passLiteral_eq_done fun bracket bracketRead => ?_
  have comes := comesToValue_of_steps wordRead outerRead nameRead bracketRead
  refine Trial.bind_eq_done (answers _ (.value comes)) fun value _ => ?_
  refine Trial.bind_passLiteral_eq_done fun closed _ => ?_
  exact Trial.bind_passLiteral_eq_done fun finished _ => rfl

/-- An expression asks for the expressions that its alternatives call, and for no others. -/
theorem tryExpr_eq_done
    (answers : ∀ caller place, Calls caller cursor .expr place →
      inner place = .done (readAt .expr place))
    (enough : cursor.ahead.length ≤ limit) :
    tryExpr inner limit cursor = .done (readAt .expr cursor) := by
  rw [readAt_eq_plain, attempt, expr, plain_within]
  simp only [plain_orElse]
  refine Trial.within_eq_done (Trial.orElse_eq_done rfl fun _ => ?_) _ _
  exact Trial.orElse_eq_done (tryApplication_eq_done (answers .application) enough) fun _ =>
    tryDefine_eq_done (answers .define)

/-- A rule asks for expressions only where they are called. -/
theorem tryRule_eq_done
    (answers : ∀ caller place, Calls caller cursor .expr place →
      inner place = .done (readAt .expr place))
    (enough : cursor.ahead.length ≤ limit) :
    tryRule inner limit rule cursor = .done (readAt rule cursor) := by
  cases rule with
  | application => exact tryApplication_eq_done (answers .application) enough
  | define => exact tryDefine_eq_done (answers .define)
  | expr => exact tryExpr_eq_done answers enough
  | integer | key | boolean | instruction | atom | constant => rfl

end Agreement

section Enough

/-- An inner expression is called where there is less ahead. -/
theorem Calls.shorter (calls : Calls rule cursor .expr place) :
    place.ahead.length < cursor.ahead.length := by
  have := calls.smaller
  cases calls <;> simp only [Rule.height] at this <;> omega

/-- An expression is not cut off where there may be more levels than characters. -/
theorem exprWithin_eq_done (enough : cursor.ahead.length ≤ limit)
    (deep : cursor.ahead.length < depth) :
    exprWithin limit depth cursor = .done (readAt .expr cursor) := by
  -- On the levels: where an inner expression is called there is less ahead, so one fewer is enough.
  induction depth generalizing cursor with
  | zero => contradiction
  | succ depth inductionHypothesis =>
      refine tryExpr_eq_done (fun caller place calls => ?_) enough
      have := calls.shorter
      exact inductionHypothesis (by omega) (by omega)

/-- A rule is not cut off where there may be as many turns and levels as characters. -/
theorem readAtWithin_eq_done (enough : cursor.ahead.length ≤ limit)
    (deep : cursor.ahead.length ≤ depth) :
    readAtWithin limit depth rule cursor = .done (readAt rule cursor) := by
  refine tryRule_eq_done (fun caller place calls => ?_) enough
  have := calls.shorter
  exact exprWithin_eq_done (by omega) (by omega)

/-- The loop over the expressions of a text reads them, when there are more turns than
characters. -/
theorem loopForms_eq_done {inner : Cursor → Trial (Datum × Cursor)} (trees : List Datum)
    (answers : ∀ place : Cursor, place.ahead.length ≤ cursor.ahead.length →
      inner place = .done (readAt .expr place))
    (enough : cursor.ahead.length < limit) :
    loopForms inner limit trees cursor.skipGaps = .done ((forms cursor).map (trees ++ ·)) := by
  induction limit generalizing trees cursor with
  | zero => contradiction
  | succ limit inductionHypothesis =>
      have skipped := cursor.length_skipGaps_le
      rw [loopForms, forms]
      split
      · simp [Except.map]
      · rw [answers _ skipped, readAt_eq_plain, attempt]
        cases expr cursor.skipGaps with
        | error refusal => rfl
        | ok step =>
            have := step.shorter
            have others : loopForms inner limit (trees ++ [step.value]) step.next.skipGaps = _ :=
              inductionHypothesis _ (fun place within => answers place (by omega)) (by omega)
            refine others.trans (congrArg Trial.done ?_)
            cases behind : forms step.next with
            | error refusal => simp [behind, Except.map, bind, Except.bind]
            | ok rest => simp [behind, Except.map, bind, Except.bind, pure, Except.pure]

/-- Reading every expression of a text is not cut off where there may be more turns than
characters, and as many levels. -/
theorem readAllWithin_eq_done {text : String} (enough : text.length < limit)
    (deep : text.length ≤ depth) : readAllWithin limit depth text = .done (readAll text) := by
  have ahead : (Cursor.ofText text).ahead.length = text.length := String.length_toList
  refine (loopForms_eq_done [] (fun place within => ?_) (ahead ▸ enough)).trans ?_
  · exact readAtWithin_eq_done (by omega) (by omega)
  · rw [readAll]
    cases forms (.ofText text) <;> rfl

end Enough

end PocketLisp.Reading
