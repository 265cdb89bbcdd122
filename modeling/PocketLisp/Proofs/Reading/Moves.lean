import Mathlib.Tactic.SplitIfs
import PocketLisp.Reading.Source

/-!
# Changes of a text that reading takes no notice of

Reading looks only at what is ahead, and the grammar gives no meaning to any character outside
ASCII. So it goes the same way when more text stands in front, and when other characters stand
in the place of those outside ASCII. A `Move` is such a change. Under a move every offset grows
by the same number, and a cause that repeats characters repeats those in their place.

The readings before and after a move start at different cursors, and a step keeps its start in
its type. So they are compared by a relation, which relates steps whose values are equal and
whose cursors have moved. It goes through every combinator.
-/

namespace PocketLisp.Reading

/-- More text in front, and other characters in the place of those outside ASCII. -/
structure Move where
  count : Nat
  recast : Char → Char
  outside : ∀ char, recast char = char ∨ 128 ≤ char.toNat ∧ 128 ≤ (recast char).toNat

variable {α β γ δ : Type} {move : Move} {accepts : Char → Bool} {cursor other start place : Cursor}

section Characters

/-- Only ASCII characters are accepted. -/
def OnlyAscii (accepts : Char → Bool) : Prop :=
  ∀ char, accepts char = true → char.toNat < 128

/-- The blanks of the grammar are ASCII characters. -/
theorem onlyAscii_isGap : OnlyAscii Text.isGap := by
  intro char blank
  simp only [Text.isGap, Bool.or_eq_true, beq_iff_eq] at blank
  rcases blank with ((rfl | rfl) | rfl) | rfl <;> decide

/-- Names are made of ASCII characters. -/
theorem onlyAscii_continuesKey : OnlyAscii continuesKey := by
  intro char continues
  have parts : (char.isUpper || char.isLower || char.isDigit || char == '_') = true := continues
  simp only [Bool.or_eq_true, beq_iff_eq] at parts
  rcases parts with ((upper | lower) | digit) | rfl
  · obtain ⟨-, before⟩ := of_decide_eq_true upper
    exact Nat.lt_of_le_of_lt before (by decide)
  · obtain ⟨-, before⟩ := Bool.and_eq_true_iff.1 lower
    exact Nat.lt_of_le_of_lt (of_decide_eq_true before) (by decide)
  · obtain ⟨-, before⟩ := Bool.and_eq_true_iff.1 digit
    exact Nat.lt_of_le_of_lt (of_decide_eq_true before) (by decide)
  · decide

/-- Names start with ASCII characters. -/
theorem onlyAscii_startsKey : OnlyAscii startsKey :=
  fun char starts => onlyAscii_continuesKey char (continuesKey_of_startsKey starts)

/-- The digits of the grammar are ASCII characters. -/
theorem onlyAscii_isDigit : OnlyAscii Char.isDigit :=
  fun char digit => onlyAscii_continuesKey char (by simp [continuesKey, Char.isAlphanum, digit])

namespace Move

/-- More text in front. -/
def further (count : Nat) : Move :=
  ⟨count, id, fun _ => .inl rfl⟩

/-- An ASCII character stays, and no other character becomes one. -/
theorem recast_eq_iff {char : Char} (ascii : char.toNat < 128) (first : Char) :
    move.recast first = char ↔ first = char := by
  rcases move.outside first with same | ⟨before, after⟩
  · rw [same]
  · have changed : move.recast first ≠ char := by
      rintro rfl
      omega
    have different : first ≠ char := by
      rintro rfl
      omega
    exact iff_of_false changed different

/-- What accepts only ASCII characters accepts a character or the one in its place. -/
theorem accepts_recast (ascii : OnlyAscii accepts) (char : Char) :
    accepts (move.recast char) = accepts char := by
  have none : ∀ other : Char, 128 ≤ other.toNat → accepts other = false := by
    intro other outside
    refine Bool.eq_false_iff.2 fun accepted => ?_
    have := ascii other accepted
    omega
  rcases move.outside char with same | ⟨before, after⟩
  · rw [same]
  · rw [none _ before, none _ after]

/-- A run of ASCII characters stays. -/
theorem takeWhile_recast (ascii : OnlyAscii accepts) (chars : List Char) :
    (chars.map move.recast).takeWhile accepts = chars.takeWhile accepts := by
  have same : ∀ char ∈ chars.takeWhile accepts, move.recast char = id char := fun char member =>
    (recast_eq_iff (ascii char (List.all_eq_true.1 List.all_takeWhile char member)) char).2 rfl
  rw [List.takeWhile_map, Function.comp_def]
  simp only [accepts_recast ascii]
  rw [List.map_congr_left same, List.map_id]

/-- What follows a run of ASCII characters is what follows it in the other text. -/
theorem dropWhile_recast (ascii : OnlyAscii accepts) (chars : List Char) :
    (chars.map move.recast).dropWhile accepts = (chars.dropWhile accepts).map move.recast := by
  rw [List.dropWhile_map, Function.comp_def]
  simp only [accepts_recast ascii]

/-- A literal of ASCII characters stands ahead or not, whatever is put in the place of others. -/
theorem strip?_recast {literal : List Char} (ascii : ∀ char ∈ literal, char.toNat < 128)
    (chars : List Char) :
    Cursor.strip? literal (chars.map move.recast) =
      (Cursor.strip? literal chars).map (List.map move.recast) := by
  induction literal generalizing chars with
  | nil => simp [Cursor.strip?]
  | cons char literal inductionHypothesis =>
      obtain ⟨here, others⟩ := List.forall_mem_cons.1 ascii
      cases chars with
      | nil => rfl
      | cons first chars =>
          simp only [List.map_cons, Cursor.strip?, eq_comm (a := char), recast_eq_iff here]
          split
          · exact inductionHypothesis others chars
          · rfl

end Move

end Characters

section Moving

namespace Cursor

/-- The cursor with the same characters ahead and more in front. -/
def shift (count : Nat) (cursor : Cursor) : Cursor :=
  ⟨cursor.offset + count, cursor.ahead⟩

/-- The cursor after a move. -/
def under (move : Move) (cursor : Cursor) : Cursor :=
  ⟨cursor.offset + move.count, cursor.ahead.map move.recast⟩

/-- With more in front the same characters stay ahead. -/
theorem under_further (count : Nat) (cursor : Cursor) :
    cursor.under (.further count) = cursor.shift count := by
  rw [under, Move.further, List.map_id, shift]

/-- Passing a run of ASCII characters moves along. -/
theorem past_under (ascii : OnlyAscii accepts) (move : Move) (cursor : Cursor) :
    (cursor.under move).past accepts = (cursor.past accepts).under move := by
  simp only [past, under, Move.takeWhile_recast ascii, Move.dropWhile_recast ascii,
    Nat.add_right_comm]

/-- Skipping blanks moves along. -/
theorem skipGaps_of_under (same : other = cursor.under move) :
    other.skipGaps = cursor.skipGaps.under move := by
  rw [same]
  exact past_under onlyAscii_isGap move cursor

/-- Passing a literal of ASCII characters moves along. -/
theorem behind?_under {text : String}
    (ascii : text.toList.all (fun char => char.toNat < 128) = true) (move : Move) (cursor : Cursor) :
    (cursor.under move).behind? text = (cursor.behind? text).map (under move) := by
  have each : ∀ char ∈ text.toList, char.toNat < 128 := fun char member =>
    of_decide_eq_true (List.all_eq_true.1 ascii char member)
  simp only [behind?, under, Move.strip?_recast each, Option.map_map, Function.comp_def,
    Nat.add_right_comm]

/-- A word ends where it ended before the move. -/
theorem atDelimiter_under (move : Move) (cursor : Cursor) :
    (cursor.under move).atDelimiter = cursor.atDelimiter := by
  obtain ⟨offset, ahead⟩ := cursor
  cases ahead with
  | nil => rfl
  | cons char rest =>
      have ascii : (')').toNat < 128 := by decide
      have bracket : (move.recast char == ')') = (char == ')') := by
        simp only [Bool.beq_eq_decide_eq, Move.recast_eq_iff ascii]
      simp only [under, List.map_cons, atDelimiter, Move.accepts_recast onlyAscii_isGap, bracket]

end Cursor

/-- The cause after a move. What a cause repeats is recast, except for what the grammar knows:
digits and reserved words, which are in ASCII. -/
def Cause.under (move : Move) : Cause → Cause
  | .unexpectedChar char => .unexpectedChar (move.recast char)
  | .leftover text => .leftover (String.ofList (text.toList.map move.recast))
  | cause => cause

/-- The failure with all its offsets moved. -/
def Failure.shift (count : Nat) (failure : Failure) : Failure where
  cause := failure.cause
  position := failure.position + count
  committed := failure.committed
  trail := failure.trail.map fun context => (context.1, context.2 + count)

/-- The failure after a move. -/
def Failure.under (move : Move) (failure : Failure) : Failure :=
  { failure.shift move.count with cause := failure.cause.under move }

/-- The refusal with all its offsets moved. -/
def Refusal.shift (count : Nat) : Refusal → Refusal
  | .failure reason => .failure (reason.shift count)
  | .overlong digits => .overlong digits

/-- The refusal after a move. -/
def Refusal.under (move : Move) : Refusal → Refusal
  | .failure reason => .failure (reason.under move)
  | .overlong digits => .overlong digits

/-- With more in front a refusal differs in its offsets only. -/
theorem Refusal.under_further (count : Nat) (refusal : Refusal) :
    refusal.under (.further count) = refusal.shift count := by
  rcases refusal with ⟨cause, position, committed, trail⟩ | digits
  · cases cause <;> simp [under, shift, Failure.under, Failure.shift, Cause.under, Move.further]
  · rfl

/-- A step reads the same value as another, and comes to the cursor that has moved. -/
def Step.Moves (move : Move) (step : Step α start) (moved : Step α place) : Prop :=
  moved.value = step.value ∧ moved.next = step.next.under move

/-- The same items are read, and both their end and the failure that ends them have moved. -/
def Items.Moves (move : Move) (items : Items start) (moved : Items place) : Prop :=
  moved.values = items.values ∧ moved.next = items.next.under move
    ∧ moved.ending = items.ending.under move

end Moving

namespace Attempt

/-- An attempt comes to the same as another before a move: to a value that suits the other's, or
to the refusal that the other's becomes. -/
inductive Moves (move : Move) (suits : α → β → Prop) :
    Except Refusal α → Except Refusal β → Prop
  | ok {value : α} {moved : β} (suited : suits value moved) :
      Moves move suits (.ok value) (.ok moved)
  | error (refusal : Refusal) : Moves move suits (.error refusal) (.error (refusal.under move))

namespace Moves

variable {suits : α → β → Prop} {suitsToo : γ → δ → Prop} {attempt : Except Refusal α}
  {moved : Except Refusal β}

/-- A failure made on the spot. -/
theorem fail (cause : Cause) (position : Nat) (committed : Bool) :
    Moves move suits (fail cause position committed)
      (fail (cause.under move) (position + move.count) committed) :=
  .error (.failure ⟨cause, position, committed, []⟩)

/-- A rule is noted where it started. -/
theorem within (moves : Moves move suits attempt moved) (rule : Rule) (offset : Nat) :
    Moves move suits (within rule offset attempt) (within rule (offset + move.count) moved) := by
  cases moves with
  | ok suited => exact .ok suited
  | error refusal =>
      cases refusal with
      | failure failure =>
          have noted : Moves move suits _ _ :=
            .error (.failure { failure with trail := failure.trail ++ [(rule, offset)] })
          simpa [Refusal.under, Failure.under, Failure.shift, Attempt.within] using noted
      | overlong digits => exact .error (.overlong digits)

/-- A sequence goes on from what its first part comes to. -/
theorem bind {first : α → Except Refusal γ} {second : β → Except Refusal δ}
    (moves : Moves move suits attempt moved)
    (behind : ∀ value other, suits value other →
      Moves move suitsToo (first value) (second other)) :
    Moves move suitsToo (attempt >>= first) (moved >>= second) := by
  cases moves with
  | ok suited => exact behind _ _ suited
  | error refusal => exact .error refusal

/-- A condition that is the same for both. -/
theorem ite {condition : Prop} [Decidable condition] {first second : Except Refusal α}
    {firstMoved secondMoved : Except Refusal β} (holds : Moves move suits first firstMoved)
    (fails : Moves move suits second secondMoved) :
    Moves move suits (if condition then first else second)
      (if condition then firstMoved else secondMoved) := by
  split
  · exact holds
  · exact fails

/-- A condition that is the same for both, and that what follows depends on. -/
theorem dite {condition : Prop} [Decidable condition] {first : condition → Except Refusal α}
    {second : ¬condition → Except Refusal α} {firstMoved : condition → Except Refusal β}
    {secondMoved : ¬condition → Except Refusal β}
    (holds : ∀ given, Moves move suits (first given) (firstMoved given))
    (fails : ∀ given, Moves move suits (second given) (secondMoved given)) :
    Moves move suits (if given : condition then first given else second given)
      (if given : condition then firstMoved given else secondMoved given) := by
  split
  · exact holds _
  · exact fails _

/-- Of two failures the same one is further on. -/
theorem further_under (move : Move) (first second : Failure) :
    further (first.under move) (second.under move) = (further first second).under move := by
  simp only [further, Failure.under, Failure.shift, Nat.add_lt_add_iff_right]
  split <;> rfl

/-- A choice falls on the same alternative. -/
theorem orElse {second : Unit → Except Refusal α} {secondMoved : Unit → Except Refusal β}
    (moves : Moves move suits attempt moved)
    (behind : Moves move suits (second ()) (secondMoved ())) :
    Moves move suits (orElse attempt second) (orElse moved secondMoved) := by
  cases moves with
  | ok suited => exact .ok suited
  | error refusal =>
      rcases refusal with failure | digits
      · refine .ite (.error (.failure failure)) ?_
        generalize second () = here, secondMoved () = there at behind ⊢
        cases behind with
        | ok suited => exact .ok suited
        | error refusal =>
            rcases refusal with other | digits
            · refine .ite (.error (.failure other)) ?_
              rw [further_under]
              exact .error (.failure _)
            · exact .error (.overlong digits)
      · exact .error (.overlong digits)

/-- Changing what was read. -/
theorem mapValue {f : α → γ} {g : β → δ} (moves : Moves move suits attempt moved)
    (behind : ∀ value other, suits value other → suitsToo (f value) (g other)) :
    Moves move suitsToo (attempt.map f) (moved.map g) := by
  cases moves with
  | ok suited => exact .ok (behind _ _ suited)
  | error refusal => exact .error refusal

/-- Changing the values of steps. -/
theorem map {attempt : Attempt α start} {moved : Attempt α place}
    (moves : Moves move (Step.Moves move) attempt moved) (f : α → β) :
    Moves move (Step.Moves move) (attempt.map f) (moved.map f) :=
  moves.mapValue fun _ _ suited => ⟨congrArg f suited.1, suited.2⟩

/-- What is read is read after the move, as something that suits it. -/
theorem exists_of_ok {value : α} (moves : Moves move suits (.ok value) moved) :
    ∃ other, moved = .ok other ∧ suits value other := by
  cases moves with
  | ok suited => exact ⟨_, rfl, suited⟩

/-- Where the one value determines the other, exactly what is read is read after the move. -/
theorem eq_ok_iff {f : α → β} {other : β}
    (moves : Moves move (fun value other => other = f value) attempt moved) :
    moved = .ok other ↔ ∃ value, attempt = .ok value ∧ other = f value := by
  cases moves with
  | ok same => simp [same, eq_comm]
  | error refusal => simp

/-- Exactly what is refused is refused after the move, as what it becomes. -/
theorem eq_error_iff {other : Refusal} (moves : Moves move suits attempt moved) :
    moved = .error other ↔ ∃ refusal, attempt = .error refusal ∧ other = refusal.under move := by
  cases moves with
  | ok suited => simp
  | error refusal => simp [eq_comm]

end Moves

end Attempt

end PocketLisp.Reading
