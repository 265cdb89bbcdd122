import PocketLisp.Proofs.Reading.Refusals

/-!
# Calls between rules

`Calls` says which rule runs where because another does, and `Reaches` follows calls
from one to the next. A refusal for good goes all the way back along the calls, so
what a rule does with a run of digits that is too large can be read off where it is
reached.

Whether a rule is called at all depends on the alternatives before it, which have to
decline, and on what is read in front of it.
-/

namespace PocketLisp.Reading

open Attempt

variable {rule inner : Rule} {cursor place run : Cursor} {refusal : Refusal} {digits : Nat}

/-- Running one rule at a cursor comes to run another rule at a cursor. -/
inductive Calls : Rule → Cursor → Rule → Cursor → Prop
  | integer (cursor : Cursor) : Calls .atom cursor .integer cursor
  | atom (cursor : Cursor) : Calls .constant cursor .atom cursor
  | constant (cursor : Cursor) : Calls .expr cursor .constant cursor
  | application {cursor : Cursor} (constant : Declines (constant cursor)) :
      Calls .expr cursor .application cursor
  | define {cursor : Cursor} (constant : Declines (constant cursor))
      (application : Declines (application cursor)) : Calls .expr cursor .define cursor
  | item {cursor opened last : Cursor} (bracket : cursor.Takes ['('] opened)
      (passes : Passes opened last) : Calls .application cursor .expr last.skipGaps
  | value {cursor value : Cursor} (comes : ComesToValue cursor value) :
      Calls .define cursor .expr value

/-- Running a rule at a cursor comes to run another after some calls. -/
inductive Reaches : Rule → Cursor → Rule → Cursor → Prop
  | here (rule : Rule) (cursor : Cursor) : Reaches rule cursor rule cursor
  | call {rule middle inner : Rule} {cursor place run : Cursor}
      (calls : Calls rule cursor middle place) (rest : Reaches middle place inner run) :
      Reaches rule cursor inner run

/-- The integer rule is run as it is. -/
@[simp] theorem aborts_attempt_integer_iff :
    Aborts (attempt .integer cursor) refusal ↔ Aborts (integer cursor) refusal :=
  aborts_map_iff

/-- A refusal for good is handed on to the caller. -/
theorem Calls.aborts (calls : Calls rule cursor inner place)
    (aborts : Aborts (attempt inner place) refusal) :
    ∃ outer, Aborts (attempt rule cursor) outer ∧ outer.origin = refusal.origin := by
  cases calls with
  | integer =>
      rw [aborts_attempt_integer_iff] at aborts
      simp only [attempt, aborts_map_iff]
      exact ⟨_, aborts_atom_iff.2 ⟨refusal, aborts, rfl⟩, Refusal.origin_through _ _ _⟩
  | atom =>
      simp only [attempt, aborts_map_iff] at aborts ⊢
      exact ⟨_, aborts_constant_iff.2 ⟨refusal, aborts, rfl⟩, Refusal.origin_through _ _ _⟩
  | constant =>
      exact ⟨_, aborts_expr_iff.2 ⟨refusal, .inl aborts, rfl⟩, Refusal.origin_through _ _ _⟩
  | application constant =>
      exact ⟨_, aborts_expr_iff.2 ⟨refusal, .inr ⟨constant, .inl aborts⟩, rfl⟩,
        Refusal.origin_through _ _ _⟩
  | define constant application =>
      exact ⟨_, aborts_expr_iff.2 ⟨refusal, .inr ⟨constant, .inr ⟨application, aborts⟩⟩, rfl⟩,
        Refusal.origin_through _ _ _⟩
  | item bracket passes =>
      have inside := aborts_items_iff.2 ⟨_, passes, aborts⟩
      exact ⟨_, aborts_application_of_items bracket inside, Refusal.origin_through _ _ _⟩
  | value comes =>
      exact ⟨_, aborts_define_iff.2 ⟨_, refusal, comes, aborts, rfl⟩, Refusal.origin_through _ _ _⟩

/-- A refusal for good goes back along all calls. -/
theorem Reaches.aborts (reaches : Reaches rule cursor inner run)
    (aborts : Aborts (attempt inner run) refusal) :
    ∃ outer, Aborts (attempt rule cursor) outer ∧ outer.origin = refusal.origin := by
  induction reaches with
  | here => exact ⟨refusal, aborts, rfl⟩
  | call calls rest inductionHypothesis =>
      obtain ⟨middle, refused, same⟩ := inductionHypothesis aborts
      obtain ⟨outer, back, origin⟩ := calls.aborts refused
      exact ⟨outer, back, origin.trans same⟩

/-- An overlong literal is one of the integer rule, or comes from a call. -/
theorem integer_or_calls_of_overlong (aborts : Aborts (attempt rule cursor) (.overlong digits)) :
    rule = .integer ∨ ∃ inner place, Calls rule cursor inner place
      ∧ Aborts (attempt inner place) (.overlong digits) := by
  cases rule with
  | integer => exact .inl rfl
  | key =>
      simp only [attempt, aborts_map_iff] at aborts
      exact absurd aborts not_aborts_key
  | boolean =>
      simp only [attempt, aborts_map_iff] at aborts
      exact absurd aborts not_aborts_boolean
  | instruction =>
      simp only [attempt, aborts_map_iff] at aborts
      exact absurd aborts not_aborts_instruction
  | atom =>
      simp only [attempt, aborts_map_iff] at aborts
      obtain ⟨inner, inside, through⟩ := aborts_atom_iff.1 aborts
      obtain rfl := Refusal.through_eq_overlong_iff.1 through
      exact .inr ⟨.integer, cursor, .integer cursor, aborts_attempt_integer_iff.2 inside⟩
  | constant =>
      obtain ⟨inner, inside, through⟩ := aborts_constant_iff.1 aborts
      obtain rfl := Refusal.through_eq_overlong_iff.1 through
      exact .inr ⟨.atom, cursor, .atom cursor, by simpa only [attempt, aborts_map_iff]⟩
  | application =>
      obtain ⟨opened, bracket, inside⟩ := exists_items_of_overlong_application aborts
      obtain ⟨last, passes, there⟩ := aborts_items_iff.1 inside
      exact .inr ⟨.expr, last.skipGaps, .item bracket passes, there⟩
  | define =>
      obtain ⟨value, inner, comes, inside, through⟩ := aborts_define_iff.1 aborts
      obtain rfl := Refusal.through_eq_overlong_iff.1 through
      exact .inr ⟨.expr, value, .value comes, inside⟩
  | expr =>
      obtain ⟨inner, alternatives, through⟩ := aborts_expr_iff.1 aborts
      obtain rfl := Refusal.through_eq_overlong_iff.1 through
      rcases alternatives with first | ⟨constants, second | ⟨applications, third⟩⟩
      · exact .inr ⟨.constant, cursor, .constant cursor, first⟩
      · exact .inr ⟨.application, cursor, .application constants, second⟩
      · exact .inr ⟨.define, cursor, .define constants applications, third⟩

/-- How many calls a rule can be away from the integer rule at one cursor. -/
def Rule.height : Rule → Nat
  | .integer | .key | .boolean | .instruction => 0
  | .atom => 1
  | .constant | .application | .define => 2
  | .expr => 3

/-- A call goes forward in the text, or stays and comes closer to the integer rule. -/
theorem Calls.smaller (calls : Calls rule cursor inner place) :
    4 * place.ahead.length + inner.height < 4 * cursor.ahead.length + rule.height := by
  cases calls with
  | integer | atom | constant | application | define => simp [Rule.height]
  | @item _ opened last bracket passes =>
      have := bracket.length_eq
      have := passes.length_le
      have := last.length_skipGaps_le
      simp only [Rule.height, List.length_singleton] at *
      omega
  | value comes =>
      have := comes.shorter
      simp only [Rule.height]
      omega

/-- An overlong literal is always one of the integer rule, where that is reached. -/
theorem exists_reaches_of_overlong {rule : Rule} {cursor : Cursor}
    (aborts : Aborts (attempt rule cursor) (.overlong digits)) :
    ∃ run, Reaches rule cursor .integer run ∧ Aborts (integer run) (.overlong digits) := by
  rcases integer_or_calls_of_overlong aborts with rfl | ⟨inner, place, calls, inside⟩
  · exact ⟨cursor, .here .integer cursor, aborts_attempt_integer_iff.1 aborts⟩
  · have := calls.smaller
    obtain ⟨run, rest, there⟩ := exists_reaches_of_overlong inside
    exact ⟨run, .call calls rest, there⟩
termination_by 4 * cursor.ahead.length + rule.height

end PocketLisp.Reading
