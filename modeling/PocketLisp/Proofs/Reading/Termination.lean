import PocketLisp.Proofs.Reading.Traces
import PocketLisp.Proofs.Reading.Trials

/-!
# Reading comes to an end

Every rule that reads something comes to a later place of the text, and an expression inside
another is called for at a later place than the other. So neither the items of an application
nor the expressions of a text go on for ever, and forms are nested no deeper than there are
characters.

That a definition by recursion was accepted says that it ends, but says it of no run. It is
stated here of the rules that may be cut off, which carry no proof of it: they are not, and
then they come to what the reader comes to.
-/

namespace PocketLisp.Reading

open Attempt

variable {rule : Rule} {cursor place next : Cursor} {tree : Datum} {text : String} {offset : Nat}

section Places

/-- A cursor stands in a text, behind an offset. -/
structure Cursor.IsBehind (place : Cursor) (text : String) (offset : Nat) : Prop where
  further : offset < place.offset
  inside : place.offset ≤ text.length
  same : place = .ofOffset text place.offset

/-- At an offset of a text there are the characters ahead that it leaves. -/
theorem length_ahead_ofOffset (text : String) (offset : Nat) :
    (Cursor.ofOffset text offset).ahead.length = text.length - offset := by
  rw [Cursor.ofOffset, List.length_drop, String.length_toList]

/-- Where a stretch of a text ends with less ahead is behind the offset where it starts. -/
theorem Cursor.Takes.isBehind {taken : List Char}
    (takes : (Cursor.ofOffset text offset).Takes taken place)
    (shorter : place.ahead.length < (Cursor.ofOffset text offset).ahead.length) :
    place.IsBehind text offset := by
  have count := takes.length_eq
  have moved : place.offset = offset + taken.length := takes.2
  have isIn : place.IsIn text := takes.isIn rfl
  rw [length_ahead_ofOffset] at count shorter
  exact {
    further := by omega
    inside := by omega
    same := by rw [Cursor.ofOffset, ← isIn] }

/-- What a rule reads lies between its cursor and the one behind it. -/
theorem exists_takes_of_attempt (yields : Yields (attempt rule cursor) tree next) :
    ∃ taken, cursor.Takes taken next := by
  -- A constant or a form is read as an expression too, and of those it is known already.
  have ofExpr {item : Datum} (read : Yields (expr cursor) item next) :
      ∃ taken, cursor.Takes taken next := read.exists_takes.imp fun _ => And.left
  cases rule with
  | integer =>
      obtain ⟨value, read, -⟩ := yields_map_iff.1 yields
      obtain ⟨digits, -, takes, -⟩ := yields_integer_iff.1 read
      exact ⟨digits, takes⟩
  | key =>
      obtain ⟨name, read, -⟩ := yields_map_iff.1 yields
      exact ⟨name.toList, (yields_key_iff.1 read).2.1⟩
  | boolean =>
      obtain ⟨value, read, -⟩ := yields_map_iff.1 yields
      obtain ⟨behind, takes, rfl⟩ := yields_boolean_iff.1 read
      obtain ⟨gap, -, skipped⟩ := exists_takes_skipGaps behind
      exact ⟨_, takes.trans skipped⟩
  | instruction =>
      obtain ⟨tag, read, -⟩ := yields_map_iff.1 yields
      exact ⟨tag.token.toList, (yields_instruction_iff.1 read).1⟩
  | atom =>
      obtain ⟨value, read, -⟩ := yields_map_iff.1 yields
      exact ofExpr (yields_expr_iff.2 (.inl (yields_constant_iff.2 ⟨value, read, rfl⟩)))
  | constant => exact ofExpr (yields_expr_iff.2 (.inl yields))
  | application =>
      obtain ⟨opened, _, _, _, bracket, -⟩ := yields_application_iff.1 yields
      have noConstant := declines_constant_of_application bracket
      exact ofExpr (yields_expr_iff.2 (.inr ⟨noConstant, .inl yields⟩))
  | define =>
      obtain ⟨_, _, _, _, _, _, _, _, word, outer, name, bracket, value, closed, finished, rfl⟩ :=
        yields_define_iff.1 yields
      exact ofExpr (yields_expr_of_define word outer name bracket value closed finished)
  | expr => exact ofExpr yields

/-- What a rule reads at a cursor is what its attempt yields. -/
theorem readAt_eq_ok_iff : readAt rule cursor = .ok (tree, next) ↔
    Yields (attempt rule cursor) tree next := by
  cases answer : attempt rule cursor with
  | error refusal => simp [readAt, answer, bind, Except.bind]
  | ok step => simp [readAt, answer, bind, Except.bind, pure, Except.pure]

/-- What a rule reads at an offset of a text ends behind the offset. -/
theorem isBehind_of_readAt (read : readAt rule (.ofOffset text offset) = .ok (tree, next)) :
    next.IsBehind text offset := by
  have yields := readAt_eq_ok_iff.1 read
  obtain ⟨taken, takes⟩ := exists_takes_of_attempt yields
  exact takes.isBehind yields.shorter

/-- An expression that a rule at an offset of a text calls for starts behind the offset. -/
theorem Calls.isBehind (calls : Calls rule (.ofOffset text offset) .expr place) :
    place.IsBehind text offset := by
  have shorter := calls.shorter
  cases calls with
  | item bracket passes =>
      obtain ⟨taken, takes⟩ := passes.exists_takes_item bracket
      exact takes.isBehind shorter
  | value comes =>
      obtain ⟨taken, takes⟩ := comes.exists_takes
      exact takes.isBehind shorter

end Places

/-- What is promised of reading at an offset of a text. What a rule reads ends behind the offset,
and an expression that a rule calls for starts behind it. So what a rule comes to does not depend
on what an expression comes to at the offset or before, nor on whether it ends there. And a rule
ends without being cut off, with as many turns and levels as there are characters ahead. -/
structure Advances (text : String) (offset : Nat) : Prop where
  ends : ∀ rule tree next, readAt rule (.ofOffset text offset) = .ok (tree, next) →
    next.IsBehind text offset
  calls : ∀ rule place, Calls rule (.ofOffset text offset) .expr place →
    place.IsBehind text offset
  depends : ∀ inner limit rule, text.length - offset ≤ limit →
    (∀ place : Cursor, place.IsBehind text offset → inner place = .done (readAt .expr place)) →
    tryRule inner limit rule (.ofOffset text offset)
      = .done (readAt rule (.ofOffset text offset))
  finishes : ∀ limit depth rule, text.length - offset ≤ limit → text.length - offset ≤ depth →
    readAtWithin limit depth rule (.ofOffset text offset)
      = .done (readAt rule (.ofOffset text offset))

/-- Reading advances at every offset of a text. -/
theorem advances (text : String) (offset : Nat) : Advances text offset where
  ends _ _ _ := isBehind_of_readAt
  calls _ _ := Calls.isBehind
  depends inner limit rule enough answers := by
    rw [← length_ahead_ofOffset] at enough
    exact tryRule_eq_done (fun _ place calls => answers place calls.isBehind) enough
  finishes limit depth rule enough deep := by
    rw [← length_ahead_ofOffset] at enough deep
    exact readAtWithin_eq_done enough deep

/-- Reading advances at every offset of a text, and so it comes to an end: no loop of an
application has more turns than there are characters ahead, the loop over the expressions of the
text has at most one more than the text has characters, and forms are nested no deeper. -/
theorem advances_and_readAllWithin_eq (text : String) :
    (∀ offset, Advances text offset)
      ∧ ∀ limit depth, text.length < limit → text.length ≤ depth →
        readAllWithin limit depth text = .done (readAll text) :=
  ⟨advances text, fun _ _ => readAllWithin_eq_done⟩

/-- A definition inside an application, with no turn or level to spare: where it ends, where its
value is called for, and what it comes to with a rule for the value that is cut off wherever it
does not stand behind the start of the definition. -/
theorem advances_and_readAllWithin_eq_define :
    (readAt .define (.ofOffset "(g define(x(1)))" 3)
          = .ok (.application (.key "x") [.int 1], .ofOffset "(g define(x(1)))" 15)
        ∧ (Cursor.ofOffset "(g define(x(1)))" 15).IsBehind "(g define(x(1)))" 3)
      ∧ (Calls .define (.ofOffset "(g define(x(1)))" 3) .expr (.ofOffset "(g define(x(1)))" 12)
        ∧ (Cursor.ofOffset "(g define(x(1)))" 12).IsBehind "(g define(x(1)))" 3)
      ∧ tryRule (fun place => if 3 < place.offset then .done (readAt .expr place) else .cut) 13
          .define (.ofOffset "(g define(x(1)))" 3)
        = .done (.ok (.application (.key "x") [.int 1], .ofOffset "(g define(x(1)))" 15))
      ∧ readAtWithin 13 13 .define (.ofOffset "(g define(x(1)))" 3)
        = .done (.ok (.application (.key "x") [.int 1], .ofOffset "(g define(x(1)))" 15))
      ∧ readAllWithin 17 16 "(g define(x(1)))"
        = .done (.ok [.application (.key "g") [.application (.key "x") [.int 1]]]) := by
  obtain ⟨everywhere, whole⟩ := advances_and_readAllWithin_eq "(g define(x(1)))"
  have here := everywhere 3
  have read : readAt .define (.ofOffset "(g define(x(1)))" 3)
      = .ok (.application (.key "x") [.int 1], .ofOffset "(g define(x(1)))" 15) := by
    decide +kernel
  have readWhole : readAll "(g define(x(1)))"
      = .ok [.application (.key "g") [.application (.key "x") [.int 1]]] := by
    decide +kernel
  have calls : Calls .define (.ofOffset "(g define(x(1)))" 3) .expr
      (.ofOffset "(g define(x(1)))" 12) := by
    refine .value ⟨.ofOffset "(g define(x(1)))" 9, .ofOffset "(g define(x(1)))" 10, "x",
      .ofOffset "(g define(x(1)))" 11, .ofOffset "(g define(x(1)))" 12, ⟨?_, rfl⟩, ⟨?_, rfl⟩,
      ⟨⟨"x", .ofOffset "(g define(x(1)))" 11, ?_⟩, rfl, rfl, rfl⟩, ⟨?_, rfl⟩, ?_⟩
    all_goals decide +kernel
  refine ⟨⟨read, here.ends _ _ _ read⟩, ⟨calls, here.calls _ _ calls⟩, ?_, ?_, ?_⟩
  · rw [← read]
    exact here.depends _ _ _ (by decide) fun place behind => if_pos behind.further
  · rw [← read]
    exact here.finishes _ _ _ (by decide) (by decide)
  · rw [← readWhole]
    exact whole _ _ (by decide) (by decide)

end PocketLisp.Reading
