import Mathlib.Control.Monad.Basic
import PocketLisp.Proofs.Reading.Choice
import PocketLisp.Proofs.Reading.Exclusion
import PocketLisp.Proofs.Reading.Translation

/-!
# Trying the alternatives in another order

The reader with its alternatives in an order that is given: those of an expression in any, and
those of an atom in any that has keys before truth values. Which of them is tried first does not
change what is read, nor whether anything is. It changes no more than which failure is reported.

Of any two alternatives one declines, except of a key and a truth value. So the first that does
not decline is the same in every order, and the rest is an induction over the rules that nest.
-/

namespace PocketLisp.Reading

open Attempt

variable {cursor start : Cursor}

section Orders

/-- An order in which the alternatives are tried, with keys before truth values. -/
structure Order where
  forms : List Form
  tokens : List Token
  everyForm : forms.Perm Form.all
  everyToken : tokens.Perm Token.all
  keyFirst : tokens.idxOf .key < tokens.idxOf .boolean

namespace Order

/-- The order of the reader. -/
def standard : Order where
  forms := Form.all
  tokens := Token.all
  everyForm := .refl _
  everyToken := .refl _
  keyFirst := by decide

/-- Every form is tried. -/
theorem mem_forms (order : Order) (form : Form) : form ∈ order.forms :=
  order.everyForm.mem_iff.2 (by cases form <;> decide)

/-- Every kind of token is tried. -/
theorem mem_tokens (order : Order) (token : Token) : token ∈ order.tokens :=
  order.everyToken.mem_iff.2 (by cases token <;> decide)

/-- Some form is tried. -/
theorem forms_ne_nil (order : Order) : order.forms ≠ [] :=
  List.ne_nil_of_mem (order.mem_forms .constant)

/-- Some kind of token is tried. -/
theorem tokens_ne_nil (order : Order) : order.tokens ≠ [] :=
  List.ne_nil_of_mem (order.mem_tokens .integer)

end Order

/-- An atom, with the kinds of token tried in an order. -/
def atomIn (order : Order) (cursor : Cursor) : Attempt Atom cursor :=
  within .atom cursor.offset <|
    match choose (Token.attempt cursor) order.tokens order.tokens_ne_nil with
    | .error (.failure failure) =>
        if failure.committed then .error (.failure failure)
        else fail (unrecognized cursor) cursor.offset false
    | answer => answer

/-- A constant, with the alternatives tried in an order. -/
def constantIn (order : Order) (cursor : Cursor) : Attempt Datum cursor :=
  within .constant cursor.offset ((atomIn order cursor).map fun value => .constant (.atom value))

/-- Behind the last step of a definition in the long style there is less ahead. -/
theorem length_lt_of_define_steps {word : Step Unit cursor} {outer : Step Unit word.next}
    {name : Step String outer.next.skipGaps} {inner : Step Unit name.next}
    {value : Step Datum inner.next.skipGaps} {closed : Step Unit value.next.skipGaps}
    (finished : Step Unit closed.next) : finished.next.ahead.length < cursor.ahead.length :=
  calc finished.next.ahead.length
    _ < closed.next.ahead.length := finished.shorter
    _ < value.next.skipGaps.ahead.length := closed.shorter
    _ ≤ value.next.ahead.length := value.next.length_skipGaps_le
    _ < inner.next.skipGaps.ahead.length := value.shorter
    _ ≤ inner.next.ahead.length := inner.next.length_skipGaps_le
    _ < name.next.ahead.length := inner.shorter
    _ < outer.next.skipGaps.ahead.length := name.shorter
    _ ≤ outer.next.ahead.length := outer.next.length_skipGaps_le
    _ < word.next.ahead.length := outer.shorter
    _ < cursor.ahead.length := word.shorter

mutual

/-- An expression, with the alternatives tried in an order. -/
def exprIn (order : Order) (cursor : Cursor) : Attempt Datum cursor :=
  within .expr cursor.offset <|
    choose
      (fun form => match form with
        | .constant => constantIn order cursor
        | .application => applicationIn order cursor
        | .define => defineIn order cursor)
      order.forms order.forms_ne_nil
termination_by 3 * cursor.ahead.length + 1

/-- An application, with the alternatives tried in an order. -/
def applicationIn (order : Order) (cursor : Cursor) : Attempt Datum cursor :=
  within .application cursor.offset do
    let opened ← literal "(" (by decide) cursor
    let read ← itemsIn order opened.next
    close cursor read opened.shorter
termination_by 3 * cursor.ahead.length
decreasing_by
  have := opened.shorter
  omega

/-- The expressions ahead, with the alternatives tried in an order. -/
def itemsIn (order : Order) (cursor : Cursor) : Except Refusal (Items cursor) :=
  match exprIn order cursor.skipGaps with
  | .error (.overlong digits) => .error (.overlong digits)
  | .error (.failure failure) =>
      if failure.committed then .error (.failure failure)
      else .ok ⟨[], cursor, failure, Nat.le_refl _⟩
  | .ok first => do
      let rest ← itemsIn order first.next
      return ⟨first.value :: rest.values, rest.next, rest.ending, by
        have := first.shorter
        have := cursor.length_skipGaps_le
        have := rest.noLonger
        omega⟩
termination_by 3 * cursor.ahead.length + 2
decreasing_by
  · have := cursor.length_skipGaps_le
    omega
  · have := first.shorter
    have := cursor.length_skipGaps_le
    omega

/-- A definition in the long style, with the alternatives tried in an order. -/
def defineIn (order : Order) (cursor : Cursor) : Attempt Datum cursor :=
  within .define cursor.offset do
    let word ← literal "define" (by decide) cursor
    let outer ← literal "(" (by decide) word.next
    let name ← key outer.next.skipGaps
    let inner ← literal "(" (by decide) name.next
    let value ← exprIn order inner.next.skipGaps
    let closed ← literal ")" (by decide) value.next.skipGaps
    let finished ← literal ")" (by decide) closed.next
    return ⟨.application (.key name.value) [value.value], finished.next,
      length_lt_of_define_steps finished⟩
termination_by 3 * cursor.ahead.length
decreasing_by
  have := word.shorter
  have := outer.shorter
  have := outer.next.length_skipGaps_le
  have := name.shorter
  have := inner.shorter
  have := inner.next.length_skipGaps_le
  omega

end

/-- The attempt of a form, with the alternatives tried in an order. -/
def Form.attemptIn (order : Order) (cursor : Cursor) : Form → Attempt Datum cursor
  | .constant => Reading.constantIn order cursor
  | .application => Reading.applicationIn order cursor
  | .define => Reading.defineIn order cursor

/-- An expression is a choice among the forms. -/
theorem exprIn_eq_choose (order : Order) (cursor : Cursor) :
    exprIn order cursor = within .expr cursor.offset
      (choose (Form.attemptIn order cursor) order.forms order.forms_ne_nil) := by
  rw [exprIn]
  rfl

/-- The attempt of one rule, with the alternatives tried in an order. -/
def attemptIn (order : Order) (rule : Rule) (cursor : Cursor) : Attempt Datum cursor :=
  match rule with
  | .atom => (atomIn order cursor).map .atom
  | .constant => constantIn order cursor
  | .application => applicationIn order cursor
  | .define => defineIn order cursor
  | .expr => exprIn order cursor
  | token => Reading.attempt token cursor

/-- What one rule reads, with the alternatives tried in an order. -/
def readAtIn (order : Order) (rule : Rule) (cursor : Cursor) : Except Refusal (Datum × Cursor) := do
  let step ← attemptIn order rule cursor
  return (step.value, step.next)

end Orders

section Standard

/-- Atoms of the standard order are the reader's. -/
theorem atomIn_standard (cursor : Cursor) : atomIn .standard cursor = atom cursor := rfl

/-- Constants of the standard order are the reader's. -/
theorem constantIn_standard (cursor : Cursor) : constantIn .standard cursor = constant cursor := rfl

mutual

/-- Expressions of the standard order are the reader's. -/
theorem exprIn_standard (cursor : Cursor) : exprIn .standard cursor = expr cursor := by
  have same : Form.attemptIn .standard cursor = Form.attempt cursor := by
    funext form
    cases form with
    | constant => exact constantIn_standard cursor
    | application => exact applicationIn_standard cursor
    | define => exact defineIn_standard cursor
  rw [exprIn_eq_choose, expr, same]
  rfl
termination_by 3 * cursor.ahead.length + 1

/-- Applications of the standard order are the reader's. -/
theorem applicationIn_standard (cursor : Cursor) :
    applicationIn .standard cursor = application cursor := by
  rw [applicationIn, application]
  refine congrArg _ (bind_congr fun opened => ?_)
  have := opened.shorter
  rw [itemsIn_standard opened.next]
termination_by 3 * cursor.ahead.length

/-- Items of the standard order are the reader's. -/
theorem itemsIn_standard (cursor : Cursor) : itemsIn .standard cursor = items cursor := by
  have := cursor.length_skipGaps_le
  rw [itemsIn, items, exprIn_standard cursor.skipGaps]
  cases expr cursor.skipGaps with
  | error refusal => cases refusal <;> rfl
  | ok first =>
      have := first.shorter
      simp only [itemsIn_standard first.next]
termination_by 3 * cursor.ahead.length + 2

/-- Definitions of the standard order are the reader's. -/
theorem defineIn_standard (cursor : Cursor) : defineIn .standard cursor = define cursor := by
  rw [defineIn, define]
  refine congrArg _ (bind_congr fun word => bind_congr fun outer => bind_congr fun name =>
    bind_congr fun inner => ?_)
  have := word.shorter
  have := outer.shorter
  have := outer.next.length_skipGaps_le
  have := name.shorter
  have := inner.shorter
  have := inner.next.length_skipGaps_le
  rw [exprIn_standard inner.next.skipGaps]
termination_by 3 * cursor.ahead.length

end

/-- Every rule of the standard order is the reader's. -/
theorem readAtIn_standard (rule : Rule) (cursor : Cursor) :
    readAtIn .standard rule cursor = readAt rule cursor := by
  have same : attemptIn .standard rule cursor = attempt rule cursor := by
    cases rule with
    | atom => exact congrArg (Attempt.map Datum.atom) (atomIn_standard cursor)
    | constant => exact constantIn_standard cursor
    | application => exact applicationIn_standard cursor
    | define => exact defineIn_standard cursor
    | expr => exact exprIn_standard cursor
    | integer | key | boolean | instruction => rfl
  rw [readAtIn, readAt, same]

end Standard

section Agreement

namespace Order

/-- The form that does not decline decides in every order. -/
theorem decides_form (order : Order) {form : Form} (stands : ¬Declines (form.attempt cursor)) :
    Decides (Form.attempt cursor) order.forms form where
  tried := order.mem_forms form
  stands := stands
  before other earlier := by
    have apart : other ≠ form := by
      rintro rfl
      exact Nat.lt_irrefl _ earlier
    exact (forms_exclusive apart).resolve_right stands

/-- A token that does not decline decides in every order, except a truth value where a key is. -/
theorem decides_token (order : Order) {token : Token} (stands : ¬Declines (token.attempt cursor))
    (noKey : token = .boolean → Declines (Token.key.attempt cursor)) :
    Decides (Token.attempt cursor) order.tokens token where
  tried := order.mem_tokens token
  stands := stands
  before other earlier := by
    have apart : other ≠ token := by
      rintro rfl
      exact Nat.lt_irrefl _ earlier
    cases overlap : other.overlaps token with
    | false => exact (tokens_exclusive apart overlap).resolve_right stands
    | true =>
        -- A key in front of a truth value declines by assumption. No truth value is in front of a key.
        match other, token, overlap with
        | .key, .boolean, _ => exact noKey rfl
        | .boolean, .key, _ => exact absurd earlier (Nat.not_lt_of_gt order.keyFirst)

/-- A choice among the forms comes to the same in every order. -/
theorem agrees_choose_forms (order other : Order) (cursor : Cursor) :
    Agrees Eq (choose (Form.attempt cursor) order.forms order.forms_ne_nil)
      (choose (Form.attempt cursor) other.forms other.forms_ne_nil) := by
  refine agrees_choose_of_decides (or_iff_not_imp_left.2 fun none => ?_)
  obtain ⟨form, stands⟩ := not_forall.1 none
  exact ⟨form, order.decides_form stands, other.decides_form stands⟩

/-- A choice among the kinds of token comes to the same in every order. -/
theorem agrees_choose_tokens (order other : Order) (cursor : Cursor) :
    Agrees Eq (choose (Token.attempt cursor) order.tokens order.tokens_ne_nil)
      (choose (Token.attempt cursor) other.tokens other.tokens_ne_nil) := by
  refine agrees_choose_of_decides (or_iff_not_imp_left.2 fun none => ?_)
  by_cases noKey : Declines (Token.key.attempt cursor)
  · obtain ⟨token, stands⟩ := not_forall.1 none
    exact ⟨token, order.decides_token stands fun _ => noKey,
      other.decides_token stands fun _ => noKey⟩
  · exact ⟨.key, order.decides_token noKey nofun, other.decides_token noKey nofun⟩

end Order

/-- An atom comes to the same as the choice among the kinds of token. -/
theorem agrees_atomIn_choose (order : Order) (cursor : Cursor) :
    Agrees Eq (atomIn order cursor)
      (choose (Token.attempt cursor) order.tokens order.tokens_ne_nil) := by
  refine (Agrees.within_self _ _ _).trans ?_
  split
  · next failure failed =>
      rw [failed]
      split
      · exact .refl _
      · next uncommitted => exact .error (Bool.eq_false_iff.2 uncommitted).symm
  · exact .refl _

/-- An atom comes to the same in every order. -/
theorem agrees_atomIn (order : Order) (cursor : Cursor) :
    Agrees Eq (atomIn order cursor) (atom cursor) := by
  rw [← atomIn_standard]
  have choices := (agrees_atomIn_choose order cursor).trans
    (order.agrees_choose_tokens .standard cursor)
  exact choices.trans (agrees_atomIn_choose .standard cursor).symm

/-- A constant comes to the same in every order. -/
theorem agrees_constantIn (order : Order) (cursor : Cursor) :
    Agrees Eq (constantIn order cursor) (constant cursor) :=
  ((agrees_atomIn order cursor).map _).within

/-- The same items are read, whatever ends them. -/
def Items.Alike (items other : Items start) : Prop :=
  items.values = other.values ∧ items.next = other.next

/-- An application ends alike behind the same items. -/
theorem agrees_close {read readToo : Items start} (alike : read.Alike readToo)
    (opened : start.ahead.length < cursor.ahead.length) :
    Agrees Eq (close cursor read opened) (close cursor readToo opened) := by
  obtain ⟨values, next, ending, noLonger⟩ := read
  obtain ⟨_, _, endingToo, _⟩ := readToo
  obtain ⟨rfl, rfl⟩ := alike
  cases shape : next.skipGaps.ahead with
  | nil =>
      rw [close_of_nil shape, close_of_nil shape]
      exact .refl _
  | cons char rest =>
      rw [close_of_cons shape, close_of_cons shape]
      split
      · exact .refl _
      · exact .error rfl

-- The induction follows the reader at a fixed cursor: the order changes no cursor that it comes to,
-- only the failures that end the items of an application.
mutual

/-- An expression comes to the same in every order. -/
theorem agrees_exprIn (order : Order) (cursor : Cursor) :
    Agrees Eq (exprIn order cursor) (expr cursor) := by
  have each : ∀ form, Agrees Eq (Form.attemptIn order cursor form) (Form.attempt cursor form) := by
    intro form
    cases form with
    | constant => exact agrees_constantIn order cursor
    | application => exact agrees_applicationIn order cursor
    | define => exact agrees_defineIn order cursor
  rw [exprIn_eq_choose, expr]
  exact .within ((agrees_choose each).trans (order.agrees_choose_forms .standard cursor))
termination_by 3 * cursor.ahead.length + 1

/-- An application comes to the same in every order. -/
theorem agrees_applicationIn (order : Order) (cursor : Cursor) :
    Agrees Eq (applicationIn order cursor) (application cursor) := by
  rw [applicationIn, application]
  refine .within (.bind_eq (.refl _) fun opened => ?_)
  have := opened.shorter
  exact .bind (agrees_itemsIn order opened.next) fun _ _ alike => agrees_close alike _
termination_by 3 * cursor.ahead.length

/-- The same items are read in every order. -/
theorem agrees_itemsIn (order : Order) (cursor : Cursor) :
    Agrees Items.Alike (itemsIn order cursor) (items cursor) := by
  have := cursor.length_skipGaps_le
  have first := agrees_exprIn order cursor.skipGaps
  rw [itemsIn, items]
  generalize exprIn order cursor.skipGaps = here, expr cursor.skipGaps = there at first ⊢
  cases first with
  | @ok first _ same =>
      subst same
      have := first.shorter
      refine .bind (agrees_itemsIn order first.next) fun rest restToo alike => ?_
      exact .ok ⟨congrArg (first.value :: ·) alike.1, alike.2⟩
  | @error refusal other same =>
      -- An overlong literal may stand against a failure, but only against a committed one.
      rcases refusal with failure | digits <;> rcases other with failureToo | digitsToo
      · simp only [Refusal.isFinal_failure] at same
        simp only [same]
        split
        · exact .error same
        · exact .ok ⟨rfl, rfl⟩
      · have committed : failure.committed = true := same
        simp only [committed]
        exact .error committed
      · have committed : failureToo.committed = true := same.symm
        simp only [committed]
        exact .error committed.symm
      · exact .error rfl
termination_by 3 * cursor.ahead.length + 2

/-- A definition in the long style comes to the same in every order. -/
theorem agrees_defineIn (order : Order) (cursor : Cursor) :
    Agrees Eq (defineIn order cursor) (define cursor) := by
  rw [defineIn, define]
  refine .within (.bind_eq (.refl _) fun word => .bind_eq (.refl _) fun outer =>
    .bind_eq (.refl _) fun name => .bind_eq (.refl _) fun inner => ?_)
  have := word.shorter
  have := outer.shorter
  have := outer.next.length_skipGaps_le
  have := name.shorter
  have := inner.shorter
  have := inner.next.length_skipGaps_le
  exact .bind_eq (agrees_exprIn order inner.next.skipGaps) fun value => .refl _
termination_by 3 * cursor.ahead.length

end

/-- Every rule comes to the same in every order. -/
theorem agrees_attemptIn (order : Order) (rule : Rule) (cursor : Cursor) :
    Agrees Eq (attemptIn order rule cursor) (attempt rule cursor) := by
  cases rule with
  | atom => exact (agrees_atomIn order cursor).map _
  | constant => exact agrees_constantIn order cursor
  | application => exact agrees_applicationIn order cursor
  | define => exact agrees_defineIn order cursor
  | expr => exact agrees_exprIn order cursor
  | integer | key | boolean | instruction => exact .refl _

/-- Every rule reads the same in every order. -/
theorem readAtIn_eq_ok_iff (order : Order) (rule : Rule) (cursor : Cursor) {read : Datum × Cursor} :
    readAtIn order rule cursor = .ok read ↔ readAt rule cursor = .ok read :=
  ((agrees_attemptIn order rule cursor).bind_eq fun _ => .refl _).eq_ok_iff

/-- The alternatives of the grammar are unambiguous, wherever they are tried. At most one form is
read, and at most one token besides a truth value. A truth value is read together with another
token exactly where that is a key, a word of two characters or more that starts with its letter.
Hence trying the alternatives in another order, with keys before truth values, changes neither
whether a rule reads something nor what it reads nor where it comes to. -/
theorem alternatives_unambiguous (text : String) (offset : Nat) :
    [Rule.constant, .application, .define].countP (·.reads (.ofOffset text offset)) ≤ 1
      ∧ [Rule.integer, .key, .instruction].countP (·.reads (.ofOffset text offset)) ≤ 1
      ∧ (∀ rule ∈ [Rule.integer, .key, .instruction],
        Rule.boolean.reads (.ofOffset text offset) = true
            ∧ rule.reads (.ofOffset text offset) = true ↔
          rule = .key
            ∧ ((Cursor.ofOffset text offset).identifier.head? = some 't'
              ∨ (Cursor.ofOffset text offset).identifier.head? = some 'f')
            ∧ 2 ≤ (Cursor.ofOffset text offset).identifier.length)
      ∧ (∀ rule, readAtIn .standard rule (.ofOffset text offset)
          = readAt rule (.ofOffset text offset))
      ∧ ∀ order rule tree next,
        readAtIn order rule (.ofOffset text offset) = .ok (tree, next) ↔
          readAt rule (.ofOffset text offset) = .ok (tree, next) := by
  refine ⟨countP_forms_le_one _, countP_tokens_le_one _, fun rule member => ?_,
    fun rule => readAtIn_standard rule _,
    fun order rule tree next => readAtIn_eq_ok_iff order rule _⟩
  rw [reads_boolean_and_iff member, Bool.exists_bool]
  exact and_congr_right fun _ => and_congr_left fun _ => or_comm

/-- A key that starts with the letter of a truth value, and a definition inside an application that
is read with constants and integers tried last. -/
theorem alternatives_unambiguous_cases :
    (Rule.boolean.reads (.ofOffset "(tx)" 1) = true ∧ Rule.key.reads (.ofOffset "(tx)" 1) = true)
      ∧ readAtIn ⟨[.define, .application, .constant], [.instruction, .key, .boolean, .integer],
            by decide, by decide, by decide⟩ .expr (.ofOffset "(t define(x(1)))" 0)
          = .ok (.application (.bool true) [.application (.key "x") [.int 1]], ⟨16, []⟩) := by
  constructor
  · refine ((alternatives_unambiguous "(tx)" 1).2.2.1 .key (by decide)).2 ⟨rfl, .inl ?_, ?_⟩
    · decide +kernel
    · decide +kernel
  · refine ((alternatives_unambiguous "(t define(x(1)))" 0).2.2.2.2 _ .expr _ _).2 ?_
    decide +kernel

end Agreement

end PocketLisp.Reading
