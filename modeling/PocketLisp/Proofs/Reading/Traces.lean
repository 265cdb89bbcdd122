import Mathlib.Data.List.Chain
import PocketLisp.Proofs.Reading.Completion

/-!
# What a report says about the way to a failure

The contexts of a report are the rules that were at work where the failure was made, with
the offsets at which they started, innermost first. Each is called by the next, so they are
a path through the grammar up to the expression of the text that is being read. The kind of
the failure decides where the path begins, and whether the failure is committed can be read
off the path.

All of this is shown of the failures that `Fails` describes, one constructor at a time. A
rule that hands a failure on adds one step to the path and changes nothing else, but for an
application, which also commits the failure.
-/

namespace PocketLisp.Reading

open Attempt

variable {rule : Rule} {cursor place opened last value : Cursor} {failure : Failure}
  {offset stop position : Nat} {kind : Kind} {trail : List (Rule × Nat)} {text : String}

/-- The rules that hand on the failures of a rule. What a truth value and an instruction fail
with is never handed on, because an atom that is none of its alternatives reports itself. -/
def Rule.callers : Rule → List Rule
  | .integer => [.atom]
  | .atom => [.constant]
  | .constant | .application | .define => [.expr]
  | .key => [.define]
  | .expr => [.application, .define]
  | .boolean | .instruction => []

/-- A rule at an offset hands on the failure of another, which started no earlier. -/
def HandsOn (inner outer : Rule × Nat) : Prop :=
  outer.1 ∈ inner.1.callers ∧ outer.2 ≤ inner.2

/-- How the path of a failure begins, for a kind of failure at a position of a text that ends
at `stop`. -/
inductive Kind.Begins (position stop : Nat) : Kind → List (Rule × Nat) → Prop
  | malformedInteger (rest : List (Rule × Nat)) :
      Begins position stop .malformedInteger ((.integer, position) :: rest)
  | unrecognizedAtom (rest : List (Rule × Nat)) :
      Begins position stop .unrecognizedAtom ((.atom, position) :: rest)
  | emptyApplication (rest : List (Rule × Nat)) :
      Begins position stop .emptyApplication ((.application, position) :: rest)
  | unterminatedApplication (offset : Nat) (rest : List (Rule × Nat)) (ended : position = stop) :
      Begins position stop .unterminatedApplication ((.application, offset) :: rest)
  | expectedToken (offset : Nat) (rest : List (Rule × Nat)) :
      Begins position stop .expectedToken ((.define, offset) :: rest)
  | expectedName (offset : Nat) (rest : List (Rule × Nat)) :
      Begins position stop .expectedToken ((.key, position) :: (.define, offset) :: rest)

/-- The contexts of a report are a path through the grammar, from where the failure was made
to the expression that starts at an offset of the text. -/
structure ParseError.Traces (error : ParseError) (path : List (Rule × Nat)) (start : Nat) :
    Prop where
  contexts : error.contexts = path.map fun context => (context.1.name, (context.2 : Int))
  calls : path.IsChain HandsOn
  outermost : path.getLast? = some (.expr, start)
  started : ∀ context ∈ path, (context.2 : Int) ≤ error.position
  inside : error.position ≤ error.text.length
  innermost : error.kind.Begins error.position.toNat error.text.length path
  committed : error.committed = true ↔
    error.kind = .malformedInteger ∨ ∃ offset, (Rule.application, offset) ∈ path

section Places

/-- A stretch of text ends no earlier than it starts. -/
theorem Cursor.Takes.offset_le {taken : List Char} (takes : cursor.Takes taken place) :
    cursor.offset ≤ place.offset := by
  rw [takes.2]
  exact Nat.le_add_right _ _

/-- A stretch of text does not move the end of the text. -/
theorem Cursor.Takes.stop_eq {taken : List Char} (takes : cursor.Takes taken place) :
    place.stop = cursor.stop := by
  have := takes.length_eq
  simp only [Cursor.stop, takes.2]
  omega

/-- Up to where an application looks for an item. -/
theorem Passes.exists_takes_item (bracket : cursor.Takes ['('] opened)
    (passes : Passes opened last) :
    ∃ taken, cursor.Takes taken last.skipGaps := by
  obtain ⟨taken, items⟩ := passes.exists_takes
  obtain ⟨gap, -, skipped⟩ := exists_takes_skipGaps last
  exact ⟨_, bracket.trans (items.trans skipped)⟩

/-- Up to where a definition in the long style looks for its value. -/
theorem ComesToValue.exists_takes (comes : ComesToValue cursor value) :
    ∃ taken, cursor.Takes taken value := by
  obtain ⟨word, outer, name, named, inner, define, opened, key, bracket, rfl⟩ := comes
  obtain ⟨lead, -, -, takes⟩ := exists_takes_bracket define opened key
  obtain ⟨gap, -, skipped⟩ := exists_takes_skipGaps inner
  exact ⟨_, takes.trans (bracket.trans skipped)⟩

/-- What can be completed lies between a cursor and the end of its text. -/
theorem Viable.bounds (viable : Viable cursor offset) :
    cursor.offset ≤ offset ∧ offset ≤ cursor.stop := by
  obtain ⟨taken, place, more, tree, takes, rfl, -⟩ := viable
  refine ⟨takes.offset_le, ?_⟩
  rw [← takes.stop_eq]
  exact Nat.le_add_right _ _

end Places

section Paths

/-- The rules that a failure came through are a path up to a rule at an offset. -/
def Failure.LeadsTo (failure : Failure) (rule : Rule) (offset : Nat) : Prop :=
  failure.trail.IsChain HandsOn ∧ failure.trail.getLast? = some (rule, offset)

/-- A failure that is handed on has a path that is one step longer. -/
theorem Failure.LeadsTo.through {inner : Rule} {start : Nat} (leads : failure.LeadsTo inner start)
    (calls : rule ∈ inner.callers) (order : offset ≤ start) :
    (failure.through rule offset).LeadsTo rule offset := by
  obtain ⟨path, outermost⟩ := leads
  refine ⟨path.append (.singleton _) ?_, List.getLast?_concat⟩
  intro behind last context head
  obtain rfl := Option.some.inj (outermost.symm.trans last)
  obtain rfl := Option.some.inj head
  exact ⟨calls, order⟩

/-- A failure that is committed on its way keeps its path. -/
theorem Failure.LeadsTo.commit (leads : failure.LeadsTo rule offset) :
    failure.commit.LeadsTo rule offset :=
  leads

/-- The rules that a failure came through are a path up to the rule that fails. -/
theorem Fails.leadsTo (fails : Fails rule cursor failure) : failure.LeadsTo rule cursor.offset := by
  induction fails with
  | tooLarge | noIdentifier | reservedWord | unrecognized | empty | unterminated | literal =>
      exact ⟨.singleton _, rfl⟩
  | integer _ inductionHypothesis | atom _ inductionHypothesis | constant _ inductionHypothesis
  | application _ inductionHypothesis | define _ inductionHypothesis =>
      exact inductionHypothesis.through List.mem_cons_self (Nat.le_refl _)
  | item bracket passes _ inductionHypothesis =>
      obtain ⟨taken, takes⟩ := passes.exists_takes_item bracket
      exact inductionHypothesis.commit.through List.mem_cons_self takes.offset_le
  | name define opened _ inductionHypothesis =>
      obtain ⟨lead, -, takes⟩ := exists_takes_name define opened
      exact inductionHypothesis.through List.mem_cons_self takes.offset_le
  | value comes _ inductionHypothesis =>
      obtain ⟨taken, takes⟩ := comes.exists_takes
      exact inductionHypothesis.through (List.mem_cons_of_mem _ List.mem_cons_self) takes.offset_le

end Paths

section Reports

/-- What is handed on begins where it began. -/
theorem Kind.Begins.append (begins : kind.Begins position stop trail) (more : List (Rule × Nat)) :
    kind.Begins position stop (trail ++ more) := by
  cases begins with
  | malformedInteger | unrecognizedAtom | emptyApplication | expectedToken | expectedName =>
      constructor
  | unterminatedApplication offset rest ended => exact .unterminatedApplication offset _ ended

/-- What stands where no atom does is not recognized. -/
@[simp] theorem kind_unrecognized (cursor : Cursor) :
    (unrecognized cursor).kind = .unrecognizedAtom := by
  unfold unrecognized
  split <;> rfl

/-- The kind of a failure decides where its path begins. The failure of a name is the one that
begins in the same way only once the definition around it has handed it on. -/
theorem Fails.begins (fails : Fails rule cursor failure) (handed : rule ≠ .key) :
    failure.cause.kind.Begins failure.position cursor.stop failure.trail := by
  induction fails with
  | tooLarge => exact .malformedInteger []
  | noIdentifier | reservedWord => contradiction
  | unrecognized cursor =>
      rw [kind_unrecognized]
      exact .unrecognizedAtom []
  | empty => exact .emptyApplication []
  | @unterminated cursor opened last bracket passes finished =>
      obtain ⟨taken, takes⟩ := passes.exists_takes_item bracket
      refine .unterminatedApplication _ [] ?_
      rw [← takes.stop_eq, Cursor.stop, finished, List.length_nil, Nat.add_zero]
  | literal => exact .expectedToken _ []
  | name define opened inside => cases inside <;> exact .expectedName _ []
  | integer _ inductionHypothesis | atom _ inductionHypothesis | constant _ inductionHypothesis
  | application _ inductionHypothesis | define _ inductionHypothesis =>
      exact (inductionHypothesis (by decide)).append _
  | item bracket passes _ inductionHypothesis =>
      obtain ⟨taken, takes⟩ := passes.exists_takes_item bracket
      rw [← takes.stop_eq]
      exact (inductionHypothesis (by decide)).append _
  | value comes _ inductionHypothesis =>
      obtain ⟨taken, takes⟩ := comes.exists_takes
      rw [← takes.stop_eq]
      exact (inductionHypothesis (by decide)).append _

/-- No rule on the way to a failure started behind its position. -/
theorem Fails.started (fails : Fails rule cursor failure) :
    ∀ context ∈ failure.trail, context.2 ≤ failure.position := by
  have bound := fails.viable.bounds.1
  induction fails with
  | tooLarge | noIdentifier | reservedWord | unrecognized | empty | unterminated | literal =>
      exact List.forall_mem_singleton.2 bound
  | integer inside inductionHypothesis | atom inside inductionHypothesis
  | constant inside inductionHypothesis | application inside inductionHypothesis
  | define inside inductionHypothesis | item _ _ inside inductionHypothesis
  | name _ _ inside inductionHypothesis | value _ inside inductionHypothesis =>
      exact List.forall_mem_append.2
        ⟨inductionHypothesis inside.viable.bounds.1, List.forall_mem_singleton.2 bound⟩

/-- A failure is committed by an integer that is too large, or by an application. -/
def Failure.CommittedByForm (failure : Failure) : Prop :=
  failure.committed = true ↔
    failure.cause.kind = .malformedInteger ∨ ∃ offset, (Rule.application, offset) ∈ failure.trail

/-- Other rules than an application do not commit a failure that they hand on. -/
theorem Failure.CommittedByForm.through (byForm : failure.CommittedByForm)
    (other : rule ≠ .application) : (failure.through rule offset).CommittedByForm := by
  refine byForm.trans (or_congr_right (exists_congr fun start => ?_))
  simp [Failure.through, other.symm]

/-- A failure that an application commits is committed by it. -/
theorem committedByForm_of_application (committed : failure.committed = true)
    (noted : (Rule.application, offset) ∈ failure.trail) : failure.CommittedByForm :=
  iff_of_true committed (.inr ⟨offset, noted⟩)

/-- Only an integer that is too large and an application commit a failure. -/
theorem Fails.committedByForm (fails : Fails rule cursor failure) : failure.CommittedByForm := by
  induction fails with
  | tooLarge => exact iff_of_true rfl (.inl rfl)
  | noIdentifier | reservedWord | literal => simp [Failure.CommittedByForm, Cause.kind]
  | unrecognized => simp [Failure.CommittedByForm]
  | empty | unterminated => exact committedByForm_of_application rfl List.mem_cons_self
  | item => exact committedByForm_of_application rfl List.mem_concat_self
  | integer _ inductionHypothesis | atom _ inductionHypothesis | constant _ inductionHypothesis
  | application _ inductionHypothesis | define _ inductionHypothesis
  | name _ _ _ inductionHypothesis | value _ _ inductionHypothesis =>
      exact inductionHypothesis.through nofun

/-- An expression of a text that fails is reported with a path that leads to it. -/
theorem Fails.traces (fails : Fails .expr cursor failure) (ends : cursor.stop = text.length) :
    (failure.report text).Traces failure.trail cursor.offset where
  contexts := rfl
  calls := fails.leadsTo.1
  outermost := fails.leadsTo.2
  started := fun context member => Int.ofNat_le.2 (fails.started context member)
  inside := Int.ofNat_le.2 (ends ▸ fails.viable.bounds.2)
  innermost := ends ▸ fails.begins nofun
  committed := fails.committedByForm

/-- Wherever reading a text comes to run a rule, the end ahead is the end of the text. -/
theorem Entry.Starts.stop_eq {entry : Entry} {rule : Rule}
    (starts : entry.Starts text rule cursor) :
    cursor.stop = text.length := by
  have whole : (Cursor.ofText text).stop = text.length := by
    rw [Cursor.stop, Cursor.ofText, Nat.zero_add, String.length_toList]
  cases starts with
  | rule | leading | whole => exact whole
  | all passes =>
      obtain ⟨taken, takes⟩ := passes.exists_takes
      rw [Cursor.stop_skipGaps, takes.stop_eq, whole]

/-- A text that is not read fails at one of its expressions, or has something left behind
it. -/
theorem Entry.Refuses.exists_fails {entry : Entry} (refuses : entry.Refuses text (.failure failure))
    (forms : ∀ rule, entry ≠ .rule rule) (kind : failure.cause.kind ≠ .trailingInput) :
    ∃ start, entry.Starts text .expr start ∧ expr start = .error (.failure failure) := by
  rcases refuses.cases with ⟨rule, start, starts, failed⟩ | ⟨-, tree, next, -, -, rfl⟩
  · cases starts with
    | rule => exact absurd rfl (forms rule)
    | leading => exact ⟨_, .leading, failed⟩
    | whole complete => exact ⟨_, .whole complete, failed⟩
    | all passes written => exact ⟨_, .all passes written, failed⟩
  · exact absurd rfl kind

end Reports

end PocketLisp.Reading
