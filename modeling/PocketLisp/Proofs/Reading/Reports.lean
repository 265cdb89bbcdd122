import PocketLisp.Proofs.Reading.Completion
import PocketLisp.Proofs.Reading.Places
import PocketLisp.Proofs.Text.Legible

/-!
# Reports are legible

What is told about a text that is not read is legible, whatever the text is. What a report
repeats from the text is quoted, except for runs of digits, and these are legible as they are.
A text without overlong runs of digits is either read or reported.
-/

namespace PocketLisp.Reading

open Attempt Text

variable {text : String} {cursor : Cursor} {failure : Failure} {rule : Rule}

/-- The run of digits ahead is made of digits. -/
theorem Cursor.isDigit_of_mem_digits {char : Char} (member : char ∈ cursor.digits) :
    char.isDigit = true :=
  List.all_eq_true.1 List.all_takeWhile char member

/-- The name of a rule is legible. -/
theorem legible_name (rule : Rule) : Legible rule.name := by
  cases rule <;> exact legible_ofList rfl

/-- The words for a kind of failure are legible. -/
theorem legible_phrase (kind : Kind) : Legible kind.phrase := by
  cases kind <;> exact legible_ofList rfl

section Repeating

/-- What a cause repeats of the text stands ahead. -/
def Cause.Repeats (ahead : List Char) : Cause → Prop
  | .integerTooLarge digits => digits = String.ofList (ahead.takeWhile Char.isDigit)
  | .unexpectedChar char => ahead.head? = some char
  | .leftover left => left = String.ofList (ahead.take 10)
  | _ => True

/-- What a failure repeats of a text stands at its position. -/
def Failure.Repeats (text : String) (failure : Failure) : Prop :=
  failure.cause.Repeats (text.toList.drop failure.position)

/-- What is said of a character that starts no atom repeats the character. -/
theorem repeats_unrecognized (cursor : Cursor) : (unrecognized cursor).Repeats cursor.ahead := by
  unfold unrecognized
  split
  · trivial
  · next shape => simp [Cause.Repeats, shape]

/-- Where nothing of a rule stands, nothing is repeated. -/
theorem Lacks.repeats (lacks : Lacks rule cursor failure) : failure.Repeats text := by
  cases lacks <;> trivial

/-- What fails in a text repeats what stands at its position. -/
theorem Fails.repeats (fails : Fails rule cursor failure) (isIn : cursor.IsIn text) :
    failure.Repeats text := by
  induction fails with
  | tooLarge cursor => exact congrArg (fun ahead => String.ofList (ahead.takeWhile Char.isDigit)) isIn
  | unrecognized cursor =>
      have here := repeats_unrecognized cursor
      rw [show cursor.ahead = _ from isIn] at here
      exact here
  | noIdentifier | reservedWord | empty | unterminated | literal => trivial
  | integer _ inductionHypothesis | atom _ inductionHypothesis | constant _ inductionHypothesis
  | application _ inductionHypothesis | define _ inductionHypothesis =>
      exact inductionHypothesis isIn
  | item bracket passes _ inductionHypothesis =>
      exact inductionHypothesis ((Calls.item bracket passes).isIn isIn)
  | name define opened _ inductionHypothesis =>
      exact inductionHypothesis (opened.isIn (define.isIn isIn)).skipGaps
  | value comes _ inductionHypothesis =>
      exact inductionHypothesis ((Calls.value comes).isIn isIn)

/-- What is reported about a text that is not read repeats what stands at the position. -/
theorem Entry.Refuses.repeats {entry : Entry} (refuses : entry.Refuses text (.failure failure)) :
    failure.Repeats text := by
  rcases refuses.cases with ⟨rule, start, starts, failed⟩ | ⟨-, tree, next, yields, -, rfl⟩
  · rcases lacks_or_fails failed with lacks | fails
    · exact lacks.repeats
    · exact fails.repeats starts.isIn
  · have front : Entry.Starts text .leading .expr (.ofText text) := .leading
    have isIn := isIn_of_yields_expr yields front.isIn
    exact congrArg (fun ahead => String.ofList (ahead.take 10)) isIn

end Repeating

section Legibility

/-- A cause that repeats nothing but what stands ahead is told legibly. -/
theorem Cause.Repeats.legible {cause : Cause} {ahead : List Char} (repeats : cause.Repeats ahead) :
    Legible cause.detail := by
  cases cause with
  | integerTooLarge digits =>
      have tail : Legible " does not fit in a signed 32-bit integer" := legible_ofList rfl
      have run : Legible digits := by
        rw [show digits = _ from repeats]
        exact legible_ofList (List.all_eq_true.2 fun char member =>
          isPrintable_of_isDigit (List.all_eq_true.1 List.all_takeWhile char member))
      exact legible_append_iff.2 ⟨run, tail⟩
  | unexpectedChar char =>
      have lead : Legible "unexpected " := legible_ofList rfl
      exact legible_append_iff.2 ⟨lead, legible_quoted _⟩
  | reservedWord word =>
      have tail : Legible " is a reserved word" := legible_ofList rfl
      exact legible_append_iff.2 ⟨legible_quoted word, tail⟩
  | noLiteral literal =>
      have lead : Legible "expected " := legible_ofList rfl
      exact legible_append_iff.2 ⟨lead, legible_quoted literal⟩
  | leftover left =>
      refine (legible_quoted left).between ?_ ?_ <;> exact legible_ofList rfl
  | noOperator | noClosingBracket | unexpectedEnd | noDigit | noIdentifier | noBoolean
  | noInstruction => exact legible_ofList rfl

namespace ParseError

/-- A report that sends nothing but itself to a terminal or a log: its message is one line of
printable characters, and its trace is one line for the failure and one for each context, of
printable characters too. -/
structure IsLegible (error : ParseError) : Prop where
  message : Legible error.message
  oneLine : lines error.message.toList = [error.message.toList]
  count : (lines error.trace.toList).length = 1 + error.contexts.length
  trace : ∀ line ∈ lines error.trace.toList, Legible (String.ofList line)

variable {error : ParseError}

/-- What stands at the position of a report is shown legibly. -/
theorem legible_snippet (error : ParseError) : Legible error.snippet := by
  have lead : Legible "found " := legible_ofList rfl
  unfold snippet
  split
  · exact legible_ofList rfl
  · exact legible_append_iff.2 ⟨lead, legible_quoted _⟩

/-- The message of a report is legible when its detail and the names of its rules are. -/
theorem legible_message (detail : Legible error.detail)
    (names : ∀ context ∈ error.contexts, Legible context.1) : Legible error.message := by
  have line : Legible " at line " := legible_ofList rfl
  have column : Legible ", column " := legible_ofList rfl
  have inner : Legible " in " := legible_ofList rfl
  have colon : Legible ": " := legible_ofList rfl
  simp only [message, legible_append_iff, legible_toString_nat, legible_toString_int, and_true]
  refine ⟨⟨⟨⟨legible_phrase error.kind, line⟩, column⟩, ?_⟩, ?_⟩
  · split
    · exact legible_ofList rfl
    · next here => exact legible_append_iff.2 ⟨inner, names _ (here ▸ List.mem_cons_self)⟩
  · split
    · exact legible_ofList rfl
    · exact legible_append_iff.2 ⟨colon, detail⟩

/-- The line of the trace that is about the failure. -/
def headLine (error : ParseError) : String :=
  error.kind.phrase ++ " at offset " ++ toString error.position ++ ": "
    ++ if error.detail.isEmpty then error.snippet else error.detail

/-- Every line of a trace is legible when the detail and the names of the rules are. -/
theorem legible_traceLines (detail : Legible error.detail)
    (names : ∀ context ∈ error.contexts, Legible context.1) :
    ∀ line ∈ error.headLine :: error.contexts.map contextLine, Legible line := by
  have offset : Legible " at offset " := legible_ofList rfl
  have lead : Legible "  in " := legible_ofList rfl
  have colon : Legible ": " := legible_ofList rfl
  refine List.forall_mem_cons.2 ⟨?_, List.forall_mem_map.2 fun context member => ?_⟩
  · simp only [headLine, legible_append_iff, legible_toString_int, and_true]
    refine ⟨⟨⟨legible_phrase error.kind, offset⟩, colon⟩, ?_⟩
    split
    · exact legible_snippet error
    · exact detail
  · simp only [contextLine, legible_append_iff, legible_toString_int, and_true]
    exact ⟨⟨lead, names context member⟩, offset⟩

/-- A trace has the lines that it is made of, when these have no line feeds themselves. -/
theorem lines_trace
    (single : ∀ line ∈ error.headLine :: error.contexts.map contextLine, '\n' ∉ line.toList) :
    lines error.trace.toList = (error.headLine :: error.contexts.map contextLine).map String.toList := by
  have joined : error.trace = "\n".intercalate (error.headLine :: error.contexts.map contextLine) :=
    rfl
  rw [joined, String.toList_intercalate]
  exact List.splitOn_intercalate _ (List.forall_mem_map.2 single) (List.cons_ne_nil _ _)

/-- A report is legible when its detail and the names of its rules are. -/
theorem isLegible (detail : Legible error.detail)
    (names : ∀ context ∈ error.contexts, Legible context.1) : error.IsLegible := by
  have message := legible_message detail names
  have legible := legible_traceLines detail names
  have shape := lines_trace fun line member => (legible line member).oneLine
  refine ⟨message, List.splitOn_eq_singleton message.oneLine, ?_, ?_⟩
  · rw [shape, List.length_map, List.length_cons, List.length_map, Nat.add_comm]
  · rw [shape]
    refine List.forall_mem_map.2 fun line member => ?_
    rw [String.ofList_toList]
    exact legible line member

end ParseError

/-- The rules that a report names are legible. -/
theorem Failure.legible_contexts (failure : Failure) (text : String) :
    ∀ context ∈ (failure.report text).contexts, Legible context.1 := by
  refine List.forall_mem_map.2 fun context member => ?_
  exact legible_name context.1

/-- What is reported about a text that is not read is legible. -/
theorem Entry.Refuses.isLegible {entry : Entry} (refuses : entry.Refuses text (.failure failure)) :
    (failure.report text).IsLegible :=
  ParseError.isLegible refuses.repeats.legible (failure.legible_contexts text)

end Legibility

/-- A text without overlong runs of digits is reported if it is not read. -/
theorem ShortRuns.not_overlong (short : ShortRuns text.toList) {entry : Entry} {digits : Nat} :
    ¬entry.Refuses text (.overlong digits) := by
  intro refuses
  obtain ⟨offset, -, limit, rfl⟩ := refuses_overlong_iff.1 refuses
  have inside : (Cursor.ofOffset text offset).digits <:+: text.toList :=
    (List.takeWhile_prefix _).isInfix.trans (List.drop_suffix offset text.toList).isInfix
  have length := short _ inside fun char => Cursor.isDigit_of_mem_digits
  omega

end PocketLisp.Reading
