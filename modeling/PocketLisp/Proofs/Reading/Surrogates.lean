import PocketLisp.Proofs.Reading.Reports

/-!
# Reports about text with surrogates

Text with surrogates is read as a text in which characters stand for them. A report about it
repeats what is written there, not what stands for it: the characters that a failure repeats are
taken from the code points at its position, and quoted with their surrogates. Where there are no
surrogates this is the report about the text.

So nothing of the text gets into a message or a trace as it is, whatever the text is, whatever
stands for its surrogates, and however it is read. That it is the same report whatever stands for
them is shown apart.
-/

namespace PocketLisp.Reading

open Text

variable {ahead : List Char} {cause : Cause}

/-- The text of a cause with these code points ahead. What a cause repeats of them is quoted, except
for what the grammar knows: digits and reserved words, which have no surrogates. -/
def Cause.detailOf (ahead : List CodePoint) : Cause → String
  | .unexpectedChar _ => "unexpected " ++ CodePoint.quoted (ahead.take 1)
  | .leftover _ => "unexpected " ++ CodePoint.quoted (ahead.take 10) ++ " after expression"
  | cause => cause.detail

/-- The report of a failure to read code points, which are read as a text. -/
def Failure.reportOf (points : List CodePoint) (text : String) (failure : Failure) : ParseError :=
  { failure.report text with detail := failure.cause.detailOf (points.drop failure.position) }

/-- Code points that stand for what a cause repeats are told legibly. -/
theorem Cause.Repeats.legible_detailOf (repeats : cause.Repeats ahead) (points : List CodePoint) :
    Legible (cause.detailOf points) := by
  have lead : Legible "unexpected " := legible_ofList rfl
  have tail : Legible " after expression" := legible_ofList rfl
  cases cause with
  | unexpectedChar char => exact legible_append_iff.2 ⟨lead, CodePoint.legible_quoted _⟩
  | leftover left => exact (CodePoint.legible_quoted _).between lead tail
  | _ => exact repeats.legible

/-- Characters are told as in a text. -/
theorem Cause.Repeats.detailOf_character (repeats : cause.Repeats ahead) :
    cause.detailOf (ahead.map .character) = cause.detail := by
  cases cause with
  | unexpectedChar char =>
      obtain ⟨rest, rfl⟩ := List.head?_eq_some_iff.1 repeats
      rw [detailOf, ← List.map_take, CodePoint.quoted_character, detail, String.singleton_eq_ofList]
      rfl
  | leftover left =>
      rw [detailOf, ← List.map_take, CodePoint.quoted_character, detail, show left = _ from repeats]
  | _ => rfl

/-- What is reported about a text that is not read sends nothing of the text to a terminal or a
log as it is. A report about text with surrogates, which is read as this text is, does not either,
and it is the same report when there are none. -/
theorem isLegible_of_refuses (entry : Entry) (text : String) (failure : Failure)
    (refuses : entry.Refuses text (.failure failure)) :
    (failure.report text).IsLegible
      ∧ failure.reportOf (text.toList.map .character) text = failure.report text
      ∧ ∀ standIn points, CodePoint.readable standIn points = text →
        (failure.reportOf points text).IsLegible := by
  have repeats : failure.cause.Repeats (text.toList.drop failure.position) := refuses.repeats
  refine ⟨refuses.isLegible, ?_, fun standIn points same => ?_⟩
  · rw [Failure.reportOf, ← List.map_drop, repeats.detailOf_character]
    rfl
  · exact ParseError.isLegible (repeats.legible_detailOf _) (failure.legible_contexts text)

/-- A surrogate behind a line feed, where an expression has to start, is told by its number. -/
theorem isLegible_of_refuses_surrogate :
    ∃ failure, Entry.all.Refuses "a\n\ufffd" (.failure failure)
      ∧ CodePoint.readable (fun _ => '\ufffd')
        [.character 'a', .character '\n', .surrogate 0x7ff] = "a\n\ufffd"
      ∧ (failure.reportOf [.character 'a', .character '\n', .surrogate 0x7ff] "a\n\ufffd").detail =
        "unexpected '\\udfff'"
      ∧ (failure.reportOf [.character 'a', .character '\n', .surrogate 0x7ff]
        "a\n\ufffd").IsLegible := by
  have unread : readAll "a\n\ufffd" = .error (.failure ⟨.unexpectedChar '\ufffd', 2, false,
      [(.atom, 2), (.constant, 2), (.expr, 2)]⟩) := by decide +kernel
  have stands : CodePoint.readable (fun _ => '\ufffd')
      [.character 'a', .character '\n', .surrogate 0x7ff] = "a\n\ufffd" := by decide
  exact ⟨_, unread, stands, by decide, (isLegible_of_refuses .all _ _ unread).2.2 _ _ stands⟩

end PocketLisp.Reading
