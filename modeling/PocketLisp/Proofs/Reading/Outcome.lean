import PocketLisp.Proofs.Reading.Stretch
import PocketLisp.Reading.Source

/-!
# Outcomes of reading

An attempt has one of three outcomes. It yields a value and the cursor behind it; it
declines, which leaves the text to the other alternatives; or it is refused for good.
The combinators and the rules that nest are described here by an `_iff` for each
outcome, and the theory of the grammar rests on these alone.
-/

namespace PocketLisp.Reading

namespace Refusal

/-- Behind a final refusal no other alternative is tried. -/
def isFinal : Refusal → Bool
  | .failure reason => reason.committed
  | .overlong _ => true

/-- A failure is final when it is committed. -/
@[simp] theorem isFinal_failure (reason : Failure) :
    (Refusal.failure reason).isFinal = reason.committed := rfl

/-- An overlong literal is final. -/
@[simp] theorem isFinal_overlong (digits : Nat) : (Refusal.overlong digits).isFinal = true := rfl

/-- The refusal with one more rule noted that it came through. -/
def through (rule : Rule) (offset : Nat) : Refusal → Refusal
  | .failure reason => .failure { reason with trail := reason.trail ++ [(rule, offset)] }
  | .overlong digits => .overlong digits

/-- The rules that a refusal came through do not make it final. -/
@[simp] theorem isFinal_through (rule : Rule) (offset : Nat) (refusal : Refusal) :
    (refusal.through rule offset).isFinal = refusal.isFinal := by
  cases refusal <;> rfl

end Refusal

namespace Attempt

variable {α β : Type} {start next : Cursor} {rule : Rule} {offset : Nat}

/-- The attempt reads a value and comes to a cursor behind it. -/
def Yields (attempt : Attempt α start) (value : α) (next : Cursor) : Prop :=
  ∃ step, attempt = .ok step ∧ step.value = value ∧ step.next = next

/-- The attempt fails and leaves the text to the other alternatives. -/
def Declines (attempt : Except Refusal α) : Prop :=
  ∃ refusal, attempt = .error refusal ∧ refusal.isFinal = false

/-- The attempt fails and rules out the other alternatives. -/
def Aborts (attempt : Except Refusal α) (refusal : Refusal) : Prop :=
  attempt = .error refusal ∧ refusal.isFinal = true

/-- An attempt has one outcome of the three. -/
theorem outcome (attempt : Attempt α start) :
    (∃ value next, Yields attempt value next) ∨ Declines attempt
      ∨ ∃ refusal, Aborts attempt refusal := by
  cases attempt with
  | ok step => exact .inl ⟨_, _, step, rfl, rfl, rfl⟩
  | error refusal =>
      cases final : refusal.isFinal with
      | false => exact .inr (.inl ⟨refusal, rfl, final⟩)
      | true => exact .inr (.inr ⟨refusal, rfl, final⟩)

/-- A step yields its value and its cursor. -/
@[simp] theorem yields_ok {step : Step α start} {value : α} :
    Yields (.ok step) value next ↔ step.value = value ∧ step.next = next := by
  simp [Yields]

/-- A refusal yields nothing. -/
@[simp] theorem not_yields_error {refusal : Refusal} {value : α} :
    ¬Yields (.error refusal : Attempt α start) value next := by
  simp [Yields]

/-- What is read does not decline. -/
@[simp] theorem not_declines_ok {value : α} : ¬Declines (.ok value) := by
  simp [Declines]

/-- A refusal declines unless it is final. -/
@[simp] theorem declines_error {refusal : Refusal} :
    Declines (.error refusal : Except Refusal α) ↔ refusal.isFinal = false := by
  simp [Declines]

/-- What is read is not refused. -/
@[simp] theorem not_aborts_ok {value : α} {refusal : Refusal} :
    ¬Aborts (.ok value) refusal := by
  simp [Aborts]

/-- A final refusal rules out the other alternatives. -/
@[simp] theorem aborts_error {refusal other : Refusal} :
    Aborts (.error refusal : Except Refusal α) other ↔
      refusal = other ∧ refusal.isFinal = true := by
  constructor
  · rintro ⟨same, final⟩
    obtain rfl := Except.error.inj same
    exact ⟨rfl, final⟩
  · rintro ⟨rfl, final⟩
    exact ⟨rfl, final⟩

/-- What declines yields nothing. -/
theorem Declines.not_yields {attempt : Attempt α start} {value : α} (declines : Declines attempt) :
    ¬Yields attempt value next := by
  obtain ⟨refusal, rfl, -⟩ := declines
  exact not_yields_error

/-- What declines is not refused for good. -/
theorem Declines.not_aborts {attempt : Except Refusal α} {refusal : Refusal}
    (declines : Declines attempt) : ¬Aborts attempt refusal := by
  obtain ⟨reason, rfl, final⟩ := declines
  simp [final]

/-- An attempt that is never refused for good declines exactly when it yields nothing. -/
theorem declines_iff_of_not_aborts {attempt : Attempt α start}
    (never : ∀ refusal, ¬Aborts attempt refusal) :
    Declines attempt ↔ ∀ value next, ¬Yields attempt value next := by
  constructor
  · exact fun declines _ _ => declines.not_yields
  · intro silent
    rcases attempt.outcome with ⟨value, next, yields⟩ | declines | ⟨refusal, aborts⟩
    · exact absurd yields (silent value next)
    · exact declines
    · exact absurd aborts (never refusal)

/-- An attempt that is never refused for good yields something unless it declines. -/
theorem exists_yields_of_not_declines {attempt : Attempt α start}
    (never : ∀ refusal, ¬Aborts attempt refusal) (stands : ¬Declines attempt) :
    ∃ value next, Yields attempt value next := by
  rw [declines_iff_of_not_aborts never] at stands
  simpa only [Classical.not_forall, Classical.not_not] using stands

/-- Behind what is read there is less ahead. -/
theorem Yields.shorter {attempt : Attempt α start} {value : α}
    (yields : Yields attempt value next) : next.ahead.length < start.ahead.length := by
  obtain ⟨step, -, -, rfl⟩ := yields
  exact step.shorter

/-- A failure made on the spot yields nothing. -/
@[simp] theorem not_yields_fail {cause : Cause} {committed : Bool} {value : α} :
    ¬Yields (fail cause offset committed : Attempt α start) value next :=
  not_yields_error

/-- A failure made on the spot declines unless it is committed. -/
@[simp] theorem declines_fail {cause : Cause} {committed : Bool} :
    Declines (fail cause offset committed : Except Refusal α) ↔ committed = false :=
  declines_error

/-- A failure made on the spot is refused for good when it is committed. -/
@[simp] theorem aborts_fail {cause : Cause} {committed : Bool} {refusal : Refusal} :
    Aborts (fail cause offset committed : Except Refusal α) refusal ↔
      .failure ⟨cause, offset, committed, []⟩ = refusal ∧ committed = true :=
  aborts_error

/-- Noting a rule leaves what is read as it is. -/
@[simp] theorem within_ok {value : α} : within rule offset (.ok value) = .ok value := rfl

/-- Noting a rule adds it to a refusal. -/
@[simp] theorem within_error {refusal : Refusal} :
    within rule offset (.error refusal : Except Refusal α) =
      .error (refusal.through rule offset) := by
  cases refusal <;> rfl

/-- Noting a rule does not change what is read. -/
@[simp] theorem yields_within_iff {attempt : Attempt α start} {value : α} :
    Yields (within rule offset attempt) value next ↔ Yields attempt value next := by
  cases attempt <;> simp

/-- Noting a rule does not change whether the attempt declines. -/
@[simp] theorem declines_within_iff {attempt : Except Refusal α} :
    Declines (within rule offset attempt) ↔ Declines attempt := by
  cases attempt <;> simp

/-- Inside a rule the same refusals are final, with the rule noted. -/
theorem aborts_within_iff {attempt : Except Refusal α} {refusal : Refusal} :
    Aborts (within rule offset attempt) refusal ↔
      ∃ inner, Aborts attempt inner ∧ refusal = inner.through rule offset := by
  cases attempt with
  | ok value => simp
  | error reason =>
      simp only [within_error, aborts_error, Refusal.isFinal_through]
      constructor
      · rintro ⟨rfl, final⟩
        exact ⟨reason, ⟨rfl, final⟩, rfl⟩
      · rintro ⟨inner, ⟨rfl, final⟩, rfl⟩
        exact ⟨rfl, final⟩

/-- A sequence yields what its second part yields behind its first. -/
theorem yields_bind_iff {first : Except Refusal α} {second : α → Attempt β start} {value : β} :
    Yields (first >>= second) value next ↔
      ∃ read, first = .ok read ∧ Yields (second read) value next := by
  cases first <;> simp [bind, Except.bind]

/-- A sequence declines when one of its parts does. -/
theorem declines_bind_iff {first : Except Refusal α} {second : α → Except Refusal β} :
    Declines (first >>= second) ↔
      Declines first ∨ ∃ read, first = .ok read ∧ Declines (second read) := by
  cases first <;> simp [bind, Except.bind]

/-- A sequence is refused for good when one of its parts is. -/
theorem aborts_bind_iff {first : Except Refusal α} {second : α → Except Refusal β}
    {refusal : Refusal} :
    Aborts (first >>= second) refusal ↔
      Aborts first refusal ∨ ∃ read, first = .ok read ∧ Aborts (second read) refusal := by
  cases first <;> simp [bind, Except.bind]

/-- Changing the value does not change the rest of what is read. -/
theorem yields_map_iff {f : α → β} {attempt : Attempt α start} {value : β} :
    Yields (attempt.map f) value next ↔ ∃ inner, Yields attempt inner next ∧ value = f inner := by
  constructor
  · rintro ⟨step, read, rfl, rfl⟩
    cases attempt with
    | error refusal => contradiction
    | ok inner =>
        obtain rfl := Except.ok.inj read
        exact ⟨inner.value, ⟨inner, rfl, rfl, rfl⟩, rfl⟩
  · rintro ⟨inner, ⟨step, rfl, rfl, rfl⟩, rfl⟩
    exact ⟨step.map f, rfl, rfl, rfl⟩

/-- Changing the value does not change whether the attempt declines. -/
@[simp] theorem declines_map_iff {f : α → β} {attempt : Attempt α start} :
    Declines (attempt.map f) ↔ Declines attempt := by
  cases attempt <;> simp [Attempt.map, Except.map, Declines]

/-- Changing the value does not change which refusals are final. -/
@[simp] theorem aborts_map_iff {f : α → β} {attempt : Attempt α start} {refusal : Refusal} :
    Aborts (attempt.map f) refusal ↔ Aborts attempt refusal := by
  cases attempt <;> simp [Attempt.map, Except.map, Aborts]

/-- A final refusal ends a choice. -/
theorem orElse_of_final {refusal : Refusal} {second : Unit → Except Refusal α}
    (final : refusal.isFinal = true) : orElse (.error refusal) second = .error refusal := by
  cases refusal with
  | failure reason => exact if_pos final
  | overlong digits => rfl

/-- A first alternative that does not decline decides. -/
theorem orElse_of_not_declines {first : Except Refusal α} (stands : ¬Declines first)
    (second : Unit → Except Refusal α) : orElse first second = first := by
  cases first with
  | ok value => rfl
  | error refusal => exact orElse_of_final (by simpa using stands)

/-- Behind a first alternative that declines the second decides, unless it declines
too. -/
theorem orElse_of_declines {first : Except Refusal α} (declines : Declines first)
    (second : Unit → Except Refusal α) :
    orElse first second = second () ∨ Declines (orElse first second) ∧ Declines (second ()) := by
  obtain ⟨reason | digits, rfl, final⟩ := declines
  · change reason.committed = false at final
    rcases answer : second () with (other | digits) | value
    · cases committed : other.committed with
      | true => simp [orElse, final, answer, committed]
      | false =>
          refine .inr ⟨?_, by simpa using committed⟩
          have left : (further reason other).committed = false := by
            unfold further
            split <;> assumption
          simpa [orElse, final, answer, committed] using left
    · simp [orElse, final, answer]
    · simp [orElse, final, answer]
  · contradiction

/-- A choice yields what its first alternative yields, or else its second when the
first declines. -/
theorem yields_orElse_iff {first : Attempt α start} {second : Unit → Attempt α start} {value : α} :
    Yields (orElse first second) value next ↔
      Yields first value next ∨ Declines first ∧ Yields (second ()) value next := by
  rcases first with refusal | step
  · cases final : refusal.isFinal with
    | true => simp [orElse_of_final, final]
    | false =>
        rcases orElse_of_declines (declines_error.2 final) second with same | both
        · simp [same, final]
        · simp [both.1.not_yields, both.2.not_yields]
  · simp [orElse]

/-- A choice declines when both alternatives do. -/
theorem declines_orElse_iff {first : Except Refusal α} {second : Unit → Except Refusal α} :
    Declines (orElse first second) ↔ Declines first ∧ Declines (second ()) := by
  rcases first with refusal | value
  · cases final : refusal.isFinal with
    | true => simp [orElse_of_final, final]
    | false =>
        rcases orElse_of_declines (declines_error.2 final) second with same | both
        · simp [same, final]
        · simp [both, final]
  · simp [orElse]

/-- A choice is refused for good when its first alternative is, or else its second
when the first declines. -/
theorem aborts_orElse_iff {first : Except Refusal α} {second : Unit → Except Refusal α}
    {refusal : Refusal} :
    Aborts (orElse first second) refusal ↔
      Aborts first refusal ∨ Declines first ∧ Aborts (second ()) refusal := by
  rcases first with reason | value
  · cases final : reason.isFinal with
    | true => simp [orElse_of_final, final]
    | false =>
        rcases orElse_of_declines (declines_error.2 final) second with same | both
        · simp [same, final]
        · simp [both.1.not_aborts, both.2.not_aborts, final]
  · simp [orElse]

end Attempt

end PocketLisp.Reading
