import Mathlib.Data.List.Basic
import PocketLisp.Proofs.Reading.Outcome

/-!
# Choices in different orders

A failure decides something only by being final, so attempts are compared by `Agrees`, which
relates the values that are read and of refusals no more than whether they are final. Of two
failures the one further on is kept, and the earlier one when they are equally far, so this is as
much as an ordered choice keeps when its alternatives are tried in another order.

A choice comes to the same as its first alternative that does not decline. `Decides` says which
one that is, and choices that the same alternative decides agree.
-/

namespace PocketLisp.Reading

open Attempt

variable {α β γ δ κ : Type} {start : Cursor}

namespace Attempt

/-- Two attempts come to the same: to values of which one suits the other, or to refusals of which
both are final or neither is. -/
inductive Agrees (suits : α → β → Prop) : Except Refusal α → Except Refusal β → Prop
  | ok {value : α} {other : β} (suited : suits value other) : Agrees suits (.ok value) (.ok other)
  | error {refusal other : Refusal} (same : refusal.isFinal = other.isFinal) :
      Agrees suits (.error refusal) (.error other)

namespace Agrees

variable {suits : α → β → Prop} {suitsToo : γ → δ → Prop} {attempt other last : Except Refusal α}

/-- An attempt agrees with itself. -/
theorem refl (attempt : Except Refusal α) : Agrees Eq attempt attempt := by
  cases attempt with
  | ok value => exact .ok rfl
  | error refusal => exact .error rfl

/-- Attempts agree in both directions. -/
theorem symm (agrees : Agrees Eq attempt other) : Agrees Eq other attempt := by
  cases agrees with
  | ok suited => exact .ok suited.symm
  | error same => exact .error same.symm

/-- Attempts that agree with one agree with each other. -/
theorem trans (agrees : Agrees Eq attempt other) (agreesToo : Agrees Eq other last) :
    Agrees Eq attempt last := by
  cases agrees with
  | ok suited =>
      cases agreesToo with
      | ok suitedToo => exact .ok (suited.trans suitedToo)
  | error same =>
      cases agreesToo with
      | error sameToo => exact .error (same.trans sameToo)

/-- Attempts that decline agree. -/
theorem of_declines (declines : Declines attempt) (declinesToo : Declines other) :
    Agrees Eq attempt other := by
  obtain ⟨refusal, rfl, final⟩ := declines
  obtain ⟨refusalToo, rfl, finalToo⟩ := declinesToo
  exact .error (final.trans finalToo.symm)

/-- Attempts that agree decline together. -/
theorem declines_iff (agrees : Agrees Eq attempt other) : Declines attempt ↔ Declines other := by
  cases agrees with
  | ok suited => simp
  | error same => simp [same]

/-- Attempts that agree read the same. -/
theorem eq_ok_iff {value : α} (agrees : Agrees Eq attempt other) :
    attempt = .ok value ↔ other = .ok value := by
  cases agrees with
  | ok suited => rw [suited]
  | error same => simp

/-- Noting a rule changes no more than the trail of a refusal. -/
theorem within_self (rule : Rule) (offset : Nat) (attempt : Except Refusal α) :
    Agrees Eq (within rule offset attempt) attempt := by
  cases attempt with
  | ok value => exact .ok rfl
  | error refusal =>
      rw [within_error]
      exact .error (Refusal.isFinal_through rule offset refusal)

/-- The same rule is noted. -/
theorem within {rule : Rule} {offset : Nat} (agrees : Agrees Eq attempt other) :
    Agrees Eq (within rule offset attempt) (within rule offset other) :=
  ((within_self rule offset attempt).trans agrees).trans (within_self rule offset other).symm

/-- A sequence goes on from what its first part comes to. -/
theorem bind {attempt : Except Refusal α} {other : Except Refusal β} {first : α → Except Refusal γ}
    {second : β → Except Refusal δ} (agrees : Agrees suits attempt other)
    (behind : ∀ value valueToo, suits value valueToo →
      Agrees suitsToo (first value) (second valueToo)) :
    Agrees suitsToo (attempt >>= first) (other >>= second) := by
  cases agrees with
  | ok suited => exact behind _ _ suited
  | error same => exact .error same

/-- Sequences that go on alike from the same values. -/
theorem bind_eq {first : α → Except Refusal γ} {second : α → Except Refusal δ}
    (agrees : Agrees Eq attempt other)
    (behind : ∀ value, Agrees suitsToo (first value) (second value)) :
    Agrees suitsToo (attempt >>= first) (other >>= second) :=
  agrees.bind fun value _ same => same ▸ behind value

/-- Changing the values of steps. -/
theorem map {attempt other : Attempt α start} (agrees : Agrees Eq attempt other) (f : α → β) :
    Agrees Eq (attempt.map f) (other.map f) := by
  cases agrees with
  | ok suited => exact suited ▸ refl _
  | error same => exact .error same

/-- Behind a first alternative that declines a choice comes to the same as the second. -/
theorem orElse_of_declines {first : Except Refusal α} (declines : Declines first)
    (second : Unit → Except Refusal α) : Agrees Eq (orElse first second) (second ()) := by
  rcases Attempt.orElse_of_declines declines second with same | ⟨choice, declinesToo⟩
  · rw [same]
    exact refl _
  · exact of_declines choice declinesToo

/-- A choice between alternatives that agree. -/
theorem orElse {second secondToo : Unit → Except Refusal α} (agrees : Agrees Eq attempt other)
    (behind : Agrees Eq (second ()) (secondToo ())) :
    Agrees Eq (orElse attempt second) (orElse other secondToo) := by
  by_cases declines : Declines attempt
  · have declinesToo := agrees.declines_iff.1 declines
    exact ((orElse_of_declines declines second).trans behind).trans
      (orElse_of_declines declinesToo secondToo).symm
  · have stands := mt agrees.declines_iff.2 declines
    rwa [orElse_of_not_declines declines, orElse_of_not_declines stands]

end Agrees

end Attempt

section Choices

/-- Ordered choice among several alternatives. -/
def choose (attempt : κ → Except Refusal α) :
    (alternatives : List κ) → alternatives ≠ [] → Except Refusal α
  | [last], _ => attempt last
  | first :: second :: others, _ =>
      orElse (attempt first) fun _ =>
        choose attempt (second :: others) (List.cons_ne_nil second others)

variable {attempt other : κ → Except Refusal α} {alternatives : List κ} {some : alternatives ≠ []}

/-- A choice declines when all alternatives do. -/
theorem declines_choose (declines : ∀ choice ∈ alternatives, Declines (attempt choice)) :
    Declines (choose attempt alternatives some) := by
  induction alternatives with
  | nil => contradiction
  | cons first others inductionHypothesis =>
      cases others with
      | nil => exact declines first List.mem_cons_self
      | cons second others =>
          refine declines_orElse_iff.2 ⟨declines first List.mem_cons_self, ?_⟩
          exact inductionHypothesis fun choice member => declines choice (.tail first member)

/-- A choice among alternatives that agree. -/
theorem agrees_choose (agrees : ∀ choice, Agrees Eq (attempt choice) (other choice)) :
    Agrees Eq (choose attempt alternatives some) (choose other alternatives some) := by
  induction alternatives with
  | nil => contradiction
  | cons first others inductionHypothesis =>
      cases others with
      | nil => exact agrees first
      | cons second others => exact .orElse (agrees first) inductionHypothesis

variable [DecidableEq κ]

/-- An alternative decides a choice: it does not decline, and all in front of it do. -/
structure Decides (attempt : κ → Except Refusal α) (alternatives : List κ) (winner : κ) : Prop where
  tried : winner ∈ alternatives
  stands : ¬Declines (attempt winner)
  before : ∀ other, alternatives.idxOf other < alternatives.idxOf winner → Declines (attempt other)

/-- An alternative that decides a choice and is not the first decides it among the others. -/
theorem Decides.tail {first winner : κ} {others : List κ}
    (decides : Decides attempt (first :: others) winner) (apart : first ≠ winner) :
    Declines (attempt first) ∧ Decides attempt others winner := by
  obtain ⟨tried, stands, before⟩ := decides
  have declines : Declines (attempt first) := by
    refine before first ?_
    rw [List.idxOf_cons_self, List.idxOf_cons_ne _ apart]
    exact Nat.succ_pos _
  refine ⟨declines, List.mem_of_ne_of_mem apart.symm tried, stands, fun other earlier => ?_⟩
  by_cases same : first = other
  · exact same ▸ declines
  · refine before other ?_
    rw [List.idxOf_cons_ne _ same, List.idxOf_cons_ne _ apart]
    exact Nat.succ_lt_succ earlier

/-- A choice comes to the same as the alternative that decides it. -/
theorem Decides.agrees {winner : κ} (decides : Decides attempt alternatives winner) :
    Agrees Eq (choose attempt alternatives some) (attempt winner) := by
  induction alternatives with
  | nil => contradiction
  | cons first others inductionHypothesis =>
      cases others with
      | nil =>
          obtain rfl := List.mem_singleton.1 decides.tried
          exact .refl _
      | cons second others =>
          by_cases same : first = winner
          · subst same
            rw [choose, orElse_of_not_declines decides.stands]
            exact .refl _
          · obtain ⟨declines, decidesRest⟩ := decides.tail same
            exact (Agrees.orElse_of_declines declines _).trans (inductionHypothesis decidesRest)

/-- Choices that the same alternative decides agree, and so do choices that nothing decides. -/
theorem agrees_choose_of_decides {first second : List κ} {some : first ≠ []} {someToo : second ≠ []}
    (decided : (∀ choice, Declines (attempt choice)) ∨
      ∃ winner, Decides attempt first winner ∧ Decides attempt second winner) :
    Agrees Eq (choose attempt first some) (choose attempt second someToo) := by
  rcases decided with declines | ⟨winner, decides, decidesToo⟩
  · exact .of_declines (declines_choose fun choice _ => declines choice)
      (declines_choose fun choice _ => declines choice)
  · exact decides.agrees.trans decidesToo.agrees.symm

end Choices

end PocketLisp.Reading
