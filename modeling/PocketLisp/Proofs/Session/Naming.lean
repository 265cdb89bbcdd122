import PocketLisp.Proofs.Evaluation.Naming
import PocketLisp.Proofs.Session.Splitting

/-!
# Sessions without dangling keys

A session that starts fresh and is only ever given code stays closed: whatever the code is,
and however it fails, every bound name is a name of the grammar, every stored key is
bound, and so is every key that code answers with. One step of this is about a single
request, and a whole session follows by induction on its requests.
-/

namespace PocketLisp

open Reading

/-- The expressions of a text are readable. -/
theorem Reading.allReadable_of_forms {cursor : Cursor} {trees : List Datum}
    (read : forms cursor = .ok trees) : Datum.AllReadable trees := by
  rcases forms_eq_ok_iff.1 read with ⟨-, rfl⟩ | ⟨first, next, rest, yields, others, rfl⟩
  · simp only [Datum.AllReadable]
  · obtain ⟨spelling, behind, spelled, -⟩ := yields_expr_iff_stands.1 yields
    have := yields.shorter
    have := cursor.length_skipGaps_le
    simp only [Datum.AllReadable]
    exact ⟨spelled.readable, allReadable_of_forms others⟩
termination_by cursor.ahead.length

namespace Session

/-- A request that hands over nothing but code. -/
def Request.IsCode : Request → Prop
  | .code _ | .reset => True
  | _ => False

variable {environment : Environment}

/-- Evaluating code in a closed environment leaves it closed and answers with keys that are
bound. -/
theorem tidy_evalCode (code : String) (closed : environment.Closed) :
    (evalCode code environment).Tidy environment Environment.KnowsAll := by
  cases read : readAll code with
  | error refusal =>
      rw [evalCode_of_unread read]
      exact Run.tidy_fail closed
  | ok trees =>
      have readable := allReadable_of_forms read
      rw [evalCode, read]
      exact ((tidy_eval_and_evalAll.2 trees environment readable closed).mapError).withEvents _

/-- Requests that hand over nothing but code keep an environment closed. -/
theorem closed_respond {request : Request} (given : request.IsCode) (closed : environment.Closed) :
    (respond request environment).environment.Closed := by
  cases request with
  | code code => exact (tidy_evalCode code closed).closed
  | reset => exact Environment.closed_empty
  | _ => contradiction

/-- A session that hands over nothing but code stays closed. -/
theorem closed_after {requests : List Request} (given : ∀ request ∈ requests, request.IsCode)
    (closed : environment.Closed) : (after requests environment).Closed := by
  induction requests generalizing environment with
  | nil => exact closed
  | cons request requests inductionHypothesis =>
      refine inductionHypothesis (fun other member => given other (List.mem_cons_of_mem _ member)) ?_
      exact closed_respond (given request List.mem_cons_self) closed

/-- In a fresh session that is given nothing but code no key dangles. After every request the
bound names are names of the grammar and the stored keys are bound, and after code that
succeeds so is every key among its results. -/
theorem after_requests_closed (requests : List Request)
    (given : ∀ request ∈ requests, request.IsCode) :
    (after requests .empty).Closed
    ∧ ∀ code answer, (respond (.code code) (after requests .empty)).outcome = .ok answer →
      ∀ name, .atom (.key name) ∈ answer.results →
        name ∈ (respond (.code code) (after requests .empty)).environment.names := by
  have closed := closed_after given Environment.closed_empty
  refine ⟨closed, fun code answer answered name member => ?_⟩
  have tidy : (respond (.code code) (after requests .empty)).Tidy (after requests .empty)
      fun environment answer => environment.KnowsAll answer.results :=
    (tidy_evalCode code closed).map (by simp)
  exact tidy.answers answer answered _ member name rfl

/-- A name that is bound to a key of another definition, behind code that fails halfway. -/
theorem after_requests_closed_nested :
    (∀ request ∈ [Request.code "(define x (define y 1)) (/ y 0)"], request.IsCode)
      ∧ (respond (.code "x") (after [.code "(define x (define y 1)) (/ y 0)"] .empty)).outcome =
        .ok (.one (.atom (.key "y")))
      ∧ "y" ∈ (respond (.code "x")
        (after [.code "(define x (define y 1)) (/ y 0)"] .empty)).environment.names := by
  have given : ∀ request ∈ [Request.code "(define x (define y 1)) (/ y 0)"], request.IsCode := by
    simp [Request.IsCode]
  have answered : (respond (.code "x")
      (after [.code "(define x (define y 1)) (/ y 0)"] .empty)).outcome =
        .ok (.one (.atom (.key "y"))) := by
    decide +kernel
  refine ⟨given, answered, ?_⟩
  exact (after_requests_closed _ given).2 "x" _ answered "y" List.mem_cons_self

end Session

end PocketLisp
