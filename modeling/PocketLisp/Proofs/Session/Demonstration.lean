import PocketLisp.Demo
import PocketLisp.Proofs.Evaluation.Messages
import PocketLisp.Proofs.Evaluation.Safety
import PocketLisp.Proofs.Layout.RoundTrip
import PocketLisp.Proofs.Reading.Reports
import PocketLisp.Proofs.Reading.Transport

/-!
# The demonstration is a session

The demonstration reads each text as one whole expression and evaluates the tree; a session
reads code as a sequence of expressions. Of the texts that the demonstration reads both make
the same, so what it shows of a text is what a session answers that was asked, in order, for
all texts before it that could be read. A text that cannot be read is reported in one line
and leaves everything else as it is. The lines that report something have no line break in
them, whatever the texts are.
-/

namespace PocketLisp

open Text Reading

variable {environment : Environment} {input : String} {tree : Datum}

namespace Session

/-- Code that is one expression is answered as this expression is evaluated. -/
theorem respond_code_of_read (whole : read true input = .ok tree) (environment : Environment) :
    respond (.code input) environment =
      ⟨((eval tree environment).outcome.map .one).mapError .failed,
        (eval tree environment).environment,
        .parsedAll input 1 :: (eval tree environment).events⟩ := by
  simp only [respond, evalCode, readAll_of_read whole, evalAll]
  obtain ⟨outcome, left, events⟩ := eval tree environment
  cases outcome with
  | error fault => rfl
  | ok value =>
      simp only [Run.andThen, Run.map, Run.done, List.append_nil]
      rfl

end Session

namespace Demo

/-- Whether a text is one whole expression. -/
def accepts (input : String) : Bool :=
  (read true input).isOk

/-- What is left of an environment by a session that is asked for those of some texts that
are whole expressions, in order. Errors are ignored. -/
def session (inputs : List String) (environment : Environment) : Environment :=
  Session.after ((inputs.filter accepts).map .code) environment

/-- The lines that a text adds to the output behind a session. A text that cannot be read adds
one line. Any other text adds the tree, as it is written and laid out, and one line about
what the session answers to the text. -/
inductive Contributes (settings : Settings) (environment : Environment) (input : String) :
    List String → Prop
  | rejected {failure : Failure} (refused : read true input = .error (.failure failure))
      (oneLine : '\n' ∉ (failure.report input).message.toList) :
      Contributes settings environment input ["Parse error: " ++ (failure.report input).message]
  | answered {tree value : Datum} {layout : String} (whole : read true input = .ok tree)
      (laidOut : (Layout.standard settings).write 0 tree = .ok layout)
      (answer : (Session.respond (.code input) environment).outcome = .ok (.one value))
      (oneLine : '\n' ∉ value.written.toList) :
      Contributes settings environment input
        ["Parsed expression: " ++ tree.written ++ "  ;; " ++ layout,
          "Evaluated result: " ++ value.written]
  | failed {tree : Datum} {layout : String} {problem : Problem} (whole : read true input = .ok tree)
      (laidOut : (Layout.standard settings).write 0 tree = .ok layout)
      (answer : (Session.respond (.code input) environment).outcome = .error problem)
      (oneLine : '\n' ∉ problem.message.toList) :
      Contributes settings environment input
        ["Parsed expression: " ++ tree.written ++ "  ;; " ++ layout,
          "Error: " ++ problem.message]

section Sessions

/-- A session goes on from what its first text leaves. -/
theorem session_cons (input : String) (inputs : List String) (environment : Environment) :
    session (input :: inputs) environment = session inputs (session [input] environment) := by
  simp only [session, List.filter_cons]
  split <;> rfl

/-- A text that cannot be read changes nothing. -/
theorem session_of_refused {refusal : Refusal} (refused : read true input = .error refusal)
    (environment : Environment) : session [input] environment = environment := by
  have unread : accepts input = false := by rw [accepts, refused]; rfl
  simp only [session, List.filter_cons, unread]
  rfl

/-- A text that is read leaves what evaluating it leaves. -/
theorem session_of_read (whole : read true input = .ok tree) (environment : Environment) :
    session [input] environment = (eval tree environment).environment := by
  have accepted : accepts input = true := by rw [accepts, whole]; rfl
  simp only [session, List.filter_cons, accepted]
  exact congrArg Run.environment (Session.respond_code_of_read whole environment)

end Sessions

section Runs

variable {settings : Settings} {colours : Bool}

/-- A text that cannot be read is reported, and its report is noted down as well. -/
theorem item_of_refused {layout : Layout} {failure : Failure}
    (refused : read true input = .error (.failure failure)) :
    item layout input environment =
      ⟨.ok (.rejected (failure.report input)), environment,
        [.refused input (failure.report input)]⟩ := by
  rw [item, refused]

/-- A text is shown as the session before it answers to it, and leaves what this session goes
on from. -/
theorem item_contributes (known : settings.color = .ok colours) (short : ShortRuns input.toList)
    (inRange : environment.InRange) :
    ∃ shown, (item (Layout.standard settings) input environment).outcome = .ok shown
      ∧ Contributes settings environment input shown.lines
      ∧ (item (Layout.standard settings) input environment).environment =
        session [input] environment
      ∧ (session [input] environment).InRange := by
  cases outcome : read true input with
  | error refusal =>
      rw [session_of_refused outcome]
      cases refusal with
      | overlong digits =>
          have never : ¬(Entry.whole true).Refuses input (.overlong digits) := short.not_overlong
          exact absurd outcome never
      | failure failure =>
          have refuses : (Entry.whole true).Refuses input (.failure failure) := outcome
          rw [item_of_refused outcome]
          exact ⟨.rejected (failure.report input), rfl,
            .rejected outcome refuses.isLegible.message.oneLine, rfl, inRange⟩
  | ok tree =>
      obtain ⟨spelling, gap, -, spelled, -⟩ := read_complete_eq_ok_iff_withinLimit.1 outcome
      have colouring : (Layout.standard settings).color = .ok colours := known
      obtain ⟨layout, laidOut⟩ := Layout.exists_write colouring tree 0 spelled.wellFormed
      have safe := (safe_eval_and_evalAll (invariant_inRange False)).1 tree environment
        spelled.wellFormed ⟨inRange, nofun⟩
      have speaks := speaks_eval_and_evalAll.1 tree environment spelled.readable
      rw [session_of_read outcome]
      rcases safe.answers with ⟨value, answered, -⟩ | ⟨error, failed⟩
      · refine ⟨.accepted tree layout (.ok value), ?_, ?_, ?_, safe.keeps.1⟩
        · simp only [item, outcome, laidOut, answered, Run.withEvents]
        · have answer :
              (Session.respond (.code input) environment).outcome = .ok (.one value) := by
            rw [Session.respond_code_of_read outcome, answered]
            rfl
          exact .answered outcome laidOut answer (speaks.answers value answered).oneLine
        · simp only [item, outcome, laidOut, answered, Run.withEvents]
      · refine ⟨.accepted tree layout (.error error), ?_, ?_, ?_, safe.keeps.1⟩
        · simp only [item, outcome, laidOut, failed, Run.withEvents]
        · have answer : (Session.respond (.code input) environment).outcome =
              .error (.failed (.evaluation error)) := by
            rw [Session.respond_code_of_read outcome, failed]
            rfl
          exact .failed outcome laidOut answer (speaks.fails _ failed).oneLine
        · simp only [item, outcome, laidOut, failed, Run.withEvents]

/-- Texts are shown as the sessions before them answer to them. -/
theorem items_contribute (known : settings.color = .ok colours) {inputs : List String}
    (short : ∀ input ∈ inputs, ShortRuns input.toList) (inRange : environment.InRange) :
    ∃ shown, (items (Layout.standard settings) inputs environment).outcome = .ok shown
      ∧ shown.length = inputs.length
      ∧ (∀ index input, inputs[index]? = some input → ∃ item, shown[index]? = some item
        ∧ Contributes settings (session (inputs.take index) environment) input item.lines)
      ∧ (items (Layout.standard settings) inputs environment).environment =
        session inputs environment := by
  induction inputs generalizing environment with
  | nil => exact ⟨[], rfl, rfl, by simp, rfl⟩
  | cons input inputs inductionHypothesis =>
      obtain ⟨here, others⟩ := List.forall_mem_cons.1 short
      obtain ⟨first, answered, contributes, left, leftInRange⟩ :=
        item_contributes known here inRange
      obtain ⟨rest, shown, length, each, last⟩ := inductionHypothesis others leftInRange
      refine ⟨first :: rest, ?_, by rw [List.length_cons, List.length_cons, length], ?_, ?_⟩
      · simp only [items, Run.andThen, answered, left, Run.map, shown, Except.map]
      · intro index text stands
        cases index with
        | zero =>
            obtain rfl := Option.some.inj stands
            exact ⟨first, rfl, contributes⟩
        | succ index =>
            obtain ⟨item, found, share⟩ := each index text stands
            refine ⟨item, found, ?_⟩
            rw [List.take_succ_cons, session_cons]
            exact share
      · simp only [items, Run.andThen, answered, left, Run.map]
        rw [last, ← session_cons]

/-- The demonstration of texts without overlong runs of digits, under a setting that says
whether to colour, comes to its end. What it puts out is what the texts contribute, line by line
and each behind the session of the texts before it that could be read. -/
theorem run_contributes (settings : Settings) (valid : settings.color = .ok colours)
    (inputs : List String) (short : ∀ input ∈ inputs, ShortRuns input.toList) :
    ∃ shares : List (List String),
      (run settings inputs).outcome.map output =
        .ok (String.join (shares.flatten.map (· ++ "\n")))
      ∧ shares.length = inputs.length
      ∧ (∀ index input, inputs[index]? = some input → ∃ lines, shares[index]? = some lines
        ∧ Contributes settings (session (inputs.take index) .empty) input lines)
      ∧ (run settings inputs).environment = session inputs .empty := by
  have inRange : Environment.empty.InRange := by decide
  obtain ⟨shown, answered, length, each, last⟩ := items_contribute valid short inRange
  refine ⟨shown.map Item.lines, ?_, ?_, ?_, last⟩
  · rw [run, answered, Except.map, output, Log.linesText_eq_join, List.flatMap_def]
  · rw [List.length_map, length]
  · intro index input stands
    obtain ⟨item, found, share⟩ := each index input stands
    exact ⟨item.lines, by rw [List.getElem?_map, found]; rfl, share⟩

/-- A name is bound, a text is cut off, a quotient fails and the name is still bound. -/
theorem run_contributes_quotient :
    (⟨[], false⟩ : Settings).color = .ok false
    ∧ (∀ input ∈ ["(define a 2)", "(+ a", "(/ a 0)", "a"], ShortRuns input.toList)
    ∧ session ["(define a 2)", "(+ a"] .empty = ⟨[("a", .int 2)]⟩
    ∧ (∃ shares : List (List String),
      (run ⟨[], false⟩ ["(define a 2)", "(+ a", "(/ a 0)", "a"]).outcome.map output =
        .ok (String.join (shares.flatten.map (· ++ "\n")))
      ∧ String.join (shares.flatten.map (· ++ "\n")) =
        "Parsed expression: Application(operator=Constant(atom=InstructionAtom(DEFINE)), "
          ++ "operands=(Constant(atom=Key('a')), Constant(atom=Int(2))))  ;; (define a 2)\n"
          ++ "Evaluated result: Key('a')\n"
          ++ "Parse error: unterminated application at line 1, column 5 in application: "
          ++ "expected ')' before end of input\n"
          ++ "Parsed expression: Application(operator=Constant(atom=InstructionAtom(DIVIDE)), "
          ++ "operands=(Constant(atom=Key('a')), Constant(atom=Int(0))))  ;; (/ a 0)\n"
          ++ "Error: Division by zero\n"
          ++ "Parsed expression: Constant(atom=Key('a'))  ;; a\n"
          ++ "Evaluated result: Int(2)\n"
      ∧ shares.length = 4
      ∧ ∃ lines, shares[2]? = some lines
        ∧ Contributes ⟨[], false⟩ ⟨[("a", .int 2)]⟩ "(/ a 0)" lines)
    ∧ (run ⟨[], false⟩ ["(define a 2)", "(+ a", "(/ a 0)", "a"]).environment =
      ⟨[("a", .int 2)]⟩ := by
  have valid : (⟨[], false⟩ : Settings).color = .ok false := rfl
  have short : ∀ input ∈ ["(define a 2)", "(+ a", "(/ a 0)", "a"], ShortRuns input.toList := by
    have lengths : ∀ input ∈ ["(define a 2)", "(+ a", "(/ a 0)", "a"],
        input.toList.length ≤ Text.digitLimit := by
      decide
    exact fun input member run inside _ => Nat.le_trans inside.length_le (lengths input member)
  have before : session ["(define a 2)", "(+ a"] .empty = ⟨[("a", .int 2)]⟩ := by
    decide +kernel
  obtain ⟨shares, shown, length, each, last⟩ := run_contributes _ valid _ short
  obtain ⟨lines, found, share⟩ := each 2 "(/ a 0)" rfl
  refine ⟨valid, short, before, ⟨shares, shown, ?_, length, lines, found, before ▸ share⟩,
    last.trans (by decide +kernel)⟩
  refine Except.ok.inj (shown.symm.trans ?_)
  decide +kernel

end Runs

end Demo

end PocketLisp
