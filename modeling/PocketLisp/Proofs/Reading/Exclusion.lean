import Mathlib.Tactic.Tauto
import PocketLisp.Proofs.Reading.Grammar

/-!
# Alternatives that exclude each other

Where one alternative of an expression does not decline, the other two do. A bracket starts
nothing but an application. The word of a definition in the long style has a bracket behind it,
which makes it neither a key nor an instruction.

Of the four kinds of atom only two can stand in one place. A key that starts with the letter of
a truth value is a longer word, and the letter alone would be read there too. Every other pair is
told apart by the first character or by the reserved words.
-/

namespace PocketLisp.Reading

open Attempt

/-- The alternatives of an expression. -/
inductive Form
  | constant
  | application
  | define
  deriving DecidableEq, Repr

/-- The alternatives of an atom. -/
inductive Token
  | integer
  | key
  | boolean
  | instruction
  deriving DecidableEq, Repr

variable {cursor next : Cursor} {char : Char}

namespace Form

/-- All forms. -/
def all : List Form :=
  [.constant, .application, .define]

/-- The rule of a form. -/
def rule : Form → Rule
  | .constant => .constant
  | .application => .application
  | .define => .define

/-- The attempt of a form at a cursor. -/
def attempt (cursor : Cursor) : Form → Attempt Datum cursor
  | .constant => Reading.constant cursor
  | .application => Reading.application cursor
  | .define => Reading.define cursor

/-- A form declines when its rule does. -/
theorem declines_rule_iff {form : Form} :
    Declines (Reading.attempt form.rule cursor) ↔ Declines (form.attempt cursor) := by
  cases form <;> rfl

end Form

namespace Token

/-- All kinds of token. -/
def all : List Token :=
  [.integer, .key, .boolean, .instruction]

/-- The rule of a kind of token. -/
def rule : Token → Rule
  | .integer => .integer
  | .key => .key
  | .boolean => .boolean
  | .instruction => .instruction

/-- The attempt to read a token at a cursor as an atom. -/
def attempt (cursor : Cursor) : Token → Attempt Atom cursor
  | .integer => (Reading.integer cursor).map .int
  | .key => (Reading.key cursor).map .key
  | .boolean => (Reading.boolean cursor).map .bool
  | .instruction => (Reading.instruction cursor).map .instruction

/-- A token declines when its rule does. -/
theorem declines_rule_iff {token : Token} :
    Declines (Reading.attempt token.rule cursor) ↔ Declines (token.attempt cursor) := by
  cases token <;> simp only [Reading.attempt, attempt, rule, declines_map_iff]

/-- The two kinds of token that can stand in one place. -/
def overlaps : Token → Token → Bool
  | .key, .boolean | .boolean, .key => true
  | _, _ => false

end Token

section Forms

/-- A definition in the long style declines unless its word stands in front of a bracket. -/
theorem declines_define_of_not_opened
    (missing : ∀ word outer, cursor.Takes "define".toList word → ¬word.Takes ['('] outer) :
    Declines (define cursor) := by
  by_cases defined : ∃ word, cursor.Takes "define".toList word
  · obtain ⟨word, takes⟩ := defined
    obtain ⟨step, read, rfl⟩ := exists_literal_of_takes "define" (by decide) takes
    rw [define]
    simp only [declines_within_iff, declines_bind_iff]
    exact .inr ⟨step, read, .inl (declines_literal_iff.2 fun outer => missing _ outer takes)⟩
  · exact declines_define_of_not_takes (not_exists.1 defined)

/-- Of two forms one declines. -/
theorem forms_exclusive {first second : Form} (apart : first ≠ second) :
    Declines (first.attempt cursor) ∨ Declines (second.attempt cursor) := by
  have brackets : Declines (application cursor) ∨
      Declines (constant cursor) ∧ Declines (define cursor) := by
    by_cases bracket : ∃ opened, cursor.Takes ['('] opened
    · obtain ⟨opened, bracket⟩ := bracket
      exact .inr ⟨declines_constant_of_application bracket, declines_define_of_bracket bracket⟩
    · exact .inl (declines_application_iff.2 (not_exists.1 bracket))
  have words : Declines (define cursor) ∨ Declines (constant cursor) := by
    by_cases stands : ∃ word outer, cursor.Takes "define".toList word ∧ word.Takes ['('] outer
    · obtain ⟨word, outer, takes, opened⟩ := stands
      exact .inr (declines_constant_of_define takes opened)
    · refine .inl (declines_define_of_not_opened fun word outer takes opened => stands ?_)
      exact ⟨word, outer, takes, opened⟩
  cases first <;> cases second <;> simp only [Form.attempt] <;> tauto

end Forms

section Tokens

/-- Where a digit stands nothing but an integer is read. -/
theorem declines_of_isDigit (head : cursor.ahead.head? = some char) (digit : char.isDigit = true) :
    Declines (key cursor) ∧ Declines (boolean cursor) ∧ Declines (instruction cursor) := by
  have same : ∀ other, cursor.ahead.head? = some other → other = char :=
    fun other ahead => Option.some.inj (ahead.symm.trans head)
  refine ⟨declines_key_iff.2 (.inl fun other ahead => ?_),
    declines_boolean_iff.2 fun other ahead => ?_,
    (declines_iff_of_not_aborts fun _ => not_aborts_instruction).2 fun tag next yields => ?_⟩
  · rw [same other ahead, ← Bool.not_eq_true]
    intro starts
    simp [isDigit_of_startsKey starts] at digit
  · rw [same other ahead]
    unfold booleanOf?
    split
    · contradiction
    · contradiction
    · rfl
  · obtain ⟨first, rest, token⟩ := List.exists_cons_of_ne_nil (token_ne_nil tag)
    have starts : tag.token.toList.head? = some first := by rw [token, List.head?_cons]
    have ahead := (yields_instruction_iff.1 yields).1.head starts
    rw [← same first ahead, (token_head starts).1] at digit
    contradiction

/-- Of two kinds of token one declines, unless they are keys and truth values. -/
theorem tokens_exclusive {first second : Token} (apart : first ≠ second)
    (separate : first.overlaps second = false) :
    Declines (first.attempt cursor) ∨ Declines (second.attempt cursor) := by
  have digits : Declines (integer cursor) ∨
      Declines (key cursor) ∧ Declines (boolean cursor) ∧ Declines (instruction cursor) := by
    by_cases digit : ∃ char, cursor.ahead.head? = some char ∧ char.isDigit = true
    · obtain ⟨char, head, digit⟩ := digit
      exact .inr (declines_of_isDigit head digit)
    · refine .inl (declines_integer_iff.2 fun char head => ?_)
      exact Bool.eq_false_iff.2 fun isDigit => digit ⟨char, head, isDigit⟩
  have words : Declines (instruction cursor) ∨
      Declines (key cursor) ∧ Declines (boolean cursor) := by
    rcases (instruction cursor).outcome with ⟨tag, next, yields⟩ | declines | ⟨refusal, aborts⟩
    · obtain ⟨takes, delimited⟩ := yields_instruction_iff.1 yields
      exact .inr (declines_of_token takes (ends_instruction_iff.2 delimited)).2
    · exact .inl declines
    · exact absurd aborts not_aborts_instruction
  cases first <;> cases second <;> simp only [Token.attempt, declines_map_iff] <;>
    first | contradiction | tauto

end Tokens

section Overlap

/-- The run of key characters that a cursor stands in front of. -/
def Cursor.identifier (cursor : Cursor) : List Char :=
  cursor.ahead.takeWhile continuesKey

/-- A key that starts with the letter of a truth value is longer than the letter. -/
theorem two_le_length_of_yields_key {name : String} {value : Bool}
    (yields : Yields (key cursor) name next) (head : cursor.ahead.head? = some (letter value)) :
    2 ≤ cursor.identifier.length := by
  obtain ⟨isName, takes, stops⟩ := yields_key_iff.1 yields
  obtain ⟨run, -⟩ := Cursor.past_eq_of_takes takes isName.continues stops
  obtain ⟨char, nameHead, -⟩ := isName.starts
  obtain rfl : letter value = char := Option.some.inj (head.symm.trans (takes.head nameHead))
  obtain ⟨rest, spelled⟩ := List.head?_eq_some_iff.1 nameHead
  rw [Cursor.identifier, run, spelled]
  cases rest with
  | nil =>
      have reserved : String.ofList [letter value] ∈ reservedWords := by cases value <;> decide
      rw [← spelled, String.ofList_toList] at reserved
      exact absurd reserved isName.free
  | cons second others => simp

/-- The letter of a truth value starts an identifier. -/
theorem head?_identifier_iff {value : Bool} :
    cursor.identifier.head? = some (letter value) ↔ cursor.ahead.head? = some (letter value) := by
  have continues : continuesKey (letter value) = true := by cases value <;> decide
  rw [Cursor.identifier, List.head?_takeWhile, Option.filter_eq_some_iff, and_iff_left continues]

/-- Both a truth value and a key are read exactly where a word of two characters or more starts
with the letter of the value. -/
theorem boolean_and_key_stand_iff :
    ¬Declines (boolean cursor) ∧ ¬Declines (key cursor) ↔
      (∃ value, cursor.identifier.head? = some (letter value)) ∧ 2 ≤ cursor.identifier.length := by
  simp only [head?_identifier_iff]
  constructor
  · rintro ⟨booleans, keys⟩
    obtain ⟨value, next, yields⟩ :=
      exists_yields_of_not_declines (fun _ => not_aborts_boolean) booleans
    obtain ⟨name, behind, yieldsKey⟩ := exists_yields_of_not_declines (fun _ => not_aborts_key) keys
    obtain ⟨rest, takes, -⟩ := yields_boolean_iff.1 yields
    exact ⟨⟨value, takes.head rfl⟩, two_le_length_of_yields_key yieldsKey (takes.head rfl)⟩
  · rintro ⟨⟨value, head⟩, long⟩
    constructor
    · intro declines
      have := declines_boolean_iff.1 declines _ head
      cases value <;> contradiction
    · intro declines
      rcases declines_key_iff.1 declines with other | reserved
      · have := other _ head
        cases value <;> contradiction
      · have short := length_of_mem_reservedWords _ reserved value
          (by rw [String.toList_ofList]; exact head?_identifier_iff.2 head)
        rw [String.toList_ofList] at short
        rw [Cursor.identifier, short] at long
        contradiction

end Overlap

section Rules

/-- Whether a rule reads something at a cursor. -/
def Rule.reads (rule : Rule) (cursor : Cursor) : Bool :=
  (readAt rule cursor).isOk

/-- A rule reads something where its attempt makes a step. -/
theorem Rule.reads_iff {rule : Rule} :
    rule.reads cursor = true ↔ ∃ tree next, Yields (attempt rule cursor) tree next := by
  unfold reads readAt
  cases attempt rule cursor with
  | ok step => simp [bind, Except.bind, pure, Except.pure, Except.isOk, Except.toBool]
  | error refusal => simp [bind, Except.bind, Except.isOk, Except.toBool]

/-- What declines reads nothing. -/
theorem Rule.reads_of_declines {rule : Rule} (declines : Declines (attempt rule cursor)) :
    rule.reads cursor = false := by
  rw [← Bool.not_eq_true, reads_iff]
  rintro ⟨tree, next, yields⟩
  exact declines.not_yields yields

/-- Of rules that exclude each other at most one reads something. -/
theorem countP_reads_le_one {rules : List Rule}
    (exclusive : rules.Pairwise fun first second =>
      Declines (attempt first cursor) ∨ Declines (attempt second cursor)) :
    rules.countP (·.reads cursor) ≤ 1 := by
  induction exclusive with
  | nil => exact Nat.zero_le 1
  | @cons rule rules apart exclusive inductionHypothesis =>
      rw [List.countP_cons]
      cases reads : rule.reads cursor with
      | false => simpa using inductionHypothesis
      | true =>
          have stands : ¬Declines (attempt rule cursor) := fun declines => by
            simp [Rule.reads_of_declines declines] at reads
          have none : rules.countP (·.reads cursor) = 0 := by
            refine List.countP_eq_zero.2 fun other member => ?_
            simp [Rule.reads_of_declines ((apart other member).resolve_left stands)]
          simp [none]

/-- At most one form is read. -/
theorem countP_forms_le_one (cursor : Cursor) :
    [Rule.constant, .application, .define].countP (·.reads cursor) ≤ 1 := by
  have different : Form.all.Nodup := by decide
  have exclusive : (Form.all.map Form.rule).Pairwise fun first second =>
      Declines (attempt first cursor) ∨ Declines (attempt second cursor) := by
    refine List.pairwise_map.2 (different.imp fun apart => ?_)
    simpa only [Form.declines_rule_iff] using forms_exclusive apart
  exact countP_reads_le_one exclusive

/-- At most one token is read that is no truth value. -/
theorem countP_tokens_le_one (cursor : Cursor) :
    [Rule.integer, .key, .instruction].countP (·.reads cursor) ≤ 1 := by
  have different : [Token.integer, .key, .instruction].Pairwise fun first second =>
      first ≠ second ∧ first.overlaps second = false := by decide
  have exclusive : ([Token.integer, .key, .instruction].map Token.rule).Pairwise fun first second =>
      Declines (attempt first cursor) ∨ Declines (attempt second cursor) := by
    refine List.pairwise_map.2 (different.imp fun ⟨apart, separate⟩ => ?_)
    simpa only [Token.declines_rule_iff] using tokens_exclusive apart separate
  exact countP_reads_le_one exclusive

/-- A rule that is never refused for good reads something unless it declines. -/
theorem Rule.reads_iff_not_declines {rule : Rule}
    (never : ∀ refusal, ¬Aborts (attempt rule cursor) refusal) :
    rule.reads cursor = true ↔ ¬Declines (attempt rule cursor) := by
  rw [Rule.reads_iff]
  constructor
  · rintro ⟨tree, next, yields⟩ declines
    exact declines.not_yields yields
  · exact exists_yields_of_not_declines never

/-- Tokens that exclude each other are not both read. -/
theorem not_reads_both {first second : Token} (apart : first ≠ second)
    (separate : first.overlaps second = false) :
    ¬(first.rule.reads cursor = true ∧ second.rule.reads cursor = true) := by
  rintro ⟨reads, readsToo⟩
  rcases tokens_exclusive apart separate with declines | declines
  · have none : first.rule.reads cursor = false :=
      Rule.reads_of_declines (Token.declines_rule_iff.2 declines)
    simp [none] at reads
  · have none : second.rule.reads cursor = false :=
      Rule.reads_of_declines (Token.declines_rule_iff.2 declines)
    simp [none] at readsToo

/-- Together with a truth value only a key is read, and only where a word of two characters or
more starts with the letter of the value. -/
theorem reads_boolean_and_iff {rule : Rule} (member : rule ∈ [Rule.integer, .key, .instruction]) :
    Rule.boolean.reads cursor = true ∧ rule.reads cursor = true ↔
      rule = .key ∧ (∃ value, cursor.identifier.head? = some (letter value))
        ∧ 2 ≤ cursor.identifier.length := by
  simp only [List.mem_cons, List.not_mem_nil, or_false] at member
  rcases member with rfl | rfl | rfl
  · have apart : Token.boolean ≠ .integer := by decide
    exact iff_of_false (not_reads_both apart rfl) fun same => nomatch same.1
  · have never : ∀ refusal, ¬Aborts (attempt .key cursor) refusal := by
      simp [attempt, not_aborts_key]
    have neverToo : ∀ refusal, ¬Aborts (attempt .boolean cursor) refusal := by
      simp [attempt, not_aborts_boolean]
    rw [Rule.reads_iff_not_declines never, Rule.reads_iff_not_declines neverToo,
      ← boolean_and_key_stand_iff]
    simp [attempt]
  · have apart : Token.boolean ≠ .instruction := by decide
    exact iff_of_false (not_reads_both apart rfl) fun same => nomatch same.1

end Rules

end PocketLisp.Reading
