import PocketLisp.Proofs.Reading.Constants

/-!
# The grammar that the reader accepts

Reading an expression at a cursor yields a tree exactly where a spelling of the tree
stands that nothing behind it goes on with. Both directions go by the structure of
what is given: from a spelling by its derivation, and from a reading by the
recursion of the rules.
-/

namespace PocketLisp.Reading

open Attempt

variable {cursor next behind : Cursor} {tree item : Datum} {others : List Datum}
  {spelling gap rest : List Char} {char : Char}

section Gaps

/-- What cannot stand between two items can start one. -/
def Opens (char : Char) : Prop :=
  Text.isGap char = false ∧ char ≠ ')'

/-- What continues a key can start an item. -/
theorem opens_of_continuesKey (continues : continuesKey char = true) : Opens char := by
  constructor
  · cases gap : Text.isGap char with
    | false => rfl
    | true => exact absurd continues (by simp [continuesKey_of_isGap gap])
  · rintro rfl
    contradiction

/-- Every spelling starts with a character that can start an item. -/
theorem Spells.head {admitted : Nat → Prop} (spelled : Spells admitted tree spelling) :
    ∃ char, spelling.head? = some char ∧ Opens char := by
  cases spelled with
  | integer numeral =>
      obtain ⟨first, others, rfl⟩ := List.exists_cons_of_ne_nil numeral.written
      have digit := numeral.decimal first List.mem_cons_self
      exact ⟨first, rfl, opens_of_continuesKey (continuesKey_of_isDigit digit)⟩
  | key isName =>
      obtain ⟨first, head, starts⟩ := isName.starts
      exact ⟨first, head, opens_of_continuesKey (continuesKey_of_startsKey starts)⟩
  | boolean value => exact ⟨letter value, rfl, by cases value <;> exact ⟨rfl, by decide⟩⟩
  | instruction tag => cases tag <;> exact ⟨_, rfl, rfl, by decide⟩
  | application leadGap spelled => exact ⟨'(', rfl, rfl, by decide⟩
  | definition leadGap isName innerGap spelled behindGap => exact ⟨'d', rfl, rfl, by decide⟩

/-- The spelling of several trees starts with a character that can start an item. -/
theorem SpellsItems.head {admitted : Nat → Prop}
    (spelled : SpellsItems admitted item others spelling) :
    ∃ char, spelling.head? = some char ∧ Opens char := by
  cases spelled with
  | last spelled behindGap =>
      obtain ⟨char, head, starts⟩ := spelled.head
      exact ⟨char, by rw [List.head?_append, head, Option.some_or], starts⟩
  | more spelled isGap apart others =>
      obtain ⟨char, head, starts⟩ := spelled.head
      refine ⟨char, ?_, starts⟩
      rw [List.append_assoc, List.head?_append, head, Option.some_or]

/-- Blanks that no blank follows are what a reader skips. -/
theorem skipGaps_of_takes (isGap : Gap gap) (takes : cursor.Takes gap next)
    (stops : ∀ char, next.ahead.head? = some char → Text.isGap char = false) :
    cursor.skipGaps = next :=
  (Cursor.past_eq_of_takes takes isGap stops).2

/-- What a reader skips is blanks. -/
theorem exists_takes_skipGaps (cursor : Cursor) :
    ∃ gap, Gap gap ∧ cursor.Takes gap cursor.skipGaps :=
  ⟨_, List.all_eq_true.1 List.all_takeWhile, cursor.takes_past Text.isGap⟩

/-- No blank stands behind the blanks that are skipped. -/
theorem isGap_head_skipGaps (head : cursor.skipGaps.ahead.head? = some char) :
    Text.isGap char = false :=
  Cursor.head_past head

/-- Blanks are skipped at once. -/
@[simp] theorem skipGaps_skipGaps (cursor : Cursor) : cursor.skipGaps.skipGaps = cursor.skipGaps :=
  skipGaps_of_takes (by simp [Gap]) (.refl _) fun _ => isGap_head_skipGaps

/-- Where a reading comes to, the same blanks are left to skip. -/
@[simp] theorem skipGaps_settle (tree : Datum) (cursor : Cursor) :
    (settle tree cursor).skipGaps = cursor.skipGaps := by
  unfold settle
  split
  · exact skipGaps_skipGaps cursor
  · rfl

/-- Where no gap is needed, the next item ends the spelling before it. -/
theorem stops_of_not_needsGap (head : rest.head? = some char) (apart : ¬NeedsGap tree rest) :
    Stops tree char := by
  unfold Stops
  split
  · simpa [NeedsGap, head] using apart
  · simpa [NeedsGap, head] using apart
  · simpa [NeedsGap, head] using apart
  · exact fun word => absurd word apart
  · trivial

/-- A gap is not needed before an item that ends the spelling before it. -/
theorem not_needsGap_of_stops (head : rest.head? = some char) (opens : Opens char)
    (stops : Stops tree char) : ¬NeedsGap tree rest := by
  unfold NeedsGap
  split
  · intro word
    rcases stops word with gap | bracket
    · exact absurd gap (by simp [opens.1])
    · exact opens.2 bracket
  · simpa [head, Stops] using stops
  · simpa [head, Stops] using stops
  · simpa [head, Stops] using stops
  · exact not_false

end Gaps

section Writing

/-- Round brackets are no constants, and neither is the end of a text. -/
theorem declines_constant_of_bracket
    (bracket : ∀ char, cursor.ahead.head? = some char → char = '(' ∨ char = ')') :
    Declines (constant cursor) := by
  refine declines_constant_iff.2 (declines_atom_iff.2 ⟨?_, ?_, ?_, ?_⟩)
  · refine declines_integer_iff.2 fun char head => ?_
    rcases bracket char head with rfl | rfl <;> decide
  · refine declines_key_iff.2 (.inl fun char head => ?_)
    rcases bracket char head with rfl | rfl <;> decide
  · refine declines_boolean_iff.2 fun char head => ?_
    rcases bracket char head with rfl | rfl <;> decide
  · refine (declines_iff_of_not_aborts fun _ => not_aborts_instruction).2 fun tag next yields => ?_
    have takes := (yields_instruction_iff.1 yields).1
    obtain ⟨first, others, token⟩ := List.exists_cons_of_ne_nil (token_ne_nil tag)
    rcases bracket first (takes.head (by rw [token, List.head?_cons])) with rfl | rfl <;>
      cases tag <;> exact absurd token (by simp [Instruction.token])

/-- An application is no constant. -/
theorem declines_constant_of_application {opened : Cursor} (bracket : cursor.Takes ['('] opened) :
    Declines (constant cursor) :=
  declines_constant_of_bracket fun _ head =>
    .inl (Option.some.inj (head.symm.trans (bracket.head rfl)))

/-- The word of a definition in the long style is no constant: a bracket stands behind
it. -/
theorem declines_constant_of_define {word outer : Cursor}
    (takes : cursor.Takes "define".toList word) (opened : word.Takes ['('] outer) :
    Declines (constant cursor) := by
  have head : cursor.ahead.head? = some 'd' := takes.head rfl
  have same : ∀ other, cursor.ahead.head? = some other → other = 'd' :=
    fun other ahead => Option.some.inj (ahead.symm.trans head)
  have behind : ∀ other, word.ahead.head? = some other → other = '(' :=
    fun other ahead => Option.some.inj (ahead.symm.trans (opened.head rfl))
  refine declines_constant_iff.2 (declines_atom_iff.2 ⟨?_, ?_, ?_, ?_⟩)
  · exact declines_integer_of_head head (by decide)
  · refine declines_key_of_reserved (by decide) takes fun other ahead => ?_
    rw [behind other ahead]
    decide
  · exact declines_boolean_iff.2 fun other ahead => by rw [same other ahead]; rfl
  · refine (declines_iff_of_not_aborts fun _ => not_aborts_instruction).2 fun tag next yields => ?_
    obtain ⟨token, delimited⟩ := yields_instruction_iff.1 yields
    have defined : cursor.Takes (Instruction.token .define).toList word := takes
    obtain rfl := token_unique token defined
    obtain rfl := token.unique takes
    have := delimited rfl
    simp [Cursor.atDelimiter, opened.1, Text.isGap] at this

/-- Where the word of a definition in the long style stands no application is read. -/
theorem declines_application_of_define {word : Cursor} (define : cursor.Takes "define".toList word) :
    Declines (application cursor) := by
  refine declines_application_iff.2 fun opened bracket => ?_
  have same := (define.head rfl).symm.trans (bracket.head rfl)
  contradiction

/-- Where the bracket of an application stands no definition in the long style is read. -/
theorem declines_define_of_bracket {opened : Cursor} (bracket : cursor.Takes ['('] opened) :
    Declines (define cursor) := by
  refine declines_define_of_not_takes fun word define => ?_
  have same := (bracket.head rfl).symm.trans (define.head rfl)
  contradiction

/-- Where a closing bracket stands no expression is read, and none is at the end of a text. -/
theorem declines_expr_of_bracket (closed : ∀ char, cursor.ahead.head? = some char → char = ')') :
    Declines (expr cursor) := by
  refine declines_expr_iff.2 ⟨declines_constant_of_bracket fun char head => .inr (closed char head),
    declines_application_iff.2 fun opened takes => ?_,
    declines_define_of_not_takes fun word takes => ?_⟩
  · exact absurd (closed '(' (takes.head rfl)) (by decide)
  · exact absurd (closed 'd' (takes.head rfl)) (by decide)

/-- A spelling that stands before blanks and a closing bracket is ended by them. -/
theorem ends_of_takes_gap (tree : Datum) (isGap : Gap gap) (takes : cursor.Takes gap next)
    (closed : next.ahead.head? = some ')') : Ends tree cursor.ahead := by
  intro char head
  rw [takes.1, List.head?_append] at head
  cases gap with
  | nil =>
      obtain rfl : ')' = char := by simpa [closed] using head
      exact stops_bracket tree
  | cons first others =>
      obtain rfl : first = char := by simpa using head
      exact stops_of_isGap tree (isGap first List.mem_cons_self)

/-- A spelling that stands before another item is ended by the gap between them, or by
the item where no gap is needed. -/
theorem ends_of_takes_rest {middle : Cursor} (isGap : Gap gap)
    (apart : NeedsGap tree rest → gap ≠ []) (takes : cursor.Takes gap middle)
    (others : middle.Takes rest next) (opens : ∃ char, rest.head? = some char ∧ Opens char) :
    Ends tree cursor.ahead := by
  intro char head
  rw [takes.1, List.head?_append] at head
  cases gap with
  | nil =>
      obtain ⟨first, restHead, -⟩ := opens
      obtain rfl : first = char := by simpa [others.head restHead] using head
      exact stops_of_not_needsGap restHead fun needs => apart needs rfl
  | cons first tail =>
      obtain rfl : first = char := by simpa using head
      exact stops_of_isGap tree (isGap first List.mem_cons_self)

/-- Blanks are skipped up to what cannot be one. -/
theorem skipGaps_of_opens {taken : List Char} (isGap : Gap gap) (takes : cursor.Takes gap next)
    (behind : next.Takes taken behind)
    (head : ∃ char, taken.head? = some char ∧ Opens char) : cursor.skipGaps = next := by
  obtain ⟨char, head, opens⟩ := head
  refine skipGaps_of_takes isGap takes fun other same => ?_
  rw [← Option.some.inj ((behind.head head).symm.trans same)]
  exact opens.1

/-- Blanks are skipped up to a closing bracket. -/
theorem skipGaps_of_bracket (isGap : Gap gap) (takes : cursor.Takes gap next)
    (closed : next.ahead.head? = some ')') : cursor.skipGaps = next := by
  refine skipGaps_of_takes isGap takes fun other same => ?_
  rw [← Option.some.inj (closed.symm.trans same)]
  rfl

/-- An expression is a definition in the long style where the parts of one are read. -/
theorem yields_expr_of_define {name : String} {value : Datum}
    {word outer named inner last almost : Cursor} (define : cursor.Takes "define".toList word)
    (opened : word.Takes ['('] outer) (key : Yields (key outer.skipGaps) name named)
    (bracket : named.Takes ['('] inner) (read : Yields (expr inner.skipGaps) value last)
    (closed : last.skipGaps.Takes [')'] almost) (finished : almost.Takes [')'] next) :
    Yields (expr cursor) (.application (.key name) [value]) next := by
  have noConstant := declines_constant_of_define define opened
  have noApplication := declines_application_of_define define
  exact yields_expr_iff.2 (.inr ⟨noConstant, .inr ⟨noApplication, yields_define_iff.2
    ⟨word, outer, name, named, inner, value, last, almost, define, opened, key, bracket, read,
      closed, finished, rfl⟩⟩⟩)

/-- A definition in the long style is read once its value is. -/
theorem exists_value_of_definition {name : String} {value : Datum} {lead inner : List Char}
    (leadGap : Gap lead) (isName : IsName name) (innerGap : Gap inner)
    (head : ∃ char, spelling.head? = some char ∧ Opens char) (isGap : Gap gap)
    (takes : cursor.Takes ("define(".toList ++ lead ++ name.toList
      ++ '(' :: (inner ++ spelling ++ gap) ++ "))".toList) next) :
    ∃ start last closing, start.Takes spelling last ∧ last.Takes gap closing
      ∧ closing.ahead.head? = some ')'
      ∧ (Yields (expr start) value (settle value last) →
        Yields (expr cursor) (.application (.key name) [value]) next) := by
  obtain ⟨closing, takes, brackets⟩ := takes.split
  obtain ⟨named, takes, inside⟩ := takes.split
  obtain ⟨start, takes, text⟩ := takes.split
  obtain ⟨outer, takes, space⟩ := takes.split
  have opening : cursor.Takes ("define".toList ++ ['(']) outer := takes
  obtain ⟨word, define, opened⟩ := opening.split
  obtain ⟨inward, bracket, inside⟩ := inside.split_cons
  obtain ⟨last, inside, behind⟩ := inside.split
  obtain ⟨first, lead, written⟩ := inside.split
  obtain ⟨almost, closed, finished⟩ := brackets.split_cons
  obtain ⟨char, nameHead, starts⟩ := isName.starts
  have nameOpens := opens_of_continuesKey (continuesKey_of_startsKey starts)
  have atName := skipGaps_of_opens leadGap space text ⟨char, nameHead, nameOpens⟩
  have atValue := skipGaps_of_opens innerGap lead written head
  have atEnd := skipGaps_of_bracket isGap behind (brackets.head rfl)
  refine ⟨first, last, closing, written, behind, brackets.head rfl, fun read => ?_⟩
  have key : Yields (key outer.skipGaps) name named := by
    rw [atName]
    refine yields_key_iff.2 ⟨isName, text, fun other same => ?_⟩
    obtain rfl := Option.some.inj ((bracket.head rfl).symm.trans same)
    decide
  rw [← atValue] at read
  rw [← atEnd, ← skipGaps_settle value] at closed
  exact yields_expr_of_define define opened key bracket read closed finished

mutual

/-- A tree is read where a spelling of it stands. -/
theorem Spells.yields {cursor behind : Cursor} {tree : Datum} {spelling : List Char} :
    Spells WithinLimit tree spelling → cursor.Takes spelling behind → Ends tree behind.ahead →
      Yields (expr cursor) tree (settle tree behind)
  | .integer numeral, takes, ends =>
      yields_expr_iff.2 (.inl (yields_constant_of_numeral numeral takes ends))
  | .key isName, takes, ends =>
      yields_expr_iff.2 (.inl (yields_constant_of_isName isName takes ends))
  | .boolean value, takes, ends =>
      yields_expr_iff.2 (.inl (yields_constant_of_letter value takes ends))
  | .instruction tag, takes, ends =>
      yields_expr_iff.2 (.inl (yields_constant_of_token tag takes ends))
  | .application leadGap spelled, takes, _ => by
      obtain ⟨opened, bracket, takes⟩ := takes.split_cons
      obtain ⟨_, takes, closing⟩ := takes.split
      obtain ⟨start, lead, takes⟩ := takes.split
      have skipped := skipGaps_of_opens leadGap lead takes spelled.head
      subst skipped
      obtain ⟨last, collects, closed⟩ := spelled.collects takes (closing.head rfl)
      subst closed
      have noConstant := declines_constant_of_application bracket
      exact yields_expr_iff.2 (.inr ⟨noConstant,
        .inl (yields_application_iff.2 ⟨opened, _, _, last, bracket, collects, closing, rfl⟩)⟩)
  | .definition leadGap isName innerGap spelled behindGap, takes, _ => by
      obtain ⟨start, last, closing, text, gap, closed, whole⟩ :=
        exists_value_of_definition leadGap isName innerGap spelled.head behindGap takes
      exact whole (spelled.yields text (ends_of_takes_gap _ behindGap gap closed))

/-- Several trees are read where spellings of them stand before a closing bracket. -/
theorem SpellsItems.collects {cursor behind : Cursor} {item : Datum} {others : List Datum}
    {spelling : List Char} :
    SpellsItems WithinLimit item others spelling → cursor.skipGaps.Takes spelling behind →
      behind.ahead.head? = some ')' →
      ∃ last, Collects (items cursor) (item :: others) last ∧ last.skipGaps = behind
  | .last spelled behindGap, takes, closed => by
      obtain ⟨middle, takes, gap⟩ := takes.split
      have skipped := skipGaps_of_bracket behindGap gap closed
      have first := spelled.yields takes (ends_of_takes_gap _ behindGap gap closed)
      refine ⟨settle item middle, ?_, by rw [skipGaps_settle, skipped]⟩
      refine collects_items_iff.2 (.inr ⟨item, _, [], rfl, first, ?_⟩)
      refine collects_items_iff.2 (.inl ⟨rfl, rfl, ?_⟩)
      rw [skipGaps_settle, skipped]
      exact declines_expr_of_bracket fun char head => Option.some.inj (head.symm.trans closed)
  | .more spelled isGap apart spelledRest, takes, closed => by
      obtain ⟨start, takes, rest⟩ := takes.split
      obtain ⟨middle, takes, gap⟩ := takes.split
      have skipped := skipGaps_of_opens isGap gap rest spelledRest.head
      have ends := ends_of_takes_rest isGap apart gap rest spelledRest.head
      have first := spelled.yields takes ends
      rw [← skipped, ← skipGaps_settle item] at rest
      obtain ⟨last, collects, ended⟩ := spelledRest.collects rest closed
      exact ⟨last, collects_items_iff.2 (.inr ⟨item, _, _, rfl, first, collects⟩), ended⟩

end

end Writing

section Reading

/-- Spellings of trees that stand at a cursor, and where the blanks behind them end. -/
def StandTogether (cursor : Cursor) (item : Datum) (others : List Datum) (next : Cursor) : Prop :=
  ∃ spelling, SpellsItems WithinLimit item others spelling ∧ cursor.Takes spelling next

/-- What two items that are read one behind the other have between them is a gap
wherever one is needed. -/
theorem StandTogether.cons {other : Datum} {first last : Cursor}
    (before : Stands cursor item first) (behind : StandTogether first.skipGaps other others last) :
    StandTogether cursor item (other :: others) last := by
  obtain ⟨spelling, middle, spelled, takes, ends, rfl⟩ := before
  obtain ⟨rest, spelledRest, takesRest⟩ := behind
  obtain ⟨gap, isGap, skipped⟩ := exists_takes_skipGaps middle
  rw [skipGaps_settle] at takesRest
  have apart : NeedsGap item rest → gap ≠ [] := by
    rintro needs rfl
    obtain ⟨char, head, opens⟩ := spelledRest.head
    have same := skipped.unique (.refl middle)
    rw [same] at takesRest
    exact not_needsGap_of_stops head opens (ends char (takesRest.head head)) needs
  exact ⟨spelling ++ gap ++ rest, .more spelled isGap apart spelledRest,
    (takes.trans skipped).trans takesRest⟩

/-- The last item is read together with the blanks behind it. -/
theorem StandTogether.of_stands {last : Cursor} (stands : Stands cursor item last) :
    StandTogether cursor item [] last.skipGaps := by
  obtain ⟨spelling, behind, spelled, takes, -, rfl⟩ := stands
  obtain ⟨gap, isGap, skipped⟩ := exists_takes_skipGaps behind
  rw [skipGaps_settle]
  exact ⟨spelling ++ gap, .last spelled isGap, takes.trans skipped⟩

/-- An application that is read is spelled there when its items are. -/
theorem Stands.of_application
    (inside : ∀ {opened : Cursor} {operator : Datum} {operands : List Datum} {last : Cursor},
      opened.ahead.length < cursor.ahead.length →
      Collects (items opened) (operator :: operands) last →
        StandTogether opened.skipGaps operator operands last.skipGaps)
    (yields : Yields (application cursor) tree next) : Stands cursor tree next := by
  obtain ⟨opened, operator, operands, last, bracket, collects, closed, rfl⟩ :=
    yields_application_iff.1 yields
  have shorter : opened.ahead.length < cursor.ahead.length := by
    rw [bracket.length_eq]
    exact Nat.lt_add_of_pos_left Nat.one_pos
  obtain ⟨spelling, spelled, takes⟩ := inside shorter collects
  obtain ⟨lead, leadGap, skipped⟩ := exists_takes_skipGaps opened
  exact ⟨_, next, .application leadGap spelled,
    bracket.trans ((skipped.trans takes).trans closed), fun _ _ => trivial, rfl⟩

/-- A definition in the long style that is read is spelled there when its value is. -/
theorem Stands.of_define
    (inside : ∀ {start behind : Cursor} {value : Datum},
      start.ahead.length < cursor.ahead.length →
      Yields (expr start) value behind → Stands start value behind)
    (yields : Yields (define cursor) tree next) : Stands cursor tree next := by
  obtain ⟨word, outer, name, named, inner, value, behind, closed, define, opened, key, bracket,
    read, closing, finished, rfl⟩ := yields_define_iff.1 yields
  obtain ⟨isName, nameTakes, -⟩ := yields_key_iff.1 key
  have comes : ComesToValue cursor inner.skipGaps :=
    ⟨word, outer, name, named, inner, define, opened, key, bracket, rfl⟩
  obtain ⟨spelling, last, spelled, takes, -, rfl⟩ := inside comes.shorter read
  obtain ⟨lead, leadGap, toName⟩ := exists_takes_skipGaps outer
  obtain ⟨space, innerGap, toValue⟩ := exists_takes_skipGaps inner
  obtain ⟨gap, isGap, toEnd⟩ := exists_takes_skipGaps last
  rw [skipGaps_settle] at closing
  have head := ((define.trans opened).trans toName).trans nameTakes
  have value := bracket.trans ((toValue.trans takes).trans toEnd)
  exact ⟨_, next, .definition leadGap isName innerGap spelled isGap,
    (head.trans value).trans (closing.trans finished), fun _ _ => trivial, rfl⟩

mutual

/-- An expression that is read is spelled there. -/
theorem Stands.of_expr {cursor next : Cursor} {tree : Datum}
    (yields : Yields (expr cursor) tree next) : Stands cursor tree next := by
  rcases yields_expr_iff.1 yields with constant | ⟨-, application | ⟨-, define⟩⟩
  · exact .of_constant constant
  · exact .of_application (fun shorter collects => StandTogether.of_collects collects) application
  · exact .of_define (fun shorter yields => Stands.of_expr yields) define
termination_by 2 * cursor.ahead.length

/-- Expressions that are read one behind the other are spelled there. -/
theorem StandTogether.of_collects {cursor last : Cursor} {operator : Datum}
    {operands : List Datum} (collects : Collects (items cursor) (operator :: operands) last) :
    StandTogether cursor.skipGaps operator operands last.skipGaps := by
  rcases collects_items_iff.1 collects with ⟨none, -⟩ | ⟨_, behind, _, same, yields, others⟩
  · contradiction
  obtain ⟨rfl, rfl⟩ := List.cons.inj same
  have noLonger := cursor.length_skipGaps_le
  have shorter := yields.shorter
  have stands := Stands.of_expr yields
  cases operands with
  | nil =>
      rcases collects_items_iff.1 others with ⟨-, rfl, -⟩ | ⟨_, _, _, some, -⟩
      · exact .of_stands stands
      · contradiction
  | cons tree trees => exact .cons stands (StandTogether.of_collects others)
termination_by 2 * cursor.ahead.length + 1

end

/-- An expression is read exactly where it is spelled. -/
theorem yields_expr_iff_stands : Yields (expr cursor) tree next ↔ Stands cursor tree next := by
  constructor
  · exact Stands.of_expr
  · rintro ⟨spelling, behind, spelled, takes, ends, rfl⟩
    exact spelled.yields takes ends

end Reading

end PocketLisp.Reading
