import PocketLisp.Proofs.Layout.Rows

/-!
# Lines of written text

How far the lines of a text are indented, and how long they are. The indentation of a line is
two columns for every bracket that is open before it.

The width of a line bounds the forms that stay whole, with the indentation that is theirs. The
line of such a form is as long as that only if it opens as many brackets in front of the form
as it closes behind it. For every bracket that it closes beyond these it is longer by one, and
can so be longer than the width although the form could still be broken.
-/

namespace PocketLisp

namespace Text

/-- The text of a complete form of two or more parts stands in a line. -/
def HoldsForm (line : List Char) : Prop :=
  ∃ form : Outline, form.Solid ∧ 2 ≤ form.partCount ∧ form.line false <:+: line

/-- A space that stands behind a bracket is not one of the spaces that a line starts with. -/
theorem mem_of_bracket {count : Nat} {front inside behind : List Char}
    (same : front ++ '(' :: inside = List.replicate count ' ' ++ behind) (space : ' ' ∈ inside) :
    ' ' ∈ behind := by
  induction count generalizing front with
  | zero =>
      rw [List.replicate_zero, List.nil_append] at same
      rw [← same]
      exact List.mem_append_right front (List.mem_cons_of_mem '(' space)
  | succ count inductionHypothesis =>
      rw [List.replicate_succ, List.cons_append] at same
      cases front with
      | nil => simp at same
      | cons char front => exact inductionHypothesis (List.cons.inj same).2

end Text

/-- A form of two or more parts on one line has a space behind its first bracket. -/
theorem Outline.exists_line_eq_of_several {form : Outline} (several : 2 ≤ form.partCount) :
    ∃ inside, form.line false = '(' :: inside ∧ ' ' ∈ inside := by
  cases form with
  | word role text => simp [partCount] at several
  | form first rest =>
      cases rest with
      | nil => simp [partCount] at several
      | cons second rest =>
          refine ⟨_, line_form, ?_⟩
          simp

namespace Row

variable {width : Int} {row : Row}

/-- The texts of rows leave as many brackets open as are left open around their items. -/
theorem count_flatten {rows : List Row} (solid : ∀ row ∈ rows, row.item.Solid) :
    (rows.map text).flatten.count '(' + (rows.map closed).sum =
      (rows.map text).flatten.count ')' + (rows.map opened).sum := by
  induction rows with
  | nil => rfl
  | cons row rows inductionHypothesis =>
      obtain ⟨here, others⟩ := List.forall_mem_cons.1 solid
      have first := count_text here
      have behind := inductionHypothesis others
      simp only [List.map_cons, List.flatten_cons, List.count_append, List.sum_cons]
      omega

/-- A row that holds a form of two or more parts is about such a form, which fits there. -/
theorem InPiece.fits_of_holdsForm (inPiece : row.InPiece width) (solid : row.item.Solid)
    (holdsForm : Text.HoldsForm row.text) :
    2 ≤ row.item.partCount ∧ row.item.fits false width row.place = true := by
  cases inPiece with
  | form several fits => exact ⟨several, fits⟩
  | @word depth opened closed role text =>
      -- In a row about a word no space stands behind a bracket.
      obtain ⟨form, -, several, front, behind, same⟩ := holdsForm
      obtain ⟨inside, spelled, space⟩ := Outline.exists_line_eq_of_several several
      rw [spelled] at same
      simp only [Row.text, List.append_assoc, List.cons_append] at same
      have among := Text.mem_of_bracket same (List.mem_append_left behind space)
      simp only [Outline.line, List.mem_append, List.mem_replicate] at among
      cases solid with
      | word solid =>
          rcases among with ⟨-, same⟩ | inside | ⟨-, same⟩
          · contradiction
          · exact absurd inside (solid.not_mem (by decide))
          · contradiction

/-- The length of a row, from its item as it is indented. -/
theorem length_text (solid : row.item.Solid) :
    (row.text.length : Int) =
      (row.item.line false).length + 2 * row.place
        + ((row.text.count ')' : Int) - row.text.count '(') := by
  have counted := count_text solid
  have length : row.text.length =
      2 * row.depth + row.opened + (row.item.line false).length + row.closed := by
    simp only [text, List.length_append, List.length_replicate]
  simp only [place]
  omega

/-- The item of a row stands in its text. -/
theorem item_isInfix_text (row : Row) : row.item.line false <:+: row.text :=
  ⟨_, _, rfl⟩

end Row

namespace Layout

/-- Each line starts with two spaces for every bracket that is open before it, and no more
blanks follow. -/
theorem write_indents (tree : Datum) (wellFormed : tree.WellFormed) (named : tree.Named)
    (width : Int) :
    ∃ text, (plain width).write 0 tree = .ok text
      ∧ ∀ before line behind, text.toList.splitOn '\n' = before ++ line :: behind →
        ∃ depth char rest, line = List.replicate (2 * depth) ' ' ++ char :: rest
          ∧ Text.isGap char = false
          ∧ before.flatten.count '(' = before.flatten.count ')' + depth := by
  obtain ⟨text, written, lines⟩ := exists_write_rows wellFormed named width
  refine ⟨text, written, fun before line behind split => ?_⟩
  have staircase : Row.Staircase 0 (tree.outline.rows width 0 0 0) 0 :=
    Outline.staircase_rows tree.outline 0 0 0 0 rfl
  have solid : ∀ row ∈ tree.outline.rows width 0 0 0, row.item.Solid := named.solid.rows 0 0 0
  obtain ⟨rowsBefore, others, rows, rfl, further⟩ :=
    List.map_eq_append_iff.1 (lines.symm.trans split)
  obtain ⟨row, rowsBehind, rfl, rfl, -⟩ := List.map_eq_cons_iff.1 further
  rw [rows] at staircase solid
  have deep := staircase.depth_eq
  have counted := Row.count_flatten fun row member => solid row (List.mem_append_left _ member)
  obtain ⟨char, rest, starts, ink⟩ :=
    Row.exists_text_eq (solid row (List.mem_append_right _ List.mem_cons_self))
  exact ⟨row.depth, char, rest, starts, ink, by omega⟩

/-- A call whose last operand takes all of the seven columns that there are. -/
theorem write_call :
    Datum.WellFormed (.application (.key "a") [.application (.key "b") [.key "c"]])
      ∧ Datum.Named (.application (.key "a") [.application (.key "b") [.key "c"]])
      ∧ (plain 7).write 0 (.application (.key "a") [.application (.key "b") [.key "c"]]) =
        .ok "(a\n  (b c))" := by
  have wellFormed : Datum.WellFormed
      (.application (.key "a") [.application (.key "b") [.key "c"]]) := by
    decide
  have identifiers : IsIdentifier "a" ∧ IsIdentifier "b" ∧ IsIdentifier "c" := by decide
  have arranged : (Datum.outline
      (.application (.key "a") [.application (.key "b") [.key "c"]])).arrange false
        (Outline.fits false 7) 0 = "(a\n  (b c))".toList := by
    decide
  refine ⟨wellFormed, ?_, ?_⟩
  · simpa [Datum.Named, Datum.AllNamed, Datum.key] using identifiers
  · rw [write_plain_eq wellFormed, arranged, String.ofList_toList]

/-- The second line of a broken call stands two columns further in. -/
theorem write_indents_call :
    Datum.WellFormed (.application (.key "a") [.application (.key "b") [.key "c"]])
      ∧ Datum.Named (.application (.key "a") [.application (.key "b") [.key "c"]])
      ∧ ∃ text,
        (plain 7).write 0 (.application (.key "a") [.application (.key "b") [.key "c"]]) = .ok text
          ∧ text.toList.splitOn '\n' = ["(a".toList, "  (b c))".toList]
          ∧ ∃ depth char rest,
            "  (b c))".toList = List.replicate (2 * depth) ' ' ++ char :: rest
              ∧ Text.isGap char = false
              ∧ ["(a".toList].flatten.count '(' = ["(a".toList].flatten.count ')' + depth := by
  obtain ⟨wellFormed, named, shown⟩ := write_call
  obtain ⟨text, written, indents⟩ := write_indents _ wellFormed named 7
  obtain rfl := Except.ok.inj (shown.symm.trans written)
  have lines : "(a\n  (b c))".toList.splitOn '\n' = ["(a".toList, "  (b c))".toList] := by decide
  exact ⟨wellFormed, named, _, written, lines, indents ["(a".toList] _ [] lines⟩

/-- A line that holds a complete form of two or more parts fits into the width if it closes no
more brackets than it opens. For it holds one of the tree that fits there with its indentation,
and is as long as that, except that every bracket that the line closes makes it longer by one
and every bracket that it opens shorter. -/
theorem write_length (tree : Datum) (wellFormed : tree.WellFormed) (named : tree.Named)
    (width : Int) :
    ∃ text, (plain width).write 0 tree = .ok text
      ∧ ∀ line ∈ text.toList.splitOn '\n', Text.HoldsForm line →
        (line.count ')' ≤ line.count '(' → (line.length : Int) ≤ width)
          ∧ ∃ form place, tree.outline.Holds 0 form place ∧ 2 ≤ form.partCount
            ∧ form.line false <:+: line
            ∧ ((form.line false).length : Int) + 2 * place ≤ width
            ∧ (line.length : Int) =
              (form.line false).length + 2 * place
                + ((line.count ')' : Int) - line.count '(') := by
  obtain ⟨text, written, lines⟩ := exists_write_rows wellFormed named width
  refine ⟨text, written, fun line member holdsForm => ?_⟩
  rw [lines] at member
  obtain ⟨row, among, rfl⟩ := List.mem_map.1 member
  obtain ⟨holds, inPiece⟩ := Outline.holds_rows tree.outline 0 0 0 row among
  have solid := named.solid.of_holds holds
  have length := Row.length_text solid
  obtain ⟨several, fits⟩ := inPiece.fits_of_holdsForm solid holdsForm
  have short := of_decide_eq_true fits
  refine ⟨fun closes => ?_, row.item, _, holds, several, row.item_isInfix_text, short, length⟩
  omega

/-- The text of a call of two words is a complete form of two parts. -/
theorem holdsForm_call (front behind : List Char) :
    Text.HoldsForm (front ++ "(b c)".toList ++ behind) := by
  have identifiers : IsIdentifier "b" ∧ IsIdentifier "c" := by decide
  have call : Datum.Named (.application (.key "b") [.key "c"]) := by
    simpa [Datum.Named, Datum.AllNamed, Datum.key] using identifiers
  exact ⟨_, call.solid, Nat.le_refl 2, front, behind, rfl⟩

/-- A call that opens two brackets on its first line is broken behind a form that fits. -/
theorem write_length_operator :
    Datum.WellFormed (.application (.application (.key "b") [.key "c"]) [.key "d"])
      ∧ Datum.Named (.application (.application (.key "b") [.key "c"]) [.key "d"])
      ∧ ∃ text,
        (plain 7).write 0 (.application (.application (.key "b") [.key "c"]) [.key "d"]) = .ok text
          ∧ "((b c)".toList ∈ text.toList.splitOn '\n' ∧ Text.HoldsForm "((b c)".toList
          ∧ ("((b c)".toList.length : Int) ≤ 7 := by
  have wellFormed : Datum.WellFormed
      (.application (.application (.key "b") [.key "c"]) [.key "d"]) := by
    decide
  have identifiers : IsIdentifier "b" ∧ IsIdentifier "c" ∧ IsIdentifier "d" := by decide
  have named : Datum.Named (.application (.application (.key "b") [.key "c"]) [.key "d"]) := by
    simpa [Datum.Named, Datum.AllNamed, Datum.key, and_assoc] using identifiers
  have arranged : (Datum.outline
      (.application (.application (.key "b") [.key "c"]) [.key "d"])).arrange false
        (Outline.fits false 7) 0 = "((b c)\n  d)".toList := by
    decide
  obtain ⟨text, written, lengths⟩ := write_length _ wellFormed named 7
  have shown := written.symm.trans (write_plain_eq wellFormed 7 0)
  rw [arranged, String.ofList_toList, Except.ok.injEq] at shown
  subst shown
  have first : "((b c)".toList ∈ "((b c)\n  d)".toList.splitOn '\n' := by decide
  have holdsForm : Text.HoldsForm "((b c)".toList := holdsForm_call ['('] []
  exact ⟨wellFormed, named, _, written, first, holdsForm,
    (lengths _ first holdsForm).1 (by decide)⟩

/-- The last line of a call whose last operand fits exactly is longer than the width. -/
theorem write_length_operand :
    Datum.WellFormed (.application (.key "a") [.application (.key "b") [.key "c"]])
      ∧ Datum.Named (.application (.key "a") [.application (.key "b") [.key "c"]])
      ∧ ∃ text,
        (plain 7).write 0 (.application (.key "a") [.application (.key "b") [.key "c"]]) = .ok text
          ∧ ¬∀ line ∈ text.toList.splitOn '\n', Text.HoldsForm line → (line.length : Int) ≤ 7 := by
  obtain ⟨wellFormed, named, shown⟩ := write_call
  refine ⟨wellFormed, named, _, shown, fun short => ?_⟩
  have last : "  (b c))".toList ∈ "(a\n  (b c))".toList.splitOn '\n' := by decide
  exact absurd (short _ last (holdsForm_call [' ', ' '] [')'])) (by decide)

end Layout

end PocketLisp
