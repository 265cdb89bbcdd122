import PocketLisp.Proofs.Layout.Words

/-!
# Rows

A text that is written without colours falls into rows, one for each of its lines. In the
middle of a row stands an item that is in one piece: a word, or a form of two or more parts
that fits where it stands. In front of the item are the brackets of the forms that start with
it, behind it those of the forms that end with it.

The rows of a text make up a staircase. Each starts as deep as the one before it ended, and
for every bracket that is open there it is indented by two columns.
-/

namespace PocketLisp

/-- A line of a written text: the number of brackets that are open before it, and an item
between the brackets that it opens and those that it closes. -/
structure Row where
  depth : Nat
  opened : Nat
  item : Outline
  closed : Nat

namespace Row

/-- The characters of a row, two columns further in for every open bracket. -/
def text (row : Row) : List Char :=
  List.replicate (2 * row.depth) ' ' ++ List.replicate row.opened '(' ++ row.item.line false
    ++ List.replicate row.closed ')'

/-- The indentation of the item: a step for every bracket that is open in front of it. -/
def place (row : Row) : Int :=
  ((row.depth + row.opened : Nat) : Int)

/-- Rows one below the other, with a line feed in front of each. -/
def stack (rows : List Row) : List Char :=
  rows.flatMap fun row => '\n' :: row.text

/-- The item of a row is in one piece: a word, or a form of two or more parts that fits where
it stands. -/
inductive InPiece (width : Int) : Row → Prop
  | word {depth opened closed : Nat} {role : Role} {text : String} :
      InPiece width ⟨depth, opened, .word role text, closed⟩
  | form {row : Row} (several : 2 ≤ row.item.partCount)
      (fits : row.item.fits false width row.place = true) : InPiece width row

/-- Rows that lead from one depth of open brackets to another, each starting where the one
before it ends. -/
inductive Staircase : Nat → List Row → Nat → Prop
  | level (depth : Nat) : Staircase depth [] depth
  | step {opened closed next last : Nat} {item : Outline} {rows : List Row} (depth : Nat)
      (leads : next + closed = depth + opened) (behind : Staircase next rows last) :
      Staircase depth (⟨depth, opened, item, closed⟩ :: rows) last

/-- One staircase goes on where another one ends. -/
theorem Staircase.append {depth middle last : Nat} {rows others : List Row}
    (front : Staircase depth rows middle) (behind : Staircase middle others last) :
    Staircase depth (rows ++ others) last := by
  induction front with
  | level depth => exact behind
  | step depth leads _ inductionHypothesis => exact .step depth leads (inductionHypothesis behind)

/-- How deep a row stands is how many brackets the rows before it leave open. -/
theorem Staircase.depth_eq {depth last : Nat} {before behind : List Row} {row : Row}
    (staircase : Staircase depth (before ++ row :: behind) last) :
    depth + (before.map opened).sum = row.depth + (before.map closed).sum := by
  induction before generalizing depth with
  | nil =>
      cases staircase
      rfl
  | cons first before inductionHypothesis =>
      cases staircase with
      | step depth leads rest =>
          have further := inductionHypothesis rest
          simp only [List.map_cons, List.sum_cons]
          omega

/-- Rows without a line feed are the lines of the text that they make up. -/
theorem splitOn_of_stack {rows : List Row} {text : List Char} (stacked : stack rows = '\n' :: text)
    (single : ∀ row ∈ rows, '\n' ∉ row.text) : text.splitOn '\n' = rows.map Row.text := by
  have joined {rows : List Row} (some : rows ≠ []) :
      stack rows = '\n' :: ['\n'].intercalate (rows.map Row.text) := by
    induction rows with
    | nil => contradiction
    | cons row rows inductionHypothesis =>
        cases rows with
        | nil => simp [stack]
        | cons next rows =>
            have behind := inductionHypothesis (List.cons_ne_nil next rows)
            rw [stack, List.flatMap_cons, ← stack, behind]
            simp
  have some : rows ≠ [] := by
    rintro rfl
    contradiction
  rw [joined some] at stacked
  rw [← List.tail_eq_of_cons_eq stacked, List.splitOn_intercalate]
  · simpa using single
  · simpa using some

end Row

namespace Outline

/-- How many brackets are closed right behind a part of a form: none if others follow, else
that of the form and those that are closed right behind it. -/
def closing (closed : Nat) : List Outline → Nat
  | [] => closed + 1
  | _ :: _ => 0

mutual

/-- The rows of an outline, which stands behind brackets opened on its first row and in front
of brackets closed on its last one. -/
def rows (width : Int) (depth opened closed : Nat) : Outline → List Row
  | .word role text => [⟨depth, opened, .word role text, closed⟩]
  | .form first rest =>
      if !rest.isEmpty && fits false width ((depth + opened : Nat) : Int) (.form first rest) then
        [⟨depth, opened, .form first rest, closed⟩]
      else
        rows width depth (opened + 1) (closing closed rest) first
          ++ rowsBehind width (depth + opened + 1) closed rest

/-- The rows of the parts of a broken form behind its first one. -/
def rowsBehind (width : Int) (depth closed : Nat) : List Outline → List Row
  | [] => []
  | part :: rest =>
      rows width depth 0 (closing closed rest) part ++ rowsBehind width depth closed rest

end

variable {width : Int}

/-- A new line at a depth starts with two blanks for every open bracket. -/
theorem separator_false (depth : Nat) :
    separator false depth = '\n' :: List.replicate (2 * (depth + 1)) ' ' := by
  have doubled : (2 * (depth : Int)).toNat = 2 * depth := by omega
  have pair : "  ".toList = List.replicate 2 ' ' := rfl
  simp only [separator, Layout.blanks, Bool.false_eq_true, if_false, String.toList_append,
    String.toList_ofList, doubled, pair, List.replicate_append_replicate]
  rw [Nat.mul_succ]

mutual

/-- The rows of an outline stacked up are its arrangement between the brackets around it. -/
theorem stack_rows : (outline : Outline) → (depth opened closed : Nat) →
    Row.stack (outline.rows width depth opened closed) =
      '\n' :: (List.replicate (2 * depth) ' ' ++ List.replicate opened '('
        ++ outline.arrange false (fits false width) ((depth + opened : Nat) : Int)
        ++ List.replicate closed ')')
  | .word role text, depth, opened, closed => by
      simp [rows, Row.stack, Row.text, arrange, line]
  | .form first rest, depth, opened, closed => by
      rw [rows]
      split
      next whole =>
        have fitting := (Bool.and_eq_true_iff.1 whole).2
        rw [arrange_of_fits fitting]
        simp [Row.stack, Row.text]
      next broken =>
        have apart : rest ≠ [] →
            separator (fits false width ((depth + opened : Nat) : Int) (.form first rest))
              ((depth + opened : Nat) : Int) =
            '\n' :: List.replicate (2 * (depth + opened + 1)) ' ' := by
          intro several
          have wide :
              fits false width ((depth + opened : Nat) : Int) (.form first rest) = false := by
            simpa [several] using broken
          rw [wide, separator_false]
        have head : Row.stack (rows width depth (opened + 1) (closing closed rest) first) =
            '\n' :: (List.replicate (2 * depth) ' ' ++ List.replicate (opened + 1) '('
              ++ first.arrange false (fits false width) (((depth + opened : Nat) : Int) + 1)
              ++ List.replicate (closing closed rest) ')') :=
          stack_rows first depth (opened + 1) (closing closed rest)
        have behind := stack_rowsBehind rest (depth + opened + 1) closed
        calc
          Row.stack (rows width depth (opened + 1) (closing closed rest) first
                ++ rowsBehind width (depth + opened + 1) closed rest) =
              Row.stack (rows width depth (opened + 1) (closing closed rest) first)
                ++ Row.stack (rowsBehind width (depth + opened + 1) closed rest) :=
            List.flatMap_append
          _ = '\n' :: (List.replicate (2 * depth) ' ' ++ List.replicate (opened + 1) '('
                ++ first.arrange false (fits false width) (((depth + opened : Nat) : Int) + 1))
                ++ (List.replicate (closing closed rest) ')'
                  ++ Row.stack (rowsBehind width (depth + opened + 1) closed rest)) := by
            rw [head]
            simp
          _ = _ := by
            rw [behind, arrange_form, bracketed_congr (fun _ _ => rfl) apart, bracketed,
              List.replicate_succ', List.replicate_succ]
            simp

/-- The rows of the parts of a broken form behind its first one stacked up, behind the brackets
that are closed in front of them. -/
theorem stack_rowsBehind : (parts : List Outline) → (depth closed : Nat) →
    List.replicate (closing closed parts) ')' ++ Row.stack (rowsBehind width depth closed parts) =
      parts.flatMap (fun part => '\n' :: List.replicate (2 * depth) ' '
        ++ part.arrange false (fits false width) (depth : Int))
        ++ List.replicate (closed + 1) ')'
  | [], depth, closed => by simp [closing, rowsBehind, Row.stack]
  | part :: parts, depth, closed => by
      have here := stack_rows part depth 0 (closing closed parts)
      have behind := stack_rowsBehind parts depth closed
      calc
        List.replicate (closing closed (part :: parts)) ')'
              ++ Row.stack (rowsBehind width depth closed (part :: parts)) =
            Row.stack (rows width depth 0 (closing closed parts) part)
              ++ Row.stack (rowsBehind width depth closed parts) := by
          simp [closing, rowsBehind, Row.stack]
        _ = '\n' :: List.replicate (2 * depth) ' '
              ++ part.arrange false (fits false width) (depth : Int)
              ++ (List.replicate (closing closed parts) ')'
                ++ Row.stack (rowsBehind width depth closed parts)) := by
          rw [here]
          simp
        _ = _ := by
          rw [behind]
          simp

end

mutual

/-- The items of the rows of an outline are in one piece. They stand within the outline,
indented by the brackets that are open in front of them. -/
theorem holds_rows : (outline : Outline) → (depth opened closed : Nat) →
    ∀ row ∈ outline.rows width depth opened closed,
      outline.Holds ((depth + opened : Nat) : Int) row.item row.place ∧ row.InPiece width
  | .word role text, depth, opened, closed => List.forall_mem_singleton.2 ⟨.self _ _, .word⟩
  | .form first rest, depth, opened, closed => by
      rw [rows]
      split
      next whole =>
        obtain ⟨some, fitting⟩ := Bool.and_eq_true_iff.1 whole
        have several : 2 ≤ (Outline.form first rest).partCount := by
          cases rest with
          | nil => contradiction
          | cons second rest => simp [partCount]
        exact List.forall_mem_singleton.2 ⟨.self _ _, .form several fitting⟩
      next =>
        refine List.forall_mem_append.2 ⟨fun row member => ?_, fun row member => ?_⟩
        · obtain ⟨holds, inPiece⟩ := holds_rows first depth (opened + 1) _ row member
          exact ⟨.part List.mem_cons_self holds, inPiece⟩
        · obtain ⟨part, among, holds, inPiece⟩ :=
            holds_rowsBehind rest (depth + opened + 1) closed row member
          exact ⟨.part (List.mem_cons_of_mem first among) holds, inPiece⟩

/-- The items of the rows behind the first part of a form stand within the other parts. -/
theorem holds_rowsBehind : (parts : List Outline) → (depth closed : Nat) →
    ∀ row ∈ rowsBehind width depth closed parts,
      ∃ part ∈ parts, part.Holds (depth : Int) row.item row.place ∧ row.InPiece width
  | [], _, _ => List.forall_mem_nil _
  | part :: parts, depth, closed => by
      refine List.forall_mem_append.2 ⟨fun row member => ?_, fun row member => ?_⟩
      · exact ⟨part, List.mem_cons_self, holds_rows part depth 0 _ row member⟩
      · obtain ⟨other, among, stands⟩ := holds_rowsBehind parts depth closed row member
        exact ⟨other, List.mem_cons_of_mem part among, stands⟩

end

/-- The items of the rows of an outline have no words but those of the outline. -/
theorem Solid.rows {outline : Outline} (solid : outline.Solid) (depth opened closed : Nat) :
    ∀ row ∈ outline.rows width depth opened closed, row.item.Solid :=
  fun row member => solid.of_holds (holds_rows outline depth opened closed row member).1

/-- At most the bracket of a form is closed besides those that are closed right behind it. -/
theorem closing_le (closed : Nat) (rest : List Outline) : closing closed rest ≤ closed + 1 := by
  cases rest <;> simp [closing]

mutual

/-- The rows of an outline lead from the depth before it to the depth behind it. -/
theorem staircase_rows : (outline : Outline) → (depth opened closed last : Nat) →
    last + closed = depth + opened →
      Row.Staircase depth (outline.rows width depth opened closed) last
  | .word role text, depth, opened, closed, last, leads => .step depth leads (.level last)
  | .form first rest, depth, opened, closed, last, leads => by
      rw [rows]
      split
      next => exact .step depth leads (.level last)
      next =>
        have most := closing_le closed rest
        obtain ⟨middle, met⟩ : ∃ middle, middle + closing closed rest = depth + opened + 1 :=
          ⟨depth + opened + 1 - closing closed rest, by omega⟩
        exact (staircase_rows first depth (opened + 1) _ middle met).append
          (staircase_rowsBehind rest (depth + opened + 1) closed middle last met (by omega))

/-- The rows of the parts of a broken form lead from the depth behind its first part to the
depth behind the form. -/
theorem staircase_rowsBehind : (parts : List Outline) → (depth closed middle last : Nat) →
    middle + closing closed parts = depth → last + closed + 1 = depth →
      Row.Staircase middle (rowsBehind width depth closed parts) last
  | [], depth, closed, middle, last, met, leads => by
      obtain rfl : middle = last := by
        simp only [closing] at met
        omega
      exact .level middle
  | part :: parts, depth, closed, middle, last, met, leads => by
      have most := closing_le closed parts
      obtain rfl : middle = depth := met
      obtain ⟨next, further⟩ : ∃ next, next + closing closed parts = middle :=
        ⟨middle - closing closed parts, by omega⟩
      exact (staircase_rows part middle 0 _ next further).append
        (staircase_rowsBehind parts middle closed next last further leads)

end

end Outline

namespace Row

variable {row : Row}

/-- A row has no line feed. -/
theorem lineFeed_not_mem_text (solid : row.item.Solid) : '\n' ∉ row.text := by
  intro member
  simp only [text, List.mem_append, List.mem_replicate] at member
  rcases member with ((⟨-, same⟩ | ⟨-, same⟩) | inside) | ⟨-, same⟩
  · contradiction
  · contradiction
  · have character := solid.mem_line inside
    revert character
    decide
  · contradiction

/-- Of the brackets in a row those around its item are not matched. -/
theorem count_text (solid : row.item.Solid) :
    row.text.count '(' + row.closed = row.text.count ')' + row.opened := by
  have balanced := solid.count_line
  simp [text, balanced, List.count_replicate]
  omega

/-- A row starts with two spaces for each open bracket, and no more blanks follow. -/
theorem exists_text_eq (solid : row.item.Solid) :
    ∃ char rest, row.text = List.replicate (2 * row.depth) ' ' ++ char :: rest
      ∧ Text.isGap char = false := by
  cases opened : row.opened with
  | zero =>
      obtain ⟨char, rest, starts, ink⟩ := solid.exists_line_eq
      exact ⟨char, rest ++ List.replicate row.closed ')', by simp [text, opened, starts], ink⟩
  | succ others =>
      refine ⟨'(', List.replicate others '(' ++ row.item.line false
        ++ List.replicate row.closed ')', ?_, by decide⟩
      simp [text, opened, List.replicate_succ]

end Row

namespace Layout

/-- The lines of a text that is written without colours are the rows of the outline. -/
theorem exists_write_rows {tree : Datum} (wellFormed : tree.WellFormed) (named : tree.Named)
    (width : Int) :
    ∃ text, (plain width).write 0 tree = .ok text
      ∧ text.toList.splitOn '\n' = (tree.outline.rows width 0 0 0).map Row.text := by
  refine ⟨_, write_plain_eq wellFormed width 0, ?_⟩
  have stacked : Row.stack (tree.outline.rows width 0 0 0) =
      '\n' :: tree.outline.arrange false (Outline.fits false width) 0 := by
    rw [Outline.stack_rows]
    simp
  rw [String.toList_ofList]
  exact Row.splitOn_of_stack stacked fun row member =>
    Row.lineFeed_not_mem_text (named.solid.rows 0 0 0 row member)

end Layout

end PocketLisp
