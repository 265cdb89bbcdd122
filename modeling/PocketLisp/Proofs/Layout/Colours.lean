import PocketLisp.Proofs.Layout.Words

/-!
# Layout with colours

Deleting the control sequences from a coloured text leaves an arrangement of the same
outline without colours. It need not be the one that is written without colours. A layout
measures the control sequences along with the text, so a form that would fit without its
colours may be broken because of them, and this is the only way for the two to differ.
-/

namespace PocketLisp

namespace Text

/-- Deleting the control sequences takes one text to another, whatever stands behind. -/
def Bares (painted plain : List Char) : Prop :=
  ∀ rest, bare (painted ++ rest) = plain ++ bare rest

variable {painted plain : List Char}

/-- Text without an escape is left as it is. -/
theorem bares_self {chars : List Char} (unescaped : Unescaped chars) : Bares chars chars :=
  append_of_cons bare_cons unescaped

/-- Texts are bared one after the other. -/
theorem Bares.append {others plainOthers : List Char} (bares : Bares painted plain)
    (behind : Bares others plainOthers) : Bares (painted ++ others) (plain ++ plainOthers) := by
  intro rest
  rw [List.append_assoc, bares, behind, List.append_assoc]

/-- Texts that are made of members of a list are bared member by member. -/
theorem bares_flatMap {α : Type} {painted plain : α → List Char} {items : List α}
    (bares : ∀ item ∈ items, Bares (painted item) (plain item)) :
    Bares (items.flatMap painted) (items.flatMap plain) := by
  induction items with
  | nil => exact fun _ => rfl
  | cons item items inductionHypothesis =>
      obtain ⟨here, others⟩ := List.forall_mem_cons.1 bares
      rw [List.flatMap_cons, List.flatMap_cons]
      exact here.append (inductionHypothesis others)

/-- What is bared to a text is that text without its control sequences. -/
theorem Bares.bare_eq (bares : Bares painted plain) : bare painted = plain := by
  have alone := bares []
  rwa [bare, List.append_nil, List.append_nil] at alone

end Text

namespace Outline

open Text (Bares bares_self bares_flatMap)

/-- A painted word is bared to the word. -/
theorem bares_brush (role : Role) {text : String} (solid : Text.Solid text.toList) :
    Bares (role.brush true text).toList (role.brush false text).toList :=
  (Layout.erasure_colored 0).painted solid.unescaped rfl

/-- Parts in brackets are bared part by part. -/
theorem bares_bracketed {α : Type} {separator : List Char} {painted plain : α → List Char}
    {first : α} {rest : List α} (unescaped : Text.Unescaped separator)
    (parts : ∀ part ∈ first :: rest, Bares (painted part) (plain part)) :
    Bares (bracketed separator painted first rest) (bracketed separator plain first rest) := by
  obtain ⟨head, others⟩ := List.forall_mem_cons.1 parts
  have opening : Bares ['('] ['('] := bares_self (by decide)
  have closing : Bares [')'] [')'] := bares_self (by decide)
  have behind : Bares (rest.flatMap fun part => separator ++ painted part)
      (rest.flatMap fun part => separator ++ plain part) :=
    bares_flatMap fun part member => (bares_self unescaped).append (others part member)
  exact opening.append ((head.append behind).append closing)

/-- An arrangement with colours is bared to the same arrangement without them. -/
theorem Solid.bares {outline : Outline} (solid : outline.Solid) (whole : Int → Outline → Bool)
    (indent : Int) :
    Bares (outline.arrange true whole indent) (outline.arrange false whole indent) := by
  induction outline generalizing indent with
  | word role text =>
      cases solid with
      | word solid => exact bares_brush role solid
  | form first rest inductionHypothesis =>
      cases solid with
      | form parts =>
          rw [arrange_form, arrange_form]
          refine bares_bracketed (Layout.unescaped_of_gap (gap_separator _ _)) fun part member => ?_
          exact inductionHypothesis part member (parts part member) (indent + 1)

/-- Colours make no line shorter. -/
theorem length_line_le_painted (outline : Outline) :
    (outline.line false).length ≤ (outline.line true).length := by
  induction outline with
  | word role text =>
      rw [line, line, String.length_toList, String.length_toList]
      simp only [Role.brush, Role.wrap, Bool.false_eq_true, if_false, if_true, String.length_append]
      omega
  | form first rest inductionHypothesis =>
      rw [line_form, line_form, length_bracketed, length_bracketed]
      have parts := List.sum_le_sum inductionHypothesis
      omega

/-- What fits on one line with its colours also does without them. -/
theorem fits_of_fits_painted {width : Int} (indent : Int) (outline : Outline)
    (painted : outline.fits true width indent = true) : outline.fits false width indent = true := by
  have shorter := outline.length_line_le_painted
  simp only [fits, decide_eq_true_eq] at painted ⊢
  omega

end Outline

namespace Layout

open Outline

/-- With colours the painted outline is arranged. -/
theorem write_colored_eq {tree : Datum} (wellFormed : tree.WellFormed) (width indent : Int) :
    (colored width).write indent tree =
      .ok (String.ofList (tree.outline.arrange true (fits true width) indent)) :=
  write_eq rfl tree indent wellFormed

/-- Deleting the control sequences from the coloured text of a tree gives the text that is
written without colours exactly when every form of two or more parts that fits on one line
without its colours also fits there with them. -/
theorem bare_write_eq_iff (tree : Datum) (wellFormed : tree.WellFormed) (named : tree.Named)
    (width indent : Int) :
    ∃ text painted, (plain width).write indent tree = .ok text
      ∧ (colored width).write indent tree = .ok painted
      ∧ (Text.bare painted.toList = text.toList ↔
        ∀ inner place, tree.outline.Holds indent inner place → 2 ≤ inner.partCount →
          ((inner.line false).length : Int) + 2 * place ≤ width →
            ((inner.line true).length : Int) + 2 * place ≤ width) := by
  refine ⟨_, _, write_plain_eq wellFormed width indent, write_colored_eq wellFormed width indent,
    ?_⟩
  have bares := named.solid.bares (fits true width) indent
  rw [String.toList_ofList, String.toList_ofList, bares.bare_eq,
    arrange_eq_arrange_iff fits_of_fits_painted]
  simp only [fits, decide_eq_true_eq]

/-- The sum of two numbers is well-formed, and an application of constants. -/
theorem sum_admitted :
    Datum.WellFormed (.application (.instruction .add) [.int 1, .int 2])
      ∧ Datum.Named (.application (.instruction .add) [.int 1, .int 2]) :=
  ⟨by decide, by simp [Datum.Named, Datum.AllNamed, Datum.instruction, Datum.int]⟩

/-- In a line that is wide enough for the control sequences colours make no difference. -/
theorem bare_write_sum :
    Datum.WellFormed (.application (.instruction .add) [.int 1, .int 2])
      ∧ Datum.Named (.application (.instruction .add) [.int 1, .int 2])
      ∧ ∃ text painted,
        (plain 34).write 0 (.application (.instruction .add) [.int 1, .int 2]) = .ok text
          ∧ (colored 34).write 0 (.application (.instruction .add) [.int 1, .int 2]) = .ok painted
          ∧ Text.bare painted.toList = text.toList := by
  obtain ⟨wellFormed, named⟩ := sum_admitted
  have length : ((Datum.outline (.application (.instruction .add) [.int 1, .int 2])).line
      true).length = 34 := by
    decide
  obtain ⟨text, painted, without, colours, same⟩ := bare_write_eq_iff _ wellFormed named 34 0
  refine ⟨wellFormed, named, text, painted, without, colours, same.2 ?_⟩
  intro inner place holds _ _
  have shorter := holds.length_line_le true
  omega

/-- In a line of ten columns a sum that takes seven is broken for its colours. -/
theorem bare_write_sum_ne :
    Datum.WellFormed (.application (.instruction .add) [.int 1, .int 2])
      ∧ Datum.Named (.application (.instruction .add) [.int 1, .int 2])
      ∧ ∃ text painted,
        (plain 10).write 0 (.application (.instruction .add) [.int 1, .int 2]) = .ok text
          ∧ (colored 10).write 0 (.application (.instruction .add) [.int 1, .int 2]) = .ok painted
          ∧ text.toList = "(+ 1 2)".toList
          ∧ Text.bare painted.toList = "(+\n  1\n  2)".toList
          ∧ Text.bare painted.toList ≠ text.toList := by
  obtain ⟨wellFormed, named⟩ := sum_admitted
  have bared := (named.solid.bares (fits true 10) 0).bare_eq
  have whole : (Datum.outline (.application (.instruction .add) [.int 1, .int 2])).arrange
      false (fits false 10) 0 = "(+ 1 2)".toList := by
    decide
  have broken : (Datum.outline (.application (.instruction .add) [.int 1, .int 2])).arrange
      false (fits true 10) 0 = "(+\n  1\n  2)".toList := by
    decide
  refine ⟨wellFormed, named, _, _, write_plain_eq wellFormed 10 0,
    write_colored_eq wellFormed 10 0, ?_⟩
  simp only [String.toList_ofList, bared, whole, broken]
  decide

end Layout

end PocketLisp
