import PocketLisp.Proofs.Layout.Outline

/-!
# Forms that fit

The written text of a tree is an arrangement of its outline. A layout measures a form by
its parts as they are already written, broken or not. That comes to the same as measuring
the form on one line: if it fits there, so does each form inside it, for brackets take as
much room on both sides as a step of indentation; and if it does not, then what was already
written is no shorter.

So the text of a whole tree stands on one line exactly when it fits there, or when nothing
in it can be broken.
-/

namespace PocketLisp

/-- The word of an atom. -/
def Atom.outline : Atom → Outline
  | .int value => .word .literal (toString value)
  | .bool value => .word .literal (if value then "t" else "f")
  | .key name => .word .key name
  | .instruction tag => .word .instruction tag.token

namespace Datum

mutual

/-- What is written of a tree. The word at the head of a condition or a quotation is a part
of its form. What is no expression is not written, and so has a word of no characters. -/
def outline : Datum → Outline
  | .constant (.atom value) => value.outline
  | .application operator operands => .form operator.outline (outlines operands)
  | .ifThen condition consequence =>
      .form (.word .reserved "if") [condition.outline, consequence.outline]
  | .ifElse condition consequence alternative =>
      .form (.word .reserved "if")
        [condition.outline, consequence.outline, alternative.outline]
  | .quote items => .form (.word .reserved "quote") (outlines items)
  | .plain _ | .atom _ | .constant _ => .word .reserved ""

/-- What is written of each tree of a list. -/
def outlines : List Datum → List Outline
  | [] => []
  | item :: items => item.outline :: outlines items

end

end Datum

namespace Outline

variable {colours : Bool} {width indent place : Int} {outline inner : Outline}

/-- What stands within an outline is shorter on one line, by two characters for every step
that it stands further in. -/
theorem Holds.length_line_le (holds : outline.Holds indent inner place) (colours : Bool) :
    ((inner.line colours).length : Int) + 2 * place ≤
      (outline.line colours).length + 2 * indent := by
  induction holds with
  | self outline indent => exact Int.le_refl _
  | @part first part inner rest indent place member holds inductionHypothesis =>
      have within : (part.line colours).length ≤
          ((first :: rest).map fun part => (part.line colours).length).sum :=
        List.le_sum_of_mem (List.mem_map_of_mem member)
      rw [line_form, length_bracketed]
      omega

/-- What stands within an outline that fits on one line fits there too. -/
theorem fits_of_holds (holds : outline.Holds indent inner place)
    (here : outline.fits colours width indent = true) : inner.fits colours width place = true := by
  have shorter := holds.length_line_le colours
  simp only [fits, decide_eq_true_eq] at here ⊢
  omega

/-- What fits on one line stands on one line. -/
theorem arrange_of_fits (here : outline.fits colours width indent = true) :
    outline.arrange colours (fits colours width) indent = outline.line colours := by
  rw [← arrange_whole outline indent]
  exact arrange_congr fun inner place holds _ => fits_of_holds holds here

/-- No arrangement is shorter than the outline on one line. -/
theorem length_line_le_arrange (colours : Bool) (whole : Int → Outline → Bool) (outline : Outline)
    (indent : Int) :
    (outline.line colours).length ≤ (outline.arrange colours whole indent).length := by
  rw [← arrange_whole outline indent]
  exact length_arrange_le colours (fun _ _ _ => rfl) outline indent

/-- If an outline does not fit on one line, some form of two or more parts in it does not,
unless it has no such form. -/
theorem Holds.exists_wide (holds : outline.Holds indent inner place) (several : 2 ≤ inner.partCount)
    (wide : outline.fits colours width indent = false) :
    ∃ form inside, outline.Holds indent form inside ∧ 2 ≤ form.partCount
      ∧ form.fits colours width inside = false := by
  induction holds with
  | self outline indent => exact ⟨outline, indent, .self outline indent, several, wide⟩
  | @part first part inner rest indent place member holds inductionHypothesis =>
      cases rest with
      | nil =>
          -- A form of one part is as long as the part and the step around it.
          obtain rfl := List.mem_singleton.1 member
          have inside : part.fits colours width (indent + 1) = false := by
            simp only [fits, line_form, length_bracketed, List.map_cons, List.map_nil,
              List.sum_cons, List.sum_nil, List.length_nil, decide_eq_false_iff_not] at wide ⊢
            omega
          obtain ⟨form, place, further, parts, broken⟩ := inductionHypothesis several inside
          exact ⟨form, place, .part member further, parts, broken⟩
      | cons second rest =>
          exact ⟨_, indent, .self _ indent, by simp [partCount], wide⟩

/-- An outline stands on one line exactly when it fits there or cannot be broken. -/
theorem arrange_fits_eq_line_iff :
    outline.arrange colours (fits colours width) indent = outline.line colours ↔
      outline.fits colours width indent = true
        ∨ ∀ inner place, outline.Holds indent inner place → inner.partCount < 2 := by
  constructor
  · intro same
    by_contra neither
    simp only [not_or, Bool.not_eq_true, not_forall, Nat.not_lt] at neither
    obtain ⟨wide, inner, place, holds, several⟩ := neither
    obtain ⟨form, place, within, parts, broken⟩ := holds.exists_wide several wide
    rw [← arrange_whole outline indent, arrange_eq_arrange_iff fun _ _ _ => rfl] at same
    simp [same form place within parts rfl] at broken
  · rintro (here | single)
    · exact arrange_of_fits here
    · rw [← arrange_whole outline indent]
      refine arrange_congr fun inner place holds several => ?_
      exact absurd (single inner place holds) (Nat.not_lt.2 several)

end Outline

namespace Layout

open Outline

variable {layout : Layout} {colours : Bool}

/-- A form is put together on one line if its parts fit there as they are written. -/
theorem toList_assemble {α : Type} (width indent : Int) (written : α → String) (first : α)
    (rest : List α) :
    (assemble width indent ((first :: rest).map written)).toList =
      bracketed
        (separator (decide (((bracketed [' '] (fun part => (written part).toList) first rest).length
          : Int) + 2 * indent ≤ width)) indent)
        (fun part => (written part).toList) first rest := by
  have one : (oneLine ((first :: rest).map written)).toList =
      bracketed [' '] (fun part => (written part).toList) first rest := by
    rw [← bracketed_map]
    exact toList_oneLine (written first) (rest.map written)
  have several : (broken indent (written first) (rest.map written)).toList =
      bracketed (separator false indent) (fun part => (written part).toList) first rest := by
    rw [← bracketed_map]
    exact toList_broken indent (written first) (rest.map written)
  cases rest with
  | nil => exact one
  | cons second rest =>
      rw [← one]
      simp only [List.map_cons, assemble, String.length_toList]
      split
      next short =>
        rw [decide_eq_true short]
        exact one
      next long =>
        rw [decide_eq_false long]
        exact several

/-- Measuring the parts of a form as they are already arranged comes to the same as
measuring the form on one line. -/
theorem assemble_arrange (width indent : Int) (first : Outline) (rest : List Outline) :
    assemble width indent ((first :: rest).map fun part =>
        String.ofList (part.arrange colours (fits colours width) (indent + 1))) =
      String.ofList ((Outline.form first rest).arrange colours (fits colours width) indent) := by
  have measured : decide (((bracketed [' ']
        (fun part => part.arrange colours (fits colours width) (indent + 1)) first rest).length
          : Int) + 2 * indent ≤ width) =
      fits colours width indent (.form first rest) := by
    refine decide_eq_decide.2 ⟨fun short => ?_, fun short => ?_⟩
    · have longer := List.sum_le_sum fun part (_ : part ∈ first :: rest) =>
        length_line_le_arrange colours (fits colours width) part (indent + 1)
      rw [length_bracketed] at short
      rw [line_form, length_bracketed]
      omega
    · have inside : ∀ part ∈ first :: rest,
          part.arrange colours (fits colours width) (indent + 1) = part.line colours :=
        fun part member =>
          arrange_of_fits (fits_of_holds (.part member (.self part (indent + 1)))
            (decide_eq_true short))
      rwa [bracketed_congr inside fun _ => rfl, ← line_form]
  rw [← String.toList_inj, toList_assemble, String.toList_ofList, arrange_form, ← measured]
  simp only [String.toList_ofList]

/-- A layout that knows whether to colour paints with the brush. -/
theorem paint_eq (known : layout.color = .ok colours) (role : Role) (text : String) :
    layout.paint role text = .ok (role.brush colours text) := by
  cases colours with
  | false => simp only [paint, known, Role.brush, Bool.false_eq_true, if_false]
  | true => simp only [paint, known, Role.brush, if_true]

/-- A word is arranged as it is painted. -/
theorem ofList_arrange_word (whole : Int → Outline → Bool) (indent : Int) (role : Role)
    (text : String) :
    String.ofList ((Outline.word role text).arrange colours whole indent) =
      role.brush colours text := by
  rw [arrange, String.ofList_toList]

/-- An atom is written as its word. -/
theorem writeAtom_eq (known : layout.color = .ok colours) (indent : Int) (value : Atom) :
    layout.writeAtom value =
      .ok (String.ofList (value.outline.arrange colours (fits colours layout.width) indent)) := by
  cases value <;>
    rw [writeAtom, paint_eq known, Atom.outline, ofList_arrange_word]

mutual

/-- A layout that knows whether to colour arranges the outline of every well-formed tree. -/
theorem write_eq (known : layout.color = .ok colours) :
    (tree : Datum) → (indent : Int) → tree.WellFormed →
      layout.write indent tree =
        .ok (String.ofList (tree.outline.arrange colours (fits colours layout.width) indent))
  | .constant (.atom value), indent, _ => by
      rw [write, writeHeld, Datum.outline]
      exact writeAtom_eq known indent value
  | .application operator operands, indent, wellFormed => by
      simp only [Datum.WellFormed] at wellFormed
      have head := write_eq known operator (indent + 1) wellFormed.1
      have behind := writeAll_eq known operands (indent + 1) wellFormed.2
      rw [write, head, behind, Datum.outline, ← assemble_arrange]
      rfl
  | .ifThen condition consequence, indent, wellFormed => by
      simp only [Datum.WellFormed] at wellFormed
      have test := write_eq known condition (indent + 1) wellFormed.1
      have branch := write_eq known consequence (indent + 1) wellFormed.2
      rw [write, test, branch, paint_eq known, Datum.outline, ← assemble_arrange, List.map_cons,
        ofList_arrange_word]
      rfl
  | .ifElse condition consequence alternative, indent, wellFormed => by
      simp only [Datum.WellFormed] at wellFormed
      have test := write_eq known condition (indent + 1) wellFormed.1
      have branch := write_eq known consequence (indent + 1) wellFormed.2.1
      have other := write_eq known alternative (indent + 1) wellFormed.2.2
      rw [write, test, branch, other, paint_eq known, Datum.outline, ← assemble_arrange,
        List.map_cons, ofList_arrange_word]
      rfl
  | .quote items, indent, wellFormed => by
      simp only [Datum.WellFormed] at wellFormed
      have parts := writeAll_eq known items (indent + 1) wellFormed
      rw [write, parts, paint_eq known, Datum.outline, ← assemble_arrange, List.map_cons,
        ofList_arrange_word]
      rfl
  | .plain _, _, wellFormed | .atom _, _, wellFormed => by simp [Datum.WellFormed] at wellFormed
  | .constant (.plain _), _, wellFormed | .constant (.constant _), _, wellFormed
  | .constant (.application _ _), _, wellFormed | .constant (.ifThen _ _), _, wellFormed
  | .constant (.ifElse _ _ _), _, wellFormed | .constant (.quote _), _, wellFormed => by
      simp [Datum.WellFormed] at wellFormed

/-- A layout that knows whether to colour arranges the outlines of well-formed trees. -/
theorem writeAll_eq (known : layout.color = .ok colours) :
    (items : List Datum) → (indent : Int) → Datum.AllWellFormed items →
      layout.writeAll indent items =
        .ok ((Datum.outlines items).map fun part =>
          String.ofList (part.arrange colours (fits colours layout.width) indent))
  | [], _, _ => rfl
  | item :: items, indent, wellFormed => by
      simp only [Datum.AllWellFormed] at wellFormed
      have here := write_eq known item indent wellFormed.1
      have behind := writeAll_eq known items indent wellFormed.2
      rw [writeAll, here, behind, Datum.outlines, List.map_cons]
      rfl

end

/-- A layout that knows whether to colour writes every well-formed tree. -/
theorem exists_write (known : layout.color = .ok colours) (tree : Datum) (indent : Int)
    (wellFormed : tree.WellFormed) : ∃ text, layout.write indent tree = .ok text :=
  ⟨_, write_eq known tree indent wellFormed⟩

/-- Without colours the outline is arranged as it is. -/
theorem write_plain_eq {tree : Datum} (wellFormed : tree.WellFormed) (width indent : Int) :
    (plain width).write indent tree =
      .ok (String.ofList (tree.outline.arrange false (fits false width) indent)) :=
  write_eq rfl tree indent wellFormed

/-- The text of a tree is the tree on one line, with single spaces between the parts of its
forms, exactly when that line fits behind its indentation or when no form in the tree has two
parts. -/
theorem write_eq_line_iff (tree : Datum) (wellFormed : tree.WellFormed) (width indent : Int) :
    ∃ text, (plain width).write indent tree = .ok text
      ∧ (text.toList = tree.outline.line false ↔
        ((tree.outline.line false).length : Int) + 2 * indent ≤ width
          ∨ ∀ inner place, tree.outline.Holds indent inner place → inner.partCount < 2) := by
  refine ⟨_, write_plain_eq wellFormed width indent, ?_⟩
  rw [String.toList_ofList, arrange_fits_eq_line_iff, fits, decide_eq_true_eq]

/-- A sum with a quotation in it that has no column to spare stands on one line, and is broken
when there is one column less. -/
theorem write_eq_line_quotation :
    Datum.WellFormed (.application (.instruction .add) [.quote [.int 1, .int (-2)], .key "x"])
      ∧ (∃ text,
        (plain 6).write (-6)
            (.application (.instruction .add) [.quote [.int 1, .int (-2)], .key "x"]) = .ok text
          ∧ text.toList = "(+ (quote 1 -2) x)".toList)
      ∧ ∃ text,
        (plain 5).write (-6)
            (.application (.instruction .add) [.quote [.int 1, .int (-2)], .key "x"]) = .ok text
          ∧ text.toList ≠ "(+ (quote 1 -2) x)".toList := by
  have wellFormed : Datum.WellFormed
      (.application (.instruction .add) [.quote [.int 1, .int (-2)], .key "x"]) := by
    decide
  have line : (Datum.outline
      (.application (.instruction .add) [.quote [.int 1, .int (-2)], .key "x"])).line false =
        "(+ (quote 1 -2) x)".toList := by
    decide
  obtain ⟨fitting, here, whole⟩ := write_eq_line_iff _ wellFormed 6 (-6)
  obtain ⟨broken, there, wide⟩ := write_eq_line_iff _ wellFormed 5 (-6)
  rw [line] at whole wide
  refine ⟨wellFormed, ⟨fitting, here, whole.2 (.inl (by decide))⟩, broken, there, fun same => ?_⟩
  rcases wide.1 same with short | single
  · exact absurd short (by decide)
  · exact absurd (single _ _ (.self _ _)) (by decide)

end Layout

end PocketLisp
