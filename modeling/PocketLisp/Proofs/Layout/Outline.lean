import Mathlib.Algebra.Order.BigOperators.Group.List
import Mathlib.Algebra.Order.Ring.Nat
import PocketLisp.Proofs.Layout.Shape

/-!
# Outlines

What is written of a tree before it is laid out: words, and forms of one part or more in
round brackets. All that a layout adds is which forms stay whole on one line. An
arrangement leaves that decision open, so that the arrangements of an outline can be
compared: where fewer forms stay whole the text is longer, and two arrangements are the
same text only if they agree on every form that can be broken.
-/

namespace PocketLisp

/-- Text in the colour of a role where there are colours. -/
def Role.brush (colours : Bool) (role : Role) (text : String) : String :=
  if colours then role.wrap text else text

/-- What is written of a tree: a word, or a form with a first part and others behind it. -/
inductive Outline
  | word (role : Role) (text : String)
  | form (first : Outline) (rest : List Outline)

namespace Outline

/-- What holds of words, and of a form as soon as it holds of its parts, holds of every
outline. -/
@[induction_eliminator]
theorem byParts {motive : Outline → Prop} (word : ∀ role text, motive (.word role text))
    (form : ∀ first rest, (∀ part ∈ first :: rest, motive part) → motive (.form first rest))
    (outline : Outline) : motive outline :=
  @Outline.rec motive (fun parts => ∀ part ∈ parts, motive part) word
    (fun first rest one others => form first rest (List.forall_mem_cons.2 ⟨one, others⟩))
    (List.forall_mem_nil motive) (fun _ _ one others => List.forall_mem_cons.2 ⟨one, others⟩)
    outline

/-- How many parts are written between the brackets of a form. -/
def partCount : Outline → Nat
  | .word _ _ => 0
  | .form _ rest => rest.length + 1

/-- Within an outline at one indentation stands another one at its own, a step further in
for every form around it. -/
inductive Holds : Outline → Int → Outline → Int → Prop
  | self (outline : Outline) (indent : Int) : Holds outline indent outline indent
  | part {first part inner : Outline} {rest : List Outline} {indent place : Int}
      (member : part ∈ first :: rest) (holds : Holds part (indent + 1) inner place) :
      Holds (.form first rest) indent inner place

section Brackets

variable {α β : Type}

/-- Written parts in round brackets, with the same characters in front of each part but the
first. -/
def bracketed (separator : List Char) (written : α → List Char) (first : α) (rest : List α) :
    List Char :=
  '(' :: (written first ++ rest.flatMap (fun part => separator ++ written part) ++ [')'])

variable {separator other : List Char} {written : α → List Char} {first : α} {rest : List α}

/-- Parts may be written before they are put into brackets. -/
theorem bracketed_map (separator : List Char) (written : β → List Char) (made : α → β) (first : α)
    (rest : List α) :
    bracketed separator written (made first) (rest.map made) =
      bracketed separator (fun part => written (made part)) first rest := by
  rw [bracketed, bracketed, List.flatMap_map]

/-- Only the written parts matter, and what separates them matters where there are two. -/
theorem bracketed_congr {others : α → List Char}
    (same : ∀ part ∈ first :: rest, written part = others part)
    (separated : rest ≠ [] → separator = other) :
    bracketed separator written first rest = bracketed other others first rest := by
  have here : written first = others first := same first List.mem_cons_self
  have behind : rest.flatMap (fun part => separator ++ written part) =
      rest.flatMap (fun part => other ++ others part) := by
    refine List.flatMap_congr fun part member => ?_
    rw [same part (List.mem_cons_of_mem first member),
      separated (List.ne_nil_of_mem member)]
  rw [bracketed, bracketed, here, behind]

/-- Besides the parts there are two brackets, and a separator for each part but the first. -/
theorem length_bracketed (separator : List Char) (written : α → List Char) (first : α)
    (rest : List α) :
    (bracketed separator written first rest).length =
      ((first :: rest).map fun part => (written part).length).sum
        + rest.length * separator.length + 2 := by
  have behind : (rest.flatMap fun part => separator ++ written part).length =
      (rest.map fun part => (written part).length).sum + rest.length * separator.length := by
    induction rest with
    | nil => simp
    | cons part rest inductionHypothesis =>
        simp only [List.flatMap_cons, List.length_append, inductionHypothesis, List.map_cons,
          List.sum_cons, List.length_cons, Nat.succ_mul]
        omega
  simp only [bracketed, List.length_cons, List.length_append, List.length_nil, behind,
    List.map_cons, List.sum_cons]
  omega

end Brackets

section Arranging

/-- What stands in front of a part that is not the first: a space if the form stays whole,
else a new line with its indentation. -/
def separator (whole : Bool) (indent : Int) : List Char :=
  if whole then [' '] else '\n' :: (Layout.blanks (2 * indent) ++ "  ").toList

mutual

/-- An outline on one line, with single spaces between the parts of a form. -/
def line (colours : Bool) : Outline → List Char
  | .word role text => (role.brush colours text).toList
  | .form first rest => '(' :: (line colours first ++ lineBehind colours rest ++ [')'])

/-- Parts on one line, with a space in front of each. -/
def lineBehind (colours : Bool) : List Outline → List Char
  | [] => []
  | part :: rest => ' ' :: (line colours part ++ lineBehind colours rest)

end

mutual

/-- An outline laid out at an indentation, when it is known which forms stay whole. -/
def arrange (colours : Bool) (whole : Int → Outline → Bool) (indent : Int) : Outline → List Char
  | .word role text => (role.brush colours text).toList
  | .form first rest =>
      '(' :: (arrange colours whole (indent + 1) first
        ++ arrangeBehind colours whole (separator (whole indent (.form first rest)) indent)
          (indent + 1) rest ++ [')'])

/-- Parts laid out at an indentation, with the same characters in front of each. -/
def arrangeBehind (colours : Bool) (whole : Int → Outline → Bool) (separator : List Char)
    (indent : Int) : List Outline → List Char
  | [] => []
  | part :: rest =>
      separator ++ arrange colours whole indent part
        ++ arrangeBehind colours whole separator indent rest

end

/-- Whether an outline at an indentation fits on one line. -/
def fits (colours : Bool) (width indent : Int) (outline : Outline) : Bool :=
  decide (((outline.line colours).length : Int) + 2 * indent ≤ width)

variable {colours : Bool} {whole : Int → Outline → Bool} {indent : Int} {first : Outline}
  {rest : List Outline}

/-- A form on one line has its parts on one line. -/
theorem line_form : (Outline.form first rest).line colours =
    bracketed [' '] (fun part => part.line colours) first rest := by
  have behind (parts : List Outline) :
      lineBehind colours parts = parts.flatMap fun part => [' '] ++ part.line colours := by
    induction parts with
    | nil => rfl
    | cons part parts inductionHypothesis => simp [lineBehind, inductionHypothesis]
  rw [line, behind, bracketed]

/-- A form has its parts arranged one step further in. -/
theorem arrange_form : (Outline.form first rest).arrange colours whole indent =
    bracketed (separator (whole indent (.form first rest)) indent)
      (fun part => part.arrange colours whole (indent + 1)) first rest := by
  have behind (between : List Char) (parts : List Outline) :
      arrangeBehind colours whole between (indent + 1) parts =
        parts.flatMap fun part => between ++ part.arrange colours whole (indent + 1) := by
    induction parts with
    | nil => rfl
    | cons part parts inductionHypothesis => simp [arrangeBehind, inductionHypothesis]
  rw [arrange, behind, bracketed]

/-- An outline stands on one line when all forms stay whole. -/
theorem arrange_whole (outline : Outline) (indent : Int) :
    outline.arrange colours (fun _ _ => true) indent = outline.line colours := by
  induction outline generalizing indent with
  | word role text => rw [arrange, line]
  | form first rest inductionHypothesis =>
      rw [arrange_form, line_form]
      exact bracketed_congr (fun part member => inductionHypothesis part member (indent + 1))
        fun _ => rfl

/-- Separators are blanks. -/
theorem gap_separator (whole : Bool) (indent : Int) : Reading.Gap (separator whole indent) := by
  cases whole with
  | true => exact Reading.gap_space
  | false =>
      refine List.forall_mem_cons.2 ⟨rfl, ?_⟩
      rw [String.toList_append]
      exact (Layout.gap_blanks _).append (Layout.gap_blanks 2)

/-- A separator is shorter in a form that stays whole. -/
theorem length_separator_lt (indent : Int) :
    (separator true indent).length < (separator false indent).length := by
  simp [separator]

end Arranging

section Comparing

variable {colours : Bool} {wide narrow : Int → Outline → Bool}

/-- Arrangements that agree on the forms of two or more parts are the same. -/
theorem arrange_congr {outline : Outline} {indent : Int}
    (agree : ∀ inner place, outline.Holds indent inner place → 2 ≤ inner.partCount →
      wide place inner = narrow place inner) :
    outline.arrange colours wide indent = outline.arrange colours narrow indent := by
  induction outline generalizing indent with
  | word role text => rw [arrange, arrange]
  | form first rest inductionHypothesis =>
      rw [arrange_form, arrange_form]
      refine bracketed_congr (fun part member => ?_) fun several => ?_
      · exact inductionHypothesis part member
          fun inner place holds => agree inner place (.part member holds)
      · have two : 2 ≤ (Outline.form first rest).partCount := by
          have := List.length_pos_iff.2 several
          simp only [partCount]
          omega
        rw [agree _ _ (.self _ _) two]

/-- Where fewer forms stay whole the separators are no shorter. -/
theorem length_separator_le (indent : Int) {whole kept : Bool}
    (stays : whole = true → kept = true) :
    (separator kept indent).length ≤ (separator whole indent).length := by
  have shorter := length_separator_lt indent
  cases whole with
  | false =>
      cases kept with
      | false => exact Nat.le_refl _
      | true => exact Nat.le_of_lt shorter
  | true => rw [stays rfl]

/-- Where fewer forms stay whole the text is no shorter. -/
theorem length_arrange_le (colours : Bool)
    (stays : ∀ indent outline, narrow indent outline = true → wide indent outline = true)
    (outline : Outline) (indent : Int) :
    (outline.arrange colours wide indent).length ≤
      (outline.arrange colours narrow indent).length := by
  induction outline generalizing indent with
  | word role text => rw [arrange, arrange]
  | form first rest inductionHypothesis =>
      rw [arrange_form, arrange_form, length_bracketed, length_bracketed]
      have parts := List.sum_le_sum fun part member =>
        inductionHypothesis part member (indent + 1)
      have separators := Nat.mul_le_mul_left rest.length
        (length_separator_le indent (stays indent (.form first rest)))
      omega

/-- Where fewer forms stay whole, a text that is no longer has not broken any of the
others. -/
theorem agree_of_length_le
    (stays : ∀ indent outline, narrow indent outline = true → wide indent outline = true)
    {outline : Outline} {indent : Int}
    (noLonger : (outline.arrange colours narrow indent).length ≤
      (outline.arrange colours wide indent).length) :
    ∀ inner place, outline.Holds indent inner place → 2 ≤ inner.partCount →
      wide place inner = true → narrow place inner = true := by
  intro inner place holds several kept
  induction holds with
  | self outline indent =>
      cases outline with
      | word role text => simp [partCount] at several
      | form first rest =>
          by_contra broken
          rw [Bool.not_eq_true] at broken
          rw [arrange_form, arrange_form, length_bracketed, length_bracketed, kept, broken]
            at noLonger
          have parts := List.sum_le_sum fun part (_ : part ∈ first :: rest) =>
            length_arrange_le colours stays part (indent + 1)
          have behind : 0 < rest.length := by
            simp only [partCount] at several
            omega
          have separators := Nat.mul_lt_mul_of_pos_left (length_separator_lt indent) behind
          omega
  | @part first part inner rest indent place member holds inductionHypothesis =>
      refine inductionHypothesis ?_ several kept
      by_contra longer
      rw [arrange_form, arrange_form, length_bracketed, length_bracketed] at noLonger
      have parts := List.sum_lt_sum _ _
        (fun part (_ : part ∈ first :: rest) =>
          length_arrange_le colours stays part (indent + 1))
        ⟨part, member, Nat.lt_of_not_le longer⟩
      have separators := Nat.mul_le_mul_left rest.length
        (length_separator_le indent (stays indent (.form first rest)))
      omega

/-- Where fewer forms stay whole, the text is the same only if the forms of two or more
parts that stay whole are the same. -/
theorem arrange_eq_arrange_iff
    (stays : ∀ indent outline, narrow indent outline = true → wide indent outline = true)
    {outline : Outline} {indent : Int} :
    outline.arrange colours narrow indent = outline.arrange colours wide indent ↔
      ∀ inner place, outline.Holds indent inner place → 2 ≤ inner.partCount →
        wide place inner = true → narrow place inner = true := by
  constructor
  · intro same
    exact agree_of_length_le stays (Nat.le_of_eq (congrArg List.length same))
  · intro agree
    refine arrange_congr fun inner place holds several => ?_
    exact Bool.eq_iff_iff.2 ⟨stays place inner, agree inner place holds several⟩

end Comparing

end Outline

end PocketLisp
