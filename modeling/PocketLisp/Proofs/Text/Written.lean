import PocketLisp.Proofs.Layout.Words
import PocketLisp.Proofs.Text.Quoting

/-!
# Written values are unambiguous

What is written of an atom or a tree tells which one it is. Every written value names its kind in
front of a bracket, so values of different kinds are told apart there. Of two values of the same
kind the parts are compared from left to right: where each of them ends can be told from what is
written of it, whatever stands behind. A name is quoted, so nothing in it is taken for the end of
anything.

This needs values of the language all the way down. A number from outside the language may be equal
to one that is written differently, and a text from outside may look like a name.
-/

namespace PocketLisp

open Text (CodePoint PrefixFree Solid)

variable {rest restToo : List Char} {spell : String → String}

namespace Datum

mutual

/-- No value from outside the language stands anywhere in a tree. Atoms may stand anywhere. -/
def Native : Datum → Prop
  | .plain _ => False
  | .atom _ => True
  | .constant held => held.Native
  | .application operator operands => operator.Native ∧ AllNative operands
  | .ifThen condition consequence => condition.Native ∧ consequence.Native
  | .ifElse condition consequence alternative =>
      condition.Native ∧ consequence.Native ∧ alternative.Native
  | .quote items => AllNative items

/-- No value from outside the language stands anywhere in some trees. -/
def AllNative : List Datum → Prop
  | [] => True
  | item :: items => item.Native ∧ AllNative items

end

mutual

/-- A well-formed expression has no value from outside the language. -/
theorem WellFormed.native : {tree : Datum} → tree.WellFormed → tree.Native
  | .constant (.atom _), _ => trivial
  | .application _ _, wellFormed => by
      simp only [WellFormed, Native] at wellFormed ⊢
      exact ⟨wellFormed.1.native, wellFormed.2.native⟩
  | .ifThen _ _, wellFormed => by
      simp only [WellFormed, Native] at wellFormed ⊢
      exact ⟨wellFormed.1.native, wellFormed.2.native⟩
  | .ifElse _ _ _, wellFormed => by
      simp only [WellFormed, Native] at wellFormed ⊢
      exact ⟨wellFormed.1.native, wellFormed.2.1.native, wellFormed.2.2.native⟩
  | .quote _, wellFormed => by
      simp only [WellFormed, Native] at wellFormed ⊢
      exact wellFormed.native
  | .plain _, wellFormed | .atom _, wellFormed | .constant (.plain _), wellFormed
  | .constant (.constant _), wellFormed | .constant (.application _ _), wellFormed
  | .constant (.ifThen _ _), wellFormed | .constant (.ifElse _ _ _), wellFormed
  | .constant (.quote _), wellFormed => by
      simp [WellFormed] at wellFormed

/-- Well-formed expressions have no value from outside the language. -/
theorem AllWellFormed.native : {items : List Datum} → AllWellFormed items → AllNative items
  | [], _ => trivial
  | _ :: _, wellFormed => by
      simp only [AllWellFormed, AllNative] at wellFormed ⊢
      exact ⟨wellFormed.1.native, wellFormed.2.native⟩

end

end Datum

section Kinds

variable {front kind kindToo : String} {text textToo : List Char}

/-- Words in front of the same bracket are told apart. -/
theorem Text.Solid.append_cons_inj {bracket : Char} {left right : List Char} (solid : Solid left)
    (solidToo : Solid right) (other : Text.isInk bracket = false)
    (same : left ++ bracket :: rest = right ++ bracket :: restToo) : left = right ∧ rest = restToo :=
  Text.append_cons_inj (solid.not_mem other) (solidToo.not_mem other) same

/-- A written value starts with the name of its kind, in front of a bracket. -/
structure StartsWith (kind : String) (text : List Char) : Prop where
  solid : Solid kind.toList
  shape : ∃ behind, text = kind.toList ++ '(' :: behind

namespace StartsWith

/-- Behind the bracket there is the name of a field, if any. -/
theorem of_front (field : String) (solid : Solid kind.toList)
    (shape : front.toList = kind.toList ++ '(' :: field.toList) (behind : List Char) :
    StartsWith kind (front.toList ++ behind) :=
  ⟨solid, field.toList ++ behind, by rw [shape, List.append_assoc, List.cons_append]⟩

/-- Values that are written in the same way are of the same kind. -/
theorem kind_eq (starts : StartsWith kind text) (startsToo : StartsWith kindToo textToo)
    (same : text ++ rest = textToo ++ restToo) : kind = kindToo := by
  obtain ⟨solid, behind, rfl⟩ := starts
  obtain ⟨solidToo, behindToo, rfl⟩ := startsToo
  rw [List.append_assoc, List.append_assoc] at same
  exact String.toList_inj.1 (solid.append_cons_inj solidToo (by decide) same).1

/-- No written value starts with a closing bracket. -/
theorem append_ne (starts : StartsWith kind text) : text ++ rest ≠ ')' :: restToo := by
  obtain ⟨solid, behind, rfl⟩ := starts
  generalize kind.toList = word at solid
  cases word with
  | nil => exact absurd rfl solid.written
  | cons first others =>
      intro same
      obtain ⟨rfl, -⟩ := List.cons.inj same
      exact solid.not_mem (by decide) List.mem_cons_self

end StartsWith

end Kinds

section Atoms

/-- Distinct instructions have distinct names. -/
theorem Instruction.name_injective {left right : Instruction} (same : left.name = right.name) :
    left = right := by
  cases left <;> cases right <;> first | rfl | exact absurd same (by decide)

/-- The name of an instruction is one word. -/
theorem Instruction.solid_name (tag : Instruction) : Solid tag.name.toList := by
  cases tag <;> decide

/-- An atom is written behind its kind. -/
theorem Atom.startsWith_writtenBy (spell : String → String) (atom : Atom) :
    StartsWith atom.kind (atom.writtenBy spell).toList := by
  cases atom
  all_goals
    simp only [writtenBy_int, writtenBy_key, writtenBy_bool, writtenBy_instruction, kind,
      String.toList_append, List.append_assoc]
    exact .of_front "" (by decide) rfl _

/-- Written atoms are free of prefixes when names are. -/
theorem Atom.prefixFree_writtenBy (free : PrefixFree fun name => (spell name).toList) :
    PrefixFree fun atom : Atom => (atom.writtenBy spell).toList := by
  intro left right rest restToo same
  have kind := (left.startsWith_writtenBy spell).kind_eq (right.startsWith_writtenBy spell) same
  cases left <;> cases right <;> simp only [Atom.kind, String.reduceEq] at kind
  all_goals
    simp only [writtenBy_int, writtenBy_key, writtenBy_bool, writtenBy_instruction,
      String.toList_append, List.append_assoc, List.append_cancel_left_eq] at same
  case int.int value valueToo =>
    obtain ⟨digits, rests⟩ := (Text.solid_toString_int value).append_cons_inj
      (Text.solid_toString_int valueToo) (by decide) same
    exact ⟨congrArg Atom.int (Text.toString_int_injective (String.toList_inj.1 digits)), rests⟩
  case key.key name nameToo =>
    obtain ⟨rfl, rests⟩ := free _ _ _ _ same
    exact ⟨rfl, (List.cons.inj rests).2⟩
  case bool.bool value valueToo =>
    have solid (value : Bool) : Solid (if value then "True" else "False").toList := by
      cases value <;> decide
    obtain ⟨word, rests⟩ := (solid value).append_cons_inj (solid valueToo) (by decide) same
    refine ⟨congrArg Atom.bool ?_, rests⟩
    revert word
    cases value <;> cases valueToo <;> decide
  case instruction.instruction tag tagToo =>
    obtain ⟨name, rests⟩ := tag.solid_name.append_cons_inj tagToo.solid_name (by decide) same
    exact ⟨congrArg Atom.instruction (Instruction.name_injective (String.toList_inj.1 name)), rests⟩

end Atoms

namespace Datum

section Forms

/-- Two trees of the same form: two atoms, or two expressions of the same kind. -/
inductive SameForm : Datum → Datum → Prop
  | atom (value valueToo : Atom) : SameForm (.atom value) (.atom valueToo)
  | constant (held heldToo : Datum) : SameForm (.constant held) (.constant heldToo)
  | application (operator operatorToo : Datum) (operands operandsToo : List Datum) :
      SameForm (.application operator operands) (.application operatorToo operandsToo)
  | ifThen (condition conditionToo consequence consequenceToo : Datum) :
      SameForm (.ifThen condition consequence) (.ifThen conditionToo consequenceToo)
  | ifElse (condition conditionToo consequence consequenceToo alternative alternativeToo : Datum) :
      SameForm (.ifElse condition consequence alternative)
        (.ifElse conditionToo consequenceToo alternativeToo)
  | quote (items itemsToo : List Datum) : SameForm (.quote items) (.quote itemsToo)

variable {tree other : Datum}

/-- Values of the language are of the same form when they are of the same kind. -/
theorem Native.sameForm (native : tree.Native) (nativeToo : other.Native)
    (same : tree.kind = other.kind) : SameForm tree other := by
  cases tree with
  | plain => exact native.elim
  | atom value =>
      cases other with
      | plain => exact nativeToo.elim
      | atom => exact .atom _ _
      | _ => cases value <;> simp only [kind, Atom.kind, String.reduceEq] at same
  | constant | application | ifThen | ifElse | quote =>
      cases other with
      | plain => exact nativeToo.elim
      | atom value => cases value <;> simp only [kind, Atom.kind, String.reduceEq] at same
      | _ => first
          | constructor
          | simp only [kind, String.reduceEq] at same

/-- A value of the language is written behind its kind. -/
theorem Native.startsWith_writtenBy (spell : String → String) (native : tree.Native) :
    StartsWith tree.kind (tree.writtenBy spell).toList := by
  cases tree
  case plain => exact native.elim
  case atom value => exact value.startsWith_writtenBy spell
  all_goals simp only [writtenBy_constant, writtenBy_application, writtenBy_ifThen,
    writtenBy_ifElse, writtenBy_quote, kind, String.toList_append, List.append_assoc]
  case constant => exact .of_front "atom=" (by decide) rfl _
  case application => exact .of_front "operator=" (by decide) rfl _
  case ifThen => exact .of_front "condition=" (by decide) rfl _
  case ifElse => exact .of_front "condition=" (by decide) rfl _
  case quote => exact .of_front "exprs=" (by decide) rfl _

/-- Values of the language that are written in the same way are of the same form. -/
theorem Native.sameForm_of_writtenBy (native : tree.Native) (nativeToo : other.Native)
    (same : (tree.writtenBy spell).toList ++ rest = (other.writtenBy spell).toList ++ restToo) :
    SameForm tree other :=
  native.sameForm nativeToo
    ((native.startsWith_writtenBy spell).kind_eq (nativeToo.startsWith_writtenBy spell) same)

end Forms

section Parts

/-- What is written of a tree can be told from what is written of any other value of the language,
and its end from what stands behind it. -/
def Delimited (spell : String → String) (tree : Datum) : Prop :=
  ∀ other, other.Native → ∀ rest restToo,
    (tree.writtenBy spell).toList ++ rest = (other.writtenBy spell).toList ++ restToo →
      tree = other ∧ rest = restToo

variable {held condition consequence alternative : Datum}

/-- An atom is delimited when names are free of prefixes. -/
theorem delimited_atom (free : PrefixFree fun name => (spell name).toList) (value : Atom) :
    (atom value).Delimited spell := by
  intro other nativeToo rest restToo same
  have native : (atom value).Native := trivial
  cases native.sameForm_of_writtenBy nativeToo same with
  | atom value valueToo =>
      obtain ⟨rfl, rests⟩ := Atom.prefixFree_writtenBy free _ _ _ _ same
      exact ⟨rfl, rests⟩

/-- A constant is delimited when what it holds is. -/
theorem Delimited.constant (native : (constant held).Native) (delimited : held.Delimited spell) :
    (constant held).Delimited spell := by
  intro other nativeToo rest restToo same
  cases native.sameForm_of_writtenBy nativeToo same with
  | constant held heldToo =>
      simp only [writtenBy_constant, String.toList_append, List.append_assoc,
        List.append_cancel_left_eq] at same
      obtain ⟨rfl, behind⟩ := delimited heldToo nativeToo _ _ same
      exact ⟨rfl, List.append_cancel_left behind⟩

/-- A condition without an alternative is delimited when its parts are. -/
theorem Delimited.ifThen (native : (ifThen condition consequence).Native)
    (first : condition.Delimited spell) (second : consequence.Delimited spell) :
    (ifThen condition consequence).Delimited spell := by
  intro other nativeToo rest restToo same
  cases native.sameForm_of_writtenBy nativeToo same with
  | ifThen condition conditionToo consequence consequenceToo =>
      simp only [Native] at nativeToo
      simp only [writtenBy_ifThen, String.toList_append, List.append_assoc,
        List.append_cancel_left_eq] at same
      obtain ⟨rfl, others⟩ := first conditionToo nativeToo.1 _ _ same
      obtain ⟨rfl, behind⟩ := second consequenceToo nativeToo.2 _ _ (List.append_cancel_left others)
      exact ⟨rfl, List.append_cancel_left behind⟩

/-- A condition with an alternative is delimited when its parts are. -/
theorem Delimited.ifElse (native : (ifElse condition consequence alternative).Native)
    (first : condition.Delimited spell) (second : consequence.Delimited spell)
    (third : alternative.Delimited spell) :
    (ifElse condition consequence alternative).Delimited spell := by
  intro other nativeToo rest restToo same
  cases native.sameForm_of_writtenBy nativeToo same with
  | ifElse condition conditionToo consequence consequenceToo alternative alternativeToo =>
      simp only [Native] at nativeToo
      simp only [writtenBy_ifElse, String.toList_append, List.append_assoc,
        List.append_cancel_left_eq] at same
      obtain ⟨rfl, others⟩ := first conditionToo nativeToo.1 _ _ same
      obtain ⟨rfl, last⟩ := second consequenceToo nativeToo.2.1 _ _ (List.append_cancel_left others)
      obtain ⟨rfl, behind⟩ := third alternativeToo nativeToo.2.2 _ _ (List.append_cancel_left last)
      exact ⟨rfl, List.append_cancel_left behind⟩

end Parts

section Tuples

open Layout (tail)

variable {operator : Datum} {items others operands : List Datum}

/-- A tuple with a single member is closed behind a comma. -/
def closing : List Datum → List Char
  | [] => [',', ')']
  | _ :: _ => [')']

/-- A tuple without members. -/
theorem toList_tuple_nil (spell : String → String) :
    (tuple (writtenAllBy spell [])).toList = ['(', ')'] := by
  rw [writtenAllBy, tuple]
  rfl

/-- A tuple with a first member and others. -/
theorem toList_tuple_cons (spell : String → String) (first : Datum) (items : List Datum) :
    (tuple (writtenAllBy spell (first :: items))).toList = '(' :: ((first.writtenBy spell).toList
      ++ (tail [',', ' '] (writtenAllBy spell items) ++ closing items)) := by
  cases items with
  | nil => simp [writtenAllBy, tuple, tail, closing]
  | cons second items =>
      have joined := Layout.toList_intercalate ", " (first.writtenBy spell)
        (writtenAllBy spell (second :: items))
      simp only [writtenAllBy, tuple, String.toList_append, closing] at joined ⊢
      rw [joined]
      simp

/-- The members of a tuple behind the first are told one by one, up to its bracket. -/
theorem tail_append_inj (delimited : ∀ item ∈ items, item.Delimited spell)
    (native : AllNative others)
    (same : tail [',', ' '] (writtenAllBy spell items) ++ ')' :: rest
      = tail [',', ' '] (writtenAllBy spell others) ++ ')' :: restToo) :
    items = others ∧ rest = restToo := by
  induction items generalizing others with
  | nil =>
      cases others with
      | nil => exact ⟨rfl, (List.cons.inj same).2⟩
      | cons other others => exact absurd (List.cons.inj same).1 (by decide)
  | cons item items inductionHypothesis =>
      cases others with
      | nil => exact absurd (List.cons.inj same).1 (by decide)
      | cons other others =>
          obtain ⟨here, delimited⟩ := List.forall_mem_cons.1 delimited
          simp only [AllNative] at native
          simp only [tail, writtenAllBy, List.flatMap_cons, List.append_assoc,
            List.append_cancel_left_eq] at same
          obtain ⟨rfl, behind⟩ := here other native.1 _ _ same
          obtain ⟨rfl, rests⟩ := inductionHypothesis delimited native.2 behind
          exact ⟨rfl, rests⟩

/-- A tuple of delimited members is told from any other tuple. -/
theorem tuple_append_inj (native : AllNative items)
    (delimited : ∀ item ∈ items, item.Delimited spell) (nativeToo : AllNative others)
    (same : (tuple (writtenAllBy spell items)).toList ++ rest
      = (tuple (writtenAllBy spell others)).toList ++ restToo) : items = others ∧ rest = restToo := by
  cases items with
  | nil =>
      cases others with
      | nil => exact ⟨rfl, List.append_cancel_left same⟩
      | cons other others =>
          simp only [toList_tuple_nil, toList_tuple_cons, List.cons_append, List.append_assoc] at same
          exact absurd (List.cons.inj same).2.symm (nativeToo.1.startsWith_writtenBy spell).append_ne
  | cons first items =>
      cases others with
      | nil =>
          simp only [toList_tuple_nil, toList_tuple_cons, List.cons_append, List.append_assoc] at same
          exact absurd (List.cons.inj same).2 (native.1.startsWith_writtenBy spell).append_ne
      | cons other others =>
          obtain ⟨here, delimited⟩ := List.forall_mem_cons.1 delimited
          simp only [toList_tuple_cons, List.cons_append, List.append_assoc] at same
          obtain ⟨rfl, behind⟩ := here other nativeToo.1 _ _ (List.cons.inj same).2
          -- Behind a single member the comma is followed by the bracket, not by a blank.
          cases items with
          | nil =>
              cases others with
              | nil => exact ⟨rfl, (List.cons.inj (List.cons.inj behind).2).2⟩
              | cons => exact absurd (List.cons.inj (List.cons.inj behind).2).1 (by decide)
          | cons =>
              cases others with
              | nil => exact absurd (List.cons.inj (List.cons.inj behind).2).1 (by decide)
              | cons =>
                  obtain ⟨members, rests⟩ := tail_append_inj delimited nativeToo.2 behind
                  exact ⟨congrArg (List.cons first) members, rests⟩

/-- A quotation is delimited when its members are. -/
theorem Delimited.quote (native : (quote items).Native)
    (delimited : ∀ item ∈ items, item.Delimited spell) : (quote items).Delimited spell := by
  intro other nativeToo rest restToo same
  cases native.sameForm_of_writtenBy nativeToo same with
  | quote items itemsToo =>
      simp only [Native] at native nativeToo
      simp only [writtenBy_quote, String.toList_append, List.append_assoc,
        List.append_cancel_left_eq] at same
      obtain ⟨rfl, behind⟩ := tuple_append_inj native delimited nativeToo same
      exact ⟨rfl, List.append_cancel_left behind⟩

/-- An application is delimited when its operator and its operands are. -/
theorem Delimited.application (native : (application operator operands).Native)
    (head : operator.Delimited spell) (delimited : ∀ operand ∈ operands, operand.Delimited spell) :
    (application operator operands).Delimited spell := by
  intro other nativeToo rest restToo same
  cases native.sameForm_of_writtenBy nativeToo same with
  | application operator operatorToo operands operandsToo =>
      simp only [Native] at native nativeToo
      simp only [writtenBy_application, String.toList_append, List.append_assoc,
        List.append_cancel_left_eq] at same
      obtain ⟨rfl, others⟩ := head operatorToo nativeToo.1 _ _ same
      obtain ⟨rfl, behind⟩ :=
        tuple_append_inj native.2 delimited nativeToo.2 (List.append_cancel_left others)
      exact ⟨rfl, List.append_cancel_left behind⟩

end Tuples

section Trees

mutual

/-- Every value of the language is delimited when names are free of prefixes. -/
theorem Native.delimited (free : PrefixFree fun name => (spell name).toList) :
    {tree : Datum} → tree.Native → tree.Delimited spell
  | .atom value, _ => delimited_atom free value
  | .constant held, native => .constant native ((show held.Native from native).delimited free)
  | .application _ _, native =>
      .application native (native.1.delimited free) (native.2.delimited free)
  | .ifThen _ _, native => .ifThen native (native.1.delimited free) (native.2.delimited free)
  | .ifElse _ _ _, native =>
      .ifElse native (native.1.delimited free) (native.2.1.delimited free)
        (native.2.2.delimited free)
  | .quote _, native => .quote native (AllNative.delimited free native)

/-- Some values of the language are delimited one by one. -/
theorem AllNative.delimited (free : PrefixFree fun name => (spell name).toList) :
    {items : List Datum} → AllNative items → ∀ item ∈ items, item.Delimited spell
  | [], _ => nofun
  | _ :: _, native => List.forall_mem_cons.2 ⟨native.1.delimited free, native.2.delimited free⟩

end

mutual

/-- Values of the language are equal part by part when they are the same value. -/
theorem Native.same_iff :
    {tree other : Datum} → tree.Native → (tree.same other = true ↔ tree = other)
  | .atom _, other, _ => by
      cases other <;> simp [same]
  | .constant held, other, native => by
      have inside : held.Native := native
      cases other <;> simp [same, inside.same_iff]
  | .application _ _, other, native => by
      cases other <;> simp [same, native.1.same_iff, native.2.sameAll_iff]
  | .ifThen _ _, other, native => by
      cases other <;> simp [same, native.1.same_iff, native.2.same_iff]
  | .ifElse _ _ _, other, native => by
      cases other <;>
        simp [same, native.1.same_iff, native.2.1.same_iff, native.2.2.same_iff, and_assoc]
  | .quote items, other, native => by
      have members : AllNative items := native
      cases other <;> simp [same, members.sameAll_iff]

/-- Lists of values of the language are equal part by part when they are the same list. -/
theorem AllNative.sameAll_iff :
    {items others : List Datum} → AllNative items → (sameAll items others = true ↔ items = others)
  | [], others, _ => by
      cases others <;> simp [sameAll]
  | _ :: _, others, native => by
      cases others <;> simp [sameAll, native.1.same_iff, native.2.sameAll_iff]

end

/-- Two values of the language are written in the same way exactly when they are the same, as long
as what is written of a name tells which one it is and where it ends. -/
theorem writtenBy_inj (free : PrefixFree fun name => (spell name).toList) {left right : Datum}
    (native : left.Native) (nativeToo : right.Native) :
    left.writtenBy spell = right.writtenBy spell ↔ left = right := by
  refine ⟨fun same => ?_, congrArg (writtenBy spell)⟩
  exact (native.delimited free right nativeToo [] [] (by rw [same])).1

/-- Names may be made of any code points. Here they are labelled by texts, and the names that two
labels stand for are quoted in the place of the labels. Two trees are written in the same way
exactly when they are the same, also when there are surrogates in their names. -/
theorem writtenBy_points_inj {points : String → List CodePoint} (distinct : points.Injective)
    {left right : Datum} (native : left.Native) (nativeToo : right.Native) :
    left.writtenBy (fun label => CodePoint.quoted (points label))
      = right.writtenBy (fun label => CodePoint.quoted (points label)) ↔ left = right := by
  refine writtenBy_inj (fun label other rest restToo same => ?_) native nativeToo
  obtain ⟨names, rests⟩ := CodePoint.prefixFree_quoted _ _ _ _ same
  exact ⟨distinct names, rests⟩

/-- Two values of the language are written in the same way exactly when they are equal. The names in
them are texts of characters. A name that has surrogates is quoted unlike every other name too, and
trees with such names are compared in `writtenBy_points_inj`. -/
theorem written_eq_iff_same (left right : Datum) (native : left.Native) (nativeToo : right.Native) :
    (left.written = right.written ↔ left.same right = true)
      ∧ ∀ name other, CodePoint.quoted name = CodePoint.quoted other ↔ name = other := by
  rw [native.same_iff]
  refine ⟨writtenBy_inj Text.prefixFree_quoted native nativeToo, fun name other => ?_⟩
  exact ⟨fun same => CodePoint.prefixFree_quoted.injective (congrArg String.toList same), congrArg _⟩

/-- A quotation of one key whose name looks like the end of one constant and the start of another
is not written like a quotation of two keys. -/
theorem written_eq_iff_same_name :
    (quote [key "a')), Constant(atom=Key('b"]).WellFormed ∧ (quote [key "a", key "b"]).WellFormed
      ∧ (quote [key "a')), Constant(atom=Key('b"]).written ≠ (quote [key "a", key "b"]).written := by
  have one : (quote [key "a')), Constant(atom=Key('b"]).WellFormed := by decide
  have two : (quote [key "a", key "b"]).WellFormed := by decide
  refine ⟨one, two, fun same => ?_⟩
  exact absurd ((written_eq_iff_same _ _ one.native two.native).1.1 same) (by decide)

end Trees

end Datum

end PocketLisp
