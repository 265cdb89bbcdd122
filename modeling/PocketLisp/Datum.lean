import PocketLisp.Atom
import PocketLisp.Plain

/-!
# Syntax trees

A `Datum` is anything that can stand somewhere in a syntax tree. Building a tree
does not check its parts, so an atom, or a plain value from outside the language,
may stand where an expression is due, and a constant may hold anything.

`Datum.WellFormed` singles out the expressions whose constants hold atoms in range
and whose children are expressions. Reading yields only such trees. `Datum.written`
writes a tree out in full, and `Datum.same` compares trees part by part.
-/

namespace PocketLisp

/-- Anything that can stand in a syntax tree. The last five kinds are expressions;
the grammar writes only constants and applications. -/
inductive Datum
  | plain (value : Plain)
  | atom (value : Atom)
  | constant (held : Datum)
  | application (operator : Datum) (operands : List Datum)
  | ifThen (condition consequence : Datum)
  | ifElse (condition consequence alternative : Datum)
  | quote (items : List Datum)
  deriving Repr

namespace Datum

/-- Text stands for the plain value that it is. -/
instance : Coe String Datum := ⟨fun text => .plain (.text text)⟩

/-- The constant of a key. -/
def key (name : String) : Datum := .constant (.atom (.key name))

/-- The constant of an instruction. -/
def instruction (tag : Instruction) : Datum := .constant (.atom (.instruction tag))

/-- The constant of an integer. -/
def int (value : Int) : Datum := .constant (.atom (.int value))

/-- The constant of a truth value. -/
def bool (value : Bool) : Datum := .constant (.atom (.bool value))

mutual

/-- Whether two trees are the same tree. -/
def decideEq : (left right : Datum) → Decidable (left = right)
  | .plain left, .plain right => decidable_of_iff (left = right) (by simp)
  | .atom left, .atom right => decidable_of_iff (left = right) (by simp)
  | .constant left, .constant right =>
      have := decideEq left right
      decidable_of_iff (left = right) (by simp)
  | .application leftOperator leftOperands, .application rightOperator rightOperands =>
      have := decideEq leftOperator rightOperator
      have := decideEqAll leftOperands rightOperands
      decidable_of_iff (leftOperator = rightOperator ∧ leftOperands = rightOperands) (by simp)
  | .ifThen leftCondition leftConsequence, .ifThen rightCondition rightConsequence =>
      have := decideEq leftCondition rightCondition
      have := decideEq leftConsequence rightConsequence
      decidable_of_iff
        (leftCondition = rightCondition ∧ leftConsequence = rightConsequence) (by simp)
  | .ifElse leftCondition leftConsequence leftAlternative,
      .ifElse rightCondition rightConsequence rightAlternative =>
      have := decideEq leftCondition rightCondition
      have := decideEq leftConsequence rightConsequence
      have := decideEq leftAlternative rightAlternative
      decidable_of_iff
        (leftCondition = rightCondition ∧ leftConsequence = rightConsequence
          ∧ leftAlternative = rightAlternative) (by simp)
  | .quote left, .quote right =>
      have := decideEqAll left right
      decidable_of_iff (left = right) (by simp)
  | .plain _, .atom _ | .plain _, .constant _ | .plain _, .application _ _
  | .plain _, .ifThen _ _ | .plain _, .ifElse _ _ _ | .plain _, .quote _ => isFalse nofun
  | .atom _, .plain _ | .atom _, .constant _ | .atom _, .application _ _ | .atom _, .ifThen _ _
  | .atom _, .ifElse _ _ _ | .atom _, .quote _ => isFalse nofun
  | .constant _, .plain _ | .constant _, .atom _ | .constant _, .application _ _
  | .constant _, .ifThen _ _ | .constant _, .ifElse _ _ _ | .constant _, .quote _ => isFalse nofun
  | .application _ _, .plain _ | .application _ _, .atom _ | .application _ _, .constant _
  | .application _ _, .ifThen _ _ | .application _ _, .ifElse _ _ _ | .application _ _, .quote _ => isFalse nofun
  | .ifThen _ _, .plain _ | .ifThen _ _, .atom _ | .ifThen _ _, .constant _
  | .ifThen _ _, .application _ _ | .ifThen _ _, .ifElse _ _ _ | .ifThen _ _, .quote _ => isFalse nofun
  | .ifElse _ _ _, .plain _ | .ifElse _ _ _, .atom _ | .ifElse _ _ _, .constant _
  | .ifElse _ _ _, .application _ _ | .ifElse _ _ _, .ifThen _ _ | .ifElse _ _ _, .quote _ => isFalse nofun
  | .quote _, .plain _ | .quote _, .atom _ | .quote _, .constant _ | .quote _, .application _ _
  | .quote _, .ifThen _ _ | .quote _, .ifElse _ _ _ => isFalse nofun

/-- Whether two lists of trees are the same list. -/
def decideEqAll : (left right : List Datum) → Decidable (left = right)
  | [], [] => isTrue rfl
  | [], _ :: _ | _ :: _, [] => isFalse nofun
  | left :: lefts, right :: rights =>
      have := decideEq left right
      have := decideEqAll lefts rights
      decidable_of_iff (left = right ∧ lefts = rights) (by simp)

end

instance : DecidableEq Datum := decideEq

mutual

/-- A well-formed expression: constants hold atoms in range and every child is a
well-formed expression. -/
def WellFormed : Datum → Prop
  | .plain _ | .atom _ => False
  | .constant (.atom value) => value.InRange
  | .constant _ => False
  | .application operator operands => operator.WellFormed ∧ AllWellFormed operands
  | .ifThen condition consequence => condition.WellFormed ∧ consequence.WellFormed
  | .ifElse condition consequence alternative =>
      condition.WellFormed ∧ consequence.WellFormed ∧ alternative.WellFormed
  | .quote items => AllWellFormed items

/-- Every datum of a list is a well-formed expression. -/
def AllWellFormed : List Datum → Prop
  | [] => True
  | item :: items => item.WellFormed ∧ AllWellFormed items

end

mutual

/-- Well-formedness is decided part by part. -/
def decideWellFormed : (datum : Datum) → Decidable datum.WellFormed
  | .plain _ | .atom _ => isFalse (by simp [WellFormed])
  | .constant (.atom value) => decidable_of_iff value.InRange (by simp [WellFormed])
  | .constant (.plain _) | .constant (.constant _) | .constant (.application _ _)
  | .constant (.ifThen _ _) | .constant (.ifElse _ _ _) | .constant (.quote _) =>
      isFalse (by simp [WellFormed])
  | .application operator operands =>
      have := decideWellFormed operator
      have := decideAllWellFormed operands
      decidable_of_iff (operator.WellFormed ∧ AllWellFormed operands) (by simp [WellFormed])
  | .ifThen condition consequence =>
      have := decideWellFormed condition
      have := decideWellFormed consequence
      decidable_of_iff (condition.WellFormed ∧ consequence.WellFormed) (by simp [WellFormed])
  | .ifElse condition consequence alternative =>
      have := decideWellFormed condition
      have := decideWellFormed consequence
      have := decideWellFormed alternative
      decidable_of_iff
        (condition.WellFormed ∧ consequence.WellFormed ∧ alternative.WellFormed)
        (by simp [WellFormed])
  | .quote items =>
      have := decideAllWellFormed items
      decidable_of_iff (AllWellFormed items) (by simp [WellFormed])

/-- Well-formedness of a list is decided member by member. -/
def decideAllWellFormed : (items : List Datum) → Decidable (AllWellFormed items)
  | [] => isTrue trivial
  | item :: items =>
      have := decideWellFormed item
      have := decideAllWellFormed items
      decidable_of_iff (item.WellFormed ∧ AllWellFormed items) (by simp [AllWellFormed])

end

instance (datum : Datum) : Decidable datum.WellFormed := datum.decideWellFormed

/-- Written parts in round brackets; a single part is followed by a comma. -/
def tuple : List String → String
  | [] => "()"
  | [part] => "(" ++ part ++ ",)"
  | parts => "(" ++ ", ".intercalate parts ++ ")"

mutual

/-- A tree written out in full, with names spelled in some way. -/
def writtenBy (spell : String → String) : Datum → String
  | .plain value => value.written
  | .atom value => value.writtenBy spell
  | .constant held => "Constant(atom=" ++ held.writtenBy spell ++ ")"
  | .application operator operands =>
      "Application(operator=" ++ operator.writtenBy spell ++ ", operands="
        ++ tuple (writtenAllBy spell operands) ++ ")"
  | .ifThen condition consequence =>
      "If(condition=" ++ condition.writtenBy spell ++ ", then=" ++ consequence.writtenBy spell
        ++ ")"
  | .ifElse condition consequence alternative =>
      "IfElse(condition=" ++ condition.writtenBy spell ++ ", then="
        ++ consequence.writtenBy spell ++ ", otherwise=" ++ alternative.writtenBy spell ++ ")"
  | .quote items => "Quote(exprs=" ++ tuple (writtenAllBy spell items) ++ ")"

/-- Every tree of a list written out in full, with names spelled in some way. -/
def writtenAllBy (spell : String → String) : List Datum → List String
  | [] => []
  | item :: items => item.writtenBy spell :: writtenAllBy spell items

end

/-- A tree written out in full. Names are quoted. -/
def written (tree : Datum) : String :=
  tree.writtenBy Text.quoted

/-- Every tree of a list written out in full. -/
def writtenAll (items : List Datum) : List String :=
  writtenAllBy Text.quoted items

section Written

variable (spell : String → String)

/-- How a constant is written. -/
theorem writtenBy_constant (held : Datum) :
    (constant held).writtenBy spell = "Constant(atom=" ++ held.writtenBy spell ++ ")" := rfl

/-- How an application is written. -/
theorem writtenBy_application (operator : Datum) (operands : List Datum) :
    (application operator operands).writtenBy spell = "Application(operator="
      ++ operator.writtenBy spell ++ ", operands=" ++ tuple (writtenAllBy spell operands)
      ++ ")" := rfl

/-- How a condition without an alternative is written. -/
theorem writtenBy_ifThen (condition consequence : Datum) :
    (ifThen condition consequence).writtenBy spell = "If(condition=" ++ condition.writtenBy spell
      ++ ", then=" ++ consequence.writtenBy spell ++ ")" := rfl

/-- How a condition with an alternative is written. -/
theorem writtenBy_ifElse (condition consequence alternative : Datum) :
    (ifElse condition consequence alternative).writtenBy spell = "IfElse(condition="
      ++ condition.writtenBy spell ++ ", then=" ++ consequence.writtenBy spell ++ ", otherwise="
      ++ alternative.writtenBy spell ++ ")" := rfl

/-- How a quotation is written. -/
theorem writtenBy_quote (items : List Datum) :
    (quote items).writtenBy spell = "Quote(exprs=" ++ tuple (writtenAllBy spell items) ++ ")" :=
  rfl

end Written

/-- A datum on its own: a key stands for its name and text for itself. -/
def shown : Datum → String
  | .plain value => value.shown
  | .atom value => value.shown
  | other => other.written

/-- The name of a datum's kind. -/
def kind : Datum → String
  | .plain value => value.kind
  | .atom value => value.kind
  | .constant _ => "Constant"
  | .application _ _ => "Application"
  | .ifThen _ _ => "If"
  | .ifElse _ _ _ => "IfElse"
  | .quote _ => "Quote"

/-- The names of the parts of a datum, in the order in which they are written. A plain
value has none. -/
def fields : Datum → List String
  | .plain _ => []
  | .atom (.int _) | .atom (.bool _) => ["value"]
  | .atom (.key _) => ["name"]
  | .atom (.instruction _) => ["instruction"]
  | .constant _ => ["atom"]
  | .application _ _ => ["operator", "operands"]
  | .ifThen _ _ => ["condition", "then"]
  | .ifElse _ _ _ => ["condition", "then", "otherwise"]
  | .quote _ => ["exprs"]

/-- Only a plain value can count as false. -/
def truth : Datum → Bool
  | .plain value => value.truth
  | _ => true

mutual

/-- Equality of trees, part by part. Distinct kinds are never equal. -/
def same : Datum → Datum → Bool
  | .plain left, .plain right => left.same right
  | .atom left, .atom right => left == right
  | .constant left, .constant right => left.same right
  | .application leftOperator leftOperands, .application rightOperator rightOperands =>
      leftOperator.same rightOperator && sameAll leftOperands rightOperands
  | .ifThen leftCondition leftConsequence,
      .ifThen rightCondition rightConsequence =>
      leftCondition.same rightCondition && leftConsequence.same rightConsequence
  | .ifElse leftCondition leftConsequence leftAlternative,
      .ifElse rightCondition rightConsequence rightAlternative =>
      leftCondition.same rightCondition && leftConsequence.same rightConsequence
        && leftAlternative.same rightAlternative
  | .quote left, .quote right => sameAll left right
  | _, _ => false

/-- Lists of trees are equal when they are equally long and equal member by member. -/
def sameAll : List Datum → List Datum → Bool
  | [], [] => true
  | left :: lefts, right :: rights => left.same right && sameAll lefts rights
  | _, _ => false

end

/-- A list without the trees that are equal to an earlier one. -/
def distinct : List Datum → List Datum
  | [] => []
  | item :: items => item :: (distinct items).filter fun other => !item.same other

end Datum

end PocketLisp
