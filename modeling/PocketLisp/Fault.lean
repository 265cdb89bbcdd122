import PocketLisp.EvalError

/-!
# Faults

What can go wrong once a tree has been read: either an error of the program that is
being evaluated, or a misuse by the caller.
-/

namespace PocketLisp

/-- Either kind of error. -/
inductive Fault
  | evaluation (error : EvalError)
  | misuse (error : Misuse)
  deriving DecidableEq, Repr

/-- The text of a fault. -/
def Fault.message : Fault → String
  | .evaluation error => error.message
  | .misuse error => error.message

end PocketLisp
