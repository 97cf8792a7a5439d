import ItemExpr.Number.Integer
import ItemExpr.Usage

set_option autoImplicit false

namespace ItemExpr

inductive Fault
  | usage (e : UsageError)
  | longIndex
  deriving DecidableEq, Repr

def Fault.message : Fault → String
  | .usage e => e.message
  | .longIndex => Number.limitMessage none

end ItemExpr
