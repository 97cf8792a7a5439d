import ItemExpr.Word

set_option autoImplicit false

namespace ItemExpr

structure UsageError where
  operator : String
  count : Int
  wording : Option String := none
  deriving DecidableEq, Repr

def UsageError.message (e : UsageError) : String :=
  match e.wording with
  | some wording => wording
  | none =>
      if e.operator = "NOT" then s!"NOT requires exactly one condition, got {e.count}"
      else s!"{e.operator} requires at least two conditions, got {e.count}"

def usageError? (operator : Word) (count : Nat) : Option UsageError :=
  if operator.passesFor "NOT" then
    if count = 1 then none else some { operator := "NOT", count }
  else if 2 ≤ count then none else some { operator := operator.spelling, count }

end ItemExpr
