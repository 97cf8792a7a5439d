import ItemExpr.Fault
import ItemExpr.Options
import ItemExpr.Value.Hash
import ItemExpr.Value.Index
import ItemExpr.Wire

set_option autoImplicit false

namespace ItemExpr

inductive Failure
  | fault (e : Fault)
  | options (e : OptionsError)
  | unknownSign (operator : Value)
  | index (e : IndexError)
  | unhashable (e : Unhashable)
  | noSequence (type : String)
  | noCondition
  | unknownLabel (label : String)
  | serialization (e : SerializationError)

def Failure.message (text : Value → Option String) : Failure → String
  | .fault e => e.message
  | .options e => e.message
  | .unknownSign operator => "Unsupported arithmetic operator: " ++ (text operator).getD ""
  | .index e => e.message
  | .unhashable e => e.message
  | .noSequence type => s!"'{type}' object is not iterable"
  | .noCondition => "pop from empty list"
  | .unknownLabel label => Text.quoted label
  | .serialization e => e.message

end ItemExpr
