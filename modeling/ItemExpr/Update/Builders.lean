import ItemExpr.Argument
import ItemExpr.Failure

set_option autoImplicit false

namespace ItemExpr.Update

def path (p : String) : Argument := .operand (.path p)

def pathOr (p : String) (v : Argument) : Argument := .operand (.pathOr p v.toValue.plain)

def literal (v : Argument) : Argument := .operand (.literal v.toValue.plain)

def assign (v : Argument) : Argument := .action "Set" (.assign v.valueOperand)

def assignDefault (v : Argument) : Argument := .action "SetDefault" (.assignDefault v.valueOperand)

def remove : Argument := .action "Remove" .remove

def increment (v : Argument) : Argument :=
  .action "Increment" (.arithmetic none .plus v.pathOperand)

def decrement (v : Argument) : Argument :=
  .action "Decrement" (.arithmetic none .minus v.pathOperand)

def add (left right : Argument) : Argument :=
  .action "Add" (.arithmetic left.pathOperand? .plus right.pathOperand)

def subtract (left right : Argument) : Argument :=
  .action "Subtract" (.arithmetic left.pathOperand? .minus right.pathOperand)

def arithmetic (left operator right : Argument) : Except Failure Argument :=
  match Sign.ofWord? operator.word with
  | some sign => .ok (.action "Arithmetic" (.arithmetic left.pathOperand? sign right.pathOperand))
  | none => .error (.unknownSign operator.toValue)

def listAppend (left right : Argument) : Argument :=
  .action "ListAppend" (.listAppend left.pathOperand? right.pathOperand?)

def append (v : Argument) : Argument := .action "Append" (.listAppend none v.pathOperand?)

def prepend (v : Argument) : Argument := .action "Prepend" (.listAppend v.pathOperand? none)

def join (left right : Argument) : Argument :=
  .action "Join" (.listAppend left.pathOperand? right.pathOperand?)

def removeIndexes (vs : List Argument) : Except Failure Argument :=
  match Value.indexes (vs.map Argument.toValue) with
  | .ok indexes => .ok (.action "DeleteIndexes" (.removeIndexes indexes))
  | .error e => .error (.index e)

def assignIndexes (entries : List (Value × Argument)) : Except Failure Argument :=
  match indexed entries with
  | .ok entries =>
      .ok (.action "SetIndexes" (.assignIndexes (entries.map fun (i, v) => (i, v.valueOperand))))
  | .error e => .error (.index e)

def addElements (v : Argument) : Argument := .action "AddToSet" (.addElements v.pathOperand)

def deleteElements (v : Argument) : Argument :=
  .action "RemoveFromSet" (.deleteElements v.pathOperand)

inductive Source
  | entries (es : List (String × Argument))
  | model (fields : List (Field Argument))

def Source.actions : Source → List (String × Action Value)
  | .entries es => es.map fun (key, a) => (key, a.toAction)
  | .model fields => (setEntries fields).map fun (key, a) => (key, a.plain.toAction)

def nested (source : Source) : Argument := .action "MapOf" (.nested source.actions)

def keyed (groups : List (String × Source)) : Argument :=
  .action "ModelMap" (.keyed (groups.map fun (key, source) => (key, source.actions)))

end ItemExpr.Update
