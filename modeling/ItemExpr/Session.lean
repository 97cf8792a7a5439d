import ItemExpr.Condition.Build
import ItemExpr.Request
import ItemExpr.Update.Builders
import ItemExpr.Wire.Encode

set_option autoImplicit false

namespace ItemExpr

-- Builders over one table, and the connectives that are shared between conditions. A label stands
-- for the connective that was made under it last; conditions hold connectives by number.
structure Session where
  workspace : Workspace Value
  shared : Shared Value := []
  labels : List (String × Nat) := []

namespace Shared

-- The text form of a shared connective. In its own conditions, those of the connectives `around`
-- it included, the conditions of a connective are not shown again.
def form (shared : Shared Value) : Nat → List Nat → Nat → List (Part Value)
  | 0, _, _ => []
  | depth + 1, around, number =>
      match shared[number]? with
      | some s =>
          if around.contains number then connectiveForm s.operator [.text "..."]
          else Value.settleParts (form shared depth (number :: around)) s.condition.form
      | none => []

def settleValue (shared : Shared Value) (v : Value) : Value :=
  v.settle (shared.form (shared.length + 1) [])

def text (shared : Shared Value) (v : Value) : Option String := (shared.settleValue v).text

def convert (shared : Shared Value) (values : List (String × Value)) :
    Except SerializationError (List (String × Wire)) :=
  serializeAll id (values.map fun (label, v) => (label, shared.settleValue v))

end Shared

namespace Session

def number? (s : Session) (label : String) : Option Nat := find? label s.labels

def connective? (s : Session) (label : String) : Option (Nat × Strict (Leaf Value)) := do
  let number ← s.number? label
  return (number, ← s.shared[number]?)

def connective (s : Session) (label : String) : Except Failure (Nat × Strict (Leaf Value)) :=
  match s.connective? label with
  | some found => .ok found
  | none => .error (.unknownLabel label)

def define (s : Session) (label : String) (operator : Word)
    (conditions : List (Condition (Leaf Value))) : Except Failure Session :=
  match Strict.make operator conditions with
  | .error e => .error (.fault (.usage e))
  | .ok made =>
      .ok { s with shared := s.shared ++ [made], labels := put label s.shared.length s.labels }

def change (s : Session) (label : String)
    (f : Strict (Leaf Value) → Except Failure (Strict (Leaf Value))) : Except Failure Session :=
  match s.connective label with
  | .error e => .error e
  | .ok (number, old) => (f old).map fun new => { s with shared := s.shared.set number new }

def add (s : Session) (label : String) (c : Condition (Leaf Value)) : Except Failure Session :=
  s.change label fun found => (found.add c).mapError fun e => .fault (.usage e)

def push (s : Session) (label : String) (c : Condition (Leaf Value)) : Except Failure Session :=
  s.change label fun found => .ok (found.push c)

def pop (s : Session) (label : String) : Except Failure Session :=
  s.change label fun found =>
    match found.pop? with
    | some rest => .ok rest
    | none => .error .noCondition

def conditionNow (s : Session) (c : Condition (Leaf Value)) : Condition Value := s.shared.resolve c

def render (s : Session) (c : Condition (Leaf Value)) : Except Fault Fragment × Session :=
  let (result, workspace) := s.workspace.runScript [] (s.conditionNow c).script
  (result, { s with workspace })

def renderEach (s : Session) (cs : List (Condition (Leaf Value))) :
    Except Fault (List Fragment) × Session :=
  let (result, table) := Condition.renderEach (cs.map s.conditionNow) s.workspace.table
  (result, { s with workspace := { s.workspace with table } })

def tableText (s : Session) : Option String := do
  let names := s.workspace.table.names.map fun (label, name) =>
    s!"{Text.quoted label}: {Text.quoted name}"
  let values ← s.workspace.table.values.mapM fun (label, v) =>
    (s.shared.text v).map fun shown => s!"{Text.quoted label}: {shown}"
  return "ExpressionAttributes(names=" ++ bracketed "\x7b" "\x7d" names ++ ", values="
    ++ bracketed "\x7b" "\x7d" values ++ ")"

end Session
end ItemExpr
