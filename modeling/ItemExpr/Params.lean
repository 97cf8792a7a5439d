import ItemExpr.Condition
import ItemExpr.Key
import ItemExpr.Update.Build
import ItemExpr.Wire

set_option autoImplicit false

namespace ItemExpr

inductive Param (V X : Type)
  | expression (s : String)
  | names (entries : List (String × String))
  | values (entries : List (String × V))
  | wires (entries : List (String × Wire))
  | other (x : X)

abbrev Params (V X : Type) := List (String × Param V X)

variable {V X : Type}

def erase {α : Type} (key : String) (entries : List (String × α)) : List (String × α) :=
  entries.filter (·.1 ≠ key)

namespace Table

def addParams (t : Table V) (params : Params V X) : Params V X :=
  let params := match t.sentNames with
    | some names => put "ExpressionAttributeNames" (.names names) params
    | none => params
  match t.sentValues with
  | some values => put "ExpressionAttributeValues" (.values values) params
  | none => params

def redacted (text : V → Option String) (t : Table V) : String :=
  redact (fun label => some (Text.quoted label)) text t.values

end Table

namespace Workspace

def addConditions (w : Workspace V) (field : String) (conditions : List (Condition V))
    (params : Params V X) : Except Fault (Params V X) × Workspace V :=
  if conditions.isEmpty then (.ok params, w)
  else
    let (written, w) := w.runScript [] (.join " AND " (Condition.scripts conditions))
    (written.map fun written => put field (.expression written.text) params, w)

def addKeyParam (w : Workspace V) (entries : List (String × KeyClause V))
    (params : Params V X) : Params V X × Workspace V :=
  if entries.isEmpty then (params, w)
  else
    let (written, w) := w.buildKey entries
    (put "KeyConditionExpression" (.expression written.text) params, w)

def addUpdateParam (w : Workspace V) (entries : List (String × Action V))
    (params : Params V X) : Except Fault (Params V X) × Workspace V :=
  match w.buildUpdate entries with
  | (.error e, w) => (.error e, w)
  | (.ok (some written), w) =>
      (.ok (put "UpdateExpression" (.expression written.text) params), w)
  | (.ok none, w) => (.ok (erase "UpdateExpression" params), w)

def conditionInput (text : V → Option String) (w : Workspace V) (c : Condition V) :
    Except Fault (Params V X) × Workspace V :=
  match w.runScript [] c.script with
  | (.error e, w) => (.error e, w)
  | (.ok written, w) =>
      (.ok (w.table.addParams [("ConditionExpression", .expression written.text)]),
        w.record (.condition written.text w.table.sentNames (w.table.redacted text)))

def keyInput (text : V → Option String) (w : Workspace V)
    (entries : List (String × KeyClause V)) : Params V X × Workspace V :=
  let (written, w) := w.buildKey entries
  (w.table.addParams [("KeyConditionExpression", .expression written.text)],
    w.record (.key written.text w.table.sentNames (w.table.redacted text)))

def updateInput (text : V → Option String) (w : Workspace V)
    (entries : List (String × Action V)) : Except Fault (Params V X) × Workspace V :=
  match w.addUpdateParam entries [] with
  | (.error e, w) => (.error e, w)
  | (.ok params, w) =>
      (.ok (w.table.addParams params),
        w.record (.update (w.updateExpression?.map Fragment.text) w.update.set.length
          w.update.remove.length w.update.add.length w.update.delete.length
          (w.table.redacted text)))

end Workspace

end ItemExpr
