import ItemExpr.Params

set_option autoImplicit false

namespace ItemExpr

variable {V X : Type}

structure Request (V : Type) where
  key : Option (List (String × KeyClause V)) := none
  update : Option (List (String × Action V)) := none
  conditions : List (Condition V) := []
  filters : List (Condition V) := []

abbrev Converter (V : Type) := List (String × V) → Except SerializationError (List (String × Wire))

inductive RequestError
  | fault (e : Fault)
  | serialization (e : SerializationError)

def convertValues (convert : Option (Converter V)) (t : Table V) (params : Params V X) :
    Except SerializationError (Params V X) :=
  match convert, t.sentValues with
  | some convert, some values =>
      (convert values).map fun wires => put "ExpressionAttributeValues" (.wires wires) params
  | _, _ => .ok params

def expressionFields (params : Params V X) : List String :=
  let keys := (params.map (·.1)).filter fun key => "Expression".toList.isSuffixOf key.toList
  keys.mergeSort (· ≤ ·)

namespace Request

def expressions (r : Request V) (w : Workspace V) : Except Fault (Params V X) × Workspace V :=
  let (params, w) := match r.key with
    | some entries => w.addKeyParam entries ([] : Params V X)
    | none => ([], w)
  let (updated, w) := match r.update with
    | some entries => w.addUpdateParam entries params
    | none => (.ok params, w)
  match updated with
  | .error e => (.error e, w)
  | .ok params =>
      match w.addConditions "ConditionExpression" r.conditions params with
      | (.error e, w) => (.error e, w)
      | (.ok params, w) => w.addConditions "FilterExpression" r.filters params

def params (text : V → Option String) (convert : Option (Converter V)) (r : Request V)
    (w : Workspace V) : Except RequestError (Params V X) × Workspace V :=
  match r.expressions w with
  | (.error e, w) => (.error (.fault e), w)
  | (.ok params, w) =>
      match convertValues convert w.table (w.table.addParams params) with
      | .error e => (.error (.serialization e), w)
      | .ok params =>
          (.ok params, w.record (.request (expressionFields params) w.table.sentNames
            (w.table.redacted text) convert.isSome))

end Request

def Workspace.requestParams (text : V → Option String) (convert : Option (Converter V))
    (w : Workspace V) (r : Request V) : Except RequestError (Params V X) × Workspace V :=
  let (result, inner) := r.params text convert { table := w.table, log := w.log }
  (result, { w with table := inner.table, log := inner.log })

end ItemExpr
