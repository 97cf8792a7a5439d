import ItemExpr.Table
import ItemExpr.Value

set_option autoImplicit false

namespace ItemExpr

def collapse {α : Type} (entries : List (String × α)) : List (String × α) :=
  entries.foldl (fun known (key, entry) => put key entry known) []

namespace Value

def ofEntries (entries : List (String × Value)) : Value :=
  .map (entries.map fun (key, v) => (.str key, v))

mutual

def dump : Value → Value
  | .model _ fields => ofEntries (collapse (dumpFields fields))
  | .list vs => .list (dumpEach vs)
  | .tuple vs => .tuple (dumpEach vs)
  | .map entries => .map (dumpEntries entries)
  | v => v

def dumpFields : List (Field Value) → List (String × Value)
  | [] => []
  | ⟨name, label, v, _⟩ :: rest => (label.getD name, v.dump) :: dumpFields rest

def dumpEach : List Value → List Value
  | [] => []
  | v :: rest => v.dump :: dumpEach rest

def dumpEntries : List (Value × Value) → List (Value × Value)
  | [] => []
  | (k, v) :: rest => (k, v.dump) :: dumpEntries rest

end

mutual

-- The form in which updates store a value: models as dictionaries and tuples as lists, but a
-- model is dumped as a whole.
def plain : Value → Value
  | .model type fields => dump (.model type fields)
  | .list vs => .list (plainEach vs)
  | .tuple vs => .list (plainEach vs)
  | .map entries => .map (plainEntries entries)
  | .member type name v => if type.mixes v then v.plain else .member type name v
  | v => v

def plainEach : List Value → List Value
  | [] => []
  | v :: rest => v.plain :: plainEach rest

def plainEntries : List (Value × Value) → List (Value × Value)
  | [] => []
  | (k, v) :: rest => (k, v.plain) :: plainEntries rest

end

theorem container_plain (v : Value) (container : v.isContainer = true) :
    v.plain.isContainer = true := by
  cases v with
  | list | tuple | map => rfl
  | _ => cases container

theorem plain_same_or_container (v : Value) : v.plain = v ∨ v.plain.isContainer = true := by
  cases v with
  | list | tuple | map | model => exact .inr rfl
  | member type name v =>
      rw [plain]
      cases mixes : type.mixes v with
      | false => exact .inl rfl
      | true =>
          rw [EnumType.mixes, Bool.and_eq_true] at mixes
          exact .inr (container_plain v mixes.2)
  | _ => exact .inl rfl

end Value

def Field.entry {α : Type} (f : Field α) : String × α :=
  (match f.label with
    | some label => if label = "" then f.name else label
    | none => f.name, f.value)

def setEntries {α : Type} (fields : List (Field α)) : List (String × α) :=
  collapse ((fields.filter (·.isSet)).map Field.entry)

def modelEntries (fields : List (Field Value)) : List (String × Value) :=
  (setEntries fields).map fun (key, v) => (key, v.plain)

end ItemExpr
