import ItemExpr.Proofs.Request.Fields
import ItemExpr.Proofs.Update.Alike

set_option autoImplicit false

namespace ItemExpr

variable {X : Type}

section Params

variable {A B : Type} (f : A → B)

def Param.map : Param A X → Param B X
  | .expression s => .expression s
  | .names entries => .names entries
  | .values entries => .values (entries.map fun (label, v) => (label, f v))
  | .wires entries => .wires entries
  | .other x => .other x

def mapParams (params : Params A X) : Params B X := params.map fun (field, p) => (field, p.map f)

theorem map_put (field : String) (p : Param A X) (params : Params A X) :
    put field (p.map f) (mapParams f params) = mapParams f (put field p params) :=
  put_map (Param.map f) field p params

theorem map_erase (field : String) (params : Params A X) :
    erase field (mapParams f params) = mapParams f (erase field params) := by
  rw [erase, erase, mapParams, List.filter_map]
  rfl

theorem map_add_params (t : Table A) (params : Params A X) :
    (t.map f).addParams (mapParams f params) = mapParams f (t.addParams params) := by
  have names : (t.map f).sentNames = t.sentNames := rfl
  have values : (t.map f).sentValues =
      t.sentValues.map fun entries => entries.map fun (label, v) => (label, f v) := by
    rw [Table.sentValues, Table.sentValues, Table.map, List.isEmpty_map]
    cases t.values.isEmpty <;> rfl
  rw [Table.addParams, Table.addParams, names, values]
  cases t.sentNames with
  | none =>
      cases t.sentValues with
      | none => rfl
      | some entries => exact map_put f "ExpressionAttributeValues" (.values entries) params
  | some entries =>
      have named := map_put f "ExpressionAttributeNames" (.names entries) params
      cases t.sentValues with
      | none => exact named
      | some values =>
          simp only [Option.map_some, ← map_put, ← named]
          rfl

theorem map_fields (params : Params A X) :
    expressionFields (mapParams f params) = expressionFields params := by
  rw [expressionFields, expressionFields, mapParams, List.map_map]
  rfl

namespace Workspace

theorem map_add_conditions (w : Workspace A) (field : String) (cs : List (Condition A))
    (params : Params A X) :
    (w.map f).addConditions field (Condition.mapEach f cs) (mapParams f params) =
      Prod.map (Except.map (mapParams f)) (Workspace.map f) (w.addConditions field cs params) := by
  cases cs with
  | nil => rfl
  | cons c rest =>
      have said : Script.join " AND " (Condition.scripts (Condition.mapEach f (c :: rest))) =
          (Script.join " AND " (Condition.scripts (c :: rest))).map f := by
        rw [Condition.map_scripts, map_join]
      have empty : (Condition.mapEach f (c :: rest)).isEmpty = false := rfl
      rw [addConditions, addConditions, said, map_run_script, empty]
      cases w.runScript [] (Script.join " AND " (Condition.scripts (c :: rest))) with
      | mk result w' =>
          cases result with
          | error e => rfl
          | ok written =>
              have filled := map_put f field (.expression written.text) params
              simp only [Prod.map, Except.map, List.isEmpty_cons, Bool.false_eq_true, if_false,
                ← filled]
              rfl

theorem map_add_key_param (w : Workspace A) (entries : List (String × KeyClause A))
    (params : Params A X) :
    (w.map f).addKeyParam (entries.map fun (name, c) => (name, c.map f)) (mapParams f params) =
      Prod.map (mapParams f) (Workspace.map f) (w.addKeyParam entries params) := by
  cases entries with
  | nil => rfl
  | cons entry rest =>
      have filled := map_put f "KeyConditionExpression"
        (.expression (w.buildKey (entry :: rest)).1.text) params
      rw [addKeyParam, addKeyParam, map_build_key f w (entry :: rest)]
      simp only [Prod.map, List.map_cons, List.isEmpty_cons, Bool.false_eq_true, if_false, id,
        ← filled]
      rfl

theorem map_add_update_param (w : Workspace A) (entries : List (String × Action A))
    (params : Params A X) :
    (w.map f).addUpdateParam (Action.mapEach f entries) (mapParams f params) =
      Prod.map (Except.map (mapParams f)) (Workspace.map f) (w.addUpdateParam entries params) := by
  rw [addUpdateParam, addUpdateParam, map_build_update]
  cases w.buildUpdate entries with
  | mk result w' =>
      match result with
      | .error e => rfl
      | .ok (some written) =>
          have filled := map_put f "UpdateExpression" (.expression written.text) params
          simp only [Prod.map, Except.map, id, ← filled]
          rfl
      | .ok none =>
          have dropped := map_erase f "UpdateExpression" params
          simp only [Prod.map, Except.map, id, ← dropped]

end Workspace

theorem map_key_params (r : Request A) (w : Workspace A) :
    (r.map f).keyParams (X := X) (w.map f) =
      Prod.map (mapParams f) (Workspace.map f) (r.keyParams w) := by
  cases given : r.key with
  | none =>
      simp only [Request.keyParams, Request.map, given]
      rfl
  | some entries =>
      simp only [Request.keyParams, Request.map, given]
      exact Workspace.map_add_key_param f w entries []

theorem map_update_params (r : Request A) (params : Params A X) (w : Workspace A) :
    (r.map f).updateParams (mapParams f params) (w.map f) =
      Prod.map (Except.map (mapParams f)) (Workspace.map f) (r.updateParams params w) := by
  cases given : r.update with
  | none =>
      simp only [Request.updateParams, Request.map, given]
      rfl
  | some entries =>
      simp only [Request.updateParams, Request.map, given]
      exact Workspace.map_add_update_param f w entries params

theorem map_expressions (r : Request A) (w : Workspace A) :
    (r.map f).expressions (w.map f) =
      Prod.map (Except.map (mapParams (X := X) f)) (Workspace.map f) (r.expressions w) := by
  have updated := map_update_params f r (r.keyParams (X := X) w).1 (r.keyParams (X := X) w).2
  rw [Request.expressions_eq, Request.expressions_eq, map_key_params]
  simp only [Prod.map]
  rw [updated]
  cases r.updateParams (r.keyParams (X := X) w).1 (r.keyParams (X := X) w).2 with
  | mk result middle =>
      cases result with
      | error e => rfl
      | ok params =>
          have conditions := Workspace.map_add_conditions f middle "ConditionExpression"
            r.conditions params
          simp only [Prod.map, Except.map]
          rw [Request.map, conditions]
          cases middle.addConditions "ConditionExpression" r.conditions params with
          | mk result last =>
              cases result with
              | error e => rfl
              | ok params =>
                  exact Workspace.map_add_conditions f last "FilterExpression" r.filters params

end Params

section Logs

variable {V : Type}

def shownDigits (s : String) : List Char :=
  (Text.hexOfBytes (Sha256.digest s.toUTF8.toList)).toList.take 8

def Table.fingerprints (text : V → Option String) (t : Table V) :
    List (String × Option (List Char)) :=
  t.values.map fun (label, v) => (label, (text v).map shownDigits)

theorem fingerprints_of_texts (text : V → Option String) (t t' : Table V)
    (same : (t.values.map fun (label, v) => (label, text v)) =
      t'.values.map fun (label, v) => (label, text v)) :
    t.fingerprints text = t'.fingerprints text := by
  have digits := congrArg (List.map fun (label, s) => (label, s.map shownDigits)) same
  rwa [List.map_map, List.map_map] at digits

def redactedText : Option (List String) → String
  | some entries => "\x7b" ++ ", ".intercalate entries ++ "\x7d"
  | none => "<redaction_failed>"

theorem shown_fingerprint (text : V → Option String) (label : String) (v : V) :
    (match some (Text.quoted label), text v with
      | some shown, some s => some s!"{shown}: '{fingerprint s}'"
      | _, _ => none) =
      ((text v).map shownDigits).map fun d => s!"{Text.quoted label}: '{String.ofList d}'" := by
  cases text v with
  | none => rfl
  | some s =>
      have digits : String.ofList (shownDigits s) = fingerprint s := by
        rw [shownDigits, ← fingerprint_digits, String.ofList_toList]
      simp only [Option.map_some, digits]

theorem redacted_shown (text : V → Option String) (t : Table V) : t.redacted text =
    redactedText ((t.fingerprints text).mapM fun (label, digest) =>
      digest.map fun d => s!"{Text.quoted label}: '{String.ofList d}'") := by
  rw [Table.fingerprints, List.mapM_map]
  exact congrArg (fun write => redactedText (t.values.mapM write))
    (funext fun entry => shown_fingerprint text entry.1 entry.2)

theorem redacted_fingerprints (text : V → Option String) (t t' : Table V)
    (same : t.fingerprints text = t'.fingerprints text) : t.redacted text = t'.redacted text := by
  rw [redacted_shown, redacted_shown, same]

def Record.veiled : Record → Record
  | .condition expression names _ => .condition expression names ""
  | .key expression names _ => .key expression names ""
  | .update expression set remove add delete _ => .update expression set remove add delete ""
  | .request fields names _ lowLevel => .request fields names "" lowLevel
  | .clauseIgnored clause => .clauseIgnored clause

end Logs

open Argument

structure Input where
  key : Option (List (String × Argument)) := none
  update : Option Update.Source := none
  conditions : List (Condition Value) := []
  filters : List (Condition Value) := []

namespace Input

def request (i : Input) : Request Value :=
  { key := i.key.map fun entries => entries.map fun (name, a) => (name, a.keyEntry)
    update := i.update.map Update.Source.actions
    conditions := i.conditions
    filters := i.filters }

inductive LikeKey : Argument → Argument → Prop
  | clause (c c' : KeyClause Value) : c.map veil = c'.map veil →
      LikeKey (.keyClause c) (.keyClause c')
  | plain (a a' : Argument) : (∀ c, a ≠ .keyClause c) → (∀ c, a' ≠ .keyClause c) → LikeKey a a'

def LikeKeys : List (String × Argument) → List (String × Argument) → Prop :=
  List.Forall₂ fun entry entry' => entry.1 = entry'.1 ∧ LikeKey entry.2 entry'.2

structure Alike (i i' : Input) : Prop where
  key : Option.Rel LikeKeys i.key i'.key
  update : Option.Rel LikeSource i.update i'.update
  conditions : Condition.mapEach veil i.conditions = Condition.mapEach veil i'.conditions
  filters : Condition.mapEach veil i.filters = Condition.mapEach veil i'.filters

theorem like_key (a a' : Argument) (like : LikeKey a a') :
    a.keyEntry.map veil = a'.keyEntry.map veil := by
  have plain (a : Argument) (other : ∀ c, a ≠ .keyClause c) : a.keyEntry = .equals a.toValue := by
    cases a with
    | keyClause c => exact absurd rfl (other c)
    | _ => rfl
  cases like with
  | clause c c' same => exact same
  | plain _ _ other other' =>
      rw [plain a other, plain a' other']
      rfl

theorem like_keys (entries entries' : List (String × Argument)) (like : LikeKeys entries entries') :
    entries.map (fun (name, a) => (name, a.keyEntry.map veil)) =
      entries'.map fun (name, a) => (name, a.keyEntry.map veil) := by
  induction like with
  | nil => rfl
  | cons first _ ih =>
      simp only [List.map_cons, ih, first.1, like_key _ _ first.2]

theorem alike_request (i i' : Input) (alike : i.Alike i') :
    i.request.map veil = i'.request.map veil := by
  obtain ⟨key, update, conditions, filters⟩ := i
  obtain ⟨key', update', conditions', filters'⟩ := i'
  obtain ⟨likeKey, likeUpdate, likeConditions, likeFilters⟩ := alike
  simp only at likeKey likeUpdate likeConditions likeFilters
  have keys : (key.map fun entries => entries.map fun (name, a) => (name, a.keyEntry.map veil)) =
      key'.map fun entries => entries.map fun (name, a) => (name, a.keyEntry.map veil) := by
    cases likeKey with
    | none => rfl
    | some like => exact congrArg some (like_keys _ _ like)
  have updates : (update.map fun source => Action.mapEach veil source.actions) =
      update'.map fun source => Action.mapEach veil source.actions := by
    cases likeUpdate with
    | none => rfl
    | some like => exact congrArg some (source_actions like)
  simpa [Request.map, request, Option.map_map, Function.comp_def, likeConditions,
    likeFilters] using And.intro keys updates

theorem expressions_unseen (w : Workspace Value) (i i' : Input) (alike : i.Alike i') :
    Prod.map (Except.map (mapParams (X := X) veil)) (Workspace.map veil) (i.request.expressions w) =
      Prod.map (Except.map (mapParams veil)) (Workspace.map veil) (i'.request.expressions w) := by
  rw [← map_expressions, ← map_expressions, alike_request i i' alike]

theorem record_unseen (text : Value → Option String) (after after' : Workspace Value)
    (same : after.map veil = after'.map veil) (params params' : Params Value X)
    (filled : mapParams veil params = mapParams veil params') :
    let record (w : Workspace Value) (params : Params Value X) :=
      w.record (.request (expressionFields params) w.table.sentNames (w.table.redacted text) false)
    (record after params).log.map Record.veiled = (record after' params').log.map Record.veiled ∧
      (after.table.fingerprints text = after'.table.fingerprints text →
        (record after params).log = (record after' params').log) := by
  have logs : after.log = after'.log := congrArg (fun w : Workspace Unit => w.log) same
  have names : after.table.sentNames = after'.table.sentNames :=
    congrArg (fun w : Workspace Unit => w.table.sentNames) same
  have fields : expressionFields params = expressionFields params' := by
    rw [← map_fields veil params, filled, map_fields]
  constructor
  · simp only [Workspace.record, List.map_append, logs, fields, names]
    rfl
  · intro prints
    have shown := redacted_fingerprints text after.table after'.table prints
    simp only [Workspace.record, logs, fields, names, shown]

def parcel (owner weight note low high limit : Value) : Input :=
  { key := some [("owner", .value owner), ("sent", .keyClause (.between "BETWEEN" low high))]
    update := some (.entries
      [("weight", Update.increment (.value weight)),
        ("last", Update.nested (.entries [("note", .value note), ("draft", .value .null)]))])
    conditions := [.compare (.path "weight") "<" (.value limit)] }

theorem parcel_alike
    (owner owner' weight weight' note note' low low' high high' limit limit' : Value)
    (unnamed : (Argument.value weight).IsUnnamed) (unnamed' : (Argument.value weight').IsUnnamed)
    (entry : (Argument.value note).IsEntry) (entry' : (Argument.value note').IsEntry) :
    (parcel owner weight note low high limit).Alike
      (parcel owner' weight' note' low' high' limit') where
  key := .some (.cons ⟨rfl, .plain _ _ (by simp) (by simp)⟩ (.cons ⟨rfl, .clause _ _ rfl⟩ .nil))
  update := .some (.entries _ _ (.cons _ _ _ _ _ (.increment _ _ (.plain _ _ unnamed unnamed'))
    (.cons _ _ _ _ _ (.nested _ _ (.entries _ _ (.cons _ _ _ _ _
      (.term _ _ (.plain _ _ entry entry'))
      (.cons _ _ _ _ _ (.term _ _ (.same _)) .nil)))) .nil)))
  conditions := rfl
  filters := rfl

end Input

end ItemExpr
