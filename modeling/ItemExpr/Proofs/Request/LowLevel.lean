import ItemExpr.Proofs.Request.Fields
import ItemExpr.Proofs.Table.Tidy
import ItemExpr.Proofs.Wire.Refusal
import ItemExpr.Session

set_option autoImplicit false

namespace ItemExpr

variable {V X : Type}

theorem erase_other (key other : String) (params : Params V X) (different : key ≠ other) :
    find? other (erase key params) = find? other params := by
  induction params with
  | nil => rfl
  | cons head rest ih =>
      obtain ⟨name, p⟩ := head
      rw [erase] at ih ⊢
      by_cases same : name = key
      · have apart : name ≠ other := fun equal => different (same.symm.trans equal)
        rw [List.filter_cons_of_neg (by simpa using same), ih, find?, if_neg apart]
      · rw [List.filter_cons_of_pos (by simpa using same), find?, find?, ih]

theorem add_conditions_other (field other : String) (different : field ≠ other)
    (cs : List (Condition V)) (params params' : Params V X) (w w' : Workspace V)
    (ran : w.addConditions field cs params = (.ok params', w')) :
    find? other params' = find? other params := by
  by_cases empty : cs.isEmpty = true
  · rw [Workspace.addConditions, if_pos empty] at ran
    rw [Except.ok.inj (Prod.mk.inj ran).1]
  · rw [Workspace.addConditions, if_neg empty] at ran
    cases made : w.runScript [] (.join " AND " (Condition.scripts cs)) with
    | mk result w₂ =>
        rw [made] at ran
        obtain ⟨fields, _⟩ := Prod.mk.inj ran
        cases result with
        | error e => cases fields
        | ok f => rw [← Except.ok.inj fields, find_put_other field other _ _ different]

theorem add_update_other (other : String) (different : "UpdateExpression" ≠ other)
    (entries : List (String × Action V)) (params params' : Params V X) (w w' : Workspace V)
    (ran : w.addUpdateParam entries params = (.ok params', w')) :
    find? other params' = find? other params := by
  rw [Workspace.addUpdateParam] at ran
  cases built : w.buildUpdate entries with
  | mk result w₂ =>
      cases result with
      | error e => simp [built] at ran
      | ok written =>
          cases written with
          | none =>
              have filled : erase "UpdateExpression" params = params' := by
                simpa [built] using (Prod.mk.inj ran).1
              rw [← filled, erase_other _ other params different]
          | some f =>
              have filled : put "UpdateExpression" (.expression f.text) params = params' := by
                simpa [built] using (Prod.mk.inj ran).1
              rw [← filled, find_put_other _ other _ _ different]

theorem expressions_other (r : Request V) (w w' : Workspace V) (params : Params V X)
    (ran : r.expressions w = (.ok params, w')) (other : String)
    (key : "KeyConditionExpression" ≠ other) (update : "UpdateExpression" ≠ other)
    (condition : "ConditionExpression" ≠ other) (filter : "FilterExpression" ≠ other) :
    find? other params = none := by
  obtain ⟨p₂, w₂, p₃, w₃, updated, conditioned, filtered⟩ := r.expressions_parts w w' params ran
  have front : find? other (r.keyParams (X := X) w).1 = none := by
    cases given : r.key with
    | none => simp [Request.keyParams, given, find?]
    | some entries =>
        by_cases empty : entries.isEmpty = true
        · simp [Request.keyParams, given, Workspace.addKeyParam, empty, find?]
        · simp [Request.keyParams, given, Workspace.addKeyParam, empty, put, find?, key]
  have middle : find? other p₂ = find? other (r.keyParams (X := X) w).1 := by
    cases given : r.update with
    | none =>
        rw [Request.updateParams, given] at updated
        rw [Except.ok.inj (Prod.mk.inj updated).1]
    | some entries =>
        rw [Request.updateParams, given] at updated
        exact add_update_other other update entries _ _ _ _ updated
  rw [add_conditions_other _ other filter _ _ _ _ _ filtered,
    add_conditions_other _ other condition _ _ _ _ _ conditioned, middle, front]

theorem unconverted_values (text : V → Option String) (r : Request V) (w after : Workspace V)
    (plain : Params V X) (ran : r.params text none w = (.ok plain, after)) :
    find? "ExpressionAttributeValues" plain = after.table.sentValues.map .values := by
  rw [Request.params_unconverted] at ran
  cases made : r.expressions (X := X) w with
  | mk result w' =>
      cases result with
      | error e => simp [made] at ran
      | ok compiled =>
          rw [made] at ran
          obtain ⟨fields, ends⟩ := Prod.mk.inj ran
          have none := expressions_other r w w' compiled made "ExpressionAttributeNames"
            (by decide) (by decide) (by decide) (by decide)
          have none' := expressions_other r w w' compiled made "ExpressionAttributeValues"
            (by decide) (by decide) (by decide) (by decide)
          rw [← Except.ok.inj fields, ← ends]
          exact (add_params_sent w'.table compiled none none').2.2

theorem params_converted (text : V → Option String) (convert : Converter V) (r : Request V)
    (w after : Workspace V) (plain : Params V X)
    (ran : r.params text none w = (.ok plain, after)) :
    (r.params text (some convert) w).1 =
        (convertValues (some convert) after.table plain).mapError .serialization ∧
      (r.params (X := X) text (some convert) w).2.table = after.table := by
  rw [Request.params_unconverted] at ran
  rw [Request.params]
  cases made : r.expressions (X := X) w with
  | mk result w' =>
      cases result with
      | error e => simp [made] at ran
      | ok compiled =>
          rw [made] at ran
          obtain ⟨fields, ends⟩ := Prod.mk.inj ran
          have plain_eq : w'.table.addParams compiled = plain := Except.ok.inj fields
          have table : after.table = w'.table := by
            rw [← ends]
            rfl
          simp only
          rw [table, plain_eq]
          cases convertValues (some convert) w'.table plain <;> exact ⟨rfl, rfl⟩

def lowLevel (see : Value → Value) : Converter Value := fun values =>
  serializeAll id (values.map fun (label, v) => (label, see v))

theorem low_level_plain : lowLevel id = serializeAll id := by
  funext values
  exact congrArg (serializeAll id) (List.map_id values)

theorem low_level_shared (shared : Shared Value) :
    lowLevel shared.settleValue = shared.convert := rfl

section Agreement

variable (see : Value → Value)

def IsSent (entry : String × Value) : Prop := ∃ wire, serialize (see entry.2) = .ok wire

structure FirstFailure (values : List (String × Value)) (label : String) (v : Value)
    (e : SerializationError) : Prop where
  split : ∃ earlier later, values = earlier ++ (label, v) :: later ∧
    ∀ entry ∈ earlier, IsSent see entry
  fails : serialize (see v) = .error e

-- A refusal is raised again under the alias of its value and keeps its cause. Any other error stays
-- as it is.
inductive Reraised (label : String) (v : Value) : SerializationError → SerializationError → Prop
  | refused (shown form : String) (cause : WireError) : v.text = some form →
      Reraised label v (.refused shown cause) (.refusedAt label form shown cause)
  | other (e : SerializationError) : (∀ shown cause, e ≠ .refused shown cause) →
      Reraised label v e e

structure Converts (plain params : Params Value X) (values : List (String × Value)) : Prop where
  keys : params.map Prod.fst = plain.map Prod.fst
  others : ∀ field, field ≠ "ExpressionAttributeValues" → find? field params = find? field plain
  wires : ∃ wires,
    List.Forall₂ (fun entry wire => wire.1 = entry.1 ∧ serialize (see entry.2) = .ok wire.2)
      values wires ∧
    find? "ExpressionAttributeValues" plain =
      (if values.isEmpty then none else some (.values values)) ∧
    find? "ExpressionAttributeValues" params =
      if wires.isEmpty then none else some (.wires wires)

structure Agrees (plain : Params Value X) (t : Table Value)
    (made : Except RequestError (Params Value X) × Workspace Value) : Prop where
  returns : (∃ params, made.1 = .ok params) ↔ ∀ entry ∈ t.values, IsSent see entry
  result : ∀ params, made.1 = .ok params → Converts see plain params t.values
  raises : ∀ label v e, FirstFailure see t.values label v e →
    ∃ raised, made.1 = .error (.serialization raised) ∧ Reraised label (see v) e raised
  table : made.2.table = t

def ShowsRefused (values : List (String × Value)) : Prop :=
  ∀ label v shown cause, FirstFailure see values label v (.refused shown cause) →
    (see v).text.isSome = true

theorem low_level_failure (values : List (String × Value)) :
    failure? (lowLevel see values) =
      values.findSome? fun entry => failureAt? entry.1 (see entry.2) := by
  rw [lowLevel, serialize_all_failure, List.findSome?_map]
  rfl

theorem low_level_each (values : List (String × Value)) (wires : List (String × Wire))
    (made : lowLevel see values = .ok wires) :
    List.Forall₂ (fun entry wire => wire.1 = entry.1 ∧ serialize (see entry.2) = .ok wire.2)
      values wires := by
  have each := serialized_each id _ wires made
  rwa [List.forall₂_map_left_iff] at each

theorem low_level_fine_iff (values : List (String × Value)) :
    (∃ wires, lowLevel see values = .ok wires) ↔ ∀ entry ∈ values, IsSent see entry := by
  rw [lowLevel, serializes_each, List.forall_mem_map]
  rfl

theorem first_failure_error (values : List (String × Value)) (label : String) (v : Value)
    (e raised : SerializationError) (first : FirstFailure see values label v e)
    (fails : failureAt? label (see v) = some raised) : lowLevel see values = .error raised := by
  obtain ⟨earlier, later, split, sent⟩ := first.split
  rw [← failure_some_iff, low_level_failure, List.findSome?_eq_some_iff]
  exact ⟨earlier, (label, v), later, split, fails,
    fun entry present => (failure_at_none_iff _ _).mpr (sent entry present)⟩

theorem reraised_iff (label : String) (v : Value) (e raised : SerializationError)
    (fails : serialize v = .error e) (raises : failureAt? label v = some raised) :
    Reraised label v e raised ↔ ∀ shown cause, e = .refused shown cause → v.text.isSome = true := by
  rw [failureAt?, fails, failure?] at raises
  cases e with
  | refused shown cause =>
      cases form : v.text with
      | none =>
          simp only [form, Option.some.injEq] at raises
          rw [← raises]
          refine iff_of_false ?_ fun shows => by simpa using shows shown cause rfl
          intro again
          cases again
      | some s =>
          simp only [form, Option.some.injEq] at raises
          rw [← raises]
          exact iff_of_true (.refused shown s cause form) fun _ _ _ => rfl
  | refusedAt label' form shown cause =>
      exact absurd fails (serialize_unlabelled v label' form shown cause)
  | unshown | signals raised | unhashable e =>
      rw [← Option.some.inj raises]
      exact iff_of_true (.other _ (by simp)) (by simp)

theorem first_failure_raises (values : List (String × Value)) (label : String) (v : Value)
    (e : SerializationError) (first : FirstFailure see values label v e) :
    ∃ raised, failureAt? label (see v) = some raised := by
  cases fails : failureAt? label (see v) with
  | some raised => exact ⟨raised, rfl⟩
  | none =>
      obtain ⟨wire, sent⟩ := (failure_at_none_iff label (see v)).mp fails
      rw [first.fails] at sent
      cases sent

theorem convert_fine_iff (plain : Params Value X) (t : Table Value) :
    (∃ params, convertValues (some (lowLevel see)) t plain = .ok params) ↔
      ∀ entry ∈ t.values, IsSent see entry := by
  rw [← low_level_fine_iff]
  by_cases empty : t.values = []
  · have sent : ∃ wires, lowLevel see t.values = .ok wires := by
      rw [low_level_fine_iff, empty]
      simp
    exact iff_of_true ⟨plain, by simp [convertValues, Table.sentValues, empty]⟩ sent
  · cases made : lowLevel see t.values <;>
      simp [convertValues, Table.sentValues, empty, made, Except.map]

section Outcome

variable (plain : Params Value X) (t : Table Value)
  (filled : find? "ExpressionAttributeValues" plain = t.sentValues.map .values)

include filled

theorem convert_converts (params : Params Value X)
    (made : convertValues (some (lowLevel see)) t plain = .ok params) :
    Converts see plain params t.values := by
  have values : find? "ExpressionAttributeValues" plain =
      if t.values.isEmpty then none else some (.values t.values) := by
    rw [filled, Table.sentValues]
    split_ifs <;> rfl
  obtain ⟨rfl, none | empty⟩ | ⟨f, wires, chosen, converted, rfl⟩ :=
    converted_cases _ t plain _ made
  · cases none
  · refine ⟨rfl, fun _ _ => rfl, [], ?_, values, ?_⟩
    · rw [empty]
      exact .nil
    · rw [values, empty]
      rfl
  · obtain rfl := Option.some.inj chosen
    have each := low_level_each see t.values wires converted
    by_cases empty : t.values = []
    -- Nothing is put into a request without values, so that this case was the one before.
    · have none : wires = [] := by simpa [empty] using each
      have unchanged : convertValues (some (lowLevel see)) t plain = .ok plain := by
        simp [convertValues, Table.sentValues, empty]
      have same := Except.ok.inj (unchanged.symm.trans made)
      refine ⟨by rw [← same], fun _ _ => by rw [← same], wires, each, values, ?_⟩
      rw [← same, values, empty, none]
      rfl
    · have known : "ExpressionAttributeValues" ∈ plain.map Prod.fst := by
        by_contra missing
        rw [find_none _ _ missing] at values
        simp [empty] at values
      have some : wires ≠ [] := by
        rintro rfl
        exact empty (by simpa using each)
      refine ⟨by rw [put_keys, if_pos known], ?_, wires, each, values, ?_⟩
      · exact fun field other => find_put_other _ field _ _ other.symm
      · rw [find_put_self, if_neg (by simpa using some)]

end Outcome

theorem request_fails (text : Value → Option String) (r : Request Value)
    (w after : Workspace Value) (plain : Params Value X)
    (ran : r.params text none w = (.ok plain, after)) (label : String) (v : Value)
    (e : SerializationError) (first : FirstFailure see after.table.values label v e) :
    ∃ raised, failureAt? label (see v) = some raised ∧
      (r.params (X := X) text (some (lowLevel see)) w).1 = .error (.serialization raised) := by
  obtain ⟨raised, raises⟩ := first_failure_raises see _ label v e first
  have failed := first_failure_error see _ label v e raised first raises
  have some : after.table.values ≠ [] := by
    obtain ⟨earlier, later, split, _⟩ := first.split
    simp [split]
  refine ⟨raised, raises, ?_⟩
  rw [(params_converted text (lowLevel see) r w after plain ran).1]
  simp [convertValues, Table.sentValues, some, failed, Except.map, Except.mapError]

theorem low_level_agrees_iff (text : Value → Option String) (r : Request Value)
    (w after : Workspace Value) (plain : Params Value X)
    (ran : r.params text none w = (.ok plain, after)) :
    Agrees see plain after.table (r.params text (some (lowLevel see)) w) ↔
      ShowsRefused see after.table.values := by
  have filled := unconverted_values text r w after plain ran
  obtain ⟨outcome, table⟩ := params_converted text (lowLevel see) r w after plain ran
  have fine (params : Params Value X) : (r.params text (some (lowLevel see)) w).1 = .ok params ↔
      convertValues (some (lowLevel see)) after.table plain = .ok params := by
    rw [outcome]
    cases convertValues (some (lowLevel see)) after.table plain <;> simp [Except.mapError]
  have fails := request_fails see text r w after plain ran
  constructor
  · intro agrees label v shown cause first
    obtain ⟨raised, raises, failed⟩ := fails label v _ first
    obtain ⟨raised', failed', again⟩ := agrees.raises label v _ first
    obtain rfl : raised = raised' := by
      rw [failed] at failed'
      exact RequestError.serialization.inj (Except.error.inj failed')
    exact (reraised_iff label (see v) _ raised first.fails raises).mp again shown cause rfl
  · intro shows
    refine ⟨?_, ?_, ?_, table⟩
    · rw [← convert_fine_iff see plain after.table]
      exact exists_congr fine
    · exact fun params made => convert_converts see plain after.table filled params
        ((fine params).mp made)
    · intro label v e first
      obtain ⟨raised, raises, failed⟩ := fails label v e first
      refine ⟨raised, failed, (reraised_iff label (see v) e raised first.fails raises).mpr ?_⟩
      rintro shown cause rfl
      exact shows label v shown cause first

end Agreement

theorem shown_refused (see : Value → Value) (values : List (String × Value))
    (shown : ∀ entry ∈ values, (see entry.2).text.isSome = true) : ShowsRefused see values := by
  intro label v _ _ first
  obtain ⟨earlier, later, split, _⟩ := first.split
  exact shown (label, v) (by simp [split])

def mixedRequest : Request Value :=
  { key := some [("id", .equals (.float ⟨0x3FF8000000000000⟩))]
    conditions := [.compare (.path "tags") "=" (.value (.set [.null, .str "a"])),
      .call "contains" (.path "days") [.value (.date ⟨2024, 1, 2⟩)]] }

theorem mixed_request_agrees :
    ∃ (plain : Params Value Unit) (after : Workspace Value),
      mixedRequest.params (fun _ => none) none { table := { options := {} } } =
        (.ok plain, after) ∧
      Agrees id plain after.table
        (mixedRequest.params (fun _ => none) (some (lowLevel id)) { table := { options := {} } }) ∧
      ∃ form shown cause, (mixedRequest.params (X := Unit) (fun _ => none) (some (lowLevel id))
          { table := { options := {} } }).1 =
        .error (.serialization (.refusedAt ":v1" form shown cause)) := by
  have values : (mixedRequest.params (X := Unit) (fun _ => none) none
      { table := { options := {} } }).2.table.values =
      [(":v0", .float ⟨0x3FF8000000000000⟩), (":v1", .set [.null, .str "a"]),
        (":v2", .date ⟨2024, 1, 2⟩)] := rfl
  have ran : ∃ plain after, mixedRequest.params (X := Unit) (fun _ => none) none
      { table := { options := {} } } = (.ok plain, after) := ⟨_, _, rfl⟩
  obtain ⟨plain, after, ran⟩ := ran
  rw [ran] at values
  have shown : ShowsRefused id after.table.values := by
    rw [values]
    exact shown_refused id _ (by decide +kernel)
  exact ⟨plain, after, ran, (low_level_agrees_iff id _ mixedRequest _ after plain ran).mpr shown,
    _, _, _, rfl⟩

-- The value of the member is refused, but the text that the refusal would show cannot be made.
def maskedRequest : Request Value :=
  { key := some [("a", .equals (.member ⟨"Color", false⟩ "RED"
      (.list [.float ⟨0x3FF8000000000000⟩, .unprintable ⟨"shop", "Secret"⟩])))] }

theorem masked_request_unnamed :
    ∃ (plain : Params Value Unit) (after : Workspace Value),
      maskedRequest.params (fun _ => none) none { table := { options := {} } } =
        (.ok plain, after) ∧
      (maskedRequest.params (X := Unit) (fun _ => none) (some (lowLevel id))
        { table := { options := {} } }).1 = .error (.serialization .unshown) ∧
      ¬ Agrees id plain after.table
        (maskedRequest.params (fun _ => none) (some (lowLevel id))
          { table := { options := {} } }) := by
  refine ⟨_, _, rfl, rfl, ?_⟩
  intro agrees
  obtain ⟨raised, failed, again⟩ := agrees.raises ":v0" _ (.refused "Color.RED" .binaryFloat)
    ⟨⟨[], [], rfl, by simp⟩, rfl⟩
  obtain rfl : .unshown = raised := RequestError.serialization.inj (Except.error.inj failed)
  cases again

end ItemExpr
