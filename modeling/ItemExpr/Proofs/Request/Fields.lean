import ItemExpr.Proofs.Table.Coherent
import ItemExpr.Request
import ItemExpr.Wire.Encode

set_option autoImplicit false

namespace ItemExpr

variable {V X : Type}

def Param.text? : Param V X → Option String
  | .expression s => some s
  | _ => none

def expressionTexts (params : Params V X) : List String :=
  params.filterMap fun field => field.2.text?

def madeTexts? : Except RequestError (Params Value Unit) → Option (List String)
  | .ok params => some (expressionTexts params)
  | .error _ => none

def nameKeys (params : Params V X) : List String :=
  match find? "ExpressionAttributeNames" params with
  | some (.names entries) => entries.map Prod.fst
  | _ => []

def valueKeys (params : Params V X) : List String :=
  match find? "ExpressionAttributeValues" params with
  | some (.values entries) => entries.map Prod.fst
  | some (.wires entries) => entries.map Prod.fst
  | _ => []

namespace Request

def keyParams (r : Request V) (w : Workspace V) : Params V X × Workspace V :=
  match r.key with
  | some entries => w.addKeyParam entries []
  | none => ([], w)

def updateParams (r : Request V) (params : Params V X) (w : Workspace V) :
    Except Fault (Params V X) × Workspace V :=
  match r.update with
  | some entries => w.addUpdateParam entries params
  | none => (.ok params, w)

theorem expressions_eq (r : Request V) (w : Workspace V) :
    r.expressions (X := X) w =
      match r.updateParams (r.keyParams (X := X) w).1 (r.keyParams (X := X) w).2 with
      | (.error e, w) => (.error e, w)
      | (.ok params, w) =>
          match w.addConditions "ConditionExpression" r.conditions params with
          | (.error e, w) => (.error e, w)
          | (.ok params, w) => w.addConditions "FilterExpression" r.filters params := by
  obtain ⟨key, update, conditions, filters⟩ := r
  cases update with
  | none => cases key <;> rfl
  | some entries =>
      cases key with
      | none =>
          simp only [expressions, keyParams, updateParams]
          cases w.addUpdateParam entries ([] : Params V X) with
          | mk result w => cases result <;> rfl
      | some clauses =>
          simp only [expressions, keyParams, updateParams]
          cases (w.addKeyParam clauses ([] : Params V X)).2.addUpdateParam entries
            (w.addKeyParam clauses ([] : Params V X)).1 with
          | mk result w => cases result <;> rfl

theorem expressions_parts (r : Request V) (w w' : Workspace V) (params : Params V X)
    (ran : r.expressions w = (.ok params, w')) :
    ∃ p₂ w₂ p₃ w₃,
      r.updateParams (r.keyParams (X := X) w).1 (r.keyParams (X := X) w).2 = (.ok p₂, w₂) ∧
        w₂.addConditions "ConditionExpression" r.conditions p₂ = (.ok p₃, w₃) ∧
        w₃.addConditions "FilterExpression" r.filters p₃ = (.ok params, w') := by
  rw [expressions_eq] at ran
  cases updated : r.updateParams (r.keyParams (X := X) w).1 (r.keyParams (X := X) w).2 with
  | mk result w₂ =>
      cases result with
      | error e => simp [updated] at ran
      | ok p₂ =>
          cases conditioned : w₂.addConditions "ConditionExpression" r.conditions p₂ with
          | mk result w₃ =>
              cases result with
              | error e => simp [updated, conditioned] at ran
              | ok p₃ =>
                  refine ⟨p₂, w₂, p₃, w₃, rfl, conditioned, ?_⟩
                  simpa [updated, conditioned] using ran

theorem params_unconverted (text : V → Option String) (r : Request V)
    (w : Workspace V) :
    r.params (X := X) text none w =
      match r.expressions w with
      | (.error e, w) => (.error (.fault e), w)
      | (.ok params, w) =>
          (.ok (w.table.addParams params),
            w.record (.request (expressionFields (w.table.addParams params)) w.table.sentNames
              (w.table.redacted text) false)) := by
  rw [Request.params]
  cases r.expressions w with
  | mk result w => cases result <;> rfl

end Request

inductive Filled (field : String) (params : Params V X) : Params V X → List Fragment → Prop
  | left : Filled field params params []
  | set (f : Fragment) : Filled field params (put field (.expression f.text) params) [f]

theorem filled_texts (field : String) (params params' : Params V X) (fs : List Fragment)
    (filled : Filled field params params' fs) (absent : find? field params = none) :
    expressionTexts params' = expressionTexts params ++ fs.map Fragment.text := by
  cases filled with
  | left => simp
  | set f => simp [put_absent _ _ _ absent, expressionTexts, Param.text?]

theorem filled_other (field other : String) (params params' : Params V X) (fs : List Fragment)
    (filled : Filled field params params' fs) (different : field ≠ other) :
    find? other params' = find? other params := by
  cases filled with
  | left => rfl
  | set f => exact find_put_other field other _ params different

theorem texts_cons (head : String × Param V X) (rest : Params V X) :
    expressionTexts (head :: rest) = head.2.text?.toList ++ expressionTexts rest := by
  cases text : head.2.text? with
  | none => simp [expressionTexts, text]
  | some s => simp [expressionTexts, text]

theorem put_texts (field : String) (p : Param V X) (plain : p.text? = none) (params : Params V X)
    (old : ∀ q ∈ find? field params, q.text? = none) :
    expressionTexts (put field p params) = expressionTexts params := by
  induction params with
  | nil => simp [put, expressionTexts, plain]
  | cons head rest ih =>
      obtain ⟨other, q⟩ := head
      by_cases same : other = field
      · have silent := old q (by simp [find?, same])
        simp [put, same, texts_cons, plain, silent]
      · have others := ih (by simpa [find?, same] using old)
        simp [put, same, texts_cons, others]

theorem erase_absent (field : String) (params : Params V X) (absent : find? field params = none) :
    erase field params = params := by
  induction params with
  | nil => rfl
  | cons head rest ih =>
      obtain ⟨other, p⟩ := head
      by_cases same : other = field
      · simp [find?, same] at absent
      · rw [find?, if_neg same] at absent
        have others := ih absent
        rw [erase] at others ⊢
        rw [List.filter_cons_of_pos (by simpa using same), others]

theorem add_params_other (t : Table V) (params : Params V X) (field : String)
    (notNames : "ExpressionAttributeNames" ≠ field)
    (notValues : "ExpressionAttributeValues" ≠ field) :
    find? field (t.addParams params) = find? field params := by
  rw [Table.addParams]
  cases t.sentNames <;> cases t.sentValues <;>
    simp [find_put_other _ _ _ _ notNames, find_put_other _ _ _ _ notValues]

theorem converted_cases (convert : Option (Converter V)) (t : Table V) (params params' : Params V X)
    (converted : convertValues convert t params = .ok params') :
    (params = params' ∧ (convert = none ∨ t.values = [])) ∨
      ∃ f wires, convert = some f ∧ f t.values = .ok wires ∧
        put "ExpressionAttributeValues" (.wires wires) params = params' := by
  cases convert with
  | none => exact .inl ⟨Except.ok.inj converted, .inl rfl⟩
  | some f =>
      by_cases empty : t.values = []
      · exact .inl ⟨by simpa [convertValues, Table.sentValues, empty] using converted, .inr empty⟩
      · cases made : f t.values with
        | error e => simp [convertValues, Table.sentValues, empty, made, Except.map] at converted
        | ok wires =>
            refine .inr ⟨f, wires, rfl, made, ?_⟩
            simpa [convertValues, Table.sentValues, empty, made, Except.map] using converted

section Sending

variable (t : Table V) (params : Params V X)
  (noNames : find? "ExpressionAttributeNames" params = none)
  (noValues : find? "ExpressionAttributeValues" params = none)

include noNames noValues

theorem add_params_sent :
    expressionTexts (t.addParams params) = expressionTexts params ∧
      find? "ExpressionAttributeNames" (t.addParams params) = t.sentNames.map .names ∧
      find? "ExpressionAttributeValues" (t.addParams params) = t.sentValues.map .values := by
  have different : "ExpressionAttributeNames" ≠ "ExpressionAttributeValues" := by decide
  have named (names : List (String × String)) :
      expressionTexts (put "ExpressionAttributeNames" (.names names) params) =
          expressionTexts params ∧
        find? "ExpressionAttributeValues" (put "ExpressionAttributeNames" (.names names) params) =
          none := by
    refine ⟨put_texts _ _ rfl params (by simp [noNames]), ?_⟩
    rw [find_put_other _ _ _ _ different, noValues]
  cases names : t.sentNames with
  | none =>
      cases values : t.sentValues with
      | none => simp [Table.addParams, names, values, noNames, noValues]
      | some vs =>
          have texts := put_texts "ExpressionAttributeValues" (.values vs) rfl params
            (by simp [noValues])
          simp [Table.addParams, names, values, texts, find_put_self,
            find_put_other _ _ _ _ different.symm, noNames]
  | some ns =>
      obtain ⟨texts, absent⟩ := named ns
      cases values : t.sentValues with
      | none => simp [Table.addParams, names, values, texts, find_put_self, absent]
      | some vs =>
          have more := put_texts "ExpressionAttributeValues" (.values vs) rfl
            (put "ExpressionAttributeNames" (.names ns) params) (by simp [absent])
          simp [Table.addParams, names, values, more, texts, find_put_self,
            find_put_other _ _ _ _ different.symm]

theorem add_params_keys :
    nameKeys (t.addParams params) = t.names.map Prod.fst ∧
      valueKeys (t.addParams params) = t.values.map Prod.fst := by
  obtain ⟨_, names, values⟩ := add_params_sent t params noNames noValues
  constructor
  · by_cases empty : t.names.isEmpty = true
    · simp [nameKeys, names, Table.sentNames, List.isEmpty_iff.mp empty]
    · simp [nameKeys, names, Table.sentNames, empty]
  · by_cases empty : t.values.isEmpty = true
    · simp [valueKeys, values, Table.sentValues, List.isEmpty_iff.mp empty]
    · simp [valueKeys, values, Table.sentValues, empty]

theorem converted_sent (convert : Option (Converter V)) (params' : Params V X)
    (keeps : ∀ f ∈ convert, ∀ values wires, f values = .ok wires →
      wires.map Prod.fst = values.map Prod.fst)
    (converted : convertValues convert t (t.addParams params) = .ok params') :
    expressionTexts params' = expressionTexts params ∧
      nameKeys params' = t.names.map Prod.fst ∧ valueKeys params' = t.values.map Prod.fst := by
  obtain ⟨texts, names, values⟩ := add_params_sent t params noNames noValues
  obtain ⟨nameLabels, valueLabels⟩ := add_params_keys t params noNames noValues
  obtain ⟨rfl, _⟩ | ⟨f, wires, given, made, rfl⟩ := converted_cases convert t _ _ converted
  · exact ⟨texts, nameLabels, valueLabels⟩
  · have different : "ExpressionAttributeValues" ≠ "ExpressionAttributeNames" := by decide
    refine ⟨?_, ?_, ?_⟩
    · rw [put_texts _ _ rfl _ (by simp [values, Param.text?]), texts]
    · rw [nameKeys, find_put_other _ _ _ _ different]
      exact nameLabels
    · rw [valueKeys, find_put_self]
      exact keeps f given t.values wires made

end Sending

theorem serialized_each {K : Type} (name : K → String) (entries : List (K × Value))
    (wires : List (K × Wire)) (converted : serializeAll name entries = .ok wires) :
    List.Forall₂ (fun entry wire => wire.1 = entry.1 ∧ serialize entry.2 = .ok wire.2)
      entries wires := by
  induction entries generalizing wires with
  | nil =>
      rw [serializeAll, Except.ok.injEq] at converted
      rw [← converted]
      exact .nil
  | cons entry rest ih =>
      obtain ⟨key, v⟩ := entry
      cases made : serialize v with
      | error e =>
          cases shown : v.text <;> cases e <;> simp [serializeAll, made, shown] at converted
      | ok w =>
          cases others : serializeAll name rest with
          | error e => simp [serializeAll, made, others, Except.map] at converted
          | ok more =>
              have whole : (key, w) :: more = wires := by
                simpa [serializeAll, made, others, Except.map] using converted
              rw [← whole]
              exact .cons ⟨rfl, made⟩ (ih more others)

theorem serialized_labels {K : Type} (name : K → String) (entries : List (K × Value))
    (wires : List (K × Wire)) (converted : serializeAll name entries = .ok wires) :
    wires.map Prod.fst = entries.map Prod.fst := by
  have each := serialized_each name entries wires converted
  clear converted
  induction each with
  | nil => rfl
  | cons made _ ih => rw [List.map_cons, List.map_cons, made.1, ih]

theorem serializes_each {K : Type} (name : K → String) (entries : List (K × Value)) :
    (∃ wires, serializeAll name entries = .ok wires) ↔
      ∀ entry ∈ entries, ∃ wire, serialize entry.2 = .ok wire := by
  induction entries with
  | nil => simp [serializeAll]
  | cons entry rest ih =>
      obtain ⟨key, v⟩ := entry
      rw [List.forall_mem_cons, ← ih]
      cases made : serialize v with
      | error e => cases shown : v.text <;> cases e <;> simp [serializeAll, made, shown]
      | ok w =>
          cases others : serializeAll name rest <;> simp [serializeAll, made, others, Except.map]

end ItemExpr
