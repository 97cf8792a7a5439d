import ItemExpr.Proofs.Entering
import ItemExpr.Proofs.Request.Meaning

set_option autoImplicit false

namespace ItemExpr

variable {V X : Type}

section Reading

variable {A B : Type} (f : A → B)

def Symbol.map : Symbol A → Symbol B
  | .char c => .char c
  | .name n => .name n
  | .value v => .value (f v)
  | .unbound label => .unbound label

theorem find_map (label : String) (entries : List (String × A)) :
    find? label (entries.map (Prod.map id f)) = (find? label entries).map f := by
  induction entries with
  | nil => rfl
  | cons entry rest ih =>
      obtain ⟨other, v⟩ := entry
      by_cases same : other = label
      · simp [find?, same]
      · simpa [find?, same] using ih

theorem read_map (names : List (String × String)) (values : List (String × A)) (s : String) :
    readText names (values.map (Prod.map id f)) s =
      (readText names values s).map (Symbol.map f) := by
  rw [readText, readText, List.map_map]
  apply List.map_congr_left
  intro lexeme _
  cases lexeme with
  | char c => rfl
  | name label => cases found : find? label names <;> simp [Lexeme.symbol, found, Symbol.map]
  | value label =>
      cases found : find? label values <;> simp [Lexeme.symbol, find_map, found, Symbol.map]

end Reading

def returnedNames (params : Params V X) : List (String × String) :=
  match find? "ExpressionAttributeNames" params with
  | some (.names entries) => entries
  | _ => []

def returnedValues (params : Params V X) : List (String × (V ⊕ Wire)) :=
  match find? "ExpressionAttributeValues" params with
  | some (.values entries) => entries.map (Prod.map id .inl)
  | some (.wires entries) => entries.map (Prod.map id .inr)
  | _ => []

def readField (params : Params V X) (field : String) : Option (List (Symbol (V ⊕ Wire))) :=
  match find? field params with
  | some (.expression s) => some (readText (returnedNames params) (returnedValues params) s)
  | _ => none

def converter (serializes : Bool) : Option (Converter Value) :=
  if serializes then some (serializeAll id) else none

def IsSendable (serializes : Bool) (v : Value) : Prop :=
  serializes = true → ∃ wire, serialize v = .ok wire

def asSent (serializes : Bool) (v : Value) : Value ⊕ Wire :=
  match serializes, serialize v with
  | true, .ok wire => .inr wire
  | _, _ => .inl v

section Converting

variable (serializes : Bool) (t : Table Value) (params params' : Params Value X)

theorem converts : (∃ made, convertValues (converter serializes) t params = .ok made) ↔
    ∀ v, t.Holds v → IsSendable serializes v := by
  cases serializes with
  | false => simp [converter, convertValues, IsSendable]
  | true =>
      by_cases empty : t.values.isEmpty = true
      · simp [converter, convertValues, Table.sentValues, Table.Holds, List.isEmpty_iff.mp empty]
      · have each : (∀ v, t.Holds v → IsSendable true v) ↔
            ∃ wires, serializeAll id t.values = .ok wires := by
          rw [serializes_each]
          simpa [Table.Holds, IsSendable] using
            List.forall_mem_map (f := Prod.snd) (l := t.values)
        rw [each]
        cases made : serializeAll id t.values <;>
          simp [converter, convertValues, Table.sentValues, empty, made, Except.map]

theorem sent_values (entries : List (String × Value)) (wires : List (String × Wire))
    (converted : serializeAll id entries = .ok wires) :
    wires.map (Prod.map id .inr) = entries.map (Prod.map id (asSent true)) := by
  have each := serialized_each id entries wires converted
  clear converted
  induction each with
  | nil => rfl
  | @cons entry wire entries wires made _ ih =>
      have own : (Prod.map id .inr wire : String × (Value ⊕ Wire)) =
          Prod.map id (asSent true) entry := by
        simp [Prod.map, made.1, asSent, made.2]
      rw [List.map_cons, List.map_cons, ih, own]

theorem converted_read (noNames : find? "ExpressionAttributeNames" params = none)
    (noValues : find? "ExpressionAttributeValues" params = none)
    (converted : convertValues (converter serializes) t (t.addParams params) = .ok params') :
    returnedNames params' = t.names ∧
      returnedValues params' = t.values.map (Prod.map id (asSent serializes)) ∧
      ∀ place : Place, find? place.field params' = find? place.field params := by
  obtain ⟨_, names, values⟩ := add_params_sent t params noNames noValues
  have allNames : returnedNames (t.addParams params) = t.names := by
    cases empty : t.names <;> simp [returnedNames, names, Table.sentNames, empty]
  have others (place : Place) : find? place.field (t.addParams params) = find? place.field params :=
    add_params_other t params place.field (by cases place <;> decide) (by cases place <;> decide)
  obtain ⟨rfl, unconverted⟩ | ⟨f, wires, given, made, rfl⟩ :=
    converted_cases (converter serializes) t _ _ converted
  · refine ⟨allNames, ?_, others⟩
    rw [returnedValues, values]
    cases entries : t.values with
    | nil => simp [Table.sentValues, entries]
    | cons entry rest =>
        have plain : serializes = false := by simpa [converter, entries] using unconverted
        have sent : asSent false = .inl := rfl
        simp [Table.sentValues, entries, plain, sent]
  · obtain ⟨rfl, rfl⟩ : serializes = true ∧ serializeAll id = f := by
      simpa [converter] using given
    refine ⟨?_, ?_, ?_⟩
    · rw [returnedNames, find_put_other _ _ _ _ (by decide)]
      exact allNames
    · rw [returnedValues, find_put_self]
      exact sent_values t.values wires made
    · intro place
      rw [find_put_other _ _ _ _ (by cases place <;> decide), others]

end Converting

namespace Request

def only (r : Request V) : Place → Request V
  | .key => { key := r.key }
  | .update => { update := r.update }
  | .condition => { conditions := r.conditions }
  | .filter => { filters := r.filters }

section Only

variable (r : Request V)

theorem only_legible (legible : r.IsLegible) (place : Place) : (r.only place).IsLegible := by
  cases place with
  | key => exact ⟨legible.key, by simp [only], trivial, trivial⟩
  | update => exact ⟨by simp [only], legible.update, trivial, trivial⟩
  | condition => exact ⟨by simp [only], by simp [only], legible.conditions, trivial⟩
  | filter => exact ⟨by simp [only], by simp [only], trivial, legible.filters⟩

theorem only_sound : r.IsSound ↔ ∀ place, (r.only place).IsSound := by
  constructor
  · intro sound place
    cases place with
    | key => exact ⟨by simp [only], rfl, rfl⟩
    | update => exact ⟨sound.update, rfl, rfl⟩
    | condition => exact ⟨by simp [only], sound.conditions, rfl⟩
    | filter => exact ⟨by simp [only], rfl, sound.filters⟩
  · intro each
    exact ⟨(each .update).update, (each .condition).conditions, (each .filter).filters⟩

theorem only_meaning (place : Place) : (r.only place).meaning place = r.meaning place := by
  cases place <;> rfl

theorem only_entered (place : Place) : (r.only place).allEntered = r.entered place := by
  cases place <;> simp [only, allEntered, entered, conditionSymbols?]

theorem all_mentioned (v : V) :
    Mentioned r.allEntered v ↔ ∃ place, Mentioned (r.entered place) v := by
  simp only [allEntered, mentioned_append]
  constructor
  · rintro (((key | update) | condition) | filter)
    · exact ⟨.key, key⟩
    · exact ⟨.update, update⟩
    · exact ⟨.condition, condition⟩
    · exact ⟨.filter, filter⟩
  · rintro ⟨place, here⟩
    cases place <;> simp [here]

theorem field_meaning (place : Place) : r.fieldMeaning place.field = r.meaning place := by
  cases place <;> simp [fieldMeaning, Place.field, Function.update]

end Only

section Runs

variable (serializes : Bool) (text : Value → Option String) (r : Request Value)
  (w : Workspace Value)

theorem params_made (params : Params Value X) :
    (r.params text (converter serializes) w).1 = .ok params ↔
      ∃ compiled w', r.expressions w = (.ok compiled, w') ∧
        convertValues (converter serializes) w'.table (w'.table.addParams compiled) =
          .ok params := by
  rw [Request.params]
  cases r.expressions w with
  | mk result w' =>
      cases result with
      | error e => simp
      | ok compiled =>
          cases converted : convertValues (converter serializes) w'.table
            (w'.table.addParams compiled) <;> simp [converted]

variable (legible : r.IsLegible) (coherent : Coherent w.table) (defaults : w.table.options = {})
  (noKey : w.key = []) (noUpdate : w.update = {})

include legible coherent defaults noKey noUpdate

theorem params_read (params : Params Value X)
    (made : (r.params text (converter serializes) w).1 = .ok params) (place : Place) :
    readField params place.field =
      (r.meaning place).map (List.map (Symbol.map (asSent serializes))) := by
  obtain ⟨compiled, w', ran, converted⟩ := (r.params_made serializes text w params).mp made
  have told := r.expressions_told legible w w' coherent defaults noKey noUpdate compiled ran
  have unset := told_unset _ _ _ _ _ told
  obtain ⟨names, values, fields⟩ := converted_read serializes w'.table compiled params
    (unset _ (by simp [fieldMeaning, Function.update]))
    (unset _ (by simp [fieldMeaning, Function.update])) converted
  have said := told.fields place.field
  rw [field_meaning] at said
  rw [readField, fields, names, values]
  generalize find? place.field compiled = p at said
  generalize r.meaning place = meaning at said
  cases said with
  | none => rfl
  | @some p symbols reads =>
      obtain ⟨f, rfl, reads⟩ := reads
      have read : readText w'.table.names w'.table.values f.text = symbols :=
        read_eq w'.table told.grown.coherent f symbols reads
      simp [read_map, read]

theorem params_exist :
    (∃ params : Params Value X, (r.params text (converter serializes) w).1 = .ok params) ↔
      r.IsSound ∧ (∀ v, w.table.Holds v → IsSendable serializes v) ∧
        ∀ v, Mentioned r.allEntered v → IsSendable serializes v := by
  have sendable (w' : Workspace Value) (compiled : Params Value X)
      (ran : r.expressions w = (.ok compiled, w')) :
      (∀ v, w'.table.Holds v → IsSendable serializes v) ↔
        (∀ v, w.table.Holds v → IsSendable serializes v) ∧
          ∀ v, Mentioned r.allEntered v → IsSendable serializes v := by
    have told := r.expressions_told legible w w' coherent defaults noKey noUpdate compiled ran
    simp only [told.holds, or_imp, forall_and]
  rw [← r.expressions_sound (X := X) w]
  constructor
  · rintro ⟨params, made⟩
    obtain ⟨compiled, w', ran, converted⟩ := (r.params_made serializes text w params).mp made
    have all := (converts serializes w'.table (w'.table.addParams compiled)).mp ⟨params, converted⟩
    exact ⟨⟨compiled, by rw [ran]⟩, (sendable w' compiled ran).mp all⟩
  · rintro ⟨⟨compiled, made⟩, each⟩
    have ran : r.expressions w = (.ok compiled, (r.expressions (X := X) w).2) := by rw [← made]
    obtain ⟨params, converted⟩ := (converts serializes _ _).mpr ((sendable _ compiled ran).mpr each)
    exact ⟨params, (r.params_made serializes text w params).mpr ⟨compiled, _, ran, converted⟩⟩

end Runs

def alone (serializes : Bool) (text : Value → Option String) (r : Request Value) (place : Place) :
    Except RequestError (Params Value X) :=
  (Workspace.requestParams text (converter serializes) { table := { options := .standard } }
    (r.only place)).1

end Request

theorem shared_as_alone (serializes : Bool) (text : Value → Option String) (w : Workspace Value)
    (reached : w.table.Reached {}) (r : Request Value) (legible : r.IsLegible) :
    ((∃ shared : Params Value X, (w.requestParams text (converter serializes) r).1 = .ok shared) ↔
      (∀ v, w.table.Holds v → IsSendable serializes v) ∧
        ∀ place, ∃ alone : Params Value X, r.alone serializes text place = .ok alone) ∧
      ∀ shared alone : Params Value X, ∀ place,
        (w.requestParams text (converter serializes) r).1 = .ok shared →
        r.alone serializes text place = .ok alone →
        readField shared place.field = readField alone place.field := by
  obtain ⟨coherent, defaults⟩ := reached_coherent {} default_apart w.table reached
  constructor
  · have together := r.params_exist (X := X) serializes text { table := w.table, log := w.log }
      legible coherent defaults rfl rfl
    have apart (place : Place) : (∃ alone : Params Value X,
        r.alone serializes text place = .ok alone) ↔ (r.only place).IsSound ∧
          ∀ v, Mentioned (r.entered place) v → IsSendable serializes v := by
      have each := (r.only place).params_exist (X := X) serializes text
        { table := { options := {} } } (r.only_legible legible place) coherent_default rfl rfl rfl
      rw [r.only_entered] at each
      exact each.trans (and_congr_right fun _ => and_iff_right (by simp [Table.Holds]))
    have parts : (∀ v, Mentioned r.allEntered v → IsSendable serializes v) ↔
        ∀ place v, Mentioned (r.entered place) v → IsSendable serializes v := by
      simp only [r.all_mentioned, forall_exists_index]
      exact forall_comm
    simp only [apart, forall_and, ← r.only_sound, ← parts]
    exact together.trans and_left_comm
  · intro shared alone place made madeAlone
    have first := r.params_read serializes text { table := w.table, log := w.log } legible coherent
      defaults rfl rfl shared made place
    have second := (r.only place).params_read serializes text { table := { options := {} } }
      (r.only_legible legible place) coherent_default rfl rfl rfl alone madeAlone place
    rw [first, second, Request.only_meaning]

def visitRequest : Request Value :=
  { key := some [("user.id", .compare "=" (.str "7"))]
    update := some [("visits", .arithmetic none .plus (.literal (.int 1)))]
    conditions := [.compare (.path "visits") "<" (.value (.int 9))]
    filters := [.call "begins_with" (.path "user.name") [.value (.str "a")]] }

def visitedTable : Table Value :=
  let earlier : Request Value := { conditions := [.compare (.path "user") "=" (.value (.int 5))] }
  (Workspace.requestParams (X := Unit) (fun _ => none) none
    { table := Table.enter { options := .standard } (.path "visits") } earlier).2.table

theorem visited_reached : visitedTable.Reached {} :=
  request_reached (fun _ => none) none {} _ (.enter _ (.path "visits") .fresh) _

theorem visit_request_legible : visitRequest.IsLegible where
  key := by
    have path : IsIndexed "user.id" := by decide +kernel
    have word : AliasFree "=" := by decide +kernel
    intro entries given entry present
    rw [← Option.some.inj given, List.mem_singleton] at present
    rw [present]
    exact ⟨path, word⟩
  update := by
    have path : IsIndexed "visits" := by decide +kernel
    have word : AliasFree Sign.plus.word.spelling := by decide +kernel
    intro entries given
    rw [← Option.some.inj given]
    exact ⟨path, ⟨by simp [Operand.IsOfferedOrSelf], word, trivial⟩, trivial⟩
  conditions := by
    have path : IsIndexed "visits" := by decide +kernel
    have word : AliasFree "<" := by decide +kernel
    exact ⟨⟨path, word, trivial⟩, trivial⟩
  filters := by
    have path : IsIndexed "user.name" := by decide +kernel
    have word : AliasFree "begins_with" := by decide +kernel
    exact ⟨⟨word, path, trivial, trivial⟩, trivial⟩

theorem visit_shared_as_alone :
    visitedTable.Reached {} ∧ visitRequest.IsLegible ∧
      ∃ shared : Params Value Unit,
        (Workspace.requestParams (fun _ => none) (converter true) { table := visitedTable }
          visitRequest).1 = .ok shared ∧
        expressionTexts shared = ["#n1.#n2 = :v1", "SET #n0 = #n0 + :v2", "#n0 < :v3",
          "begins_with(#n1.#n3, :v4)"] ∧
        ∀ place, ∃ alone : Params Value Unit,
          visitRequest.alone true (fun _ => none) place = .ok alone ∧
            readField shared place.field = readField alone place.field := by
  have texts : madeTexts? (Workspace.requestParams (fun _ => none) (converter true)
      { table := visitedTable } visitRequest).1 = some ["#n1.#n2 = :v1", "SET #n0 = #n0 + :v2",
        "#n0 < :v3", "begins_with(#n1.#n3, :v4)"] := by
    decide +kernel
  refine ⟨visited_reached, visit_request_legible, ?_⟩
  cases made : (Workspace.requestParams (X := Unit) (fun _ => none) (converter true)
      { table := visitedTable } visitRequest).1 with
  | error e => simp [made, madeTexts?] at texts
  | ok shared =>
      obtain ⟨exist, same⟩ := shared_as_alone (X := Unit) true (fun _ => none)
        { table := visitedTable } visited_reached visitRequest visit_request_legible
      refine ⟨shared, rfl, by simpa [made, madeTexts?] using texts, ?_⟩
      intro place
      obtain ⟨alone, madeAlone⟩ := (exist.mp ⟨shared, made⟩).2 place
      exact ⟨alone, madeAlone, same shared alone place made madeAlone⟩

-- A function whose name is an alias is read as what the alias stands for.
def capturedRequest : Request Value :=
  { key := some [("x", .equals (.int 1))]
    conditions := [.call "#n0" (.path "a") []] }

def conditionNames : Except RequestError (Params Value Unit) → Option (List String)
  | .ok params =>
      (readField params "ConditionExpression").map fun symbols => symbols.filterMap Symbol.name?
  | .error _ => none

theorem function_name_captured :
    ∃ shared alone : Params Value Unit,
      (Workspace.requestParams (fun _ => none) (converter false) { table := { options := {} } }
        capturedRequest).1 = .ok shared ∧
      capturedRequest.alone false (fun _ => none) .condition = .ok alone ∧
      readField shared "ConditionExpression" ≠ readField alone "ConditionExpression" := by
  have together : conditionNames (Workspace.requestParams (fun _ => none) (converter false)
      { table := { options := {} } } capturedRequest).1 = some ["x", "a"] := by
    decide +kernel
  have apart : conditionNames (capturedRequest.alone false (fun _ => none) .condition) =
      some ["a", "a"] := by
    decide +kernel
  cases made : (Workspace.requestParams (X := Unit) (fun _ => none) (converter false)
      { table := { options := {} } } capturedRequest).1 with
  | error e => simp [made, conditionNames] at together
  | ok shared =>
      cases madeAlone : capturedRequest.alone (X := Unit) false (fun _ => none) .condition with
      | error e => simp [madeAlone, conditionNames] at apart
      | ok alone =>
          refine ⟨shared, alone, rfl, rfl, ?_⟩
          intro same
          rw [made, conditionNames, same] at together
          rw [madeAlone, conditionNames, together] at apart
          exact absurd apart (by decide)

end ItemExpr
