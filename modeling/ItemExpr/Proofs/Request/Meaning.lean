import ItemExpr.Proofs.Condition.Legible
import ItemExpr.Proofs.Request.Fields
import ItemExpr.Proofs.Request.Linked
import ItemExpr.Proofs.Update.Sound

set_option autoImplicit false

namespace ItemExpr

variable {V X : Type}

def Table.Holds (t : Table V) (v : V) : Prop := v ∈ t.values.map Prod.snd

def Mentioned (readings : List (List (Symbol V))) (v : V) : Prop :=
  ∃ symbols ∈ readings, .value v ∈ symbols

theorem mentioned_append (front back : List (List (Symbol V))) (v : V) :
    Mentioned (front ++ back) v ↔ Mentioned front v ∨ Mentioned back v := by
  simp [Mentioned, or_and_right, exists_or]

theorem reads_values (t : Table V) (coherent : Coherent t) (f : Fragment)
    (symbols : List (Symbol V)) (reads : Reads t f symbols) (v : V) :
    .value v ∈ symbols ↔ ∃ label ∈ f.valueLabels, (label, v) ∈ t.values := by
  induction reads with
  | nil => simp [Fragment.valueLabels]
  | text s f symbols _ _ ih => simpa [chars, Fragment.valueLabels, Token.valueLabel?] using ih
  | name k label name f symbols _ _ _ _ ih =>
      simpa [Fragment.valueLabels, Token.valueLabel?] using ih
  | value k label other f symbols _ present _ _ ih =>
      have own : v = other ↔ (label, v) ∈ t.values := by
        constructor
        · rintro rfl
          exact present
        · intro here
          have found := find_value t coherent label other present
          rw [find_value t coherent label v here] at found
          exact Option.some.inj found
      have labels : Fragment.valueLabels (.value label :: f) = label :: f.valueLabels := rfl
      rw [labels, List.mem_cons, ih, Symbol.value.injEq, own]
      simp

theorem entered_holds (t t' : Table V) (grown : Extends t t') (fs : List Fragment)
    (readings : List (List (Symbol V))) (reads : List.Forall₂ (Reads t') fs readings)
    (labels : (t'.values.map Prod.fst).Perm
      (t.values.map Prod.fst ++ fs.flatMap Fragment.valueLabels)) (v : V) :
    t'.Holds v ↔ t.Holds v ∨ Mentioned readings v := by
  obtain ⟨more, whole⟩ := grown.values
  have mentions : Mentioned readings v ↔
      ∃ label ∈ fs.flatMap Fragment.valueLabels, (label, v) ∈ t'.values := by
    clear labels
    induction reads with
    | nil => simp [Mentioned]
    | @cons f symbols fs readings first _ ih =>
        have own := reads_values t' grown.coherent f symbols first v
        have split : Mentioned (symbols :: readings) v ↔
            .value v ∈ symbols ∨ Mentioned readings v := by
          simp [Mentioned]
        rw [split, own, ih, List.flatMap_cons]
        simp only [List.mem_append, or_and_right, exists_or]
  have entered (label : String) :
      label ∈ fs.flatMap Fragment.valueLabels ↔ label ∈ more.map Prod.fst := by
    rw [← whole, List.map_append, List.perm_append_left_iff] at labels
    exact labels.mem_iff.symm
  rw [mentions, Table.Holds, Table.Holds, ← whole, List.map_append, List.mem_append]
  constructor
  · rintro (old | new)
    · exact .inl old
    · obtain ⟨⟨label, _⟩, here, rfl⟩ := List.mem_map.mp new
      exact .inr ⟨label, (entered label).mpr (List.mem_map_of_mem here),
        List.mem_append_right _ here⟩
  · rintro (old | ⟨label, _, here⟩)
    · exact .inl old
    · exact (List.mem_append.mp here).imp List.mem_map_of_mem List.mem_map_of_mem

inductive Place
  | key
  | update
  | condition
  | filter

def Place.field : Place → String
  | .key => "KeyConditionExpression"
  | .update => "UpdateExpression"
  | .condition => "ConditionExpression"
  | .filter => "FilterExpression"

def keyReadings (entries : List (String × KeyClause V)) : List (List (Symbol V)) :=
  entries.map fun (name, c) => itemSymbols [] (c.items name)

def keySymbols? (entries : List (String × KeyClause V)) : Option (List (Symbol V)) :=
  if entries.isEmpty then none
  else some (joinSymbols " AND " ((keyReadings entries).take maxKeyClauses))

def updateReadings (entries : List (String × Action V)) : List (List (Symbol V)) :=
  (Action.entriesReadings [] entries).map Prod.snd

def updateSymbols? (entries : List (String × Action V)) : Option (List (Symbol V)) :=
  expressionSymbols? (ofGroup (Action.entriesReadings [] entries))

def conditionSymbols? (cs : List (Condition V)) : Option (List (Symbol V)) :=
  if cs.isEmpty then none
  else some (itemSymbols [] (Script.join " AND " (Condition.scripts cs)).items)

namespace Request

structure IsLegible (r : Request V) : Prop where
  key : ∀ entries ∈ r.key, ∀ entry ∈ entries, IsIndexed entry.1 ∧ entry.2.IsLegible
  update : ∀ entries ∈ r.update, Action.EntriesLegible entries
  conditions : Condition.AreLegible r.conditions
  filters : Condition.AreLegible r.filters

def meaning (r : Request V) : Place → Option (List (Symbol V))
  | .key => r.key.bind keySymbols?
  | .update => r.update.bind updateSymbols?
  | .condition => conditionSymbols? r.conditions
  | .filter => conditionSymbols? r.filters

-- The readings of all that is written for a part. A clause of a key is written even if it is one
-- too many.
def entered (r : Request V) : Place → List (List (Symbol V))
  | .key => (r.key.map keyReadings).getD []
  | .update => (r.update.map updateReadings).getD []
  | .condition => (conditionSymbols? r.conditions).toList
  | .filter => (conditionSymbols? r.filters).toList

end Request

def Param.Shows (t : Table V) (p : Param V X) (symbols : List (Symbol V)) : Prop :=
  ∃ f, p = .expression (Fragment.text f) ∧ Reads t f symbols

inductive Tells (t : Table V) (field : String) (params : Params V X) :
    Params V X → Option (List (Symbol V)) → Prop
  | nothing : Tells t field params params none
  | said (f : Fragment) (symbols : List (Symbol V)) : Reads t f symbols →
      Tells t field params (put field (.expression f.text) params) (some symbols)

structure TellsPart (t t' : Table V) (field : String) (params params' : Params V X)
    (meaning : Option (List (Symbol V))) (entered : List (List (Symbol V))) : Prop where
  grown : Extends t t'
  tells : Tells t' field params params' meaning
  holds : ∀ v, t'.Holds v ↔ t.Holds v ∨ Mentioned entered v

structure Told (t t' : Table V) (params : Params V X) (meaning : String → Option (List (Symbol V)))
    (entered : List (List (Symbol V))) : Prop where
  grown : Extends t t'
  fields : ∀ field, Option.Rel (Param.Shows t') (find? field params) (meaning field)
  holds : ∀ v, t'.Holds v ↔ t.Holds v ∨ Mentioned entered v

theorem part_nothing (t : Table V) (coherent : Coherent t) (field : String) (params : Params V X) :
    TellsPart t t field params params none [] where
  grown := extends_refl t coherent
  tells := .nothing
  holds := by simp [Mentioned]

theorem told_nothing (t : Table V) (coherent : Coherent t) :
    Told t t ([] : Params V X) (fun _ => none) [] where
  grown := extends_refl t coherent
  fields := fun _ => .none
  holds := by simp [Mentioned]

theorem told_step (t t' t'' : Table V) (params params' : Params V X)
    (meaning : String → Option (List (Symbol V))) (entered more : List (List (Symbol V)))
    (told : Told t t' params meaning entered) (field : String) (unset : meaning field = none)
    (said : Option (List (Symbol V))) (part : TellsPart t' t'' field params params' said more) :
    Told t t'' params' (Function.update meaning field said) (entered ++ more) where
  grown := extends_trans _ _ _ told.grown part.grown
  fields := by
    have later (other : String) :
        Option.Rel (Param.Shows t'') (find? other params) (meaning other) := by
      have before := told.fields other
      generalize find? other params = p at before
      generalize meaning other = symbols at before
      cases before with
      | none => exact .none
      | some reads =>
          obtain ⟨f, rfl, reads⟩ := reads
          exact .some ⟨f, rfl, reads_extends t' t'' part.grown f _ reads⟩
    intro other
    by_cases same : other = field
    · subst same
      rw [Function.update_self]
      cases part.tells with
      | nothing => exact unset ▸ later other
      | said f symbols reads =>
          rw [find_put_self]
          exact .some ⟨f, rfl, reads⟩
    · rw [Function.update_of_ne same]
      cases part.tells with
      | nothing => exact later other
      | said f symbols reads =>
          rw [find_put_other field other _ params (Ne.symm same)]
          exact later other
  holds := by
    intro v
    rw [part.holds, told.holds, mentioned_append, or_assoc]

theorem told_unset (t t' : Table V) (params : Params V X)
    (meaning : String → Option (List (Symbol V))) (entered : List (List (Symbol V)))
    (told : Told t t' params meaning entered) (field : String) (outside : meaning field = none) :
    find? field params = none := by
  have said := told.fields field
  rw [outside] at said
  generalize find? field params = p at said
  cases said with
  | none => rfl

section Parts

variable (w w' : Workspace V) (coherent : Coherent w.table) (defaults : w.table.options = {})
  (params params' : Params V X)

include coherent defaults

theorem conditions_part (field : String) (cs : List (Condition V))
    (legible : Condition.AreLegible cs)
    (ran : w.addConditions field cs params = (.ok params', w')) :
    TellsPart w.table w'.table field params params' (conditionSymbols? cs)
      (conditionSymbols? cs).toList := by
  by_cases empty : cs.isEmpty = true
  · rw [Workspace.addConditions, if_pos empty] at ran
    obtain ⟨same, stays⟩ := Prod.mk.inj ran
    rw [← Except.ok.inj same, ← stays, conditionSymbols?, if_pos empty]
    exact part_nothing w.table coherent field params
  · have paced := Condition.junction_paced " AND " (.inl rfl) _
      (Condition.conditions_paced cs legible)
    obtain ⟨grown, reads, labels⟩ := paced_read w.table coherent defaults _ paced
    rw [conditionSymbols?, if_neg empty]
    cases fault : (Script.join " AND " (Condition.scripts cs)).fault with
    | some e =>
        simp [Workspace.addConditions, empty, Workspace.runScript, Script.run, fault, Except.map]
          at ran
    | none =>
        rw [Workspace.addConditions, if_neg empty, Workspace.runScript, Script.run, fault] at ran
        obtain ⟨same, after⟩ := Prod.mk.inj ran
        rw [← Except.ok.inj same, ← after]
        exact
          { grown := grown
            tells := .said _ _ reads
            holds := entered_holds _ _ grown [_] [_] (.cons reads .nil)
              (by rw [List.flatMap_singleton, labels]) }

theorem key_part (entries : List (String × KeyClause V))
    (legible : ∀ entry ∈ entries, IsIndexed entry.1 ∧ entry.2.IsLegible) (noKey : w.key = []) :
    TellsPart w.table (w.addKeyParam entries params).2.table "KeyConditionExpression" params
      (w.addKeyParam entries params).1 (keySymbols? entries) (keyReadings entries) := by
  by_cases empty : entries.isEmpty = true
  · rw [Workspace.addKeyParam, if_pos empty, keySymbols?, if_pos empty, List.isEmpty_iff.mp empty]
    exact part_nothing w.table coherent _ params
  · obtain ⟨reads, linked⟩ := key_linked True entries legible w coherent defaults noKey
    obtain ⟨written, _, each, entered⟩ :=
      keys_linked entries legible w coherent defaults (by simp [noKey])
    rw [Workspace.addKeyParam, if_neg empty, keySymbols?, if_neg empty]
    exact
      { grown := linked.grown
        tells := .said _ _ reads
        holds := entered_holds _ _ linked.grown written _ each (entered.values trivial) }

theorem update_part (entries : List (String × Action V))
    (legible : Action.EntriesLegible entries) (noUpdate : w.update = {})
    (absent : find? "UpdateExpression" params = none)
    (ran : w.addUpdateParam entries params = (.ok params', w')) :
    TellsPart w.table w'.table "UpdateExpression" params params' (updateSymbols? entries)
      (updateReadings entries) := by
  cases applied : Workspace.applyEntries [] entries w with
  | mk fault after =>
      cases fault with
      | some e => simp [Workspace.addUpdateParam, Workspace.buildUpdate, applied] at ran
      | none =>
          obtain ⟨added, compiled, _⟩ := Workspace.legible_compiled entries legible [] [] w after
            coherent defaults (known_nil w.table) applied
          have expression := compiled_expression w after added _ compiled noUpdate
          have each : List.Forall₂ (Reads after.table) (added.map Prod.snd)
              (updateReadings entries) := by
            rw [updateReadings, List.forall₂_map_left_iff, List.forall₂_map_right_iff]
            exact compiled.reads.imp fun _ _ read => read.2
          have holds := entered_holds _ _ compiled.grown _ _ each
            (by rw [compiled.values, List.flatMap_map])
          rw [Workspace.addUpdateParam, Workspace.buildUpdate, applied] at ran
          rw [updateSymbols?]
          simp only at ran
          generalize after.updateExpression? = written at expression ran
          generalize expressionSymbols? (ofGroup (Action.entriesReadings [] entries)) = said
            at expression
          cases expression with
          | none =>
              obtain ⟨same, rfl⟩ := Prod.mk.inj ran
              rw [← Except.ok.inj same, erase_absent _ _ absent]
              exact ⟨compiled.grown, .nothing, holds⟩
          | some reads =>
              obtain ⟨same, rfl⟩ := Prod.mk.inj ran
              rw [← Except.ok.inj same]
              exact ⟨compiled.grown, .said _ _ reads, holds⟩

end Parts

namespace Request

section Steps

variable (r : Request V) (legible : r.IsLegible)

include legible

theorem key_params_part (w : Workspace V) (coherent : Coherent w.table)
    (defaults : w.table.options = {}) (noKey : w.key = []) :
    TellsPart w.table (r.keyParams (X := X) w).2.table "KeyConditionExpression" []
        (r.keyParams (X := X) w).1 (r.meaning .key) (r.entered .key) ∧
      (r.keyParams (X := X) w).2.update = w.update := by
  cases given : r.key with
  | none =>
      rw [keyParams, meaning, entered, given]
      exact ⟨part_nothing w.table coherent _ _, rfl⟩
  | some entries =>
      rw [keyParams, meaning, entered, given]
      refine ⟨key_part w coherent defaults [] entries (legible.key entries given) noKey, ?_⟩
      by_cases empty : entries.isEmpty = true
      · simp [Workspace.addKeyParam, empty]
      · simp only [Workspace.addKeyParam, empty]
        exact keys_update entries w

theorem update_params_part (w w' : Workspace V) (coherent : Coherent w.table)
    (defaults : w.table.options = {}) (noUpdate : w.update = {}) (params params' : Params V X)
    (absent : find? "UpdateExpression" params = none)
    (ran : r.updateParams params w = (.ok params', w')) :
    TellsPart w.table w'.table "UpdateExpression" params params' (r.meaning .update)
      (r.entered .update) := by
  cases given : r.update with
  | none =>
      rw [updateParams, given] at ran
      obtain ⟨same, stays⟩ := Prod.mk.inj ran
      rw [meaning, entered, given, ← Except.ok.inj same, ← stays]
      exact part_nothing w.table coherent _ params
  | some entries =>
      rw [updateParams, given] at ran
      rw [meaning, entered, given]
      exact update_part w w' coherent defaults params params' entries
        (legible.update entries given) noUpdate absent ran

end Steps

def fieldMeaning (r : Request V) : String → Option (List (Symbol V)) :=
  Function.update (Function.update (Function.update (Function.update (fun _ => none)
    "KeyConditionExpression" (r.meaning .key)) "UpdateExpression" (r.meaning .update))
    "ConditionExpression" (r.meaning .condition)) "FilterExpression" (r.meaning .filter)

def allEntered (r : Request V) : List (List (Symbol V)) :=
  r.entered .key ++ r.entered .update ++ r.entered .condition ++ r.entered .filter

theorem expressions_told (r : Request V) (legible : r.IsLegible) (w w' : Workspace V)
    (coherent : Coherent w.table) (defaults : w.table.options = {}) (noKey : w.key = [])
    (noUpdate : w.update = {}) (params : Params V X) (ran : r.expressions w = (.ok params, w')) :
    Told w.table w'.table params r.fieldMeaning r.allEntered := by
  obtain ⟨part₁, stays⟩ := r.key_params_part (X := X) legible w coherent defaults noKey
  have told₁ := told_step _ _ _ _ _ _ _ _ (told_nothing w.table coherent) _ rfl _ part₁
  obtain ⟨p₂, w₂, p₃, w₃, updated, conditioned, filtered⟩ := r.expressions_parts w w' params ran
  have absent := told_unset _ _ _ _ _ told₁ "UpdateExpression" (by simp [Function.update])
  have part₂ := r.update_params_part legible _ w₂ told₁.grown.coherent
    (told₁.grown.options.trans defaults) (stays.trans noUpdate) _ p₂ absent updated
  have told₂ := told_step _ _ _ _ _ _ _ _ told₁ _ (by simp [Function.update]) _ part₂
  have part₃ := conditions_part w₂ w₃ told₂.grown.coherent (told₂.grown.options.trans defaults)
    p₂ p₃ "ConditionExpression" r.conditions legible.conditions conditioned
  have told₃ := told_step _ _ _ _ _ _ _ _ told₂ _ (by simp [Function.update]) _ part₃
  have part₄ := conditions_part w₃ w' told₃.grown.coherent (told₃.grown.options.trans defaults)
    p₃ params "FilterExpression" r.filters legible.filters filtered
  exact told_step _ _ _ _ _ _ _ _ told₃ _ (by simp [Function.update]) _ part₄

structure IsSound (r : Request V) : Prop where
  update : ∀ entries ∈ r.update,
    (Workspace.applyEntries [] entries { table := { options := {} } }).1 = none
  conditions : (Script.join " AND " (Condition.scripts r.conditions)).fault = none
  filters : (Script.join " AND " (Condition.scripts r.filters)).fault = none

theorem sound_parts (r : Request V) :
    r.IsSound ↔ (∀ entries ∈ r.update,
        (Workspace.applyEntries [] entries { table := { options := {} } }).1 = none) ∧
      (Script.join " AND " (Condition.scripts r.conditions)).fault = none ∧
      (Script.join " AND " (Condition.scripts r.filters)).fault = none := by
  constructor
  · intro sound
    exact ⟨sound.update, sound.conditions, sound.filters⟩
  · rintro ⟨update, conditions, filters⟩
    exact ⟨update, conditions, filters⟩

end Request

theorem conditions_sound (w : Workspace V) (field : String) (cs : List (Condition V))
    (params : Params V X) :
    (∃ params', (w.addConditions field cs params).1 = .ok params') ↔
      (Script.join " AND " (Condition.scripts cs)).fault = none := by
  by_cases empty : cs.isEmpty = true
  · simp [Workspace.addConditions, List.isEmpty_iff.mp empty, Condition.scripts, Script.join,
      Script.empty]
  · rw [Workspace.addConditions, if_neg empty, Workspace.runScript, Script.run]
    cases (Script.join " AND " (Condition.scripts cs)).fault <;> simp [Except.map]

theorem update_sound (w : Workspace V) (entries : List (String × Action V)) (params : Params V X) :
    (∃ params', (w.addUpdateParam entries params).1 = .ok params') ↔
      (Workspace.applyEntries [] entries { table := { options := {} } }).1 = none := by
  rw [Workspace.entries_fault entries [] [] _ w, Workspace.addUpdateParam, Workspace.buildUpdate]
  cases Workspace.applyEntries [] entries w with
  | mk fault after =>
      cases fault with
      | some e => simp
      | none =>
          simp only [iff_true]
          generalize after.updateExpression? = written
          cases written <;> simp

theorem Request.expressions_sound (r : Request V) (w : Workspace V) :
    (∃ params, (r.expressions (X := X) w).1 = .ok params) ↔ r.IsSound := by
  have update : (∃ params', (r.updateParams (r.keyParams (X := X) w).1
      (r.keyParams (X := X) w).2).1 = .ok params') ↔ ∀ entries ∈ r.update,
        (Workspace.applyEntries [] entries { table := { options := {} } }).1 = none := by
    cases given : r.update with
    | none => simp [updateParams, given]
    | some entries => simpa [updateParams, given] using update_sound _ entries _
  rw [sound_parts, ← update, expressions_eq]
  cases r.updateParams (r.keyParams (X := X) w).1 (r.keyParams (X := X) w).2 with
  | mk result w₂ =>
      cases result with
      | error e => simp
      | ok p₂ =>
          rw [← conditions_sound w₂ "ConditionExpression" r.conditions p₂]
          cases conditioned : w₂.addConditions "ConditionExpression" r.conditions p₂ with
          | mk result w₃ =>
              cases result with
              | error e => simp [conditioned]
              | ok p₃ =>
                  simpa [conditioned] using conditions_sound w₃ "FilterExpression" r.filters p₃

end ItemExpr
