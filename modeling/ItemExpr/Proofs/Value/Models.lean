import ItemExpr.Proofs.Update.Change
import ItemExpr.Proofs.Value.Leaves

set_option autoImplicit false

namespace ItemExpr

theorem collapse_distinct {A : Type} (entries : List (String × A))
    (distinct : (entries.map Prod.fst).Nodup) : collapse entries = entries := by
  have added (known rest : List (String × A)) (apart : ((known ++ rest).map Prod.fst).Nodup) :
      rest.foldl (fun known entry => put entry.1 entry.2 known) known = known ++ rest := by
    induction rest generalizing known with
    | nil => exact (List.append_nil known).symm
    | cons entry rest ih =>
        have missing : entry.1 ∉ known.map Prod.fst := by
          rw [List.map_append, List.nodup_append] at apart
          exact fun present => apart.2.2 _ present _ (List.mem_cons_self ..) rfl
        rw [List.foldl_cons, put_new _ _ known missing, ih _ (by simpa using apart),
          List.append_assoc]
        rfl
  exact added [] entries distinct

namespace Value

theorem of_entries_plain (entries : List (String × Value)) :
    (ofEntries entries).plain = ofEntries (entries.map fun (key, v) => (key, v.plain)) := by
  rw [ofEntries, plain, plain_entries_eq, ofEntries, List.map_map, List.map_map]
  rfl

def isAmong (keys : List String) : Value → Bool
  | .str key => key ∈ keys
  | _ => false

def restrict (keys : List String) : Value → Value
  | .map entries => .map (entries.filter fun (key, _) => key.isAmong keys)
  | v => v

end Value

namespace Field

variable {A : Type}

def key (f : Field A) : String := f.label.getD f.name

theorem entry_labelled (f : Field A) (labelled : f.label ≠ some "") :
    f.entry = (f.key, f.value) := by
  obtain ⟨name, label, v, isSet⟩ := f
  cases label with
  | none => rfl
  | some label =>
      have filled : label ≠ "" := fun empty => labelled (congrArg some empty)
      simp [entry, key, filled]

end Field

structure KeysApart {A : Type} (fields : List (Field A)) : Prop where
  labelled : ∀ f ∈ fields, f.label ≠ some ""
  distinct : (fields.map Field.key).Nodup

def setKeys {A : Type} (fields : List (Field A)) : List String :=
  (fields.filter (·.isSet)).map Field.key

section Fields

variable {A : Type} (fields : List (Field A)) (apart : KeysApart fields)

include apart

theorem set_keys_distinct : (setKeys fields).Nodup :=
  apart.distinct.sublist (List.filter_sublist.map Field.key)

theorem set_key_iff (f : Field A) (present : f ∈ fields) :
    f.key ∈ setKeys fields ↔ f.isSet = true := by
  constructor
  · intro listed
    obtain ⟨other, chosen, same⟩ := List.mem_map.mp listed
    obtain ⟨inside, isSet⟩ := List.mem_filter.mp chosen
    obtain rfl := List.inj_on_of_nodup_map apart.distinct inside present same
    exact isSet
  · exact fun isSet => List.mem_map_of_mem (List.mem_filter.mpr ⟨present, isSet⟩)

theorem set_entries_distinct :
    setEntries fields = (fields.filter (·.isSet)).map fun f => (f.key, f.value) := by
  have entries : (fields.filter (·.isSet)).map Field.entry =
      (fields.filter (·.isSet)).map fun f => (f.key, f.value) :=
    List.map_congr_left fun f chosen =>
      f.entry_labelled (apart.labelled f (List.mem_filter.mp chosen).1)
  rw [setEntries, entries, collapse_distinct]
  rw [List.map_map]
  exact set_keys_distinct fields apart

theorem set_key_count (f : Field A) (present : f ∈ fields) :
    (setKeys fields).count f.key = if f.isSet then 1 else 0 := by
  by_cases isSet : f.isSet = true
  · rw [if_pos isSet]
    exact List.count_eq_one_of_mem (set_keys_distinct fields apart)
      ((set_key_iff fields apart f present).mpr isSet)
  · rw [if_neg isSet]
    exact List.count_eq_zero_of_not_mem fun listed =>
      isSet ((set_key_iff fields apart f present).mp listed)

end Fields

namespace Value

variable (type : ModelType) (fields : List (Field Value)) (apart : KeysApart fields)

include apart

theorem model_entries_distinct :
    modelEntries fields = (fields.filter (·.isSet)).map fun f => (f.key, f.value.plain) := by
  rw [modelEntries, set_entries_distinct fields apart, List.map_map]
  rfl

theorem model_dumped :
    (Value.model type fields).plain = ofEntries (fields.map fun f => (f.key, f.value.dump)) := by
  rw [plain, dump, dump_fields_eq, collapse_distinct]
  · rfl
  · rw [List.map_map]
    exact apart.distinct

theorem model_dumped_again
    (whole : ∀ f ∈ fields, ∀ leaf ∈ f.value.leaves, leaf.isModel = false → leaf.IsModelFree) :
    (Value.model type fields).plain.plain =
      ofEntries (fields.map fun f => (f.key, f.value.plain.plain)) := by
  rw [model_dumped type fields apart, of_entries_plain, List.map_map]
  refine congrArg ofEntries (List.map_congr_left fun f present => ?_)
  exact congrArg (f.key, ·) (dump_plain f.value (whole f present))

theorem entries_restricted (content : Field Value → Value) :
    (ofEntries (fields.map fun f => (f.key, content f))).restrict (setKeys fields) =
      ofEntries ((fields.filter (·.isSet)).map fun f => (f.key, content f)) := by
  have chosen : fields.filter (fun f => decide (f.key ∈ setKeys fields)) =
      fields.filter (·.isSet) := by
    refine List.filter_congr fun f present => ?_
    rw [Bool.eq_iff_iff, decide_eq_true_iff]
    exact set_key_iff fields apart f present
  rw [ofEntries, restrict, List.map_map, List.filter_map, ofEntries, List.map_map, ← chosen]
  rfl

end Value

theorem container_action (v : Value) (container : v.isContainer = true) :
    (Argument.value v).toAction = .assign (.literal v.plain) := by
  cases v with
  | list | tuple | map => rfl
  | _ => cases container

theorem dumped_action (v : Value)
    (whole : ∀ leaf ∈ v.leaves, leaf.isModel = false → leaf.IsModelFree) :
    (Argument.value v.dump).toAction = (Argument.value v.plain).toAction := by
  have again := v.dump_plain whole
  cases v with
  | list | tuple | map => exact congrArg (fun v => Action.assign (.literal v)) again
  | member type name v =>
      rcases (Value.member type name v).plain_same_or_container with same | container
      · rw [same]
        rfl
      · rw [container_action _ container, ← again]
        rfl
  | _ => rfl

structure UpdatesAsDumped (type : ModelType) (fields : List (Field Value)) : Prop where
  entries : (Value.ofEntries (modelEntries fields)).plain =
    (Value.model type fields).plain.plain.restrict (setKeys fields)
  keys : (modelEntries fields).map Prod.fst = setKeys fields
  occurs : ∀ f ∈ fields,
    ((modelEntries fields).map Prod.fst).count f.key = if f.isSet then 1 else 0
  mapped : Update.Source.actions (.model (fields.map (.map .value))) =
    Update.Source.actions (.entries ((modelEntries fields).map fun (key, v) => (key, .value v)))
  dumped : ∀ entries : List (String × Value),
    Value.ofEntries entries = (Value.model type fields).plain.restrict (setKeys fields) →
      Update.Source.actions (.model (fields.map (.map .value))) =
        Update.Source.actions (.entries (entries.map fun (key, v) => (key, .value v)))

theorem of_entries_injective (entries others : List (String × Value))
    (same : Value.ofEntries entries = Value.ofEntries others) : entries = others := by
  rw [Value.ofEntries, Value.ofEntries, Value.map.injEq] at same
  refine List.map_injective_iff.mpr ?_ same
  rintro ⟨key, v⟩ ⟨other, w⟩ equal
  simpa using equal

theorem model_mapped (fields : List (Field Value)) :
    Update.Source.actions (.model (fields.map (.map .value))) =
      Update.Source.actions
        (.entries ((modelEntries fields).map fun (key, v) => (key, .value v))) := by
  simp only [Update.Source.actions, set_entries_map, modelEntries, List.map_map,
    Function.comp_def, Argument.plain]

def stayFields : List (Field Value) :=
  [⟨"place", some "at",
      .tuple [.int 7, .model ⟨⟨"travel", "Span"⟩, false⟩ [⟨"span", none, .tuple [.int 1, .int 2],
        false⟩]], true⟩,
    ⟨"note", none, .null, false⟩,
    ⟨"tags", none, .list [.str "x", .member ⟨"Size", true⟩ "SMALL" (.tuple [.int 1, .int 2])],
      true⟩]

end ItemExpr
