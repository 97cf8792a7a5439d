import ItemExpr.Proofs.Reading
import ItemExpr.Update.Builders
import ItemExpr.Update.Clauses

set_option autoImplicit false

namespace ItemExpr

inductive Term
  | plain (v : Value)
  | path (p : String)
  | pathOr (p : String) (v : Value)
  | literal (v : Value)

inductive Operator
  | plus
  | minus

def Operator.text : Operator → String
  | .plus => "+"
  | .minus => "-"

def Operator.sign : Operator → Sign
  | .plus => .plus
  | .minus => .minus

inductive Change
  | put (t : Term)
  | set (t : Term)
  | setDefault (t : Term)
  | remove
  | arithmetic (left : Term) (operator : Operator) (right : Term)
  | increment (t : Term)
  | decrement (t : Term)
  | add (left right : Term)
  | subtract (left right : Term)
  | listAppend (left right : Term)
  | append (t : Term)
  | prepend (t : Term)
  | join (left right : Term)
  | removeIndexes (indexes : List Int)
  | assignIndexes (entries : List (Int × Term))
  | addElements (t : Term)
  | deleteElements (t : Term)
  | map (entries : List (String × Change))
  | modelMap (groups : List (String × List (String × Change)))

namespace Term

def argument : Term → Argument
  | .plain v => .value v
  | .path p => Update.path p
  | .pathOr p v => Update.pathOr p (.value v)
  | .literal v => Update.literal (.value v)

def asValue : Term → List (Symbol Value)
  | .plain v => [.value v.plain]
  | .path p => pathSymbols p
  | .pathOr p v => chars "if_not_exists(" ++ pathSymbols p ++ chars ", " ++ [.value v.plain] ++ chars ")"
  | .literal v => [.value v.plain]

def asPath : Term → List (Symbol Value)
  | .plain (.str p) => pathSymbols p
  | t => t.asValue

def asPathOr (itself : List (Symbol Value)) : Term → List (Symbol Value)
  | .plain .null => itself
  | t => t.asPath

def valuePaths : Term → List String
  | .path p => [p]
  | .pathOr p _ => [p]
  | _ => []

def paths : Term → List String
  | .plain (.str p) => [p]
  | t => t.valuePaths

def kept : Term → Term
  | .plain v => .plain v.plain
  | t => t

end Term

namespace Change

mutual

def argument : Change → Argument
  | .put t => t.argument
  | .set t => Update.assign t.argument
  | .setDefault t => Update.assignDefault t.argument
  | .remove => Update.remove
  | .arithmetic left operator right =>
      .action "Arithmetic"
        (.arithmetic left.argument.pathOperand? operator.sign right.argument.pathOperand)
  | .increment t => Update.increment t.argument
  | .decrement t => Update.decrement t.argument
  | .add left right => Update.add left.argument right.argument
  | .subtract left right => Update.subtract left.argument right.argument
  | .listAppend left right => Update.listAppend left.argument right.argument
  | .append t => Update.append t.argument
  | .prepend t => Update.prepend t.argument
  | .join left right => Update.join left.argument right.argument
  | .removeIndexes indexes => .action "DeleteIndexes" (.removeIndexes indexes)
  | .assignIndexes entries =>
      .action "SetIndexes"
        (.assignIndexes (entries.map fun (i, t) => (i, t.argument.valueOperand)))
  | .addElements t => Update.addElements t.argument
  | .deleteElements t => Update.deleteElements t.argument
  | .map entries => Update.nested (.entries (arguments entries))
  | .modelMap groups => Update.keyed (sources groups)

def arguments : List (String × Change) → List (String × Argument)
  | [] => []
  | (path, c) :: rest => (path, c.argument) :: arguments rest

def sources : List (String × List (String × Change)) → List (String × Update.Source)
  | [] => []
  | (path, entries) :: rest => (path, .entries (arguments entries)) :: sources rest

end

def actions (entries : List (String × Change)) : List (String × Action Value) :=
  Update.Source.actions (.entries (arguments entries))

def pathUnder (under : Option String) (path : String) : String :=
  match under with
  | none => path
  | some p => p ++ "." ++ path

def assigned (target : String) (right : List (Symbol Value)) : List (Group × List (Symbol Value)) :=
  [(.set, pathSymbols target ++ chars " = " ++ right)]

def calculated (left : List (Symbol Value)) (operator : Operator) (right : List (Symbol Value)) :
    List (Symbol Value) :=
  left ++ chars " " ++ chars operator.text ++ chars " " ++ right

def listed (left right : List (Symbol Value)) : List (Symbol Value) :=
  chars "list_append(" ++ left ++ chars ", " ++ right ++ chars ")"

mutual

def clauses (target : String) : Change → List (Group × List (Symbol Value))
  | .put (.plain .undefined) => []
  | .put (.plain .null) => [(.remove, pathSymbols target)]
  | .put t => assigned target t.asValue
  | .set t => assigned target t.asValue
  | .setDefault t =>
      assigned target
        (chars "if_not_exists(" ++ pathSymbols target ++ chars ", " ++ t.asValue ++ chars ")")
  | .remove => [(.remove, pathSymbols target)]
  | .arithmetic left operator right =>
      assigned target (calculated (left.asPathOr (pathSymbols target)) operator right.asPath)
  | .increment t => assigned target (calculated (pathSymbols target) .plus t.asPath)
  | .decrement t => assigned target (calculated (pathSymbols target) .minus t.asPath)
  | .add left right =>
      assigned target (calculated (left.asPathOr (pathSymbols target)) .plus right.asPath)
  | .subtract left right =>
      assigned target (calculated (left.asPathOr (pathSymbols target)) .minus right.asPath)
  | .listAppend left right =>
      assigned target
        (listed (left.asPathOr (pathSymbols target)) (right.asPathOr (pathSymbols target)))
  | .append t => assigned target (listed (pathSymbols target) (t.asPathOr (pathSymbols target)))
  | .prepend t => assigned target (listed (t.asPathOr (pathSymbols target)) (pathSymbols target))
  | .join left right =>
      assigned target
        (listed (left.asPathOr (pathSymbols target)) (right.asPathOr (pathSymbols target)))
  | .removeIndexes indexes =>
      indexes.map fun i => (.remove, pathSymbols target ++ chars s!"[{i}]")
  | .assignIndexes entries =>
      entries.map fun (i, t) =>
        (.set, pathSymbols target ++ chars s!"[{i}]" ++ chars " = " ++ t.asValue)
  | .addElements t => [(.add, pathSymbols target ++ chars " " ++ t.asPath)]
  | .deleteElements t => [(.delete, pathSymbols target ++ chars " " ++ t.asPath)]
  | .map entries => clausesEach (some target) entries
  | .modelMap groups => clausesGroups target groups

def clausesEach (under : Option String) :
    List (String × Change) → List (Group × List (Symbol Value))
  | [] => []
  | (path, c) :: rest => c.clauses (pathUnder under path) ++ clausesEach under rest

def clausesGroups (under : String) :
    List (String × List (String × Change)) → List (Group × List (Symbol Value))
  | [] => []
  | (path, entries) :: rest =>
      clausesEach (some (pathUnder (some under) path)) entries ++ clausesGroups under rest

end

mutual

def paths : Change → List String
  | .put t => t.valuePaths
  | .set t => t.valuePaths
  | .setDefault t => t.valuePaths
  | .remove => []
  | .arithmetic left _ right => left.paths ++ right.paths
  | .increment t => t.paths
  | .decrement t => t.paths
  | .add left right => left.paths ++ right.paths
  | .subtract left right => left.paths ++ right.paths
  | .listAppend left right => left.paths ++ right.paths
  | .append t => t.paths
  | .prepend t => t.paths
  | .join left right => left.paths ++ right.paths
  | .removeIndexes _ => []
  | .assignIndexes entries => entries.flatMap fun (_, t) => t.valuePaths
  | .addElements t => t.paths
  | .deleteElements t => t.paths
  | .map entries => pathsEach entries
  | .modelMap groups => pathsGroups groups

def pathsEach : List (String × Change) → List String
  | [] => []
  | (path, c) :: rest => path :: (c.paths ++ pathsEach rest)

def pathsGroups : List (String × List (String × Change)) → List String
  | [] => []
  | (path, entries) :: rest => path :: (pathsEach entries ++ pathsGroups rest)

end

mutual

def indexes : Change → List Int
  | .removeIndexes indexes => indexes
  | .assignIndexes entries => entries.map Prod.fst
  | .map entries => indexesEach entries
  | .modelMap groups => indexesGroups groups
  | _ => []

def indexesEach : List (String × Change) → List Int
  | [] => []
  | (_, c) :: rest => c.indexes ++ indexesEach rest

def indexesGroups : List (String × List (String × Change)) → List Int
  | [] => []
  | (_, entries) :: rest => indexesEach entries ++ indexesGroups rest

end

theorem arguments_eq (entries : List (String × Change)) :
    arguments entries = entries.map fun (path, c) => (path, c.argument) := by
  induction entries with
  | nil => rfl
  | cons entry rest ih => rw [arguments, ih, List.map_cons]

theorem arithmetic_built (left right : Term) (operator : Operator) :
    Update.arithmetic left.argument (.value (.str operator.text)) right.argument =
      .ok (Change.arithmetic left operator right).argument := by
  cases operator <;> rfl

theorem remove_indexes_built (vs : List Argument) (indexes : List Int)
    (read : Value.indexes (vs.map Argument.toValue) = .ok indexes) :
    Update.removeIndexes vs = .ok (Change.removeIndexes indexes).argument := by
  rw [Update.removeIndexes, read]
  rfl

end Change

section Entries

variable {A B : Type} (f : A → B)

theorem put_index_map (i : Int) (entry : A) (entries : List (Int × A)) :
    putIndex i (f entry) (entries.map fun (j, a) => (j, f a)) =
      (putIndex i entry entries).map fun (j, a) => (j, f a) := by
  induction entries with
  | nil => rfl
  | cons head rest ih =>
      obtain ⟨other, old⟩ := head
      by_cases same : other = i
      · simp [putIndex, same]
      · simpa [putIndex, same] using ih

theorem add_indexed_map (known entries : List (Int × A)) (pairs : List (Value × A))
    (added : addIndexed known pairs = .ok entries) :
    addIndexed (known.map fun (i, a) => (i, f a)) (pairs.map fun (k, a) => (k, f a)) =
      .ok (entries.map fun (i, a) => (i, f a)) := by
  induction pairs generalizing known with
  | nil =>
      obtain rfl : known = entries := by simpa [addIndexed] using added
      rfl
  | cons pair rest ih =>
      obtain ⟨k, entry⟩ := pair
      cases index : k.index with
      | error e => simp [addIndexed, index] at added
      | ok i =>
          rw [addIndexed, index] at added
          rw [List.map_cons, addIndexed, index]
          simpa [put_index_map] using ih (putIndex i entry known) added

theorem put_map (key : String) (entry : A) (entries : List (String × A)) :
    put key (f entry) (entries.map fun (k, a) => (k, f a)) =
      (put key entry entries).map fun (k, a) => (k, f a) := by
  induction entries with
  | nil => rfl
  | cons head rest ih =>
      obtain ⟨other, old⟩ := head
      by_cases same : other = key
      · simp [put, same]
      · simpa [put, same] using ih

theorem fold_put_map (known entries : List (String × A)) :
    (entries.map fun (k, a) => (k, f a)).foldl (fun known (key, entry) => put key entry known)
        (known.map fun (k, a) => (k, f a)) =
      (entries.foldl (fun known (key, entry) => put key entry known) known).map
        fun (k, a) => (k, f a) := by
  induction entries generalizing known with
  | nil => rfl
  | cons entry rest ih => simpa [put_map] using ih (put entry.1 entry.2 known)

def Field.map (field : Field A) : Field B :=
  { name := field.name, label := field.label, value := f field.value, isSet := field.isSet }

theorem set_entries_map (fields : List (Field A)) :
    setEntries (fields.map (Field.map f)) = (setEntries fields).map fun (k, a) => (k, f a) := by
  have entry (field : Field A) :
      (Field.map f field).entry = (field.entry.1, f field.entry.2) := rfl
  have chosen : (fields.map (Field.map f)).filter (·.isSet) =
      (fields.filter (·.isSet)).map (Field.map f) := by
    rw [List.filter_map]
    rfl
  rw [setEntries, chosen, List.map_map]
  simpa [setEntries, collapse, List.map_map, Function.comp_def, entry] using
    fold_put_map f [] ((fields.filter (·.isSet)).map Field.entry)

end Entries

namespace Change

theorem assign_indexes_built (pairs : List (Value × Term)) (entries : List (Int × Term))
    (read : indexed pairs = .ok entries) :
    Update.assignIndexes (pairs.map fun (k, t) => (k, t.argument)) =
      .ok (Change.assignIndexes entries).argument := by
  have mapped : indexed (pairs.map fun (k, t) => (k, t.argument)) =
      .ok (entries.map fun (i, t) => (i, t.argument)) :=
    add_indexed_map Term.argument [] entries pairs read
  rw [Update.assignIndexes, mapped]
  simp [argument, List.map_map, Function.comp_def]

def kept : Change → Change
  | .put t => .put t.kept
  | c => c

def ofModel (fields : List (Field Change)) : List (String × Change) :=
  (setEntries fields).map fun (path, c) => (path, c.kept)

theorem kept_argument (c : Change) : c.argument.plain = c.kept.argument := by
  match c with
  | .put t => cases t <;> rfl
  | .set _ => rfl
  | .setDefault _ => rfl
  | .remove => rfl
  | .arithmetic _ _ _ => rfl
  | .increment _ => rfl
  | .decrement _ => rfl
  | .add _ _ => rfl
  | .subtract _ _ => rfl
  | .listAppend _ _ => rfl
  | .append _ => rfl
  | .prepend _ => rfl
  | .join _ _ => rfl
  | .removeIndexes _ => rfl
  | .assignIndexes _ => rfl
  | .addElements _ => rfl
  | .deleteElements _ => rfl
  | .map _ => rfl
  | .modelMap _ => rfl

theorem model_actions (fields : List (Field Change)) :
    Update.Source.actions (.model (fields.map (Field.map argument))) = actions (ofModel fields) := by
  rw [Update.Source.actions, set_entries_map, actions, Update.Source.actions, arguments_eq, ofModel]
  simp [List.map_map, Function.comp_def, kept_argument]

end Change
end ItemExpr
