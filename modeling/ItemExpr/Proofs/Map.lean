import ItemExpr.Proofs.Table.Settled
import ItemExpr.Proofs.Update.Change
import ItemExpr.Proofs.Update.Compile
import ItemExpr.Request

set_option autoImplicit false

namespace ItemExpr

section Layers

variable {A B : Type} (f : A → B)

def Item.map : Item A → Item B
  | .text s => .text s
  | .path p => .path p
  | .value v => .value (f v)
  | .self => .self

def Script.map (s : Script A) : Script B := ⟨s.items.map (Item.map f), s.fault⟩

def Condition.map (c : Condition A) : Condition B := c.substitute fun v => .value (f v)

def Condition.mapEach (cs : List (Condition A)) : List (Condition B) :=
  substituteEach (fun v => .value (f v)) cs

def KeyClause.map : KeyClause A → KeyClause B
  | .compare operator v => .compare operator (f v)
  | .between operator low high => .between operator (f low) (f high)
  | .beginsWith v => .beginsWith (f v)

def Operand.map : Operand A → Operand B
  | .literal v => .literal (f v)
  | .path p => .path p
  | .pathOr p v => .pathOr p (f v)

namespace Action

mutual

def map : Action A → Action B
  | .skip => .skip
  | .remove => .remove
  | .assign o => .assign (o.map f)
  | .assignDefault o => .assignDefault (o.map f)
  | .arithmetic left sign right => .arithmetic (left.map (Operand.map f)) sign (right.map f)
  | .listAppend left right => .listAppend (left.map (Operand.map f)) (right.map (Operand.map f))
  | .removeIndexes indexes => .removeIndexes indexes
  | .assignIndexes entries => .assignIndexes (entries.map fun (i, o) => (i, o.map f))
  | .addElements o => .addElements (o.map f)
  | .deleteElements o => .deleteElements (o.map f)
  | .nested entries => .nested (mapEach entries)
  | .keyed groups => .keyed (mapGroups groups)

def mapEach : List (String × Action A) → List (String × Action B)
  | [] => []
  | (path, a) :: rest => (path, a.map) :: mapEach rest

def mapGroups : List (String × List (String × Action A)) → List (String × List (String × Action B))
  | [] => []
  | (path, entries) :: rest => (path, mapEach entries) :: mapGroups rest

end

end Action

def Table.map (t : Table A) : Table B :=
  { options := t.options
    names := t.names
    nextName := t.nextName
    values := t.values.map fun (label, v) => (label, f v)
    nextValue := t.nextValue }

def Workspace.map (w : Workspace A) : Workspace B :=
  { table := w.table.map f, key := w.key, update := w.update, log := w.log }

def Request.map (r : Request A) : Request B :=
  { key := r.key.map fun entries => entries.map fun (name, c) => (name, c.map f)
    update := r.update.map (Action.mapEach f)
    conditions := Condition.mapEach f r.conditions
    filters := Condition.mapEach f r.filters }

end Layers

variable {A B : Type} (f : A → B)

section Table

theorem map_add_name (t : Table A) (name : String) :
    (t.map f).addName name = Prod.map id (Table.map f) (t.addName name) := by
  cases reserved : t.options.reserved name with
  | true =>
      rw [add_name_reserved t name reserved, add_name_reserved (t.map f) name reserved]
      rfl
  | false =>
      cases bare : t.options.bare name with
      | true =>
          rw [add_name_bare t name reserved bare, add_name_bare (t.map f) name reserved bare]
          rfl
      | false =>
          cases found : t.names.find? (·.2 = name) with
          | some entry =>
              rw [add_name_found t name entry reserved bare found,
                add_name_found (t.map f) name entry reserved bare found]
              rfl
          | none =>
              simp only [Table.addName, Table.map, reserved, bare, found]
              rfl

theorem map_add_segments (t : Table A) (segments : List Segment) :
    (t.map f).addSegments segments = Prod.map id (Table.map f) (t.addSegments segments) := by
  match segments with
  | [] => rfl
  | [s] =>
      rw [Table.addSegments, Table.addSegments, Table.addSegment, Table.addSegment,
        map_add_name f t s.name]
      rfl
  | s :: next :: rest =>
      have others := map_add_segments (t.addName s.name).2 (next :: rest)
      rw [Table.addSegments, Table.addSegments, Table.addSegment, Table.addSegment,
        map_add_name f t s.name]
      simp only [Prod.map, id, others]
      all_goals simp

theorem map_add_path (t : Table A) (path : String) :
    (t.map f).addPath path = Prod.map id (Table.map f) (t.addPath path) :=
  map_add_segments f t (t.options.segments path)

theorem map_add_value (t : Table A) (v : A) :
    (t.map f).addValue (f v) = Prod.map id (Table.map f) (t.addValue v) := by
  rw [Table.addValue, Table.addValue]
  simp only [Table.map, put_map, Prod.map, id]

theorem map_write_item (t : Table A) (self : Fragment) (item : Item A) :
    (t.map f).writeItem self (item.map f) = Prod.map id (Table.map f) (t.writeItem self item) := by
  cases item with
  | text s => rfl
  | path p => exact map_add_path f t p
  | value v =>
      rw [Item.map, Table.writeItem, Table.writeItem, map_add_value f t v]
      rfl
  | self => rfl

theorem map_write (t : Table A) (self : Fragment) (items : List (Item A)) :
    (t.map f).write self (items.map (Item.map f)) =
      Prod.map id (Table.map f) (t.write self items) := by
  induction items generalizing t with
  | nil => rfl
  | cons item rest ih =>
      rw [List.map_cons, Table.write, Table.write, map_write_item f t self item]
      simp only [Prod.map, id, ih]

end Table

section Script

theorem map_append (a b : Script A) : (a ++ b).map f = a.map f ++ b.map f := by
  cases fault : a.fault with
  | some e =>
      rw [Script.append_of_fault a b e fault, Script.append_of_fault (a.map f) (b.map f) e fault]
  | none =>
      rw [Script.append_of_sound a b fault, Script.append_of_sound (a.map f) (b.map f) fault]
      simp only [Script.map, List.map_append]

theorem map_join (separator : String) (scripts : List (Script A)) :
    (Script.join separator scripts).map f = .join separator (scripts.map (Script.map f)) := by
  match scripts with
  | [] => rfl
  | [s] => rfl
  | s :: next :: rest =>
      have others := map_join separator (next :: rest)
      rw [Script.join, map_append, map_append, others]
      · rfl
      · exact List.cons_ne_nil next rest

theorem map_index (i : Int) : (Script.index i : Script A).map f = .index i := by
  rw [Script.index, Script.index]
  split <;> rfl

theorem map_run (s : Script A) (self : Fragment) (t : Table A) :
    (s.map f).run self (t.map f) = Prod.map id (Table.map f) (s.run self t) := by
  have written : (t.map f).write self (s.map f).items =
      Prod.map id (Table.map f) (t.write self s.items) := map_write f t self s.items
  rw [Script.run, Script.run, written, Script.map]
  cases s.fault <;> rfl

theorem map_run_script (w : Workspace A) (self : Fragment) (s : Script A) :
    (w.map f).runScript self (s.map f) = Prod.map id (Workspace.map f) (w.runScript self s) := by
  rw [Workspace.runScript, Workspace.runScript, Workspace.map, map_run]
  rfl

end Script

namespace Condition

theorem map_each_length (cs : List (Condition A)) : (mapEach f cs).length = cs.length := by
  induction cs with
  | nil => rfl
  | cons c rest ih => exact congrArg Nat.succ ih

theorem map_enclosed (opened separator : String) (scripts : List (Script A)) :
    (Script.text opened ++ .join separator scripts ++ .text ")").map f =
      .text opened ++ .join separator (scripts.map (Script.map f)) ++ .text ")" := by
  rw [map_append, map_append, map_join]
  rfl

mutual

theorem map_script (c : Condition A) : (c.map f).script = c.script.map f := by
  match c with
  | .path p => rfl
  | .attribute p => rfl
  | .size p => rfl
  | .value v => rfl
  | .compare left operator right =>
      rw [script, map_append, map_append, ← map_script left, ← map_script right]
      rfl
  | .between subject low high =>
      rw [script, map_append, map_append, map_append, map_append, ← map_script subject,
        ← map_script low, ← map_script high]
      rfl
  | .isIn subject choices =>
      rw [script, map_append, map_append, map_append, map_join, ← map_script subject,
        ← map_scripts choices]
      rfl
  | .call function subject arguments =>
      rw [script, map_enclosed, List.map_cons, ← map_script subject, ← map_scripts arguments]
      rfl
  | .all conditions =>
      rw [script, map_enclosed, ← map_scripts conditions]
      rfl
  | .any conditions =>
      rw [script, map_enclosed, ← map_scripts conditions]
      rfl
  | .negation condition =>
      rw [script, map_append, map_append, ← map_script condition]
      rfl
  | .strict operator conditions =>
      have counted := map_each_length f conditions
      have each := map_scripts conditions
      show script (.strict operator (mapEach f conditions)) = _
      rw [script, script, counted, each]
      split
      · rfl
      · split
        · rw [map_enclosed]
        · rw [map_enclosed]

theorem map_scripts (cs : List (Condition A)) :
    scripts (mapEach f cs) = (scripts cs).map (Script.map f) := by
  match cs with
  | [] => rfl
  | c :: rest =>
      rw [scripts, List.map_cons, ← map_script c, ← map_scripts rest]
      rfl

end

end Condition

theorem map_items (name : String) (c : KeyClause A) :
    (c.map f).items name = (c.items name).map (Item.map f) := by
  cases c <;> rfl

namespace Operand

theorem map_operand (o : Operand A) : (o.map f).script = o.script.map f := by
  cases o with
  | literal v => rfl
  | path p => rfl
  | pathOr p v => rfl

theorem map_or_self (o : Option (Operand A)) :
    scriptOrSelf (o.map (Operand.map f)) = (scriptOrSelf o).map f := by
  cases o with
  | none => rfl
  | some o => exact map_operand f o

end Operand

namespace Action

theorem map_clauses (a : Action A) :
    (a.map f).clauses = a.clauses.map fun (group, s) => (group, s.map f) := by
  cases a with
  | skip => rfl
  | remove => rfl
  | assign o =>
      simp only [clauses, List.map_singleton, map_append, ← Operand.map_operand]
      rfl
  | assignDefault o =>
      simp only [clauses, List.map_singleton, map_append, ← Operand.map_operand]
      rfl
  | arithmetic left sign right =>
      simp only [clauses, List.map_singleton, map_append, ← Operand.map_operand,
        ← Operand.map_or_self]
      rfl
  | listAppend left right =>
      simp only [clauses, List.map_singleton, map_append, ← Operand.map_or_self]
      rfl
  | removeIndexes indexes =>
      simp only [map, clauses, List.map_map]
      refine List.map_congr_left fun i _ => congrArg (Prod.mk Group.remove) ?_
      rw [map_append, map_index]
      rfl
  | assignIndexes entries =>
      simp only [map, clauses, List.map_map]
      refine List.map_congr_left fun entry _ => congrArg (Prod.mk Group.set) ?_
      simp only [map_append, map_index, Operand.map_operand]
      rfl
  | addElements o =>
      simp only [clauses, List.map_singleton, map_append, ← Operand.map_operand]
      rfl
  | deleteElements o =>
      simp only [clauses, List.map_singleton, map_append, ← Operand.map_operand]
      rfl
  | nested entries => rfl
  | keyed groups => rfl

theorem map_skip (a : Action A) : a.map f = .skip ↔ a = .skip := by
  cases a <;> simp [map]

end Action

namespace Workspace

theorem map_workspace_path (w : Workspace A) (path : String) :
    (w.map f).addPath path = Prod.map id (Workspace.map f) (w.addPath path) := by
  rw [addPath, addPath, Workspace.map, map_add_path]
  rfl

theorem map_keep_clause (w : Workspace A) (clause : Fragment) :
    (w.map f).keepClause clause = (w.keepClause clause).map f := by
  rw [keepClause, keepClause, Workspace.map]
  split <;> rfl

theorem map_add_clause (w : Workspace A) (name : String) (c : KeyClause A) :
    (w.map f).addClause name (c.map f) = (w.addClause name c).map f := by
  have written : (w.map f).writeClause name (c.map f) =
      Prod.map id (Workspace.map f) (w.writeClause name c) := by
    rw [writeClause, writeClause, write, write, Workspace.map, map_items, map_write]
    rfl
  rw [addClause, addClause, written]
  exact map_keep_clause f _ _

theorem map_build_key (w : Workspace A) (entries : List (String × KeyClause A)) :
    (w.map f).buildKey (entries.map fun (name, c) => (name, c.map f)) =
      Prod.map id (Workspace.map f) (w.buildKey entries) := by
  have added : (entries.map fun (name, c) => (name, c.map f)).foldl
      (fun w (name, c) => w.addClause name c) (w.map f) =
        (entries.foldl (fun w (name, c) => w.addClause name c) w).map f := by
    induction entries generalizing w with
    | nil => rfl
    | cons entry rest ih =>
        obtain ⟨name, c⟩ := entry
        simp only [List.map_cons, List.foldl_cons, map_add_clause f w name c]
        exact ih (w.addClause name c)
  rw [buildKey, buildKey, added]
  rfl

theorem map_add_clauses (target : Fragment) (clauses : List (Group × Script A)) (w : Workspace A) :
    addClauses target (clauses.map fun (group, s) => (group, s.map f)) (w.map f) =
      Prod.map id (Workspace.map f) (addClauses target clauses w) := by
  induction clauses generalizing w with
  | nil => rfl
  | cons clause rest ih =>
      obtain ⟨group, s⟩ := clause
      rw [List.map_cons, addClauses, addClauses, map_run_script f w target s]
      cases run : w.runScript target s with
      | mk result w' =>
          cases result with
          | error e => rfl
          | ok written => exact ih { w' with update := w'.update.push group written }

theorem map_then (first : Option Fault × Workspace A)
    (next : Workspace A → Option Fault × Workspace A)
    (mapped : Workspace B → Option Fault × Workspace B)
    (same : ∀ w, mapped (w.map f) = Prod.map id (Workspace.map f) (next w)) :
    andThen (Prod.map id (Workspace.map f) first) mapped =
      Prod.map id (Workspace.map f) (andThen first next) := by
  obtain ⟨fault, w⟩ := first
  cases fault with
  | some e => rfl
  | none => exact same w

open ItemExpr.Action in
mutual

theorem map_apply (a : Action A) (target : Fragment) (w : Workspace A) :
    apply target (a.map f) (w.map f) = Prod.map id (Workspace.map f) (apply target a w) := by
  have leaf : addClauses target (a.map f).clauses (w.map f) =
      Prod.map id (Workspace.map f) (addClauses target a.clauses w) := by
    rw [map_clauses f a]
    exact map_add_clauses f target a.clauses w
  cases a with
  | nested entries => exact map_apply_entries entries target w
  | keyed groups => exact map_apply_groups groups target w
  | _ => exact leaf

theorem map_apply_entries (entries : List (String × Action A)) (under : Fragment)
    (w : Workspace A) :
    applyEntries under (mapEach f entries) (w.map f) =
      Prod.map id (Workspace.map f) (applyEntries under entries w) := by
  match entries with
  | [] => rfl
  | (path, a) :: rest =>
      by_cases skipped : a = .skip
      · subst skipped
        exact map_apply_entries rest under w
      · have kept : a.map f ≠ .skip := fun same => skipped ((map_skip f a).mp same)
        rw [mapEach, apply_entries_cons under path (a.map f) _ (w.map f) kept,
          apply_entries_cons under path a rest w skipped, map_workspace_path f w path]
        simp only [Prod.map, id, map_apply a]
        exact map_then f _ _ _ fun w => map_apply_entries rest under w

theorem map_apply_groups (groups : List (String × List (String × Action A))) (under : Fragment)
    (w : Workspace A) :
    applyGroups under (mapGroups f groups) (w.map f) =
      Prod.map id (Workspace.map f) (applyGroups under groups w) := by
  match groups with
  | [] => rfl
  | (path, entries) :: rest =>
      rw [mapGroups, apply_groups_cons, apply_groups_cons, map_workspace_path f w path]
      simp only [Prod.map, id, map_apply_entries entries]
      exact map_then f _ _ _ fun w => map_apply_groups rest under w

end

theorem map_build_update (w : Workspace A) (entries : List (String × Action A)) :
    (w.map f).buildUpdate (Action.mapEach f entries) =
      Prod.map id (Workspace.map f) (w.buildUpdate entries) := by
  rw [buildUpdate, buildUpdate, map_apply_entries f entries [] w]
  cases applyEntries [] entries w with
  | mk fault w' => cases fault <;> rfl

end Workspace
end ItemExpr
