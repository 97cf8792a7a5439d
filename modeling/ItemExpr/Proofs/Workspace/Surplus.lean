import ItemExpr.Proofs.Condition.Leaves
import ItemExpr.Proofs.Request.Linked

set_option autoImplicit false

namespace ItemExpr

variable {V : Type}

theorem reached_entered (o : Options) (t : Table V) (reached : t.Reached o) :
    ∃ calls, ({ options := o } : Table V).enterAll calls = t := by
  induction reached with
  | fresh => exact ⟨[], rfl⟩
  | enter t call _ ih =>
      obtain ⟨calls, rfl⟩ := ih
      exact ⟨calls ++ [call], by simp [Table.enterAll]⟩
  | reset t _ ih =>
      obtain ⟨calls, rfl⟩ := ih
      exact ⟨[], by rw [Table.reset, enter_all_options]; rfl⟩

theorem reached_options (o : Options) (t : Table V) (reached : t.Reached o) : t.options = o := by
  obtain ⟨calls, rfl⟩ := reached_entered o t reached
  exact enter_all_options _ calls

def Table.newNames (t : Table V) (calls : List (Call V)) : List String :=
  ((namesOf t.options calls).removeAll (t.names.map Prod.snd)).eraseDups

theorem new_names_append (before calls : List (Call V)) :
    (namesOf {} (before ++ calls)).eraseDups =
      (namesOf {} before).eraseDups ++
        (({ options := {} } : Table V).enterAll before).newNames calls := by
  have known (name : String) : name ∈ namesOf {} before ↔
      name ∈ (({ options := {} } : Table V).enterAll before).names.map Prod.snd := by
    rw [(entered_names before).2.2, numbered_names, List.mem_eraseDups]
  have split : namesOf {} (before ++ calls) = namesOf {} before ++ namesOf {} calls :=
    List.flatMap_append
  rw [split, List.eraseDups_append, Table.newNames, enter_all_options, List.removeAll,
    List.removeAll]
  congr 2
  apply List.filter_congr
  intro name _
  simp [known name]

theorem entered_values (o : Options) (t : Table V) (reached : t.Reached o) (calls : List (Call V)) :
    (t.enterAll calls).values = t.values ++
      ((valuesOf calls).zipIdx t.nextValue).map fun (v, k) => (o.valueLabel k, v) := by
  obtain ⟨before, rfl⟩ := reached_entered o t reached
  have whole : (({ options := o } : Table V).enterAll before).enterAll calls =
      ({ options := o } : Table V).enterAll (before ++ calls) := List.foldl_append.symm
  have old := kept_entered o before
  have new := kept_entered o (before ++ calls)
  rw [whole, new.values, old.values, old.nextValue, enter_all_options, enter_all_options, valuesOf,
    List.filterMap_append, List.zipIdx_append, List.map_append, Nat.zero_add]
  rfl

theorem entered_after (t : Table V) (reached : t.Reached {}) (calls : List (Call V)) :
    (t.enterAll calls).values = t.values ++
        ((valuesOf calls).zipIdx t.nextValue).map (fun (v, k) => (Options.valueLabel {} k, v)) ∧
      (t.enterAll calls).names = t.names ++
        ((t.newNames calls).zipIdx t.nextName).map
          fun (name, k) => (Options.nameLabel {} k, name) := by
  refine ⟨entered_values {} t reached calls, ?_⟩
  obtain ⟨before, rfl⟩ := reached_entered {} t reached
  have whole : (({ options := {} } : Table V).enterAll before).enterAll calls =
      ({ options := {} } : Table V).enterAll (before ++ calls) := List.foldl_append.symm
  obtain ⟨_, next, names⟩ := entered_names before
  rw [whole, (entered_names (before ++ calls)).2.2, new_names_append, List.zipIdx_append,
    List.map_append, ← names, Nat.zero_add, ← next]

def KeyClause.leaves (name : String) : KeyClause V → List (Call V)
  | .compare _ v => [.path name, .value v]
  | .between _ low high => [.path name, .value low, .value high]
  | .beginsWith v => [.path name, .value v]

theorem key_items_leaves (name : String) (c : KeyClause V) :
    (c.items name).flatMap Item.leaves = c.leaves name := by
  cases c <;> rfl

def keyLeaves (entries : List (String × KeyClause V)) : List (Call V) :=
  entries.flatMap fun (name, c) => c.leaves name

def Table.writeClauses (t : Table V) : List (String × KeyClause V) → List Fragment × Table V
  | [] => ([], t)
  | (name, c) :: rest =>
      let (clause, t) := t.write [] (c.items name)
      let (others, t) := t.writeClauses rest
      (clause :: others, t)

theorem write_clauses_leaves (t : Table V) (entries : List (String × KeyClause V)) :
    (t.writeClauses entries).2 = t.enterAll (keyLeaves entries) := by
  induction entries generalizing t with
  | nil => rfl
  | cons entry rest ih =>
      obtain ⟨name, c⟩ := entry
      have first := write_leaves t [] (c.items name)
      rw [key_items_leaves] at first
      rw [Table.writeClauses, keyLeaves, List.flatMap_cons, Table.enterAll, List.foldl_append]
      exact (ih (t.write [] (c.items name)).2).trans (congrArg (Table.enterAll · _) first)

theorem write_clauses_length (t : Table V) (entries : List (String × KeyClause V)) :
    (t.writeClauses entries).1.length = entries.length := by
  induction entries generalizing t with
  | nil => rfl
  | cons entry rest ih => exact congrArg (· + 1) (ih _)

theorem write_clauses_take (t : Table V) (entries : List (String × KeyClause V)) (n : Nat) :
    (t.writeClauses (entries.take n)).1 = (t.writeClauses entries).1.take n := by
  induction entries generalizing t n with
  | nil => simp [Table.writeClauses]
  | cons entry rest ih =>
      cases n with
      | zero => rfl
      | succ n => exact congrArg (_ :: ·) (ih _ n)

theorem drop_again {α : Type} (n : Nat) (front back : List α) :
    front.drop n ++ (front.take n ++ back).drop n = (front ++ back).drop n := by
  by_cases few : front.length ≤ n
  · rw [List.take_of_length_le few, List.drop_eq_nil_of_le few, List.nil_append]
  · have full : (front.take n).length = n := by
      rw [List.length_take]
      omega
    rw [List.drop_left' full, List.drop_append_of_le_length (by omega)]

namespace Workspace

def buildKeys (w : Workspace V) (maps : List (List (String × KeyClause V))) : Workspace V :=
  maps.foldl (fun w entries => (w.buildKey entries).2) w

def ignored (clause : Fragment) : Record := .clauseIgnored clause.text

theorem add_clause_eq (w : Workspace V) (room : w.key.length ≤ maxKeyClauses) (name : String)
    (c : KeyClause V) :
    w.addClause name c =
      { w with
        table := (w.table.write [] (c.items name)).2
        key := (w.key ++ [(w.table.write [] (c.items name)).1]).take maxKeyClauses
        log := w.log ++
          ((w.key ++ [(w.table.write [] (c.items name)).1]).drop maxKeyClauses).map ignored } := by
  obtain ⟨table, key, update, log⟩ := w
  dsimp only at room ⊢
  by_cases free : key.length < maxKeyClauses
  · have fits : (key ++ [(table.write [] (c.items name)).1]).length ≤ maxKeyClauses := by
      rw [List.length_append, List.length_singleton]
      omega
    rw [List.take_of_length_le fits, List.drop_eq_nil_of_le fits]
    simp [addClause, writeClause, write, keepClause, free]
  · have full : key.length = maxKeyClauses := by omega
    rw [← full, List.take_left, List.drop_left]
    simp [addClause, writeClause, write, keepClause, record, ignored, full]

theorem add_all_clauses_eq (w : Workspace V) (room : w.key.length ≤ maxKeyClauses)
    (entries : List (String × KeyClause V)) :
    entries.foldl (fun w (name, c) => w.addClause name c) w =
      { w with
        table := (w.table.writeClauses entries).2
        key := (w.key ++ (w.table.writeClauses entries).1).take maxKeyClauses
        log := w.log ++
          ((w.key ++ (w.table.writeClauses entries).1).drop maxKeyClauses).map ignored } := by
  induction entries generalizing w with
  | nil =>
      simp [Table.writeClauses, List.take_of_length_le room, List.drop_eq_nil_of_le room]
  | cons entry rest ih =>
      obtain ⟨name, c⟩ := entry
      change rest.foldl _ (w.addClause name c) = _
      rw [add_clause_eq w room name c, ih _ (List.length_take_le _ _)]
      simp only [Table.writeClauses, take_again, List.append_assoc, ← List.map_append, drop_again,
        List.singleton_append]

theorem build_keys_flatten (w : Workspace V) (maps : List (List (String × KeyClause V))) :
    w.buildKeys maps = maps.flatten.foldl (fun w (name, c) => w.addClause name c) w :=
  List.foldl_flatten.symm

-- However the entries are split into maps, the key condition is that of the first two of them. The
-- other clauses are logged in their order, and the table has the names and values of all.
theorem surplus_logged (w : Workspace V) (defaults : w.table.Reached {}) (empty : w.key = [])
    (maps : List (List (String × KeyClause V))) :
    let entries := maps.flatten
    let clauses := (w.table.writeClauses entries).1
    let after := w.buildKeys maps
    clauses.length = entries.length ∧ after.key = clauses.take 2 ∧
      after.keyExpression.text = (w.buildKey (entries.take 2)).1.text ∧
      (∃ records, after.log = w.log ++ records ∧
        records = (clauses.drop 2).map (fun clause => .clauseIgnored clause.text) ∧
        ∀ r ∈ records, r.level = .warning) ∧
      after.table.values = w.table.values ++
        ((valuesOf (keyLeaves entries)).zipIdx w.table.nextValue).map
          (fun (v, k) => (Options.valueLabel {} k, v)) ∧
      after.table.names = w.table.names ++
        ((w.table.newNames (keyLeaves entries)).zipIdx w.table.nextName).map
          fun (name, k) => (Options.nameLabel {} k, name) := by
  intro entries clauses after
  have room : w.key.length ≤ maxKeyClauses := by simp [empty]
  have whole : after = _ := (build_keys_flatten w maps).trans (add_all_clauses_eq w room entries)
  have front := add_all_clauses_eq w room (entries.take 2)
  rw [empty, List.nil_append] at whole front
  have key : after.key = clauses.take 2 := congrArg Workspace.key whole
  have table : after.table = w.table.enterAll (keyLeaves entries) :=
    (congrArg Workspace.table whole).trans (write_clauses_leaves w.table entries)
  refine ⟨write_clauses_length w.table entries, key, ?_, ⟨_, congrArg Workspace.log whole, rfl, ?_⟩,
    ?_⟩
  · rw [keyExpression, key, buildKey, keyExpression, front, write_clauses_take]
    simp only [maxKeyClauses, List.take_take, Nat.min_self]
    rfl
  · intro r present
    obtain ⟨clause, _, rfl⟩ := List.mem_map.mp present
    rfl
  · rw [table]
    exact entered_after w.table defaults (keyLeaves entries)

theorem visits_surplus_logged :
    let w : Workspace Nat := { table := (({ options := {} } : Table Nat).addPath "age").2 }
    let maps : List (List (String × KeyClause Nat)) :=
      [[("user.id", .equals 7)], [("age", .between "BETWEEN" 1 9), ("user.id", .beginsWith 4)]]
    w.table.Reached {} ∧ w.key = [] ∧
      (w.buildKeys maps).keyExpression.text = "#n1.#n2 = :v0 AND #n0 BETWEEN :v1 AND :v2" ∧
      (w.buildKeys maps).log = [.clauseIgnored "begins_with(#n1.#n2, :v3)"] ∧
      (w.buildKeys maps).table.values = [(":v0", 7), (":v1", 1), (":v2", 9), (":v3", 4)] ∧
      (w.buildKeys maps).table.names = [("#n0", "age"), ("#n1", "user"), ("#n2", "id")] := by
  intro w maps
  have defaults : w.table.Reached {} := .enter _ (.path "age") .fresh
  obtain ⟨_, _, expression, ⟨records, log, logged, _⟩, values, names⟩ :=
    surplus_logged w defaults rfl maps
  rw [logged] at log
  rw [expression, log, values, names]
  exact ⟨defaults, rfl, by decide +kernel, by decide +kernel, by decide +kernel, by decide +kernel⟩

end Workspace

end ItemExpr
