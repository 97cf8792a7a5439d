import ItemExpr.Proofs.Condition.Leaves
import ItemExpr.Proofs.Update.Change
import ItemExpr.Proofs.Update.Compile

set_option autoImplicit false

namespace ItemExpr

variable {V : Type}

namespace Action

def clauseCalls (clauses : List (Group × Script V)) : List (Call V) :=
  clauses.flatMap fun clause => clause.2.items.flatMap Item.leaves

mutual

def calls : Action V → List (Call V)
  | .nested entries => entriesCalls entries
  | .keyed groups => groupsCalls groups
  | a => clauseCalls a.clauses

def entriesCalls : List (String × Action V) → List (Call V)
  | [] => []
  | (_, .skip) :: rest => entriesCalls rest
  | (path, a) :: rest => .path path :: (a.calls ++ entriesCalls rest)

def groupsCalls : List (String × List (String × Action V)) → List (Call V)
  | [] => []
  | (path, entries) :: rest => .path path :: (entriesCalls entries ++ groupsCalls rest)

end

theorem entries_calls_cons (path : String) (a : Action V) (rest : List (String × Action V))
    (kept : a ≠ .skip) :
    entriesCalls ((path, a) :: rest) = .path path :: (a.calls ++ entriesCalls rest) := by
  cases a with
  | skip => exact absurd rfl kept
  | _ => rfl

end Action

namespace Workspace

open ItemExpr.Action (clauseCalls entriesCalls groupsCalls)

theorem add_clauses_calls (target : Fragment) (clauses : List (Group × Script V))
    (w w' : Workspace V) (done : addClauses target clauses w = (none, w')) :
    w'.table = w.table.enterAll (clauseCalls clauses) := by
  induction clauses generalizing w with
  | nil =>
      obtain rfl : w = w' := (Prod.mk.inj done).2
      rfl
  | cons clause rest ih =>
      obtain ⟨group, s⟩ := clause
      rw [addClauses, runScript, Script.run] at done
      cases fault : s.fault with
      | some e => simp [fault] at done
      | none =>
          simp only [fault] at done
          have others := ih _ done
          rw [clauseCalls, List.flatMap_cons, Table.enterAll, List.foldl_append]
          exact others.trans (congrArg (Table.enterAll · _) (write_leaves w.table target s.items))

theorem then_done (first : Option Fault × Workspace V)
    (next : Workspace V → Option Fault × Workspace V) (w' : Workspace V)
    (done : andThen first next = (none, w')) :
    ∃ w, first = (none, w) ∧ next w = (none, w') := by
  obtain ⟨fault, w⟩ := first
  cases fault with
  | some e => simp [andThen] at done
  | none => exact ⟨w, rfl, done⟩

mutual

theorem apply_calls (a : Action V) (target : Fragment) (w w' : Workspace V)
    (done : apply target a w = (none, w')) : w'.table = w.table.enterAll a.calls := by
  cases a with
  | nested entries => exact entries_calls entries target w w' done
  | keyed groups => exact groups_calls groups target w w' done
  | _ => exact add_clauses_calls target _ w w' done

theorem entries_calls (entries : List (String × Action V)) (under : Fragment) (w w' : Workspace V)
    (done : applyEntries under entries w = (none, w')) :
    w'.table = w.table.enterAll (entriesCalls entries) := by
  match entries with
  | [] =>
      obtain rfl : w = w' := (Prod.mk.inj done).2
      rfl
  | (path, a) :: rest =>
      by_cases skipped : a = .skip
      · subst skipped
        exact entries_calls rest under w w' done
      · rw [apply_entries_cons under path a rest w skipped] at done
        obtain ⟨middle, first, others⟩ := then_done _ _ w' done
        rw [Action.entries_calls_cons path a rest skipped, Table.enterAll, List.foldl_cons,
          List.foldl_append]
        have here := apply_calls a _ _ middle first
        have there := entries_calls rest under middle w' others
        exact there.trans (congrArg (Table.enterAll · _) here)

theorem groups_calls (groups : List (String × List (String × Action V))) (under : Fragment)
    (w w' : Workspace V) (done : applyGroups under groups w = (none, w')) :
    w'.table = w.table.enterAll (groupsCalls groups) := by
  match groups with
  | [] =>
      obtain rfl : w = w' := (Prod.mk.inj done).2
      rfl
  | (path, entries) :: rest =>
      rw [apply_groups_cons under path entries rest w] at done
      obtain ⟨middle, first, others⟩ := then_done _ _ w' done
      rw [groupsCalls, Table.enterAll, List.foldl_cons, List.foldl_append]
      have here := entries_calls entries _ _ middle first
      have there := groups_calls rest under middle w' others
      exact there.trans (congrArg (Table.enterAll · _) here)

end

end Workspace

theorem values_append (calls others : List (Call V)) :
    valuesOf (calls ++ others) = valuesOf calls ++ valuesOf others := List.filterMap_append

structure Stores (s : Script V) (values : List V) : Prop where
  sound : s.fault = none
  values : valuesOf (s.items.flatMap Item.leaves) = values

theorem stores_text (s : String) : Stores (Script.text s : Script V) [] := ⟨rfl, rfl⟩

theorem stores_self : Stores (Script.self : Script V) [] := ⟨rfl, rfl⟩

theorem stores_index (i : Int) (short : Number.isWritable i = true) :
    Stores (Script.index i : Script V) [] := by
  rw [Script.index, if_pos short]
  exact stores_text _

theorem stores_append (a b : Script V) (values others : List V) (first : Stores a values)
    (second : Stores b others) : Stores (a ++ b) (values ++ others) where
  sound := append_sound a b first.sound second.sound
  values := by
    rw [Script.append_of_sound a b first.sound, List.flatMap_append, values_append, first.values,
      second.values]

theorem stores_after (a : Script V) (s : String) (values : List V) (first : Stores a values) :
    Stores (a ++ .text s) values := by
  simpa using stores_append a (.text s) values [] first (stores_text s)

theorem stores_front (s : String) (b : Script V) (values : List V) (second : Stores b values) :
    Stores (.self ++ .text s ++ b) values :=
  stores_append _ b [] values (stores_after .self s [] stores_self) second

namespace Operand

def stored : Operand V → List V
  | .literal v => [v]
  | .path _ => []
  | .pathOr _ v => [v]

def storedOrSelf : Option (Operand V) → List V
  | some o => o.stored
  | none => []

theorem operand_stores (o : Operand V) : Stores o.script o.stored := by
  cases o <;> exact ⟨rfl, rfl⟩

theorem operand_or_self_stores (o : Option (Operand V)) :
    Stores (scriptOrSelf o) (storedOrSelf o) := by
  cases o with
  | none => exact stores_self
  | some o => exact operand_stores o

end Operand

namespace Action

open Operand (operand_stores operand_or_self_stores storedOrSelf)

theorem clause_stored (group : Group) (s : Script V) (values : List V) (stores : Stores s values) :
    valuesOf (clauseCalls [(group, s)]) = values := by
  rw [clauseCalls, List.flatMap_cons, List.flatMap_nil, List.append_nil, stores.values]

theorem arithmetic_stored (left : Option (Operand V)) (sign : Sign) (right : Operand V) :
    valuesOf (calls (.arithmetic left sign right)) = storedOrSelf left ++ right.stored := by
  have front := stores_front " = " _ _ (operand_or_self_stores left)
  exact clause_stored _ _ _
    (stores_append _ _ _ _ (stores_after _ _ _ front) (operand_stores right))

theorem list_append_stored (left right : Option (Operand V)) :
    valuesOf (calls (.listAppend left right)) = storedOrSelf left ++ storedOrSelf right := by
  have front := stores_front " = list_append(" _ _ (operand_or_self_stores left)
  have middle := stores_append _ _ _ _ (stores_after _ ", " _ front) (operand_or_self_stores right)
  exact clause_stored _ _ _ (stores_after _ ")" _ middle)

theorem default_stored (o : Operand V) : valuesOf (calls (.assignDefault o)) = o.stored := by
  have front := stores_front " = if_not_exists(" (.self : Script V) [] stores_self
  have middle := stores_append _ _ _ _ (stores_after _ ", " _ front) (operand_stores o)
  exact clause_stored _ _ _ (stores_after _ ")" _ middle)

theorem assign_indexes_stored (entries : List (Int × Operand V))
    (short : ∀ entry ∈ entries, Number.isWritable entry.1 = true) :
    valuesOf (calls (.assignIndexes entries)) = entries.flatMap fun entry => entry.2.stored := by
  induction entries with
  | nil => rfl
  | cons entry rest ih =>
      rw [List.forall_mem_cons] at short
      have index := stores_append (.self : Script V) _ _ _ stores_self
        (stores_index entry.1 short.1)
      have whole := stores_append _ _ _ _ (stores_after _ " = " _ index) (operand_stores entry.2)
      have split : calls (.assignIndexes (entry :: rest)) =
          (.self ++ .index entry.1 ++ .text " = " ++ entry.2.script : Script V).items.flatMap
            Item.leaves ++ calls (.assignIndexes rest) := rfl
      rw [split, values_append, whole.values, ih short.2, List.flatMap_cons]
      rfl

theorem remove_indexes_stored (indexes : List Int) :
    valuesOf (calls (.removeIndexes indexes : Action V)) = [] := by
  induction indexes with
  | nil => rfl
  | cons i rest ih =>
      have here : valuesOf ((Script.self ++ Script.index i : Script V).items.flatMap Item.leaves) =
          [] := by
        rw [Script.index]
        split <;> rfl
      exact (values_append _ _).trans (by rw [here]; exact ih)

end Action

namespace Term

def given : Term → List Value
  | .plain v => [v]
  | .path _ => []
  | .pathOr _ v => [v]
  | .literal v => [v]

def pathGiven : Term → List Value
  | .plain (.str _) => []
  | t => t.given

def pathOrGiven : Term → List Value
  | .plain .null => []
  | t => t.pathGiven

end Term

namespace Change

mutual

def given : Change → List Value
  | .put (.plain .undefined) => []
  | .put (.plain .null) => []
  | .put t => t.given
  | .set t => t.given
  | .setDefault t => t.given
  | .remove => []
  | .arithmetic left _ right => left.pathOrGiven ++ right.pathGiven
  | .increment t => t.pathGiven
  | .decrement t => t.pathGiven
  | .add left right => left.pathOrGiven ++ right.pathGiven
  | .subtract left right => left.pathOrGiven ++ right.pathGiven
  | .listAppend left right => left.pathOrGiven ++ right.pathOrGiven
  | .append t => t.pathOrGiven
  | .prepend t => t.pathOrGiven
  | .join left right => left.pathOrGiven ++ right.pathOrGiven
  | .removeIndexes _ => []
  | .assignIndexes entries => entries.flatMap fun (_, t) => t.given
  | .addElements t => t.pathGiven
  | .deleteElements t => t.pathGiven
  | .map entries => givenEach entries
  | .modelMap groups => givenGroups groups

def givenEach : List (String × Change) → List Value
  | [] => []
  | (_, c) :: rest => c.given ++ givenEach rest

def givenGroups : List (String × List (String × Change)) → List Value
  | [] => []
  | (_, entries) :: rest => givenEach entries ++ givenGroups rest

end

open ItemExpr.Operand (storedOrSelf operand_stores)

theorem value_operand_stored (t : Term) :
    t.argument.valueOperand.stored = t.given.map Value.plain := by
  cases t <;> rfl

theorem path_operand_stored (t : Term) :
    t.argument.pathOperand.stored = t.pathGiven.map Value.plain := by
  match t with
  | .plain v => cases v <;> rfl
  | .path p => rfl
  | .pathOr p v => rfl
  | .literal v => rfl

theorem path_operand_or_stored (t : Term) :
    storedOrSelf t.argument.pathOperand? = t.pathOrGiven.map Value.plain := by
  match t with
  | .plain v => cases v <;> rfl
  | .path p => rfl
  | .pathOr p v => rfl
  | .literal v => rfl

theorem assigned_stored (t : Term) :
    valuesOf (Action.calls (.assign t.argument.valueOperand)) = t.given.map Value.plain := by
  rw [← value_operand_stored]
  exact Action.clause_stored _ _ _ (stores_front " = " _ _ (operand_stores _))

theorem put_stored (t : Term) :
    valuesOf (Change.put t).argument.toAction.calls = (Change.put t).given.map Value.plain := by
  match t with
  | .plain v => cases v <;> rfl
  | .path p => rfl
  | .pathOr p v => rfl
  | .literal v => rfl

theorem elements_stored (t : Term) (group : Group) :
    valuesOf (Action.clauseCalls [(group, .self ++ .text " " ++ t.argument.pathOperand.script)]) =
      t.pathGiven.map Value.plain := by
  rw [← path_operand_stored]
  exact Action.clause_stored _ _ _ (stores_front " " _ _ (operand_stores _))

theorem calculated_stored (left : Option (Operand Value)) (sign : Sign) (right : Term)
    (given : List Value) (same : storedOrSelf left = given.map Value.plain) :
    valuesOf (Action.calls (.arithmetic left sign right.argument.pathOperand)) =
      (given ++ right.pathGiven).map Value.plain := by
  rw [Action.arithmetic_stored, same, path_operand_stored, List.map_append]

theorem listed_stored (left right : Option (Operand Value)) (first second : List Value)
    (here : storedOrSelf left = first.map Value.plain)
    (there : storedOrSelf right = second.map Value.plain) :
    valuesOf (Action.calls (.listAppend left right)) = (first ++ second).map Value.plain := by
  rw [Action.list_append_stored, here, there, List.map_append]

open ItemExpr.Action in
mutual

theorem change_stored (c : Change) (short : ∀ i ∈ c.indexes, Number.isWritable i = true) :
    valuesOf c.argument.toAction.calls = c.given.map Value.plain := by
  match c with
  | .put t => exact put_stored t
  | .set t => exact assigned_stored t
  | .setDefault t => exact (default_stored _).trans (value_operand_stored t)
  | .remove => rfl
  | .arithmetic left _ right | .add left right | .subtract left right =>
      exact calculated_stored _ _ right _ (path_operand_or_stored left)
  | .increment t | .decrement t => exact calculated_stored none _ t [] rfl
  | .listAppend left right | .join left right =>
      exact listed_stored _ _ _ _ (path_operand_or_stored left) (path_operand_or_stored right)
  | .append t => exact listed_stored none _ [] _ rfl (path_operand_or_stored t)
  | .prepend t =>
      have stored := listed_stored _ none _ [] (path_operand_or_stored t) rfl
      rwa [List.append_nil] at stored
  | .removeIndexes indexes => exact remove_indexes_stored indexes
  | .assignIndexes entries =>
      refine (assign_indexes_stored _ ?_).trans ?_
      · intro entry present
        obtain ⟨⟨i, t⟩, inside, rfl⟩ := List.mem_map.mp present
        exact short i (List.mem_map_of_mem (f := Prod.fst) inside)
      · rw [given, List.map_flatMap, List.flatMap_map]
        exact List.flatMap_congr fun entry _ => value_operand_stored entry.2
  | .addElements t | .deleteElements t => exact elements_stored t _
  | .map entries => exact changes_stored entries short
  | .modelMap groups => exact change_groups_stored groups short

theorem changes_stored (entries : List (String × Change))
    (short : ∀ i ∈ indexesEach entries, Number.isWritable i = true) :
    valuesOf (entriesCalls (actions entries)) = (givenEach entries).map Value.plain := by
  match entries with
  | [] => rfl
  | (path, c) :: rest =>
      rw [indexesEach, List.forall_mem_append] at short
      have first := change_stored c short.1
      have others := changes_stored rest short.2
      rw [givenEach, List.map_append, ← first, ← others, ← values_append]
      change valuesOf (entriesCalls ((path, c.argument.toAction) :: actions rest)) = _
      by_cases skipped : c.argument.toAction = .skip
      · rw [skipped]
        rfl
      · rw [entries_calls_cons _ _ _ skipped]
        rfl

theorem change_groups_stored (groups : List (String × List (String × Change)))
    (short : ∀ i ∈ indexesGroups groups, Number.isWritable i = true) :
    valuesOf (groupsCalls ((sources groups).map fun (path, source) => (path, source.actions))) =
      (givenGroups groups).map Value.plain := by
  match groups with
  | [] => rfl
  | (path, entries) :: rest =>
      rw [indexesGroups, List.forall_mem_append] at short
      have first := changes_stored entries short.1
      have others := change_groups_stored rest short.2
      rw [givenGroups, List.map_append, ← first, ← others, ← values_append]
      rfl

end

end Change

end ItemExpr
