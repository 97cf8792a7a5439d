import ItemExpr.Proofs.Request.Fields
import ItemExpr.Proofs.Request.Linked

set_option autoImplicit false

namespace ItemExpr

variable {V X : Type}

def Enters (t t' : Table V) : Prop := ∃ calls, t.enterAll calls = t'

theorem enters_refl (t : Table V) : Enters t t := ⟨[], rfl⟩

theorem enters_trans (t t' t'' : Table V) (first : Enters t t') (second : Enters t' t'') :
    Enters t t'' := by
  obtain ⟨calls, rfl⟩ := first
  obtain ⟨others, rfl⟩ := second
  exact ⟨calls ++ others, List.foldl_append⟩

theorem enters_path (t : Table V) (p : String) : Enters t (t.addPath p).2 := ⟨[.path p], rfl⟩

theorem enters_extends (t t' : Table V) (coherent : Coherent t) (enters : Enters t t') :
    Extends t t' := by
  obtain ⟨calls, rfl⟩ := enters
  exact enter_all_extends t coherent calls

theorem enters_reached (o : Options) (t t' : Table V) (reached : t.Reached o)
    (enters : Enters t t') : t'.Reached o := by
  obtain ⟨calls, rfl⟩ := enters
  induction calls generalizing t with
  | nil => exact reached
  | cons call rest ih => exact ih (t.enter call) (.enter t call reached)

theorem write_item_enters (t : Table V) (self : Fragment) (item : Item V) :
    Enters t (t.writeItem self item).2 := by
  cases item with
  | text s => exact enters_refl t
  | path p => exact enters_path t p
  | value v => exact ⟨[.value v], rfl⟩
  | self => exact enters_refl t

theorem write_enters (t : Table V) (self : Fragment) (items : List (Item V)) :
    Enters t (t.write self items).2 := by
  induction items generalizing t with
  | nil => exact enters_refl t
  | cons item rest ih => exact enters_trans _ _ _ (write_item_enters t self item) (ih _)

theorem run_enters (s : Script V) (target : Fragment) (t : Table V) :
    Enters t (s.run target t).2 := by
  have written := write_enters t target s.items
  cases fault : s.fault with
  | none => simpa only [Script.run, fault] using written
  | some e => simpa only [Script.run, fault] using written

namespace Workspace

section Updates

theorem add_clauses_enters (target : Fragment) (clauses : List (Group × Script V))
    (w : Workspace V) : Enters w.table (addClauses target clauses w).2.table := by
  induction clauses generalizing w with
  | nil => exact enters_refl w.table
  | cons clause rest ih =>
      obtain ⟨group, s⟩ := clause
      have first := run_enters s target w.table
      cases run : s.run target w.table with
      | mk result t =>
          rw [run] at first
          cases result with
          | error e => simpa only [addClauses, runScript, run] using first
          | ok f =>
              have others := ih { w with table := t, update := w.update.push group f }
              simpa only [addClauses, runScript, run] using enters_trans _ _ _ first others

theorem then_enters (w : Workspace V) (first : Option Fault × Workspace V)
    (next : Workspace V → Option Fault × Workspace V) (here : Enters w.table first.2.table)
    (there : ∀ w : Workspace V, Enters w.table (next w).2.table) :
    Enters w.table (andThen first next).2.table := by
  obtain ⟨fault, w'⟩ := first
  cases fault with
  | some e => exact here
  | none => exact enters_trans _ _ _ here (there w')

mutual

theorem apply_enters (a : Action V) (target : Fragment) (w : Workspace V) :
    Enters w.table (apply target a w).2.table := by
  cases a with
  | nested entries => exact entries_enter entries target w
  | keyed groups => exact groups_enter groups target w
  | _ => exact add_clauses_enters target _ w

theorem entries_enter (entries : List (String × Action V)) (under : Fragment) (w : Workspace V) :
    Enters w.table (applyEntries under entries w).2.table := by
  match entries with
  | [] => exact enters_refl w.table
  | (key, a) :: rest =>
      by_cases skipped : a = .skip
      · subst skipped
        exact entries_enter rest under w
      · rw [apply_entries_cons under key a rest w skipped]
        exact then_enters w _ _
          (enters_trans _ _ _ (enters_path w.table key) (apply_enters a _ (w.addPath key).2))
          (entries_enter rest under)

theorem groups_enter (groups : List (String × List (String × Action V))) (under : Fragment)
    (w : Workspace V) : Enters w.table (applyGroups under groups w).2.table := by
  match groups with
  | [] => exact enters_refl w.table
  | (key, entries) :: rest =>
      rw [apply_groups_cons under key entries rest w]
      exact then_enters w _ _
        (enters_trans _ _ _ (enters_path w.table key) (entries_enter entries _ (w.addPath key).2))
        (groups_enter rest under)

end

theorem update_enters (entries : List (String × Action V)) (params : Params V X)
    (w : Workspace V) : Enters w.table (w.addUpdateParam entries params).2.table := by
  have applied := entries_enter entries [] w
  rw [addUpdateParam, buildUpdate]
  generalize applyEntries [] entries w = made at applied ⊢
  obtain ⟨fault, after⟩ := made
  cases fault with
  | some e => exact applied
  | none =>
      simp only
      generalize after.updateExpression? = written
      cases written <;> exact applied

end Updates

theorem keys_enter (entries : List (String × KeyClause V)) (w : Workspace V) :
    Enters w.table (entries.foldl (fun w (name, c) => w.addClause name c) w).table := by
  induction entries generalizing w with
  | nil => exact enters_refl w.table
  | cons entry rest ih =>
      obtain ⟨name, c⟩ := entry
      have first := write_enters w.table [] (c.items name)
      rw [← (add_clause_frame w name c).1] at first
      exact enters_trans _ _ _ first (ih (w.addClause name c))

theorem conditions_enter (field : String) (cs : List (Condition V)) (params : Params V X)
    (w : Workspace V) : Enters w.table (w.addConditions field cs params).2.table := by
  by_cases empty : cs.isEmpty = true
  · rw [addConditions, if_pos empty]
    exact enters_refl w.table
  · rw [addConditions, if_neg empty]
    exact run_enters _ [] w.table

end Workspace

theorem Request.expressions_enter (r : Request V) (w : Workspace V) :
    Enters w.table (r.expressions (X := X) w).2.table := by
  have keys : Enters w.table (r.keyParams (X := X) w).2.table := by
    cases given : r.key with
    | none =>
        rw [keyParams, given]
        exact enters_refl w.table
    | some entries =>
        rw [keyParams, given]
        by_cases empty : entries.isEmpty = true
        · simpa [Workspace.addKeyParam, empty] using enters_refl w.table
        · simp only [Workspace.addKeyParam, empty]
          exact Workspace.keys_enter entries w
  have updated (params : Params V X) (w : Workspace V) :
      Enters w.table (r.updateParams params w).2.table := by
    cases given : r.update with
    | none =>
        rw [updateParams, given]
        exact enters_refl w.table
    | some entries =>
        rw [updateParams, given]
        exact Workspace.update_enters entries params w
  have front := enters_trans _ _ _ keys
    (updated (r.keyParams (X := X) w).1 (r.keyParams (X := X) w).2)
  rw [expressions_eq]
  generalize r.updateParams (r.keyParams (X := X) w).1 (r.keyParams (X := X) w).2 = made at front ⊢
  obtain ⟨result, w₂⟩ := made
  cases result with
  | error e => exact front
  | ok p₂ =>
      have middle := enters_trans _ _ _ front
        (Workspace.conditions_enter "ConditionExpression" r.conditions p₂ w₂)
      simp only
      generalize w₂.addConditions "ConditionExpression" r.conditions p₂ = asked at middle ⊢
      obtain ⟨result, w₃⟩ := asked
      cases result with
      | error e => exact middle
      | ok p₃ =>
          exact enters_trans _ _ _ middle
            (Workspace.conditions_enter "FilterExpression" r.filters p₃ w₃)

theorem request_reached (text : V → Option String) (convert : Option (Converter V)) (o : Options)
    (w : Workspace V) (reached : w.table.Reached o) (r : Request V) :
    (w.requestParams (X := X) text convert r).2.table.Reached o := by
  have entered := r.expressions_enter (X := X) { table := w.table, log := w.log }
  apply enters_reached o w.table _ reached
  rw [Workspace.requestParams, Request.params]
  generalize r.expressions (X := X) { table := w.table, log := w.log } = made at entered ⊢
  obtain ⟨result, after⟩ := made
  cases result with
  | error e => exact entered
  | ok params =>
      simp only
      generalize convertValues convert after.table (after.table.addParams params) = converted
      cases converted <;> exact entered

end ItemExpr
