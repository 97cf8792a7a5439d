import ItemExpr.Proofs.Update.Compile

set_option autoImplicit false

namespace ItemExpr

variable {V : Type}

theorem index_sound (i : Int) (short : Number.isWritable i = true) :
    (Script.index i : Script V).fault = none := by
  rw [Script.index, if_pos short]
  rfl

namespace Operand

theorem operand_sound (o : Operand V) : o.script.fault = none := by
  cases o <;> rfl

theorem operand_or_self_sound (o : Option (Operand V)) : (scriptOrSelf o).fault = none := by
  cases o with
  | none => rfl
  | some o => exact operand_sound o

end Operand

namespace Action

theorem clauses_sound (a : Action V) (short : a.HasShortIndexes) :
    ∀ clause ∈ a.clauses, clause.2.fault = none := by
  intro clause present
  have self : (Script.self : Script V).fault = none := rfl
  have text (s : String) : (Script.text s : Script V).fault = none := rfl
  cases a with
  | skip => simp [clauses] at present
  | remove =>
      rw [List.mem_singleton.mp present]
      exact self
  | assign o =>
      rw [List.mem_singleton.mp present]
      exact append_sound _ _ (append_sound _ _ self (text _)) o.operand_sound
  | assignDefault o =>
      rw [List.mem_singleton.mp present]
      have front : (Script.self ++ Script.text " = if_not_exists(" ++ Script.self ++
          Script.text ", " : Script V).fault = none := rfl
      exact append_sound _ _ (append_sound _ _ front o.operand_sound) (text _)
  | arithmetic left sign right =>
      rw [List.mem_singleton.mp present]
      have front := append_sound _ _ (append_sound _ _ self (text " = "))
        (Operand.operand_or_self_sound left)
      exact append_sound _ _ (append_sound _ _ front (text _)) right.operand_sound
  | listAppend left right =>
      rw [List.mem_singleton.mp present]
      have front := append_sound _ _ (append_sound _ _ self (text " = list_append("))
        (Operand.operand_or_self_sound left)
      have middle := append_sound _ _ (append_sound _ _ front (text ", "))
        (Operand.operand_or_self_sound right)
      exact append_sound _ _ middle (text _)
  | removeIndexes indexes =>
      obtain ⟨i, inside, rfl⟩ := List.mem_map.mp present
      exact append_sound _ _ self (index_sound i (short i inside))
  | assignIndexes entries =>
      obtain ⟨⟨i, o⟩, inside, rfl⟩ := List.mem_map.mp present
      have front := append_sound _ _ self (index_sound i (short (i, o) inside))
      exact append_sound _ _ (append_sound _ _ front (text _)) o.operand_sound
  | addElements o =>
      rw [List.mem_singleton.mp present]
      exact append_sound _ _ (append_sound _ _ self (text _)) o.operand_sound
  | deleteElements o =>
      rw [List.mem_singleton.mp present]
      exact append_sound _ _ (append_sound _ _ self (text _)) o.operand_sound
  | nested entries => simp [clauses] at present
  | keyed groups => simp [clauses] at present

end Action

namespace Workspace

theorem add_clauses_sound (target : Fragment) (clauses : List (Group × Script V))
    (sound : ∀ clause ∈ clauses, clause.2.fault = none) (w : Workspace V) :
    (addClauses target clauses w).1 = none := by
  induction clauses generalizing w with
  | nil => rfl
  | cons clause rest ih =>
      obtain ⟨group, s⟩ := clause
      rw [List.forall_mem_cons] at sound
      have here : s.fault = none := sound.1
      rw [addClauses, runScript, Script.run, here]
      exact ih sound.2 _

theorem then_sound (first : Option Fault × Workspace V)
    (next : Workspace V → Option Fault × Workspace V) (here : first.1 = none)
    (there : ∀ w, (next w).1 = none) : (andThen first next).1 = none := by
  obtain ⟨fault, w⟩ := first
  subst here
  exact there w

open ItemExpr.Action in
mutual

theorem apply_sound (a : Action V) (short : a.HasShortIndexes) (target : Fragment)
    (w : Workspace V) : (apply target a w).1 = none := by
  match a with
  | .nested entries => exact entries_sound entries short target w
  | .keyed groups => exact groups_sound groups short target w
  | .skip => exact add_clauses_sound target _ (clauses_sound _ short) w
  | .remove => exact add_clauses_sound target _ (clauses_sound _ short) w
  | .assign _ => exact add_clauses_sound target _ (clauses_sound _ short) w
  | .assignDefault _ => exact add_clauses_sound target _ (clauses_sound _ short) w
  | .arithmetic _ _ _ => exact add_clauses_sound target _ (clauses_sound _ short) w
  | .listAppend _ _ => exact add_clauses_sound target _ (clauses_sound _ short) w
  | .removeIndexes _ => exact add_clauses_sound target _ (clauses_sound _ short) w
  | .assignIndexes _ => exact add_clauses_sound target _ (clauses_sound _ short) w
  | .addElements _ => exact add_clauses_sound target _ (clauses_sound _ short) w
  | .deleteElements _ => exact add_clauses_sound target _ (clauses_sound _ short) w

theorem entries_sound (entries : List (String × Action V)) (short : HaveShortIndexes entries)
    (under : Fragment) (w : Workspace V) : (applyEntries under entries w).1 = none := by
  match entries with
  | [] => rfl
  | (path, a) :: rest =>
      by_cases skipped : a = .skip
      · subst skipped
        exact entries_sound rest short.2 under w
      · rw [apply_entries_cons under path a rest w skipped]
        exact then_sound _ _ (apply_sound a short.1 _ _) fun w => entries_sound rest short.2 under w

theorem groups_sound (groups : List (String × List (String × Action V)))
    (short : GroupsHaveShortIndexes groups) (under : Fragment) (w : Workspace V) :
    (applyGroups under groups w).1 = none := by
  match groups with
  | [] => rfl
  | (path, entries) :: rest =>
      rw [apply_groups_cons]
      exact then_sound _ _ (entries_sound entries short.1 _ _) fun w =>
        groups_sound rest short.2 under w

end

section Faults

theorem add_clauses_fault (target : Fragment) (clauses : List (Group × Script V))
    (w : Workspace V) :
    (addClauses target clauses w).1 = clauses.findSome? fun clause => clause.2.fault := by
  induction clauses generalizing w with
  | nil => rfl
  | cons clause rest ih =>
      obtain ⟨group, s⟩ := clause
      rw [addClauses, runScript, Script.run, List.findSome?_cons]
      cases s.fault with
      | some e => rfl
      | none => exact ih _

theorem then_fault (first first' : Option Fault × Workspace V)
    (next next' : Workspace V → Option Fault × Workspace V) (here : first.1 = first'.1)
    (there : ∀ w w', (next w).1 = (next' w').1) :
    (andThen first next).1 = (andThen first' next').1 := by
  obtain ⟨fault, w⟩ := first
  obtain ⟨fault', w'⟩ := first'
  obtain rfl : fault = fault' := here
  cases fault with
  | some e => rfl
  | none => exact there w w'

mutual

theorem apply_fault (a : Action V) (target target' : Fragment) (w w' : Workspace V) :
    (apply target a w).1 = (apply target' a w').1 := by
  cases a with
  | nested entries => exact entries_fault entries target target' w w'
  | keyed groups => exact groups_fault groups target target' w w'
  | _ => exact (add_clauses_fault target _ w).trans (add_clauses_fault target' _ w').symm

theorem entries_fault (entries : List (String × Action V)) (under under' : Fragment)
    (w w' : Workspace V) :
    (applyEntries under entries w).1 = (applyEntries under' entries w').1 := by
  match entries with
  | [] => rfl
  | (path, a) :: rest =>
      by_cases skipped : a = .skip
      · subst skipped
        exact entries_fault rest under under' w w'
      · rw [apply_entries_cons under path a rest w skipped,
          apply_entries_cons under' path a rest w' skipped]
        exact then_fault _ _ _ _ (apply_fault a _ _ _ _) fun w w' =>
          entries_fault rest under under' w w'

theorem groups_fault (groups : List (String × List (String × Action V))) (under under' : Fragment)
    (w w' : Workspace V) : (applyGroups under groups w).1 = (applyGroups under' groups w').1 := by
  match groups with
  | [] => rfl
  | (path, entries) :: rest =>
      rw [apply_groups_cons, apply_groups_cons]
      exact then_fault _ _ _ _ (entries_fault entries _ _ _ _) fun w w' =>
        groups_fault rest under under' w w'

end

end Faults

end Workspace
end ItemExpr
