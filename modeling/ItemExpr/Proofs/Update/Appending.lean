import ItemExpr.Proofs.Entering

set_option autoImplicit false

namespace ItemExpr

variable {V : Type}

def Operand.paths : Operand V → List String
  | .literal _ => []
  | .path p => [p]
  | .pathOr p _ => [p]

namespace Action

mutual

def paths : Action V → List String
  | .skip => []
  | .remove => []
  | .assign o => o.paths
  | .assignDefault o => o.paths
  | .arithmetic left _ right => left.toList.flatMap Operand.paths ++ right.paths
  | .listAppend left right =>
      left.toList.flatMap Operand.paths ++ right.toList.flatMap Operand.paths
  | .removeIndexes _ => []
  | .assignIndexes entries => entries.flatMap fun entry => entry.2.paths
  | .addElements o => o.paths
  | .deleteElements o => o.paths
  | .nested entries => pathsEach entries
  | .keyed groups => pathsGroups groups

def pathsEach : List (String × Action V) → List String
  | [] => []
  | (key, a) :: rest => key :: (a.paths ++ pathsEach rest)

def pathsGroups : List (String × List (String × Action V)) → List String
  | [] => []
  | (key, entries) :: rest => key :: (pathsEach entries ++ pathsGroups rest)

end

end Action

namespace Workspace

theorem clauses_ext (cs ds : Clauses) (each : ∀ group, cs.get group = ds.get group) : cs = ds := by
  obtain ⟨set, remove, add, delete⟩ := cs
  obtain ⟨set', remove', add', delete'⟩ := ds
  simp only [Clauses.mk.injEq]
  exact ⟨each .set, each .remove, each .add, each .delete⟩

theorem expression_none_iff (cs : Clauses) :
    cs.expression? = none ↔ ∀ group, cs.get group = [] := by
  have whole : cs.expression? = none ↔ Group.inOrder.filterMap cs.groupFragment? = [] := by
    rw [Clauses.expression?]
    cases Group.inOrder.filterMap cs.groupFragment? <;> simp
  rw [whole, List.filterMap_eq_nil_iff]
  constructor
  · intro none group
    have absent := none group (by cases group <;> simp [Group.inOrder])
    simpa [Clauses.groupFragment?] using absent
  · intro empty group _
    simp [Clauses.groupFragment?, empty group]

def Appends (IsClause : Fragment → Prop) (w w' : Workspace V) : Prop :=
  ∀ group, ∃ added, w'.update.get group = w.update.get group ++ added ∧ ∀ f ∈ added, IsClause f

section Appends

variable (IsClause : Fragment → Prop)

theorem appends_same (w w' : Workspace V) (same : w'.update = w.update) : Appends IsClause w w' := by
  intro group
  exact ⟨[], by rw [same, List.append_nil], by simp⟩

theorem appends_trans (w w' w'' : Workspace V) (first : Appends IsClause w w')
    (second : Appends IsClause w' w'') : Appends IsClause w w'' := by
  intro group
  obtain ⟨added, shape, clauses⟩ := first group
  obtain ⟨others, behind, more⟩ := second group
  refine ⟨added ++ others, by rw [behind, shape, List.append_assoc], ?_⟩
  intro f present
  exact (List.mem_append.mp present).elim (clauses f) (more f)

theorem push_appends (w : Workspace V) (t : Table V) (group : Group) (f : Fragment)
    (clause : IsClause f) :
    Appends IsClause w { w with table := t, update := w.update.push group f } := by
  intro other
  by_cases same : other = group
  · subst same
    exact ⟨[f], Clauses.get_push_self _ _ _, by simpa using clause⟩
  · exact ⟨[], by rw [Clauses.get_push_other _ _ _ _ same, List.append_nil], by simp⟩

end Appends

structure Form (V : Type) where
  IsTable : Table V → Prop
  IsPath : String → Prop
  IsTarget : Fragment → Prop
  IsClause : Fragment → Prop
  enter : ∀ t call, IsTable t → IsTable (t.enter call)
  path : ∀ t p, IsTable t → IsPath p → IsTarget (t.addPath p).1
  inside : ∀ under path, IsTarget under → IsTarget path → IsTarget (within under path)
  clause : ∀ (a : Action V) (target : Fragment) (t t' : Table V) (f : Fragment),
    (∀ p ∈ a.paths, IsPath p) → IsTarget target → IsTable t →
      ∀ made ∈ a.clauses, made.2.run target t = (.ok f, t') → IsClause f

section Form

variable (form : Form V)

theorem form_enters (t t' : Table V) (enters : Enters t t') (table : form.IsTable t) :
    form.IsTable t' := by
  obtain ⟨calls, rfl⟩ := enters
  induction calls generalizing t with
  | nil => exact table
  | cons call rest ih => exact ih (t.enter call) (form.enter t call table)

theorem add_clauses_append (a : Action V) (target : Fragment) (paths : ∀ p ∈ a.paths, form.IsPath p)
    (isTarget : form.IsTarget target) (clauses : List (Group × Script V))
    (own : ∀ made ∈ clauses, made ∈ a.clauses) (w : Workspace V) (table : form.IsTable w.table) :
    Appends form.IsClause w (addClauses target clauses w).2 := by
  induction clauses generalizing w with
  | nil => exact appends_same _ w w rfl
  | cons made rest ih =>
      obtain ⟨group, s⟩ := made
      rw [List.forall_mem_cons] at own
      have enters := run_enters s target w.table
      cases ran : s.run target w.table with
      | mk result t =>
          rw [ran] at enters
          have later := form_enters form _ t enters table
          cases result with
          | error e =>
              simpa only [addClauses, runScript, ran] using
                appends_same _ w { w with table := t } rfl
          | ok f =>
              have here := form.clause a target w.table t f paths isTarget table _ own.1 ran
              simpa only [addClauses, runScript, ran] using
                appends_trans _ _ _ _ (push_appends _ w t group f here)
                  (ih own.2 { w with table := t, update := w.update.push group f } later)

theorem then_appends (w : Workspace V) (first : Option Fault × Workspace V)
    (next : Workspace V → Option Fault × Workspace V) (here : Appends form.IsClause w first.2)
    (there : Appends form.IsClause first.2 (next first.2).2) :
    Appends form.IsClause w (andThen first next).2 := by
  obtain ⟨fault, w'⟩ := first
  cases fault with
  | some e => exact here
  | none => exact appends_trans _ _ _ _ here there

theorem entry_form (w : Workspace V) (table : form.IsTable w.table) (under : Fragment)
    (outer : under = [] ∨ form.IsTarget under) (path : String) (allowed : form.IsPath path) :
    form.IsTarget
      (if under.text = "" then (w.addPath path).1 else within under (w.addPath path).1) := by
  have inner : form.IsTarget (w.addPath path).1 := form.path w.table path table allowed
  by_cases top : under.text = ""
  · rwa [if_pos top]
  · rw [if_neg top]
    rcases outer with rfl | isTarget
    · exact absurd Fragment.text_nil top
    · exact form.inside under _ isTarget inner

mutual

theorem apply_appends (a : Action V) (paths : ∀ p ∈ a.paths, form.IsPath p) (target : Fragment)
    (isTarget : form.IsTarget target) (w : Workspace V) (table : form.IsTable w.table) :
    Appends form.IsClause w (apply target a w).2 := by
  cases a with
  | nested entries => exact entries_append entries paths target (.inr isTarget) w table
  | keyed groups => exact groups_append groups paths target isTarget w table
  | _ => exact add_clauses_append form _ target paths isTarget _ (fun _ present => present) w table

theorem entries_append (entries : List (String × Action V))
    (paths : ∀ p ∈ Action.pathsEach entries, form.IsPath p) (under : Fragment)
    (outer : under = [] ∨ form.IsTarget under) (w : Workspace V) (table : form.IsTable w.table) :
    Appends form.IsClause w (applyEntries under entries w).2 := by
  match entries with
  | [] => exact appends_same _ w w rfl
  | (key, a) :: rest =>
      rw [Action.pathsEach, List.forall_mem_cons, List.forall_mem_append] at paths
      obtain ⟨allowed, inner, others⟩ := paths
      by_cases skipped : a = .skip
      · subst skipped
        exact entries_append rest others under outer w table
      · rw [apply_entries_cons under key a rest w skipped]
        have entered := form_enters form _ _ (enters_path w.table key) table
        have isTarget := entry_form form w table under outer key allowed
        have here := apply_appends a inner _ isTarget (w.addPath key).2 entered
        refine then_appends form w _ _
          (appends_trans _ _ _ _ (appends_same _ w (w.addPath key).2 rfl) here) ?_
        exact entries_append rest others under outer _
          (form_enters form _ _ (apply_enters a _ (w.addPath key).2) entered)

theorem groups_append (groups : List (String × List (String × Action V)))
    (paths : ∀ p ∈ Action.pathsGroups groups, form.IsPath p) (under : Fragment)
    (outer : form.IsTarget under) (w : Workspace V) (table : form.IsTable w.table) :
    Appends form.IsClause w (applyGroups under groups w).2 := by
  match groups with
  | [] => exact appends_same _ w w rfl
  | (key, entries) :: rest =>
      rw [Action.pathsGroups, List.forall_mem_cons, List.forall_mem_append] at paths
      obtain ⟨allowed, inner, others⟩ := paths
      rw [apply_groups_cons under key entries rest w]
      have entered := form_enters form _ _ (enters_path w.table key) table
      have isTarget := form.inside under _ outer (form.path w.table key table allowed)
      have here := entries_append entries inner _ (.inr isTarget) (w.addPath key).2 entered
      refine then_appends form w _ _
        (appends_trans _ _ _ _ (appends_same _ w (w.addPath key).2 rfl) here) ?_
      exact groups_append rest others under outer _
        (form_enters form _ _ (entries_enter entries _ (w.addPath key).2) entered)

end

end Form
end Workspace
end ItemExpr
