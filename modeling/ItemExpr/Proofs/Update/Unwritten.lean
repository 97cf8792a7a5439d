import ItemExpr.Proofs.Table.Numbering
import ItemExpr.Proofs.Table.Unchanged
import ItemExpr.Proofs.Update.Appending
import ItemExpr.Proofs.Update.Sound
import ItemExpr.Update.Builders

set_option autoImplicit false

namespace ItemExpr

variable {V X : Type}

namespace Action

def follow (key : String) (first others : List String × Bool) : List String × Bool :=
  if first.2 then (key :: first.1, true) else (key :: (first.1 ++ others.1), others.2)

mutual

def touched : Action V → List String × Bool
  | .nested entries => touchedEach entries
  | .keyed groups => touchedGroups groups
  | a => ([], !a.clauses.isEmpty)

def touchedEach : List (String × Action V) → List String × Bool
  | [] => ([], false)
  | (_, .skip) :: rest => touchedEach rest
  | (key, a) :: rest => follow key a.touched (touchedEach rest)

def touchedGroups : List (String × List (String × Action V)) → List String × Bool
  | [] => ([], false)
  | (key, entries) :: rest => follow key (touchedEach entries) (touchedGroups rest)

end

theorem touched_cons (key : String) (a : Action V) (rest : List (String × Action V))
    (kept : a ≠ .skip) :
    touchedEach ((key, a) :: rest) = follow key a.touched (touchedEach rest) := by
  cases a with
  | skip => exact absurd rfl kept
  | _ => rfl

theorem follow_ne_nil (key : String) (first others : List String × Bool) :
    (follow key first others).1 ≠ [] := by
  rw [follow]
  split <;> exact List.cons_ne_nil _ _

theorem index_prompt (i : Int) :
    (Script.self ++ .index i : Script V).fault = none ∨
      (Script.self ++ .index i : Script V) = ⟨[.self], some .longIndex⟩ := by
  by_cases short : Number.isWritable i = true
  · exact .inl (append_sound _ _ rfl (index_sound i short))
  · have shape : (Script.index i : Script V) = .fail .longIndex := by simp [Script.index, short]
    rw [shape]
    exact .inr rfl

-- A clause that cannot be written is given up before it has entered anything.
theorem clauses_prompt (a : Action V) :
    ∀ made ∈ a.clauses, made.2.fault = none ∨ made.2.items = [.self] := by
  intro made present
  cases a with
  | removeIndexes indexes =>
      obtain ⟨i, _, rfl⟩ := List.mem_map.mp present
      exact (index_prompt i).imp id (congrArg Script.items)
  | assignIndexes entries =>
      obtain ⟨⟨i, o⟩, _, rfl⟩ := List.mem_map.mp present
      have behind : (Script.text " = " ++ o.script).fault = none :=
        append_sound _ _ rfl o.operand_sound
      simp only [Script.append_assoc (Script.self ++ .index i)]
      rcases index_prompt (V := V) i with sound | stopped
      · exact .inl (append_sound _ _ sound behind)
      · rw [stopped, Script.append_of_fault _ _ _ rfl]
        exact .inr rfl
  | nested entries => simp [clauses] at present
  | keyed groups => simp [clauses] at present
  | _ => exact .inl (clauses_sound _ (by exact trivial) made present)

end Action

namespace Workspace

def enterPaths (w : Workspace V) (keys : List String) : Workspace V :=
  { w with table := w.table.enterAll (keys.map .path) }

theorem enter_paths_append (w : Workspace V) (keys others : List String) :
    (w.enterPaths keys).enterPaths others = w.enterPaths (keys ++ others) := by
  simp [enterPaths, Table.enterAll]

def anyForm : Form V where
  IsTable := fun _ => True
  IsPath := fun _ => True
  IsTarget := fun _ => True
  IsClause := fun _ => True
  enter := fun _ _ _ => trivial
  path := fun _ _ _ _ => trivial
  inside := fun _ _ _ _ => trivial
  clause := fun _ _ _ _ _ _ _ _ _ _ _ => trivial

theorem appends_back (IsClause : Fragment → Prop) (w w' w'' : Workspace V)
    (first : Appends IsClause w w') (second : Appends IsClause w' w'')
    (same : w''.update = w.update) : w'.update = w.update := by
  apply clauses_ext
  intro group
  obtain ⟨added, here, _⟩ := first group
  obtain ⟨others, there, _⟩ := second group
  rw [same, here, List.append_assoc] at there
  have none := List.append_eq_nil_iff.mp (List.self_eq_append_right.mp there)
  rw [here, none.1, List.append_nil]

def LeavesUnwritten (w : Workspace V) (made : Option Fault × Workspace V)
    (touched : List String × Bool) : Prop :=
  made.2.update = w.update → made.2 = w.enterPaths touched.1 ∧ made.1.isSome = touched.2

theorem leaf_unwritten (a : Action V) (target : Fragment) (w : Workspace V) :
    LeavesUnwritten w (addClauses target a.clauses w) ([], !a.clauses.isEmpty) := by
  intro unwritten
  have prompt := a.clauses_prompt
  have own : ∀ made ∈ a.clauses, made ∈ a.clauses := fun _ present => present
  generalize shape : a.clauses = clauses at unwritten prompt
  rw [shape] at own
  cases clauses with
  | nil => exact ⟨rfl, rfl⟩
  | cons made rest =>
      obtain ⟨group, s⟩ := made
      rw [List.forall_mem_cons] at prompt own
      cases fault : s.fault with
      | some e =>
          have items : s.items = [.self] := prompt.1.resolve_left (by simp [fault])
          have ran : s.run target w.table = (.error e, w.table) := by
            simp [Script.run, fault, items, Table.write, Table.writeItem]
          simp only [addClauses, runScript, ran]
          exact ⟨rfl, rfl⟩
      | none =>
          have ran : s.run target w.table =
              (.ok (w.table.write target s.items).1, (w.table.write target s.items).2) := by
            simp [Script.run, fault]
          simp only [addClauses, runScript, ran] at unwritten
          -- The clause that was written is not taken back by those after it.
          have here := push_appends (fun _ => True) w (w.table.write target s.items).2 group
            (w.table.write target s.items).1 trivial
          have there (w : Workspace V) : Appends (fun _ => True) w (addClauses target rest w).2 :=
            add_clauses_append anyForm a target (fun _ _ => trivial) trivial rest
              (by rw [shape]; exact own.2) w trivial
          have same := appends_back (fun _ => True) _ _ _ here (there _) unwritten
          have longer := congrArg (fun cs => (cs.get group).length) same
          simp [Clauses.get_push_self] at longer

theorem then_unwritten (w : Workspace V) (key : String) (first : Option Fault × Workspace V)
    (next : Workspace V → Option Fault × Workspace V) (touched others : List String × Bool)
    (below : Appends (fun _ => True) (w.addPath key).2 first.2)
    (behind : ∀ w, Appends (fun _ => True) w (next w).2)
    (here : LeavesUnwritten (w.addPath key).2 first touched)
    (there : ∀ w, LeavesUnwritten w (next w) others) :
    LeavesUnwritten w (andThen first next) (Action.follow key touched others) := by
  obtain ⟨fault, w'⟩ := first
  cases fault with
  | some e =>
      intro unwritten
      obtain ⟨entered, stopped⟩ := here unwritten
      have met : touched.2 = true := stopped.symm
      rw [Action.follow, if_pos met]
      exact ⟨entered, rfl⟩
  | none =>
      intro unwritten
      obtain ⟨entered, went⟩ := here (appends_back _ _ _ _ below (behind w') unwritten)
      dsimp only at entered
      subst entered
      obtain ⟨more, stopped⟩ := there _ unwritten
      rw [Action.follow, if_neg (by rw [← went]; simp)]
      exact ⟨more.trans (enter_paths_append _ _ _), stopped⟩

theorem any_entries_append (entries : List (String × Action V)) (under : Fragment)
    (w : Workspace V) : Appends (fun _ => True) w (applyEntries under entries w).2 :=
  entries_append anyForm entries (fun _ _ => trivial) under (.inr trivial) w trivial

mutual

theorem apply_unwritten (a : Action V) (target : Fragment) (w : Workspace V) :
    LeavesUnwritten w (apply target a w) a.touched := by
  cases a with
  | nested entries => exact entries_unwritten entries target w
  | keyed groups => exact groups_unwritten groups target w
  | _ => exact leaf_unwritten _ target w

theorem entries_unwritten (entries : List (String × Action V)) (under : Fragment)
    (w : Workspace V) :
    LeavesUnwritten w (applyEntries under entries w) (Action.touchedEach entries) := by
  match entries with
  | [] => exact fun _ => ⟨rfl, rfl⟩
  | (key, a) :: rest =>
      by_cases skipped : a = .skip
      · subst skipped
        exact entries_unwritten rest under w
      · rw [apply_entries_cons under key a rest w skipped, Action.touched_cons key a rest skipped]
        exact then_unwritten w key _ _ _ _
          (apply_appends anyForm a (fun _ _ => trivial) _ trivial _ trivial)
          (any_entries_append rest under)
          (apply_unwritten a _ _) (entries_unwritten rest under)

theorem groups_unwritten (groups : List (String × List (String × Action V))) (under : Fragment)
    (w : Workspace V) :
    LeavesUnwritten w (applyGroups under groups w) (Action.touchedGroups groups) := by
  match groups with
  | [] => exact fun _ => ⟨rfl, rfl⟩
  | (key, entries) :: rest =>
      rw [apply_groups_cons under key entries rest w]
      exact then_unwritten w key _ _ _ _ (any_entries_append entries _ _)
        (fun w => groups_append anyForm rest (fun _ _ => trivial) under trivial w trivial)
        (entries_unwritten entries _ _) (groups_unwritten rest under)

end

theorem untouched_applied (entries : List (String × Action V)) (under : Fragment)
    (w : Workspace V) (untouched : (Action.touchedEach entries).1 = []) :
    applyEntries under entries w = (none, w) := by
  match entries with
  | [] => rfl
  | (key, a) :: rest =>
      by_cases skipped : a = .skip
      · subst skipped
        exact untouched_applied rest under w untouched
      · rw [Action.touched_cons key a rest skipped] at untouched
        exact absurd untouched (Action.follow_ne_nil _ _ _)

section Alone

variable (text : V → Option String) (convert : Option (Converter V))

theorem sent_nil_iff (t : Table V) (valueless : t.values = []) (params : Params V X) :
    convertValues convert t (t.addParams params) = .ok [] ↔ params = [] ∧ t.names = [] := by
  have sent : t.sentValues = none := by simp [Table.sentValues, valueless]
  have same : convertValues convert t (t.addParams params) = .ok (t.addParams params) := by
    cases convert <;> simp [convertValues, sent]
  rw [same, Except.ok.injEq]
  by_cases named : t.names = []
  · simp [Table.addParams, Table.sentNames, sent, named]
  · simp [Table.addParams, Table.sentNames, sent, named, put_ne_nil]

theorem keys_valueless (keys : List String) :
    (({ options := {} } : Table V).enterAll (keys.map .path)).values = [] := by
  have none : valuesOf (keys.map .path : List (Call V)) = [] := by simp [valuesOf]
  rw [(kept_entered {} (keys.map .path : List (Call V))).values, none]
  rfl

theorem keys_named (keys : List String)
    (unnamed : (({ options := {} } : Table V).enterAll (keys.map .path)).names = []) :
    keys = [] := by
  have entries := (counted_entered {} default_apart (keys.map .path : List (Call V))).entries
  rw [unnamed] at entries
  cases keys with
  | nil => rfl
  | cons key rest =>
      obtain ⟨s, more, shape⟩ := List.exists_cons_of_ne_nil (segments_ne_nil {} key)
      have counted : s.name ∈ Options.countedNames {}
          (namesOf {} ((key :: rest).map .path : List (Call V))) := by
        rw [Options.countedNames, List.mem_eraseDups]
        simp [namesOf, shape]
      rw [enter_all_options] at entries
      have none := List.map_eq_nil_iff.mp entries.symm
      rw [List.zipIdx_eq_nil_iff.mp none] at counted
      simp at counted

theorem clauses_sent (t : Table V) (params : Params V X) (present : params ≠ []) :
    convertValues convert t (t.addParams params) ≠ .ok [] := by
  intro empty
  have some : t.addParams params ≠ [] := by
    rw [Table.addParams]
    cases t.sentNames <;> cases t.sentValues <;> simp [present, put_ne_nil]
  rcases converted_cases convert t _ _ empty with ⟨same, _⟩ | ⟨_, _, _, _, same⟩
  · exact some same
  · exact put_ne_nil _ _ _ same

theorem params_sent (r : Request V) (w : Workspace V) (sent : Params V X) :
    (r.params text convert w).1 = .ok sent ↔
      ∃ params w', r.expressions w = (.ok params, w') ∧
        convertValues convert w'.table (w'.table.addParams params) = .ok sent := by
  rw [Request.params]
  cases made : r.expressions (X := X) w with
  | mk result w' =>
      cases result with
      | error e => simp
      | ok params =>
          cases converted : convertValues convert w'.table (w'.table.addParams params) with
          | error e => simp [converted]
          | ok wires => simp [converted]

theorem alone_expressions (entries : List (String × Action V)) (w : Workspace V) :
    ({ update := some entries } : Request V).expressions (X := X) w =
      w.addUpdateParam entries [] := by
  simp only [Request.expressions]
  cases w.addUpdateParam (X := X) entries [] with
  | mk result w' => cases result <;> rfl

theorem alone_params_nil (entries : List (String × Action V)) :
    (({ update := some entries } : Request V).params (X := X) text convert
        { table := { options := {} } }).1 = .ok [] ↔
      (Action.touchedEach entries).1 = [] := by
  have unwritten := entries_unwritten entries [] ({ table := { options := {} } } : Workspace V)
  have stay := untouched_applied entries [] ({ table := { options := {} } } : Workspace V)
  rw [params_sent, alone_expressions, addUpdateParam, buildUpdate]
  generalize applyEntries [] entries ({ table := { options := {} } } : Workspace V) = made
    at unwritten stay ⊢
  obtain ⟨fault, w⟩ := made
  cases fault with
  | some e =>
      have touched : (Action.touchedEach entries).1 ≠ [] := fun none => by simpa using stay none
      simpa using touched
  | none =>
      cases written : w.updateExpression? with
      | some f =>
          have touched : (Action.touchedEach entries).1 ≠ [] := by
            intro none
            have same : w = { table := { options := {} } } := congrArg Prod.snd (stay none)
            subst same
            exact Option.some_ne_none f written.symm
          simp only [written]
          simp [clauses_sent convert w.table _ (put_ne_nil _ _ _), touched]
      | none =>
          have empty := (expression_none_iff w.update).mp written
          have none : w.update = {} := clauses_ext _ _ fun group => by
            rw [empty group]
            cases group <;> rfl
          obtain ⟨entered, -⟩ := unwritten none
          dsimp only at entered
          have valueless : w.table.values = [] := by
            rw [entered]
            exact keys_valueless (Action.touchedEach entries).1
          have named : w.table.names = [] ↔ (Action.touchedEach entries).1 = [] := by
            rw [entered]
            exact ⟨keys_named _, fun untouched => by rw [untouched]; rfl⟩
          simp only [written]
          simp [sent_nil_iff convert w.table valueless, erase, named]

end Alone

-- What writes no clause leaves the table as it is exactly if every name in its keys is known; and
-- it makes an empty request exactly if it has no keys.
theorem unwritten_unchanged_iff (entries : List (String × Action V)) :
    (∀ (under : Fragment) (w : Workspace V), (applyEntries under entries w).2.update = w.update →
      (applyEntries under entries w).2 = w.enterPaths (Action.touchedEach entries).1 ∧
        ((applyEntries under entries w).2.table = w.table ↔
          ∀ key ∈ (Action.touchedEach entries).1, ∀ s ∈ w.table.options.segments key,
            w.table.IsKnown s.name)) ∧
      ∀ (text : V → Option String) (convert : Option (Converter V)),
        (({ update := some entries } : Request V).params (X := X) text convert
            { table := { options := {} } }).1 = .ok [] ↔
          (Action.touchedEach entries).1 = [] := by
  refine ⟨fun under w unwritten => ?_, fun text convert => alone_params_nil text convert entries⟩
  obtain ⟨entered, -⟩ := entries_unwritten entries under w unwritten
  refine ⟨entered, ?_⟩
  rw [entered]
  exact enter_paths_same_iff w.table _

def hollowUpdate : List (String × Action Nat) :=
  [("pantry", .nested [("pantry", .keyed [("pantry[2]", [("size", .skip)])])]),
    ("pantry.size", .removeIndexes [])]

def pantryWorkspace : Workspace Nat :=
  let options : Options := { Options.standard with reserved := (· = "size") }
  { table := ({ options } : Table Nat).enter (.path "size.pantry") }

theorem hollow_update_unchanged :
    (applyEntries [] hollowUpdate pantryWorkspace).2.update = pantryWorkspace.update ∧
      (applyEntries [] hollowUpdate pantryWorkspace).2.table = pantryWorkspace.table := by
  have unwritten : (applyEntries [] hollowUpdate pantryWorkspace).2.update =
      pantryWorkspace.update := by decide +kernel
  have known : ∀ key ∈ (Action.touchedEach hollowUpdate).1,
      ∀ s ∈ pantryWorkspace.table.options.segments key, pantryWorkspace.table.IsKnown s.name := by
    decide +kernel
  exact ⟨unwritten, ((unwritten_unchanged_iff (X := Unit) hollowUpdate).1 [] pantryWorkspace
    unwritten).2.mpr known⟩

theorem skipped_map_enters_key :
    let entries := Update.Source.actions
      (.entries [("a", Update.nested (.entries [("b", .value .undefined)]))])
    let w : Workspace Value := { table := { options := {} } }
    (applyEntries [] entries w).2.update = w.update ∧
      (applyEntries [] entries w).2.table ≠ w.table ∧
      (({ update := some entries } : Request Value).params (X := Unit) Value.text none w).1 ≠
        .ok [] := by
  intro entries w
  have names : (applyEntries [] entries w).2.table.names = [("#n0", "a")] := by decide +kernel
  refine ⟨by decide +kernel, fun same => ?_, fun empty => ?_⟩
  · rw [same] at names
    cases names
  · exact List.cons_ne_nil "a" [] ((alone_params_nil Value.text none entries).mp empty)

end Workspace
end ItemExpr
