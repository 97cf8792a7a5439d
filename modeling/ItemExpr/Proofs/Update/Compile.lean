import ItemExpr.Proofs.Update.Meaning

set_option autoImplicit false

namespace ItemExpr

variable {V : Type}

def Clauses.pushAll (cs : Clauses) (added : List (Group × Fragment)) : Clauses :=
  added.foldl (fun cs clause => cs.push clause.1 clause.2) cs

theorem push_all_append (cs : Clauses) (first others : List (Group × Fragment)) :
    cs.pushAll (first ++ others) = (cs.pushAll first).pushAll others :=
  List.foldl_append

theorem get_push_all (cs : Clauses) (group : Group) (added : List (Group × Fragment)) :
    (cs.pushAll added).get group =
      cs.get group ++ (added.filter fun clause => clause.1 = group).map Prod.snd := by
  induction added generalizing cs with
  | nil => simp [Clauses.pushAll]
  | cons clause rest ih =>
      have step := ih (cs.push clause.1 clause.2)
      rw [Clauses.pushAll, List.foldl_cons]
      by_cases same : clause.1 = group
      · rw [← same, Clauses.get_push_self, same] at step
        simpa [same, Clauses.pushAll] using step
      · rw [Clauses.get_push_other _ _ _ _ (Ne.symm same)] at step
        simpa [same, Clauses.pushAll] using step

namespace Workspace

structure Compiled (target : Fragment) (w w' : Workspace V) (added : List (Group × Fragment))
    (readings : List (Group × List (Symbol V))) : Prop where
  grown : Extends w.table w'.table
  update : w'.update = w.update.pushAll added
  reads : List.Forall₂ (fun clause reading => clause.1 = reading.1 ∧
    Reads w'.table clause.2 reading.2) added readings
  about : ∀ clause ∈ added, ∀ label ∈ target.nameLabels, label ∈ clause.2.nameLabels
  values : w'.table.values.map Prod.fst =
    w.table.values.map Prod.fst ++ added.flatMap fun clause => clause.2.valueLabels

def Covered (w w' : Workspace V) (added : List (Group × Fragment)) : Prop :=
  ∀ label ∈ w'.table.names.map Prod.fst,
    label ∈ w.table.names.map Prod.fst ∨ ∃ clause ∈ added, label ∈ clause.2.nameLabels

theorem compiled_nil (target : Fragment) (w : Workspace V) (coherent : Coherent w.table) :
    Compiled target w w [] [] where
  grown := extends_refl w.table coherent
  update := rfl
  reads := .nil
  about := by simp
  values := by simp

theorem compiled_append (target : Fragment) (w w' w'' : Workspace V)
    (first others : List (Group × Fragment)) (symbols rest : List (Group × List (Symbol V)))
    (front : Compiled target w w' first symbols) (back : Compiled target w' w'' others rest) :
    Compiled target w w'' (first ++ others) (symbols ++ rest) where
  grown := extends_trans _ _ _ front.grown back.grown
  update := by rw [back.update, front.update, push_all_append]
  reads := by
    refine List.rel_append ?_ back.reads
    exact front.reads.imp fun clause reading read =>
      ⟨read.1, reads_extends _ _ back.grown _ _ read.2⟩
  about := by
    intro clause present
    rcases List.mem_append.mp present with here | later
    · exact front.about clause here
    · exact back.about clause later
  values := by rw [back.values, front.values, List.flatMap_append, List.append_assoc]

theorem covered_nil (w : Workspace V) : Covered w w [] := fun _ present => .inl present

theorem covered_append (w w' w'' : Workspace V) (first others : List (Group × Fragment))
    (front : Covered w w' first) (back : Covered w' w'' others) :
    Covered w w'' (first ++ others) := by
  intro label present
  rcases back label present with known | ⟨clause, here, mentioned⟩
  · rcases front label known with old | ⟨clause, here, mentioned⟩
    · exact .inl old
    · exact .inr ⟨clause, List.mem_append_left _ here, mentioned⟩
  · exact .inr ⟨clause, List.mem_append_right _ here, mentioned⟩

theorem about_mentions (s : Script V) (about : s.IsAbout) (target f : Fragment) (t t' : Table V)
    (ran : s.run target t = (.ok f, t')) : ∀ label ∈ target.nameLabels, label ∈ f.nameLabels := by
  obtain ⟨items, front⟩ := about
  cases fault : s.fault with
  | some e => simp [Script.run, fault] at ran
  | none =>
      rw [Script.run, fault, front] at ran
      have written : target ++ (t.write target items).1 = f := by
        simpa [Table.write, Table.writeItem] using congrArg Prod.fst ran
      intro label present
      rw [← written, Fragment.nameLabels, List.filterMap_append]
      exact List.mem_append_left _ present

section Clauses

variable (target : Fragment) (about : List (Symbol V))

theorem clause_compiled (group : Group) (s : Script V) (clear : s.Clear) (isAbout : s.IsAbout)
    (w : Workspace V) (coherent : Coherent w.table) (defaults : w.table.options = {})
    (known : Known w.table target about) (f : Fragment) (t : Table V)
    (ran : s.run target w.table = (.ok f, t)) :
    Compiled target w { w with table := t, update := w.update.push group f } [(group, f)]
        [(group, itemSymbols about s.items)] ∧
      Covered w { w with table := t, update := w.update.push group f } [(group, f)] := by
  have written := run_written w.table t coherent defaults target about known s clear f ran
  constructor
  · exact
      { grown := written.grown
        update := rfl
        reads := .cons ⟨rfl, written.reads⟩ .nil
        about := by simpa using about_mentions s isAbout target f w.table t ran
        values := by simpa using written.values }
  · intro label present
    exact (written.names label present).imp_right fun inside => ⟨(group, f), by simp, inside⟩

theorem clauses_compiled (clauses : List (Group × Script V))
    (clear : ∀ clause ∈ clauses, clause.2.Clear) (isAbout : ∀ clause ∈ clauses, clause.2.IsAbout)
    (w w' : Workspace V) (coherent : Coherent w.table) (defaults : w.table.options = {})
    (known : Known w.table target about) (ran : addClauses target clauses w = (none, w')) :
    ∃ added,
      Compiled target w w' added
          (clauses.map fun clause => (clause.1, itemSymbols about clause.2.items)) ∧
        Covered w w' added := by
  induction clauses generalizing w with
  | nil =>
      obtain rfl : w = w' := congrArg Prod.snd ran
      exact ⟨[], compiled_nil target w coherent, covered_nil w⟩
  | cons clause rest ih =>
      obtain ⟨group, s⟩ := clause
      rw [List.forall_mem_cons] at clear isAbout
      cases run : s.run target w.table with
      | mk result t =>
          cases result with
          | error e => simp [addClauses, runScript, run] at ran
          | ok f =>
              obtain ⟨first, covers⟩ := clause_compiled target about group s clear.1 isAbout.1 w
                coherent defaults known f t run
              have grown : Extends w.table t := first.grown
              obtain ⟨added, others, coversRest⟩ := ih clear.2 isAbout.2
                { w with table := t, update := w.update.push group f } grown.coherent
                (grown.options.trans defaults) (known_extends _ _ grown _ _ known)
                (by simpa [addClauses, runScript, run] using ran)
              exact ⟨_, compiled_append _ _ _ _ _ _ _ _ first others,
                covered_append _ _ _ _ _ covers coversRest⟩

end Clauses

theorem known_path (t : Table V) (coherent : Coherent t) (defaults : t.options = {}) (p : String)
    (indexed : IsIndexed p) : Known (t.addPath p).2 (t.addPath p).1 (pathSymbols p) := by
  have written := written_path t coherent defaults p indexed
  have same : (t.addPath p).2.values = t.values := (add_segments_frame t _).2.1
  have labels := written.values
  rw [same] at labels
  exact
    { reads := written.reads
      separate := written.separate
      values := List.self_eq_append_right.mp labels }

theorem known_within (t : Table V) (under path : Fragment) (symbols others : List (Symbol V))
    (known : Known t under symbols) (entered : Known t path others) :
    Known t (within under path) (symbols ++ (chars "." ++ others)) := by
  have separate : Separate (Fragment.text (.text "." :: path)) := by
    rw [Fragment.text_cons]
    exact separate_append _ _ dot_clear.2 entered.separate
  constructor
  · exact reads_append t under _ symbols _ known.reads
      (.text "." path others (quiet_mute _ dot_clear.1) entered.reads) separate
  · rw [within, Fragment.text_append]
    exact separate_append _ _ known.separate separate
  · have front := known.values
    have back := entered.values
    rw [Fragment.valueLabels] at front back
    rw [within, Fragment.valueLabels, List.filterMap_append, front, List.nil_append]
    exact back

theorem reads_empty (t : Table V) (f : Fragment) (symbols : List (Symbol V))
    (reads : Reads t f symbols) : Fragment.text f = "" ↔ symbols = [] := by
  induction reads with
  | nil => simp [Fragment.text_nil]
  | text s f symbols _ _ ih => simp [Fragment.text_cons, Token.spelling, ih, chars]
  | name k label name f symbols shape _ _ _ _ =>
      simp [Fragment.text_cons, Token.spelling, shape, Options.nameLabel]
  | value k label v f symbols shape _ _ _ _ =>
      simp [Fragment.text_cons, Token.spelling, shape, Options.valueLabel]

section Entries

variable (w : Workspace V) (coherent : Coherent w.table) (defaults : w.table.options = {})
  (path : String) (indexed : IsIndexed path) (under : Fragment) (symbols : List (Symbol V))
  (known : Known w.table under symbols)

include coherent defaults indexed known

theorem group_known :
    Known (w.addPath path).2.table (within under (w.addPath path).1)
      (symbols ++ (chars "." ++ pathSymbols path)) := by
  have entered := written_path w.table coherent defaults path indexed
  exact known_within _ _ _ _ _ (known_extends _ _ entered.grown _ _ known)
    (known_path w.table coherent defaults path indexed)

theorem entry_known :
    Known (w.addPath path).2.table
      (if under.text = "" then (w.addPath path).1 else within under (w.addPath path).1)
      (insideSymbols symbols path) := by
  have top := reads_empty w.table under symbols known.reads
  cases symbols with
  | nil =>
      rw [if_pos (top.mpr rfl)]
      exact known_path w.table coherent defaults path indexed
  | cons first rest =>
      rw [if_neg fun empty => List.cons_ne_nil _ _ (top.mp empty)]
      exact group_known w coherent defaults path indexed under (first :: rest) known

omit known

theorem entered_compiled (target : Fragment)
    (inside : ∀ label ∈ under.nameLabels, label ∈ target.nameLabels)
    (entered : ∀ label ∈ (w.addPath path).1.nameLabels, label ∈ target.nameLabels)
    (w' : Workspace V) (added : List (Group × Fragment))
    (readings : List (Group × List (Symbol V)))
    (compiled : Compiled target (w.addPath path).2 w' added readings) :
    Compiled under w w' added readings ∧
      (added ≠ [] → Covered (w.addPath path).2 w' added → Covered w w' added) := by
  have written := written_path w.table coherent defaults path indexed
  have same : (w.addPath path).2.table.values = w.table.values := (add_segments_frame w.table _).2.1
  constructor
  · exact
      { grown := extends_trans _ _ _ written.grown compiled.grown
        update := compiled.update
        reads := compiled.reads
        about := fun clause present label mentioned =>
          compiled.about clause present label (inside label mentioned)
        values := by rw [compiled.values, same] }
  · intro some covered label present
    rcases covered label present with known | mentioned
    · rcases written.names label known with old | new
      · exact .inl old
      · obtain ⟨clause, rest, shape⟩ := List.exists_cons_of_ne_nil some
        have here : clause ∈ added := by simp [shape]
        exact .inr ⟨clause, here, compiled.about clause here label (entered label new)⟩
    · exact .inr mentioned

end Entries

theorem within_labels (under path : Fragment) :
    (∀ label ∈ under.nameLabels, label ∈ (within under path).nameLabels) ∧
      ∀ label ∈ path.nameLabels, label ∈ (within under path).nameLabels := by
  rw [within, Fragment.nameLabels, Fragment.nameLabels, Fragment.nameLabels, List.filterMap_append]
  exact ⟨fun label present => List.mem_append_left _ present,
    fun label present => List.mem_append_right _ present⟩

theorem entry_labels (under path : Fragment) (none : under.text = "" → under.nameLabels = []) :
    (∀ label ∈ under.nameLabels,
        label ∈ Fragment.nameLabels (if under.text = "" then path else within under path)) ∧
      ∀ label ∈ path.nameLabels,
        label ∈ Fragment.nameLabels (if under.text = "" then path else within under path) := by
  by_cases top : under.text = ""
  · simp [top, none top]
  · rw [if_neg top]
    exact within_labels under path

theorem reads_unnamed (t : Table V) (f : Fragment) (symbols : List (Symbol V))
    (reads : Reads t f symbols) (empty : symbols = []) : f.nameLabels = [] := by
  induction reads with
  | nil => rfl
  | text s f symbols _ _ ih => exact ih (List.append_eq_nil_iff.mp empty).2
  | name k label name f symbols _ _ _ _ _ => exact absurd empty (List.cons_ne_nil _ _)
  | value k label v f symbols _ _ _ _ _ => exact absurd empty (List.cons_ne_nil _ _)

def andThen (first : Option Fault × Workspace V)
    (next : Workspace V → Option Fault × Workspace V) : Option Fault × Workspace V :=
  match first with
  | (some e, w) => (some e, w)
  | (none, w) => next w

theorem apply_entries_cons (under : Fragment) (path : String) (a : Action V)
    (rest : List (String × Action V)) (w : Workspace V) (kept : a ≠ .skip) :
    applyEntries under ((path, a) :: rest) w =
      andThen (apply
        (if under.text = "" then (w.addPath path).1 else within under (w.addPath path).1)
        a (w.addPath path).2) (applyEntries under rest) := by
  cases a with
  | skip => exact absurd rfl kept
  | _ => rfl

theorem apply_groups_cons (under : Fragment) (path : String) (entries : List (String × Action V))
    (rest : List (String × List (String × Action V))) (w : Workspace V) :
    applyGroups under ((path, entries) :: rest) w =
      andThen (applyEntries (within under (w.addPath path).1) entries (w.addPath path).2)
        (applyGroups under rest) :=
  rfl

theorem added_some (target : Fragment) (w w' : Workspace V) (added : List (Group × Fragment))
    (readings : List (Group × List (Symbol V))) (compiled : Compiled target w w' added readings)
    (some : 0 < readings.length) : added ≠ [] := by
  rintro rfl
  have none := compiled.reads.length_eq
  simp [← none] at some

theorem leaf_compiled (a : Action V) (legible : a.IsLegible) (target : Fragment)
    (about : List (Symbol V)) (w w' : Workspace V) (coherent : Coherent w.table)
    (defaults : w.table.options = {}) (known : Known w.table target about)
    (ran : addClauses target a.clauses w = (none, w'))
    (leaf : a.readings about =
      a.clauses.map fun clause => (clause.1, itemSymbols about clause.2.items)) :
    ∃ added, Compiled target w w' added (a.readings about) ∧
      (a.IsFruitful → Covered w w' added) := by
  obtain ⟨added, compiled, covered⟩ := clauses_compiled target about a.clauses
    (Action.clauses_clear a legible) (Action.clauses_about a) w w' coherent defaults known ran
  exact ⟨added, leaf ▸ compiled, fun _ => covered⟩

-- By recursion over the maps: how the path above is written and read is known all the way down, in
-- every later table. A path is entered before its map is walked, so if the map makes no clause its
-- names are in the table and nowhere mentioned; only a fruitful update is covered.
open ItemExpr.Action in
mutual

theorem apply_compiled (a : Action V) (legible : a.IsLegible) (target : Fragment)
    (about : List (Symbol V)) (w w' : Workspace V) (coherent : Coherent w.table)
    (defaults : w.table.options = {}) (known : Known w.table target about)
    (ran : apply target a w = (none, w')) :
    ∃ added, Compiled target w w' added (a.readings about) ∧
      (a.IsFruitful → Covered w w' added) := by
  match a with
  | .nested entries =>
      obtain ⟨added, compiled, covered⟩ :=
        legible_compiled entries legible target about w w' coherent defaults known ran
      exact ⟨added, compiled, fun fruitful => covered fruitful.2⟩
  | .keyed groups =>
      obtain ⟨added, compiled, covered⟩ :=
        groups_compiled groups legible target about w w' coherent defaults known ran
      exact ⟨added, compiled, fun fruitful => covered fruitful.2⟩
  | .skip => exact leaf_compiled _ legible target about w w' coherent defaults known ran rfl
  | .remove => exact leaf_compiled _ legible target about w w' coherent defaults known ran rfl
  | .assign _ => exact leaf_compiled _ legible target about w w' coherent defaults known ran rfl
  | .assignDefault _ => exact leaf_compiled _ legible target about w w' coherent defaults known ran rfl
  | .arithmetic _ _ _ => exact leaf_compiled _ legible target about w w' coherent defaults known ran rfl
  | .listAppend _ _ => exact leaf_compiled _ legible target about w w' coherent defaults known ran rfl
  | .removeIndexes _ => exact leaf_compiled _ legible target about w w' coherent defaults known ran rfl
  | .assignIndexes _ => exact leaf_compiled _ legible target about w w' coherent defaults known ran rfl
  | .addElements _ => exact leaf_compiled _ legible target about w w' coherent defaults known ran rfl
  | .deleteElements _ => exact leaf_compiled _ legible target about w w' coherent defaults known ran rfl

theorem legible_compiled (entries : List (String × Action V)) (legible : EntriesLegible entries)
    (under : Fragment) (symbols : List (Symbol V)) (w w' : Workspace V)
    (coherent : Coherent w.table) (defaults : w.table.options = {})
    (known : Known w.table under symbols) (ran : applyEntries under entries w = (none, w')) :
    ∃ added, Compiled under w w' added (entriesReadings symbols entries) ∧
      (EntriesFruitful entries → Covered w w' added) := by
  match entries with
  | [] =>
      obtain rfl : w = w' := congrArg Prod.snd ran
      exact ⟨[], compiled_nil under w coherent, fun _ => covered_nil w⟩
  | (path, a) :: rest =>
      obtain ⟨indexed, actionLegible, restLegible⟩ := legible
      by_cases skipped : a = .skip
      · subst skipped
        obtain ⟨added, compiled, covered⟩ :=
          legible_compiled rest restLegible under symbols w w' coherent defaults known ran
        exact ⟨added, compiled, fun fruitful => covered fruitful.2⟩
      · rw [apply_entries_cons under path a rest w skipped] at ran
        have entered := written_path w.table coherent defaults path indexed
        have target := entry_known w coherent defaults path indexed under symbols known
        have labels := entry_labels under (w.addPath path).1 fun empty =>
          reads_unnamed _ _ _ known.reads ((reads_empty _ _ _ known.reads).mp empty)
        cases applied : apply (if under.text = "" then (w.addPath path).1
            else within under (w.addPath path).1) a (w.addPath path).2 with
        | mk fault middle =>
            rw [applied] at ran
            cases fault with
            | some e => simp [andThen] at ran
            | none =>
                obtain ⟨added, below, covered⟩ := apply_compiled a actionLegible _ _ _ middle
                  entered.grown.coherent (entered.grown.options.trans defaults) target applied
                obtain ⟨first, covers⟩ := entered_compiled w coherent defaults path indexed under _
                  labels.1 labels.2 middle added _ below
                have grown := first.grown
                obtain ⟨others, rest, restCovered⟩ := legible_compiled rest restLegible under
                  symbols middle w' grown.coherent (grown.options.trans defaults)
                  (known_extends _ _ grown _ _ known) ran
                refine ⟨added ++ others, compiled_append _ _ _ _ _ _ _ _ first rest, ?_⟩
                intro fruitful
                have some := added_some _ _ _ _ _ below
                  (by rw [readings_count]; exact fruitful_count a fruitful.1 skipped)
                exact covered_append _ _ _ _ _ (covers some (covered fruitful.1))
                  (restCovered fruitful.2)

theorem groups_compiled (groups : List (String × List (String × Action V)))
    (legible : GroupsLegible groups) (under : Fragment) (symbols : List (Symbol V))
    (w w' : Workspace V) (coherent : Coherent w.table) (defaults : w.table.options = {})
    (known : Known w.table under symbols) (ran : applyGroups under groups w = (none, w')) :
    ∃ added, Compiled under w w' added (groupsReadings symbols groups) ∧
      (GroupsFruitful groups → Covered w w' added) := by
  match groups with
  | [] =>
      obtain rfl : w = w' := congrArg Prod.snd ran
      exact ⟨[], compiled_nil under w coherent, fun _ => covered_nil w⟩
  | (path, entries) :: rest =>
      obtain ⟨indexed, entriesLegible, restLegible⟩ := legible
      have entered := written_path w.table coherent defaults path indexed
      have target := group_known w coherent defaults path indexed under symbols known
      have labels := within_labels under (w.addPath path).1
      cases applied : applyEntries (within under (w.addPath path).1) entries (w.addPath path).2 with
      | mk fault middle =>
          rw [apply_groups_cons, applied] at ran
          cases fault with
          | some e => simp [andThen] at ran
          | none =>
              obtain ⟨added, below, covered⟩ := legible_compiled entries entriesLegible _ _ _ middle
                entered.grown.coherent (entered.grown.options.trans defaults) target applied
              obtain ⟨first, covers⟩ := entered_compiled w coherent defaults path indexed under _
                labels.1 labels.2 middle added _ below
              have grown := first.grown
              obtain ⟨others, rest, restCovered⟩ := groups_compiled rest restLegible under
                symbols middle w' grown.coherent (grown.options.trans defaults)
                (known_extends _ _ grown _ _ known) ran
              refine ⟨added ++ others, compiled_append _ _ _ _ _ _ _ _ first rest, ?_⟩
              intro fruitful
              have some := added_some _ _ _ _ _ below
                (by rw [entries_readings_count]; exact fruitful.1)
              exact covered_append _ _ _ _ _ (covers some (covered fruitful.2.1))
                (restCovered fruitful.2.2)

end

open ItemExpr.Action in
theorem entries_compiled (entries : List (String × Action V)) (offered : EntriesOffered entries)
    (under : Fragment) (symbols : List (Symbol V)) (w w' : Workspace V)
    (coherent : Coherent w.table) (defaults : w.table.options = {})
    (known : Known w.table under symbols) (ran : applyEntries under entries w = (none, w')) :
    ∃ added, Compiled under w w' added (entriesReadings symbols entries) ∧
      (EntriesFruitful entries → Covered w w' added) :=
  legible_compiled entries (entries_offered_legible entries offered) under symbols w w' coherent
    defaults known ran

end Workspace
end ItemExpr
