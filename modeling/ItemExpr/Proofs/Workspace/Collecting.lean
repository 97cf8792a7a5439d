import ItemExpr.Proofs.Entering

set_option autoImplicit false

namespace ItemExpr

variable {V : Type}

def Table.resolve (t : Table V) (f : Fragment) : List (Symbol V) :=
  (f.flatMap Token.lexemes).map (Lexeme.symbol t.names t.values)

def Token.IsBound (t : Table V) : Token → Prop
  | .text _ => True
  | .name label => label ∈ t.names.map Prod.fst
  | .value label => label ∈ t.values.map Prod.fst

theorem bound_extends (t t' : Table V) (later : Extends t t') (f : Fragment)
    (bound : ∀ token ∈ f, token.IsBound t) : ∀ token ∈ f, token.IsBound t' := by
  intro token present
  have stands := bound token present
  cases token with
  | text s => trivial
  | name label => exact (later.names.map Prod.fst).subset stands
  | value label => exact (later.values.map Prod.fst).subset stands

section Resolving

variable (t : Table V) (coherent : Coherent t) (f : Fragment)

include coherent

theorem resolve_extends (t' : Table V) (later : Extends t t')
    (bound : ∀ token ∈ f, token.IsBound t) : t'.resolve f = t.resolve f := by
  rw [Table.resolve, Table.resolve, List.map_flatMap, List.map_flatMap]
  refine List.flatMap_congr fun token present => ?_
  have stands := bound token present
  cases token with
  | text s => simp [Token.lexemes, Lexeme.symbol]
  | name label =>
      obtain ⟨⟨_, name⟩, known, rfl⟩ := List.mem_map.mp stands
      simp [Token.lexemes, Lexeme.symbol, find_name t coherent _ name known,
        find_name t' later.coherent _ name (later.names.subset known)]
  | value label =>
      obtain ⟨⟨_, v⟩, known, rfl⟩ := List.mem_map.mp stands
      simp [Token.lexemes, Lexeme.symbol, find_value t coherent _ v known,
        find_value t' later.coherent _ v (later.values.subset known)]

theorem resolve_bound (bound : ∀ token ∈ f, token.IsBound t) (label : String) :
    .unbound label ∉ t.resolve f := by
  rw [Table.resolve, List.map_flatMap]
  intro present
  obtain ⟨token, inside, symbol⟩ := List.mem_flatMap.mp present
  have stands := bound token inside
  cases token with
  | text s => simp [Token.lexemes, Lexeme.symbol] at symbol
  | name other =>
      obtain ⟨⟨_, name⟩, known, rfl⟩ := List.mem_map.mp stands
      simp [Token.lexemes, Lexeme.symbol, find_name t coherent _ name known] at symbol
  | value other =>
      obtain ⟨⟨_, v⟩, known, rfl⟩ := List.mem_map.mp stands
      simp [Token.lexemes, Lexeme.symbol, find_value t coherent _ v known] at symbol

end Resolving

theorem resolve_reset (t : Table V) (f : Fragment) (label : String) (named : label ∈ f.nameLabels) :
    .unbound label ∈ t.reset.resolve f := by
  obtain ⟨token, inside, same⟩ := List.mem_filterMap.mp named
  cases token with
  | name other =>
      obtain rfl : other = label := Option.some.inj same
      have lexeme : Lexeme.name other ∈ f.flatMap Token.lexemes :=
        List.mem_flatMap.mpr ⟨_, inside, by simp [Token.lexemes]⟩
      exact List.mem_map.mpr ⟨_, lexeme, rfl⟩
  | text s => cases same
  | value other => cases same

-- What holds of a clause when it is collected. If what the caller wrote is `legible`, its text has
-- no aliases but its own.
structure Sound (legible : Prop) (t : Table V) (f : Fragment) : Prop where
  bound : ∀ token ∈ f, token.IsBound t
  named : f.nameLabels ≠ []
  plain : legible → lexemes (Fragment.text f) = f.flatMap Token.lexemes

structure Target (legible : Prop) (t : Table V) (f : Fragment) : Prop where
  bound : ∀ token ∈ f, token.IsBound t
  named : f.nameLabels ≠ []
  known : legible → ∃ about, Known t f about

theorem sound_extends (legible : Prop) (t t' : Table V) (later : Extends t t') (f : Fragment)
    (sound : Sound legible t f) : Sound legible t' f where
  bound := bound_extends t t' later f sound.bound
  named := sound.named
  plain := sound.plain

theorem target_extends (legible : Prop) (t t' : Table V) (later : Extends t t') (f : Fragment)
    (target : Target legible t f) : Target legible t' f where
  bound := bound_extends t t' later f target.bound
  named := target.named
  known := fun all =>
    (target.known all).imp fun about known => known_extends t t' later f about known

theorem spelled_bound (t : Table V) (coherent : Coherent t) (defaults : t.options = {})
    (segments : List Segment) (f : Fragment) (spelled : Spelled t segments f) :
    (∀ token ∈ f, token.IsBound t) ∧ f.nameLabels ≠ [] := by
  have first (token : Token) (name : String) (means : Means t token name) :
      token.IsBound t ∧ ∃ label, token = .name label := by
    obtain ⟨k, rfl, present⟩ := means_default t coherent defaults token name means
    exact ⟨List.mem_map.mpr ⟨_, present, rfl⟩, _, rfl⟩
  induction spelled with
  | last token s means =>
      obtain ⟨bound, label, rfl⟩ := first token s.name means
      exact ⟨by simpa [Token.IsBound] using bound, by simp [Fragment.nameLabels, Token.nameLabel?]⟩
  | cons token s rest f means _ ih =>
      obtain ⟨bound, label, rfl⟩ := first token s.name means
      refine ⟨?_, by simp [Fragment.nameLabels, Token.nameLabel?]⟩
      simp only [List.forall_mem_cons]
      exact ⟨bound, trivial, trivial, ih.1⟩

theorem path_bound (t : Table V) (coherent : Coherent t) (defaults : t.options = {}) (p : String) :
    (∀ token ∈ (t.addPath p).1, token.IsBound (t.addPath p).2) ∧
      (t.addPath p).1.nameLabels ≠ [] := by
  obtain ⟨grown, spelled⟩ := add_path_spelled t coherent p
  exact spelled_bound _ grown.coherent (grown.options.trans defaults) _ _ spelled

theorem path_target (legible : Prop) (t : Table V) (coherent : Coherent t)
    (defaults : t.options = {}) (p : String) (indexed : legible → IsIndexed p) :
    Target legible (t.addPath p).2 (t.addPath p).1 where
  bound := (path_bound t coherent defaults p).1
  named := (path_bound t coherent defaults p).2
  known := fun all => ⟨_, Workspace.known_path t coherent defaults p (indexed all)⟩

theorem within_target (legible : Prop) (t : Table V) (under path : Fragment)
    (outer : Target legible t under) (inner : Target legible t path) :
    Target legible t (Workspace.within under path) where
  bound := by
    rw [Workspace.within, List.forall_mem_append, List.forall_mem_cons]
    exact ⟨outer.bound, trivial, inner.bound⟩
  named := by
    obtain ⟨label, present⟩ := List.exists_mem_of_ne_nil _ outer.named
    exact List.ne_nil_of_mem ((Workspace.within_labels under path).1 label present)
  known := by
    intro all
    obtain ⟨symbols, front⟩ := outer.known all
    obtain ⟨others, back⟩ := inner.known all
    exact ⟨_, Workspace.known_within t under path symbols others front back⟩

theorem write_item_bound (t : Table V) (coherent : Coherent t) (defaults : t.options = {})
    (self : Fragment) (known : ∀ token ∈ self, token.IsBound t) (item : Item V) :
    ∀ token ∈ (t.writeItem self item).1, token.IsBound (t.writeItem self item).2 := by
  cases item with
  | text s => simp [Table.writeItem, Token.IsBound]
  | path p => exact (path_bound t coherent defaults p).1
  | value v => simp [Table.writeItem, add_value_eq t coherent v, Token.IsBound]
  | self => exact known

theorem write_bound (t : Table V) (coherent : Coherent t) (defaults : t.options = {})
    (self : Fragment) (known : ∀ token ∈ self, token.IsBound t) (items : List (Item V)) :
    ∀ token ∈ (t.write self items).1, token.IsBound (t.write self items).2 := by
  induction items generalizing t with
  | nil => simp [Table.write]
  | cons item rest ih =>
      have grown := enters_extends _ _ coherent (write_item_enters t self item)
      have later := enters_extends _ _ grown.coherent
        (write_enters (t.writeItem self item).2 self rest)
      have first := write_item_bound t coherent defaults self known item
      have others := ih (t.writeItem self item).2 grown.coherent (grown.options.trans defaults)
        (bound_extends _ _ grown self known)
      rw [Table.write, List.forall_mem_append]
      exact ⟨bound_extends _ _ later _ first, others⟩

theorem script_sound (legible : Prop) (t t' : Table V) (coherent : Coherent t)
    (defaults : t.options = {}) (target f : Fragment) (isTarget : Target legible t target)
    (s : Script V) (about : s.IsAbout) (clear : legible → s.Clear)
    (ran : s.run target t = (.ok f, t')) : Sound legible t' f := by
  cases fault : s.fault with
  | some e => simp [Script.run, fault] at ran
  | none =>
      have written := write_bound t coherent defaults target isTarget.bound s.items
      have whole : t.write target s.items = (f, t') := by
        simpa [Script.run, fault, Prod.ext_iff] using ran
      rw [whole] at written
      refine ⟨written, ?_, ?_⟩
      · obtain ⟨label, present⟩ := List.exists_mem_of_ne_nil _ isTarget.named
        exact List.ne_nil_of_mem
          (Workspace.about_mentions s about target f t t' ran label present)
      · intro all
        obtain ⟨symbols, known⟩ := isTarget.known all
        have written := run_written t t' coherent defaults target symbols known s (clear all) f ran
        exact reads_lexemes t' f _ written.reads

inductive Builder
  | key
  | update
  deriving DecidableEq, Repr

def Builder.other : Builder → Builder
  | .key => .update
  | .update => .key

namespace Workspace

def clauses (w : Workspace V) : Builder → List Fragment
  | .key => w.key
  | .update => Group.inOrder.flatMap w.update.get

theorem update_clauses (w : Workspace V) (f : Fragment) :
    f ∈ w.clauses .update ↔ ∃ group, f ∈ w.update.get group := by
  rw [clauses, List.mem_flatMap]
  constructor
  · rintro ⟨group, _, present⟩
    exact ⟨group, present⟩
  · rintro ⟨group, present⟩
    exact ⟨group, by cases group <;> simp [Group.inOrder], present⟩

structure Collects (legible : Prop) (w w' : Workspace V) : Prop where
  grown : Extends w.table w'.table
  kept : ∀ builder, ∀ f ∈ w.clauses builder, f ∈ w'.clauses builder
  sound : ∀ builder, ∀ f ∈ w'.clauses builder, f ∈ w.clauses builder ∨ Sound legible w'.table f

section Collecting

variable (legible : Prop)

theorem collects_table (w w' : Workspace V) (grown : Extends w.table w'.table)
    (key : w'.key = w.key) (update : w'.update = w.update) : Collects legible w w' := by
  have same (builder : Builder) : w'.clauses builder = w.clauses builder := by
    cases builder <;> simp [clauses, key, update]
  exact ⟨grown, fun builder f present => by rwa [same],
    fun builder f present => .inl (by rwa [← same])⟩

theorem collects_refl (w : Workspace V) (coherent : Coherent w.table) : Collects legible w w :=
  collects_table legible w w (extends_refl _ coherent) rfl rfl

theorem collects_trans (w w' w'' : Workspace V) (first : Collects legible w w')
    (second : Collects legible w' w'') : Collects legible w w'' where
  grown := extends_trans _ _ _ first.grown second.grown
  kept := fun builder f present => second.kept builder f (first.kept builder f present)
  sound := by
    intro builder f present
    rcases second.sound builder f present with old | new
    · exact (first.sound builder f old).imp_right
        (sound_extends legible _ _ second.grown f)
    · exact .inr new

theorem collects_path (w : Workspace V) (coherent : Coherent w.table) (p : String) :
    Collects legible w (w.addPath p).2 :=
  collects_table legible w _ (add_path_spelled w.table coherent p).1 rfl rfl

theorem push_collects (w : Workspace V) (t : Table V) (grown : Extends w.table t) (group : Group)
    (f : Fragment) (sound : Sound legible t f) :
    Collects legible w { w with table := t, update := w.update.push group f } := by
  have pushed (other : Group) (g : Fragment) :
      g ∈ (w.update.push group f).get other ↔
        g ∈ w.update.get other ∨ (other = group ∧ g = f) := by
    by_cases same : other = group
    · simp [same, Clauses.get_push_self]
    · simp [same, Clauses.get_push_other _ _ _ _ same]
  refine ⟨grown, ?_, ?_⟩
  · intro builder g present
    cases builder with
    | key => exact present
    | update =>
        rw [update_clauses] at present ⊢
        obtain ⟨other, inside⟩ := present
        exact ⟨other, (pushed other g).mpr (.inl inside)⟩
  · intro builder g present
    cases builder with
    | key => exact .inl present
    | update =>
        rw [update_clauses] at present ⊢
        obtain ⟨other, inside⟩ := present
        rcases (pushed other g).mp inside with old | ⟨_, rfl⟩
        · exact .inl ⟨other, old⟩
        · exact .inr sound

theorem add_clauses_collects (target : Fragment) (clauses : List (Group × Script V))
    (about : ∀ clause ∈ clauses, clause.2.IsAbout)
    (clear : legible → ∀ clause ∈ clauses, clause.2.Clear) (w : Workspace V)
    (coherent : Coherent w.table) (defaults : w.table.options = {})
    (isTarget : Target legible w.table target) :
    Collects legible w (addClauses target clauses w).2 := by
  induction clauses generalizing w with
  | nil => exact collects_refl legible w coherent
  | cons clause rest ih =>
      obtain ⟨group, s⟩ := clause
      rw [List.forall_mem_cons] at about
      have grown := enters_extends _ _ coherent (run_enters s target w.table)
      cases run : s.run target w.table with
      | mk result t =>
          rw [run] at grown
          cases result with
          | error e =>
              rw [addClauses, runScript, run]
              exact collects_table legible w _ grown rfl rfl
          | ok f =>
              have sound := script_sound legible w.table t coherent defaults target f isTarget s
                about.1 (fun all => (List.forall_mem_cons.mp (clear all)).1) run
              have first := push_collects legible w t grown group f sound
              have others := ih about.2 (fun all => (List.forall_mem_cons.mp (clear all)).2)
                { w with table := t, update := w.update.push group f } grown.coherent
                (grown.options.trans defaults) (target_extends legible _ _ grown target isTarget)
              rw [addClauses, runScript, run]
              exact collects_trans legible _ _ _ first others

theorem then_collects (w : Workspace V) (first : Option Fault × Workspace V)
    (next : Workspace V → Option Fault × Workspace V) (here : Collects legible w first.2)
    (there : Collects legible first.2 (next first.2).2) :
    Collects legible w (andThen first next).2 := by
  obtain ⟨fault, w'⟩ := first
  cases fault with
  | some e => exact here
  | none => exact collects_trans legible _ _ _ here there

theorem entry_target (w : Workspace V) (coherent : Coherent w.table)
    (defaults : w.table.options = {}) (under : Fragment)
    (outer : under = [] ∨ Target legible w.table under) (path : String)
    (indexed : legible → IsIndexed path) :
    Target legible (w.addPath path).2.table
      (if under.text = "" then (w.addPath path).1 else within under (w.addPath path).1) := by
  have inner := path_target legible w.table coherent defaults path indexed
  by_cases top : under.text = ""
  · rw [if_pos top]
    exact inner
  · rw [if_neg top]
    rcases outer with rfl | outer
    · exact absurd Fragment.text_nil top
    · have grown := (add_path_spelled w.table coherent path).1
      exact within_target legible _ _ _ (target_extends legible _ _ grown under outer) inner

mutual

theorem apply_collects (a : Action V) (clear : legible → a.IsLegible) (target : Fragment)
    (w : Workspace V) (coherent : Coherent w.table) (defaults : w.table.options = {})
    (isTarget : Target legible w.table target) : Collects legible w (apply target a w).2 := by
  have leaf := add_clauses_collects legible target a.clauses (Action.clauses_about a)
    (fun all => Action.clauses_clear a (clear all)) w coherent defaults isTarget
  match a with
  | .nested entries =>
      exact entries_collect entries clear target w coherent defaults (.inr isTarget)
  | .keyed groups => exact groups_collect groups clear target w coherent defaults isTarget
  | .skip | .remove | .assign _ | .assignDefault _ | .arithmetic _ _ _ | .listAppend _ _
  | .removeIndexes _ | .assignIndexes _ | .addElements _ | .deleteElements _ => exact leaf

theorem entries_collect (entries : List (String × Action V))
    (clear : legible → Action.EntriesLegible entries) (under : Fragment) (w : Workspace V)
    (coherent : Coherent w.table) (defaults : w.table.options = {})
    (outer : under = [] ∨ Target legible w.table under) :
    Collects legible w (applyEntries under entries w).2 := by
  match entries with
  | [] => exact collects_refl legible w coherent
  | (path, a) :: rest =>
      by_cases skipped : a = .skip
      · subst skipped
        exact entries_collect rest (fun all => (clear all).2.2) under w coherent defaults outer
      · rw [apply_entries_cons under path a rest w skipped]
        have entered := collects_path legible w coherent path
        have isTarget := entry_target legible w coherent defaults under outer path
          fun all => (clear all).1
        have first := collects_trans legible _ _ _ entered
          (apply_collects a (fun all => (clear all).2.1) _ (w.addPath path).2
            entered.grown.coherent (entered.grown.options.trans defaults) isTarget)
        exact then_collects legible w _ _ first
          (entries_collect rest (fun all => (clear all).2.2) under _ first.grown.coherent
            (first.grown.options.trans defaults)
            (outer.imp_right (target_extends legible _ _ first.grown under)))

theorem groups_collect (groups : List (String × List (String × Action V)))
    (clear : legible → Action.GroupsLegible groups) (under : Fragment) (w : Workspace V)
    (coherent : Coherent w.table) (defaults : w.table.options = {})
    (outer : Target legible w.table under) :
    Collects legible w (applyGroups under groups w).2 := by
  match groups with
  | [] => exact collects_refl legible w coherent
  | (path, entries) :: rest =>
      rw [apply_groups_cons under path entries rest w]
      have entered := collects_path legible w coherent path
      have inner := path_target legible w.table coherent defaults path fun all => (clear all).1
      have isTarget := within_target legible _ _ _
        (target_extends legible _ _ entered.grown under outer) inner
      have first := collects_trans legible _ _ _ entered
        (entries_collect entries (fun all => (clear all).2.1) _ (w.addPath path).2
          entered.grown.coherent (entered.grown.options.trans defaults) (.inr isTarget))
      exact then_collects legible w _ _ first
        (groups_collect rest (fun all => (clear all).2.2) under _ first.grown.coherent
          (first.grown.options.trans defaults) (target_extends legible _ _ first.grown under outer))

end

theorem write_named (t : Table V) (coherent : Coherent t) (defaults : t.options = {})
    (self : Fragment) (items : List (Item V)) (p : String) (mentioned : .path p ∈ items) :
    (t.write self items).1.nameLabels ≠ [] := by
  induction items generalizing t with
  | nil => cases mentioned
  | cons item rest ih =>
      rw [Table.write, Fragment.nameLabels, List.filterMap_append]
      intro none
      obtain ⟨front, back⟩ := List.append_eq_nil_iff.mp none
      rcases List.mem_cons.mp mentioned with rfl | later
      · exact (path_bound t coherent defaults p).2 front
      · have grown := enters_extends _ _ coherent (write_item_enters t self item)
        exact ih _ grown.coherent (grown.options.trans defaults) later back

theorem key_items_path (name : String) (c : KeyClause V) : .path name ∈ c.items name := by
  cases c <;> simp [KeyClause.items]

theorem add_clause_collects (w : Workspace V) (coherent : Coherent w.table)
    (defaults : w.table.options = {}) (name : String) (c : KeyClause V)
    (clear : legible → IsIndexed name ∧ c.IsLegible) :
    Collects legible w (w.addClause name c) := by
  have written := write_bound w.table coherent defaults [] (by simp) (c.items name)
  have sound : Sound legible (w.table.write [] (c.items name)).2
      (w.table.write [] (c.items name)).1 := by
    refine ⟨written, write_named w.table coherent defaults [] _ name (key_items_path name c), ?_⟩
    intro all
    have read := write_written w.table coherent defaults [] [] (known_nil w.table) (c.items name)
      (key_items_clear name (clear all).1 c (clear all).2)
    exact reads_lexemes _ _ _ read.reads
  obtain ⟨table, update⟩ := add_clause_frame w name c
  rw [← table] at sound
  have grown : Extends w.table (w.addClause name c).table := by
    rw [table]
    exact enters_extends _ _ coherent (write_enters w.table [] (c.items name))
  have key : (w.addClause name c).key = w.key ∨
      (w.addClause name c).key = w.key ++ [(w.table.write [] (c.items name)).1] := by
    by_cases free : w.key.length < maxKeyClauses
    · right
      simp [addClause, writeClause, write, keepClause, free]
    · left
      simp [addClause, writeClause, write, keepClause, free, record]
  rcases key with same | more
  · exact collects_table legible w _ grown same update
  · refine ⟨grown, ?_, ?_⟩
    · intro builder f present
      cases builder with
      | key =>
          rw [clauses, more]
          exact List.mem_append_left _ present
      | update => rwa [clauses, update]
    · intro builder f present
      cases builder with
      | key =>
          rw [clauses, more] at present
          rcases List.mem_append.mp present with old | new
          · exact .inl old
          · rw [List.mem_singleton.mp new]
            exact .inr sound
      | update =>
          rw [clauses, update] at present
          exact .inl present

theorem keys_collect (entries : List (String × KeyClause V))
    (clear : legible → ∀ entry ∈ entries, IsIndexed entry.1 ∧ entry.2.IsLegible) (w : Workspace V)
    (coherent : Coherent w.table) (defaults : w.table.options = {}) :
    Collects legible w (entries.foldl (fun w (name, c) => w.addClause name c) w) := by
  induction entries generalizing w with
  | nil => exact collects_refl legible w coherent
  | cons entry rest ih =>
      obtain ⟨name, c⟩ := entry
      have first := add_clause_collects legible w coherent defaults name c
        fun all => (List.forall_mem_cons.mp (clear all)).1
      exact collects_trans legible _ _ _ first
        (ih (fun all => (List.forall_mem_cons.mp (clear all)).2) (w.addClause name c)
          first.grown.coherent (first.grown.options.trans defaults))

end Collecting

end Workspace

end ItemExpr
