import ItemExpr.Proofs.Entering
import ItemExpr.Proofs.Table.Settled

set_option autoImplicit false

namespace ItemExpr

variable {V : Type}

structure Options.IsDotted (o : Options) (d : Char) : Prop where
  splits : o.splitPaths = true
  delimiter : o.delimiter = String.singleton d
  apart : o.Apart
  named : o.bare "" = false

theorem plain_apart (o : Options) (plain : ∀ name, o.reserved name = false) : o.Apart :=
  fun name _ _ => plain name

namespace Action

mutual

def leaves : Action V → List (List String × Action V)
  | .skip => []
  | .nested entries => leavesEach entries
  | .keyed groups => leavesGroups groups
  | a => [([], a)]

def leavesEach : List (String × Action V) → List (List String × Action V)
  | [] => []
  | (key, a) :: rest => a.leaves.map (Prod.map (key :: ·) id) ++ leavesEach rest

def leavesGroups : List (String × List (String × Action V)) → List (List String × Action V)
  | [] => []
  | (key, entries) :: rest =>
      (leavesEach entries).map (Prod.map (key :: ·) id) ++ leavesGroups rest

end

mutual

def IsInhabited : Action V → Prop
  | .nested entries => leavesEach entries ≠ [] ∧ EntriesInhabited entries
  | .keyed groups => leavesGroups groups ≠ [] ∧ GroupsInhabited groups
  | _ => True

def EntriesInhabited : List (String × Action V) → Prop
  | [] => True
  | (_, a) :: rest => a.IsInhabited ∧ EntriesInhabited rest

def GroupsInhabited : List (String × List (String × Action V)) → Prop
  | [] => True
  | (_, entries) :: rest =>
      leavesEach entries ≠ [] ∧ EntriesInhabited entries ∧ GroupsInhabited rest

end

def dotted (d : Char) (keys : List String) (leaf : List String × Action V) : String × Action V :=
  ((String.singleton d).intercalate (keys ++ leaf.1), leaf.2)

theorem dotted_cons (d : Char) (keys : List String) (key : String)
    (leaves : List (List String × Action V)) :
    (leaves.map (Prod.map (key :: ·) id)).map (dotted d keys) =
      leaves.map (dotted d (keys ++ [key])) := by
  simp [dotted, Function.comp_def]

theorem inhabited_leaves (a : Action V) (inhabited : a.IsInhabited) (kept : a ≠ .skip) :
    a.leaves ≠ [] := by
  cases a with
  | skip => exact absurd rfl kept
  | nested entries => exact inhabited.1
  | keyed groups => exact inhabited.1
  | _ => exact List.cons_ne_nil _ _

theorem kept_below (key : String) (leaves : List (List String × Action V))
    (each : ∀ leaf ∈ leaves, leaf.2 ≠ .skip) :
    ∀ leaf ∈ leaves.map (Prod.map (key :: ·) id), leaf.2 ≠ .skip := by
  intro leaf present
  obtain ⟨below, known, rfl⟩ := List.mem_map.mp present
  exact each below known

mutual

theorem leaves_kept (a : Action V) : ∀ leaf ∈ a.leaves, leaf.2 ≠ .skip := by
  cases a with
  | skip => simp [leaves]
  | nested entries => exact leaves_each_kept entries
  | keyed groups => exact leaves_groups_kept groups
  | _ => simp [leaves]

theorem leaves_each_kept (entries : List (String × Action V)) :
    ∀ leaf ∈ leavesEach entries, leaf.2 ≠ .skip := by
  match entries with
  | [] => simp [leavesEach]
  | (key, a) :: rest =>
      exact List.forall_mem_append.mpr
        ⟨kept_below key a.leaves (leaves_kept a), leaves_each_kept rest⟩

theorem leaves_groups_kept (groups : List (String × List (String × Action V))) :
    ∀ leaf ∈ leavesGroups groups, leaf.2 ≠ .skip := by
  match groups with
  | [] => simp [leavesGroups]
  | (key, entries) :: rest =>
      exact List.forall_mem_append.mpr
        ⟨kept_below key (leavesEach entries) (leaves_each_kept entries), leaves_groups_kept rest⟩

end

end Action

open ItemExpr.Action

namespace Workspace

def applyEach : List (String × Action V) → Workspace V → Option Fault × Workspace V
  | [], w => (none, w)
  | entry :: rest, w => andThen (applyEntries [] [entry] w) (applyEach rest)

theorem and_then_assoc (first : Option Fault × Workspace V)
    (next last : Workspace V → Option Fault × Workspace V) :
    andThen (andThen first next) last = andThen first fun w => andThen (next w) last := by
  obtain ⟨fault, w⟩ := first
  cases fault <;> rfl

theorem and_then_done (first : Option Fault × Workspace V) :
    (andThen first fun w => (none, w)) = first := by
  obtain ⟨fault, w⟩ := first
  cases fault <;> rfl

theorem apply_each_append (first others : List (String × Action V)) (w : Workspace V) :
    applyEach (first ++ others) w = andThen (applyEach first w) (applyEach others) := by
  induction first generalizing w with
  | nil => rfl
  | cons entry rest ih =>
      rw [List.cons_append, applyEach, applyEach, and_then_assoc]
      exact congrArg _ (funext ih)

inductive Stands (d : Char) (t : Table V) : List String → Fragment → Prop
  | top : Stands d t [] []
  | inside (keys : List String) (f : Fragment) : keys ≠ [] →
      Settled t (t.options.segments ((String.singleton d).intercalate keys)) f → Stands d t keys f

theorem stands_extends (d : Char) (t t' : Table V) (coherent : Coherent t) (later : Extends t t')
    (keys : List String) (f : Fragment) (stands : Stands d t keys f) : Stands d t' keys f := by
  cases stands with
  | top => exact .top
  | inside keys f present settled =>
      refine .inside keys f present ?_
      rw [later.options]
      exact settled_extends t t' coherent later _ f settled

theorem apply_leaf (d : Char) (w : Workspace V) (a : Action V) (kept : a ≠ .skip)
    (keys : List String) (present : keys ≠ []) (target : Fragment)
    (stands : Stands d w.table keys target) :
    applyEach [dotted d keys ([], a)] w = apply target a w := by
  have entered : w.addPath ((String.singleton d).intercalate keys) = (target, w) := by
    cases stands with
    | top => exact absurd rfl present
    | inside _ _ _ settled =>
        have again := settled_written w.table _ target settled
        rw [addPath, Table.addPath, again]
  rw [applyEach, dotted, apply_entries_cons _ _ _ _ _ kept, List.append_nil, entered]
  simp [applyEach, applyEntries, and_then_done, Fragment.text_nil]

section Flattening

variable (o : Options) (d : Char) (isDotted : o.IsDotted d)

include isDotted

theorem segments_joined (keys others : List String) (front : keys ≠ []) (back : others ≠ []) :
    o.segments ((String.singleton d).intercalate (keys ++ others)) =
      o.segments ((String.singleton d).intercalate keys) ++
        o.segments ((String.singleton d).intercalate others) := by
  simp only [Options.segments, if_pos isDotted.splits, isDotted.delimiter]
  rw [String.intercalate_append_of_ne_nil front back, Text.split_append, List.map_append]

section Entering

variable (t : Table V) (coherent : Coherent t) (options : t.options = o)

include coherent options

theorem stands_text (keys : List String) (f : Fragment) (stands : Stands d t keys f) :
    f.text = "" ↔ keys = [] := by
  cases stands with
  | top => simp [Fragment.text_nil]
  | inside keys f present settled =>
      have written := settled_text t coherent (options ▸ isDotted.named) _ f settled
      simp [present, written]

theorem add_key (keys : List String) (f : Fragment) (stands : Stands d t keys f) (key : String) :
    t.addPath ((String.singleton d).intercalate (keys ++ [key])) =
      (if f.text = "" then (t.addPath key).1 else within f (t.addPath key).1,
        (t.addPath key).2) := by
  have top := stands_text o d isDotted t coherent options keys f stands
  cases stands with
  | top =>
      rw [if_pos (top.mpr rfl), List.nil_append, String.intercalate_singleton]
  | inside keys f present settled =>
      rw [if_neg fun empty => present (top.mp empty), Table.addPath, Table.addPath, options,
        segments_joined o d isDotted keys [key] present (by simp), String.intercalate_singleton,
        add_segments_append t _ _ (segments_ne_nil o _) (segments_ne_nil o _),
        settled_written t _ f (options ▸ settled)]
      rfl

theorem stands_key (keys : List String) (f : Fragment) (stands : Stands d t keys f)
    (key : String) :
    Stands d (t.addPath key).2 (keys ++ [key])
      (if f.text = "" then (t.addPath key).1 else within f (t.addPath key).1) := by
  have whole := add_key o d isDotted t coherent options keys f stands key
  have grown := (add_path_spelled t coherent key).1
  have settled := add_segments_settled t coherent _
    (segments_ne_nil t.options ((String.singleton d).intercalate (keys ++ [key])))
  rw [← Table.addPath, whole] at settled
  refine .inside _ _ (by simp) ?_
  rw [grown.options]
  exact settled

theorem add_path_below (keys more : List String) (front : keys ≠ []) :
    (t.addPath ((String.singleton d).intercalate keys)).2.addPath
        ((String.singleton d).intercalate (keys ++ more)) =
      t.addPath ((String.singleton d).intercalate (keys ++ more)) := by
  have grown := (add_path_spelled t coherent ((String.singleton d).intercalate keys)).1
  have settled := add_segments_settled t coherent _
    (segments_ne_nil o ((String.singleton d).intercalate keys))
  have again := settled_written _ _ _ settled
  rw [Table.addPath, grown.options, Table.addPath, Table.addPath, options]
  cases more with
  | nil =>
      rw [List.append_nil]
      exact again
  | cons next rest =>
      rw [segments_joined o d isDotted keys (next :: rest) front (by simp),
        add_segments_append _ _ _ (segments_ne_nil o _) (segments_ne_nil o _),
        add_segments_append _ _ _ (segments_ne_nil o _) (segments_ne_nil o _), again]

end Entering

section Leaves

variable (w : Workspace V) (coherent : Coherent w.table) (options : w.table.options = o)

include coherent options

theorem apply_below (keys : List String) (front : keys ≠ [])
    (leaves : List (List String × Action V)) (present : leaves ≠ [])
    (kept : ∀ leaf ∈ leaves, leaf.2 ≠ .skip) :
    applyEach (leaves.map (dotted d keys))
        (w.addPath ((String.singleton d).intercalate keys)).2 =
      applyEach (leaves.map (dotted d keys)) w := by
  cases leaves with
  | nil => exact absurd rfl present
  | cons leaf rest =>
      have below := add_path_below o d isDotted w.table coherent options keys leaf.1 front
      have entered : (w.addPath ((String.singleton d).intercalate keys)).2.addPath
          ((String.singleton d).intercalate (keys ++ leaf.1)) =
            w.addPath ((String.singleton d).intercalate (keys ++ leaf.1)) := by
        simp only [addPath, below]
      rw [List.map_cons, applyEach, applyEach, dotted,
        apply_entries_cons _ _ _ _ _ (kept leaf List.mem_cons_self),
        apply_entries_cons _ _ _ _ _ (kept leaf List.mem_cons_self), entered]

end Leaves

-- One key of a map and what comes after it. To enter the key is to enter its joined path, and the
-- first leaf below does that by itself, so no entry of the table comes earlier or later.
theorem then_flattened (keys : List String) (under : Fragment) (w : Workspace V)
    (coherent : Coherent w.table) (options : w.table.options = o)
    (stands : Stands d w.table keys under) (key : String) (leaves : List (List String × Action V))
    (present : leaves ≠ []) (kept : ∀ leaf ∈ leaves, leaf.2 ≠ .skip)
    (first : Option Fault × Workspace V) (grown : Extends (w.addPath key).2.table first.2.table)
    (below : first = applyEach (leaves.map (dotted d (keys ++ [key]))) (w.addPath key).2)
    (next : Workspace V → Option Fault × Workspace V) (others : List (List String × Action V))
    (rest : ∀ w' : Workspace V, Coherent w'.table → w'.table.options = o →
      Stands d w'.table keys under → next w' = applyEach (others.map (dotted d keys)) w') :
    andThen first next =
      applyEach ((leaves.map (Prod.map (key :: ·) id) ++ others).map (dotted d keys)) w := by
  have whole := add_key o d isDotted w.table coherent options keys under stands key
  have joined : (w.addPath ((String.singleton d).intercalate (keys ++ [key]))).2 =
      (w.addPath key).2 := by
    simp only [addPath, whole]
  have entered := (add_path_spelled w.table coherent key).1
  have later := extends_trans _ _ _ entered grown
  rw [List.map_append, dotted_cons, apply_each_append,
    ← apply_below o d isDotted w coherent options (keys ++ [key]) (by simp) leaves present kept,
    joined, ← below]
  obtain ⟨fault, w'⟩ := first
  cases fault with
  | some e => rfl
  | none =>
      exact rest w' later.coherent (later.options.trans options)
        (stands_extends d w.table w'.table coherent later keys under stands)

end Flattening

mutual

theorem apply_flattened (o : Options) (d : Char) (isDotted : o.IsDotted d) (a : Action V)
    (kept : a ≠ .skip) (inhabited : a.IsInhabited) (keys : List String) (present : keys ≠ [])
    (target : Fragment) (w : Workspace V) (coherent : Coherent w.table)
    (options : w.table.options = o) (stands : Stands d w.table keys target) :
    apply target a w = applyEach (a.leaves.map (dotted d keys)) w := by
  cases a with
  | nested entries =>
      exact entries_flattened o d isDotted entries inhabited.2 keys target w coherent options stands
  | keyed groups =>
      exact groups_flattened o d isDotted groups inhabited.2 keys present target w coherent options
        stands
  | _ => exact (apply_leaf d w _ kept keys present target stands).symm

theorem entries_flattened (o : Options) (d : Char) (isDotted : o.IsDotted d)
    (entries : List (String × Action V)) (inhabited : EntriesInhabited entries)
    (keys : List String) (under : Fragment) (w : Workspace V) (coherent : Coherent w.table)
    (options : w.table.options = o) (stands : Stands d w.table keys under) :
    applyEntries under entries w = applyEach ((leavesEach entries).map (dotted d keys)) w := by
  match entries with
  | [] => rfl
  | (key, a) :: rest =>
      by_cases skipped : a = .skip
      · subst skipped
        exact entries_flattened o d isDotted rest inhabited.2 keys under w coherent options stands
      · have inside := stands_key o d isDotted w.table coherent options keys under stands key
        have entered := (add_path_spelled w.table coherent key).1
        have below := apply_flattened o d isDotted a skipped inhabited.1 (keys ++ [key]) (by simp) _
          (w.addPath key).2 entered.coherent (entered.options.trans options) inside
        rw [apply_entries_cons under key a rest w skipped]
        exact then_flattened o d isDotted keys under w coherent options stands key a.leaves
          (inhabited_leaves a inhabited.1 skipped) (leaves_kept a) _
          (enters_extends _ _ entered.coherent (apply_enters a _ (w.addPath key).2)) below _
          (leavesEach rest) (entries_flattened o d isDotted rest inhabited.2 keys under)

theorem groups_flattened (o : Options) (d : Char) (isDotted : o.IsDotted d)
    (groups : List (String × List (String × Action V))) (inhabited : GroupsInhabited groups)
    (keys : List String) (present : keys ≠ []) (under : Fragment) (w : Workspace V)
    (coherent : Coherent w.table) (options : w.table.options = o)
    (stands : Stands d w.table keys under) :
    applyGroups under groups w = applyEach ((leavesGroups groups).map (dotted d keys)) w := by
  match groups with
  | [] => rfl
  | (key, entries) :: rest =>
      have written : under.text ≠ "" := fun empty =>
        present ((stands_text o d isDotted w.table coherent options keys under stands).mp empty)
      have inside := stands_key o d isDotted w.table coherent options keys under stands key
      rw [if_neg written] at inside
      have entered := (add_path_spelled w.table coherent key).1
      have below := entries_flattened o d isDotted entries inhabited.2.1 (keys ++ [key]) _
        (w.addPath key).2 entered.coherent (entered.options.trans options) inside
      rw [apply_groups_cons under key entries rest w]
      exact then_flattened o d isDotted keys under w coherent options stands key
        (leavesEach entries) inhabited.1 (leaves_each_kept entries) _
        (enters_extends _ _ entered.coherent (entries_enter entries _ (w.addPath key).2)) below _
        (leavesGroups rest) (groups_flattened o d isDotted rest inhabited.2.2 keys present under)

end

-- Maps within maps leave the workspace that one map for each leaf would, with the joined keys for
-- its path; where a clause cannot be written both stop.
theorem nested_as_dotted (o : Options) (d : Char) (isDotted : o.IsDotted d) (w : Workspace V)
    (reached : w.table.Reached o) (entries : List (String × Action V))
    (inhabited : EntriesInhabited entries) :
    applyEntries [] entries w = applyEach ((leavesEach entries).map (dotted d [])) w := by
  obtain ⟨coherent, options⟩ := reached_coherent o isDotted.apart w.table reached
  exact entries_flattened o d isDotted entries inhabited [] [] w coherent options .top

def slashOptions : Options :=
  { Options.standard with delimiter := "/", bare := isIdentifier, delimiter_ne := by decide }

theorem slash_dotted : slashOptions.IsDotted '/' where
  splits := rfl
  delimiter := rfl
  apart := plain_apart slashOptions fun _ => rfl
  named := rfl

def shelfWorkspace : Workspace Nat :=
  { table := ({ options := slashOptions } : Table Nat).enter (.path "in stock") }

def shelfEntries : List (String × Action Nat) :=
  [("in stock",
      .nested
        [("a/b[0]", .remove), ("old", .skip),
          ("", .keyed [("x", [("in stock", .assign (.literal 1))])])]),
    ("a", .assign (.path "in stock/a"))]

theorem shelf_as_dotted :
    slashOptions.IsDotted '/' ∧ shelfWorkspace.table.Reached slashOptions ∧
      EntriesInhabited shelfEntries ∧
      (leavesEach shelfEntries).map (fun leaf => (dotted '/' [] leaf).1) =
        ["in stock/a/b[0]", "in stock//x/in stock", "a"] ∧
      applyEntries [] shelfEntries shelfWorkspace =
        applyEach ((leavesEach shelfEntries).map (dotted '/' [])) shelfWorkspace ∧
      (applyEntries [] shelfEntries shelfWorkspace).2.update.set.map Fragment.text =
        ["#n0.#n1.x.#n0 = :v0", "a = #n0.a"] ∧
      (applyEntries [] shelfEntries shelfWorkspace).2.update.remove.map Fragment.text =
        ["#n0.a.b[0]"] := by
  have reached : shelfWorkspace.table.Reached slashOptions := .enter _ (.path "in stock") .fresh
  have inhabited : EntriesInhabited shelfEntries := by
    simp [shelfEntries, EntriesInhabited, IsInhabited, GroupsInhabited, leavesEach, leavesGroups,
      leaves]
  exact ⟨slash_dotted, reached, inhabited, by decide +kernel,
    nested_as_dotted slashOptions '/' slash_dotted shelfWorkspace reached shelfEntries inhabited,
    by decide +kernel, by decide +kernel⟩

end Workspace
end ItemExpr
