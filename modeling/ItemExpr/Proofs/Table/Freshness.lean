import ItemExpr.Proofs.Table.Numbering
import ItemExpr.Proofs.Table.Unchanged
import Mathlib.Data.List.Induction

set_option autoImplicit false

namespace ItemExpr

variable {V : Type}

def Table.unvalued (t : Table V) : Table V := { t with values := [], nextValue := 0 }

theorem add_name_unvalued (t : Table V) (name : String) :
    (t.addName name).2.unvalued = (t.unvalued.addName name).2 := by
  have options : t.unvalued.options = t.options := rfl
  have names : t.unvalued.names = t.names := rfl
  rw [Table.addName, Table.addName, options, names]
  split_ifs
  · rfl
  · rfl
  · cases t.names.find? (·.2 = name) <;> rfl

theorem add_names_unvalued (t : Table V) (names : List String) :
    (t.addNames names).unvalued = t.unvalued.addNames names := by
  induction names generalizing t with
  | nil => rfl
  | cons name rest ih =>
      exact (ih (t.addName name).2).trans
        (congrArg (Table.addNames · rest) (add_name_unvalued t name))

theorem enter_all_unvalued (t : Table V) (calls : List (Call V)) :
    (t.enterAll calls).unvalued = t.unvalued.addNames (namesOf t.options calls) := by
  induction calls generalizing t with
  | nil => rfl
  | cons call rest ih =>
      have others := ih (t.enter call)
      rw [enter_options] at others
      rw [namesOf, List.flatMap_cons, Table.addNames, List.foldl_append]
      refine others.trans (congrArg (Table.addNames · _) ?_)
      cases call with
      | path p =>
          rw [Table.enter, Table.addPath, add_segments_names]
          exact add_names_unvalued t _
      | value v => rfl

def Table.ofNames (o : Options) (names : List String) : Table V :=
  ({ options := o } : Table V).addNames names

theorem of_names_snoc (o : Options) (names : List String) (name : String) :
    (Table.ofNames o (names ++ [name]) : Table V) = ((Table.ofNames o names).addName name).2 :=
  List.foldl_append

theorem of_names_options (o : Options) (names : List String) :
    (Table.ofNames o names : Table V).options = o := by
  induction names using List.reverseRecOn with
  | nil => rfl
  | append_singleton names name ih =>
      rw [of_names_snoc, (add_name_frame _ name).1]
      exact ih

theorem counter_grows (o : Options) (before after : List String) :
    (Table.ofNames o before : Table V).nextName ≤
      (Table.ofNames o (before ++ after) : Table V).nextName := by
  rw [Table.ofNames, Table.ofNames, Table.addNames, Table.addNames, List.foldl_append]
  exact add_names_next _ after

theorem put_key_iff {A : Type} (label key : String) (entry : A) (entries : List (String × A)) :
    label ∈ (put key entry entries).map Prod.fst ↔
      label = key ∨ label ∈ entries.map Prod.fst := by
  rw [put_keys]
  split_ifs with known
  · exact ⟨.inr, fun either => either.elim (fun same => same ▸ known) id⟩
  · rw [List.mem_append, List.mem_singleton, or_comm]

-- Entries are overwritten but never removed, so that every alias handed out is still there.
theorem handed_out_iff (o : Options) (names : List String) (label : String) :
    label ∈ (Table.ofNames o names : Table V).names.map Prod.fst ↔
      (∃ k < (Table.ofNames o names : Table V).nextName, label = o.nameLabel k) ∨
        ∃ r ∈ names, o.reserved r = true ∧ label = "#" ++ r := by
  induction names using List.reverseRecOn with
  | nil => simp [Table.ofNames, Table.addNames]
  | append_singleton names name ih =>
      have more : (∃ r ∈ names ++ [name], o.reserved r = true ∧ label = "#" ++ r) ↔
          (∃ r ∈ names, o.reserved r = true ∧ label = "#" ++ r) ∨
            o.reserved name = true ∧ label = "#" ++ name := by
        simp only [List.mem_append, List.mem_singleton, or_and_right, exists_or, exists_eq_left]
      have options := of_names_options (V := V) o names
      have adds := add_name_adds (Table.ofNames o names : Table V) name
      rw [of_names_snoc, more]
      generalize (Table.ofNames o names : Table V).addName name = added at adds ⊢
      cases adds with
      | reserved reserved =>
          rw [options] at reserved
          rw [put_key_iff, ih, or_comm, or_assoc]
          simp only [reserved, true_and]
      | bare plain _ | found _ plain _ _ =>
          rw [options] at plain
          rw [ih]
          simp [plain]
      | counted plain _ _ =>
          rw [options] at plain ⊢
          rw [put_key_iff, ih, or_left_comm, Nat.exists_lt_succ_right, or_assoc]
          simp only [plain, Bool.false_eq_true, false_and, or_false]

-- A reserved alias may be counted as well, once and for another name. It stands for its own name if
-- that was entered again since, or if the counter has not come so far.
theorem reserved_stands_iff (o : Options) (r : String) (reserved : o.reserved r = true)
    (before after : List String) (last : r ∉ after) :
    find? ("#" ++ r) (Table.ofNames o (before ++ r :: after) : Table V).names = some r ↔
      ∀ k, "#" ++ r = o.nameLabel k →
        k < (Table.ofNames o before : Table V).nextName ∨
          (Table.ofNames o (before ++ r :: after) : Table V).nextName ≤ k := by
  induction after using List.reverseRecOn with
  | nil =>
      have options := of_names_options (V := V) o before
      have adds := add_name_adds (Table.ofNames o before : Table V) r
      rw [of_names_snoc]
      generalize (Table.ofNames o before : Table V).addName r = added at adds ⊢
      cases adds with
      | reserved _ =>
          rw [find_put_self]
          exact ⟨fun _ k _ => Nat.lt_or_ge k _, fun _ => rfl⟩
      | bare plain _ | found _ plain _ _ | counted plain _ _ =>
          rw [options, reserved] at plain
          cases plain
  | append_singleton after name ih =>
      rw [List.mem_append, List.mem_singleton, not_or] at last
      have others := ih last.1
      have grown := counter_grows (V := V) o before (r :: after)
      have options := of_names_options (V := V) o (before ++ r :: after)
      have adds := add_name_adds (Table.ofNames o (before ++ r :: after) : Table V) name
      rw [← List.cons_append, ← List.append_assoc, of_names_snoc]
      generalize (Table.ofNames o (before ++ r :: after) : Table V) = t
        at others grown options adds ⊢
      generalize t.addName name = added at adds ⊢
      cases adds with
      | reserved _ =>
          have different : "#" ++ name ≠ "#" ++ r := fun same =>
            last.2 (append_injective "#" name r same).symm
          rw [find_put_other _ _ _ _ different]
          exact others
      | bare _ _ | found _ _ _ _ => exact others
      | counted plain _ _ =>
          rw [options]
          by_cases shared : o.nameLabel t.nextName = "#" ++ r
          · rw [← shared, find_put_self]
            constructor
            · intro same
              rw [options, Option.some.inj same, reserved] at plain
              cases plain
            · intro apart
              rcases apart t.nextName rfl with below | above
              · exact absurd below (Nat.not_lt.mpr grown)
              · exact absurd above (Nat.not_succ_le_self _)
          · rw [find_put_other _ _ _ _ shared, others]
            refine forall₂_congr fun k same => or_congr_right ⟨fun le => ?_, Nat.le_of_succ_le⟩
            have different : t.nextName ≠ k := fun equal => shared (equal ▸ same.symm)
            exact Nat.lt_of_le_of_ne le different

theorem last_occurrence {A : Type} (a : A) (as : List A) (present : a ∈ as) :
    ∃ before after, as = before ++ a :: after ∧ a ∉ after := by
  obtain ⟨back, front, split, first⟩ :=
    List.eq_append_cons_of_mem (List.mem_reverse.mpr present)
  refine ⟨front.reverse, back.reverse, ?_, by simpa using first⟩
  simpa using congrArg List.reverse split

structure Moment (V : Type) where
  options : Options
  steps : List (Table.Step V)
  segments : List Segment := []

namespace Moment

def table (m : Moment V) : Table V := ((Table.run m.options m.steps).addSegments m.segments).2

def names (m : Moment V) : List String :=
  namesOf m.options (Table.sinceReset m.steps) ++ m.segments.map Segment.name

theorem table_unvalued (m : Moment V) : m.table.unvalued = .ofNames m.options m.names := by
  have run := enter_all_unvalued ({ options := m.options } : Table V) (Table.sinceReset m.steps)
  rw [← run_since_reset] at run
  rw [table, add_segments_names, add_names_unvalued, run, Table.ofNames, names, Table.addNames,
    Table.addNames, Table.addNames, List.foldl_append]
  rfl

structure CountsFresh (m : Moment V) (name : String) : Prop where
  missing : m.options.nameLabel m.table.nextName ∉ m.table.names.map Prod.fst
  appended : m.table.addName name =
    (.name (m.options.nameLabel m.table.nextName),
      { m.table with
        names := m.table.names ++ [(m.options.nameLabel m.table.nextName, name)]
        nextName := m.table.nextName + 1 })
  kept : ∀ r ∈ m.names, m.options.reserved r = true →
    find? ("#" ++ r) (m.table.addName name).2.names = some r

def KeepsApart (m : Moment V) : Prop :=
  ∀ before r after, m.names = before ++ r :: after → r ∉ after → m.options.reserved r = true →
    ∀ k, "#" ++ r = m.options.nameLabel k →
      k < (Table.ofNames m.options before : Table V).nextName ∨ m.table.nextName < k

theorem apart_keeps (m : Moment V) (apart : m.options.Apart) : m.KeepsApart := by
  intro _ r _ _ _ reserved k same
  rw [apart r k same] at reserved
  cases reserved

theorem table_options (m : Moment V) : m.table.options = m.options :=
  (congrArg Table.options m.table_unvalued).trans (of_names_options m.options m.names)

theorem table_counter (m : Moment V) :
    m.table.nextName = (Table.ofNames m.options m.names : Table V).nextName := by
  rw [← m.table_unvalued]
  rfl

theorem added_names (m : Moment V) (name : String) :
    (m.table.addName name).2.unvalued = .ofNames m.options (m.names ++ [name]) := by
  rw [add_name_unvalued, table_unvalued, of_names_snoc]

section Counted

variable (m : Moment V) (name : String) (plain : m.options.reserved name = false)
  (covered : m.options.bare name = false) (missing : ∀ entry ∈ m.table.names, entry.2 ≠ name)

include plain covered missing

theorem name_counted :
    m.table.addName name =
      (.name (m.options.nameLabel m.table.nextName),
        { m.table with
          names := put (m.options.nameLabel m.table.nextName) name m.table.names
          nextName := m.table.nextName + 1 }) := by
  have options := m.table_options
  have adds := add_name_adds m.table name
  generalize m.table.addName name = added at adds ⊢
  cases adds with
  | reserved reserved =>
      rw [options, plain] at reserved
      cases reserved
  | bare _ bare =>
      rw [options, covered] at bare
      cases bare
  | found label _ _ present => exact absurd rfl (missing _ present)
  | counted _ _ _ => simp only [options]

theorem kept_iff (before : List String) (r : String) (after : List String)
    (split : m.names = before ++ r :: after) (last : r ∉ after)
    (reserved : m.options.reserved r = true) :
    find? ("#" ++ r) (m.table.addName name).2.names = some r ↔
      ∀ k, "#" ++ r = m.options.nameLabel k →
        k < (Table.ofNames m.options before : Table V).nextName ∨ m.table.nextName < k := by
  have added := m.added_names name
  have later : r ∉ after ++ [name] := by
    rw [List.mem_append, List.mem_singleton, not_or]
    refine ⟨last, ?_⟩
    rintro rfl
    rw [plain] at reserved
    cases reserved
  have stands := reserved_stands_iff (V := V) m.options r reserved before (after ++ [name]) later
  rw [← List.cons_append, ← List.append_assoc, ← split, ← added] at stands
  have counter : (m.table.addName name).2.unvalued.nextName = m.table.nextName + 1 := by
    rw [name_counted m name plain covered missing]
    rfl
  rw [counter] at stands
  exact stands

-- A new alias overwrites none and leaves every reserved alias to its name exactly if each of them
-- was entered late enough or is out of reach.
theorem counts_fresh_iff : m.CountsFresh name ↔ m.KeepsApart := by
  have added := name_counted m name plain covered missing
  have kept := kept_iff m name plain covered missing
  constructor
  · intro fresh before r after split last reserved
    have present : r ∈ m.names := by simp [split]
    exact (kept before r after split last reserved).mp (fresh.kept r present reserved)
  · intro apart
    have free : m.options.nameLabel m.table.nextName ∉ m.table.names.map Prod.fst := by
      have handed := handed_out_iff (V := V) m.options m.names
        (m.options.nameLabel m.table.nextName)
      rw [← m.table_unvalued] at handed
      refine fun present => (handed.mp present).elim ?_ ?_
      · rintro ⟨k, below, same⟩
        rw [← name_label_injective m.options _ k same] at below
        exact Nat.lt_irrefl _ below
      · rintro ⟨r, present, reserved, same⟩
        obtain ⟨before, after, split, last⟩ := last_occurrence r m.names present
        have grown := counter_grows (V := V) m.options before (r :: after)
        rw [← split, ← m.table_counter] at grown
        rcases apart before r after split last reserved _ same.symm with below | above
        · exact absurd below (Nat.not_lt.mpr grown)
        · exact absurd above (Nat.lt_irrefl _)
    refine ⟨free, ?_, ?_⟩
    · rw [added, put_new _ _ _ free]
    · intro r present reserved
      obtain ⟨before, after, split, last⟩ := last_occurrence r m.names present
      exact (kept before r after split last reserved).mpr (apart before r after split last reserved)

end Counted

def crowdedMoment : Moment Nat where
  options := { Options.standard with reserved := fun name => name = "n0" || name = "n5" }
  steps := [.enter (.path "a"), .enter (.path "n0.n5")]

theorem crowded_counts_fresh :
    crowdedMoment.options.reserved "b" = false ∧ crowdedMoment.options.bare "b" = false ∧
      (∀ entry ∈ crowdedMoment.table.names, entry.2 ≠ "b") ∧ crowdedMoment.KeepsApart ∧
        crowdedMoment.CountsFresh "b" := by
  have names : crowdedMoment.table.names = [("#n0", "n0"), ("#n5", "n5")] := by decide +kernel
  have missing : ∀ entry ∈ crowdedMoment.table.names, entry.2 ≠ "b" := by simp [names]
  have apart : crowdedMoment.KeepsApart := by
    intro before r after split _ reserved k same
    have listed : crowdedMoment.names = ["a", "n0", "n5"] := by decide +kernel
    have number (j : Nat) (label : "#" ++ r = crowdedMoment.options.nameLabel j) : k = j :=
      name_label_injective _ k j (same.symm.trans label)
    rw [listed] at split
    rcases before with _ | ⟨first, _ | ⟨second, _ | ⟨third, rest⟩⟩⟩
    · obtain ⟨rfl, -⟩ := List.cons.inj split
      exact absurd reserved (by decide +kernel)
    · simp only [List.cons_append, List.nil_append, List.cons.injEq] at split
      obtain ⟨rfl, rfl, -⟩ := split
      obtain rfl := number 0 (by decide +kernel)
      exact .inl (by decide +kernel)
    · simp only [List.cons_append, List.nil_append, List.cons.injEq] at split
      obtain ⟨-, -, rfl, -⟩ := split
      obtain rfl := number 5 (by decide +kernel)
      exact .inr (by decide +kernel)
    · simp at split
  exact ⟨rfl, rfl, missing, apart, (counts_fresh_iff crowdedMoment "b" rfl rfl missing).mpr apart⟩

theorem reserved_alias_overwritten :
    ¬ ∀ (m : Moment Nat) (name : String), m.options.reserved name = false →
      m.options.bare name = false → (∀ entry ∈ m.table.names, entry.2 ≠ name) →
        m.CountsFresh name := by
  intro always
  have fresh := always
    { options := { Options.standard with reserved := fun name => name = "n0" }
      steps := [.enter (.path "n0")] } "x" rfl rfl (by decide +kernel)
  exact absurd fresh.missing (by decide +kernel)

end Moment

end ItemExpr
