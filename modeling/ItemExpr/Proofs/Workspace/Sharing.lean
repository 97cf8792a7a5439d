import ItemExpr.Proofs.Workspace.Collecting
import Mathlib.Data.List.Induction

set_option autoImplicit false

namespace ItemExpr.Workspace

variable {V : Type}

inductive Step (V : Type)
  | enter (call : Call V)
  | key (entries : List (String × KeyClause V))
  | update (under : Option String) (entries : List (String × Action V))
  | reset (builder : Builder)

def step (w : Workspace V) : Step V → Workspace V
  | .enter call => { w with table := w.table.enter call }
  | .key entries => (w.buildKey entries).2
  | .update none entries => (applyEntries [] entries w).2
  | .update (some path) entries => (applyEntries (w.addPath path).1 entries (w.addPath path).2).2
  | .reset .key => w.resetKey
  | .reset .update => w.resetUpdate

def run (w : Workspace V) (steps : List (Step V)) : Workspace V := steps.foldl step w

def fresh : Workspace V := { table := { options := .standard } }

def Step.IsLegible : Step V → Prop
  | .enter _ => True
  | .key entries => ∀ entry ∈ entries, IsIndexed entry.1 ∧ entry.2.IsLegible
  | .update under entries => (∀ path ∈ under, IsIndexed path) ∧ Action.EntriesLegible entries
  | .reset _ => True

def ResetsAlone : Workspace V → List (Step V) → Prop
  | _, [] => True
  | w, s :: rest =>
      (∀ builder, s = .reset builder → w.clauses builder.other = []) ∧ ResetsAlone (w.step s) rest

-- A clause that was held at an earlier moment, and not dropped by a reset of its own builder since,
-- is still held, reads as it did and has no alias that stands for nothing.
def Intact (reading : Table V → Fragment → List (Symbol V)) (steps : List (Step V)) : Prop :=
  ∀ earlier later builder f, steps = earlier ++ later →
    f ∈ (fresh.run earlier).clauses builder → .reset builder ∉ later →
      f ∈ (fresh.run steps).clauses builder ∧
        reading (fresh.run steps).table f = reading (fresh.run earlier).table f ∧
          ∀ label, .unbound label ∉ reading (fresh.run steps).table f

structure Holding (legible : Prop) (w : Workspace V) : Prop where
  coherent : Coherent w.table
  defaults : w.table.options = {}
  sound : ∀ builder, ∀ f ∈ w.clauses builder, Sound legible w.table f

theorem run_append (w : Workspace V) (first others : List (Step V)) :
    w.run (first ++ others) = (w.run first).run others :=
  List.foldl_append

theorem resets_alone_append (w : Workspace V) (first others : List (Step V)) :
    ResetsAlone w (first ++ others) ↔ ResetsAlone w first ∧ ResetsAlone (w.run first) others := by
  induction first generalizing w with
  | nil => simp [ResetsAlone, run]
  | cons s rest ih =>
      rw [List.cons_append, ResetsAlone, ResetsAlone, ih, and_assoc]
      rfl

section Holding

variable (legible : Prop)

theorem fresh_holding : Holding legible (fresh : Workspace V) where
  coherent := coherent_default
  defaults := rfl
  sound := by
    intro builder f present
    cases builder <;> cases present

theorem collects_holding (w w' : Workspace V) (holding : Holding legible w)
    (collects : Collects legible w w') : Holding legible w' where
  coherent := collects.grown.coherent
  defaults := collects.grown.options.trans holding.defaults
  sound := by
    intro builder f present
    rcases collects.sound builder f present with old | new
    · exact sound_extends legible _ _ collects.grown f (holding.sound builder f old)
    · exact new

theorem step_collects (w : Workspace V) (holding : Holding legible w) (s : Step V)
    (clear : legible → s.IsLegible) (working : ∀ builder, s ≠ .reset builder) :
    Collects legible w (w.step s) := by
  obtain ⟨coherent, defaults, _⟩ := holding
  cases s with
  | enter call =>
      exact collects_table legible w _ (enter_extends w.table coherent call) rfl rfl
  | key entries => exact keys_collect legible entries clear w coherent defaults
  | update under entries =>
      cases under with
      | none =>
          exact entries_collect legible entries (fun all => (clear all).2) [] w coherent defaults
            (.inl rfl)
      | some path =>
          have entered := collects_path legible w coherent path
          have target := path_target legible w.table coherent defaults path
            fun all => (clear all).1 path rfl
          exact collects_trans legible _ _ _ entered
            (entries_collect legible entries (fun all => (clear all).2) _ _ entered.grown.coherent
              (entered.grown.options.trans defaults) (.inr target))
  | reset builder => exact absurd rfl (working builder)

theorem reset_holding (w : Workspace V) (holding : Holding legible w) (builder : Builder)
    (alone : w.clauses builder.other = []) : Holding legible (w.step (.reset builder)) := by
  have table : (w.step (.reset builder)).table = { options := {} } := by
    cases builder <;> simp [step, resetKey, resetUpdate, Table.reset, holding.defaults]
  have none (other : Builder) : (w.step (.reset builder)).clauses other = [] := by
    cases builder <;> cases other <;>
      first
      | rfl
      | exact alone
  refine ⟨?_, ?_, ?_⟩
  · rw [table]
    exact coherent_default
  · rw [table]
  · intro other f present
    rw [none] at present
    cases present

theorem step_holding (w : Workspace V) (holding : Holding legible w) (s : Step V)
    (clear : legible → s.IsLegible)
    (alone : ∀ builder, s = .reset builder → w.clauses builder.other = []) :
    Holding legible (w.step s) := by
  by_cases working : ∀ builder, s ≠ .reset builder
  · exact collects_holding legible _ _ holding (step_collects legible w holding s clear working)
  · obtain ⟨builder, rfl⟩ := not_forall_not.mp working
    exact reset_holding legible w holding builder (alone builder rfl)

theorem run_holding (w : Workspace V) (holding : Holding legible w) (steps : List (Step V))
    (clear : legible → ∀ s ∈ steps, s.IsLegible) (alone : ResetsAlone w steps) :
    Holding legible (w.run steps) := by
  induction steps generalizing w with
  | nil => exact holding
  | cons s rest ih =>
      exact ih (w.step s)
        (step_holding legible w holding s (fun all => clear all s (by simp)) alone.1)
        (fun all s present => clear all s (List.mem_cons_of_mem _ present)) alone.2

-- While its own builder is not reset, a clause keeps the other one from being reset alone.
theorem run_keeps (w : Workspace V) (holding : Holding legible w) (steps : List (Step V))
    (clear : legible → ∀ s ∈ steps, s.IsLegible) (alone : ResetsAlone w steps) (builder : Builder)
    (f : Fragment) (held : f ∈ w.clauses builder) (kept : .reset builder ∉ steps) :
    f ∈ (w.run steps).clauses builder ∧ (w.run steps).table.resolve f = w.table.resolve f := by
  induction steps generalizing w with
  | nil => exact ⟨held, rfl⟩
  | cons s rest ih =>
      obtain ⟨first, later⟩ := not_or.mp (mt List.mem_cons.mpr kept)
      have clearFirst : legible → s.IsLegible := fun all => clear all s (by simp)
      have working : ∀ other, s ≠ .reset other := by
        rintro other rfl
        have empty := alone.1 other rfl
        have same : other.other = builder := by
          cases other <;> cases builder <;> simp_all [Builder.other]
        rw [same] at empty
        rw [empty] at held
        cases held
      have collects := step_collects legible w holding s clearFirst working
      obtain ⟨still, reads⟩ := ih (w.step s) (collects_holding legible _ _ holding collects)
        (fun all s present => clear all s (List.mem_cons_of_mem _ present)) alone.2
        (collects.kept builder f held) later
      refine ⟨still, reads.trans ?_⟩
      exact resolve_extends w.table holding.coherent f _ collects.grown
        (holding.sound builder f held).bound

end Holding

section Intact

variable (legible : Prop) (reading : Table V → Fragment → List (Symbol V))
  (resolves : ∀ (t : Table V) (f : Fragment), Sound legible t f →
    ∀ t' : Table V, reading t' f = t'.resolve f)

include resolves

theorem alone_intact (steps : List (Step V)) (clear : legible → ∀ s ∈ steps, s.IsLegible)
    (alone : ResetsAlone fresh steps) : Intact reading steps := by
  rintro earlier later builder f rfl held kept
  rw [resets_alone_append] at alone
  have before : legible → ∀ s ∈ earlier, s.IsLegible :=
    fun all s present => clear all s (List.mem_append_left _ present)
  have holding := run_holding legible _ (fresh_holding legible) earlier before alone.1
  have sound := holding.sound builder f held
  obtain ⟨still, reads⟩ := run_keeps legible _ holding later
    (fun all s present => clear all s (List.mem_append_right _ present)) alone.2 builder f held kept
  rw [run_append, resolves _ f sound, resolves _ f sound, reads]
  exact ⟨still, rfl, resolve_bound _ holding.coherent f sound.bound⟩

theorem intact_alone (steps : List (Step V)) (clear : legible → ∀ s ∈ steps, s.IsLegible)
    (intact : ∀ moment, moment <+: steps → Intact reading moment) : ResetsAlone fresh steps := by
  induction steps using List.reverseRecOn with
  | nil => trivial
  | append_singleton steps s ih =>
      have before : legible → ∀ s ∈ steps, s.IsLegible :=
        fun all s present => clear all s (List.mem_append_left _ present)
      have alone := ih before fun moment front =>
        intact moment (front.trans (List.prefix_append _ _))
      refine (resets_alone_append _ _ _).mpr ⟨alone, ?_, trivial⟩
      rintro builder rfl
      have holding := run_holding legible _ (fresh_holding legible) steps before alone
      rw [List.eq_nil_iff_forall_not_mem]
      intro f held
      have sound := holding.sound builder.other f held
      obtain ⟨label, named⟩ := List.exists_mem_of_ne_nil _ sound.named
      have kept : Step.reset builder.other ∉ [Step.reset (V := V) builder] := by
        cases builder <;> simp [Builder.other]
      obtain ⟨_, _, bound⟩ :=
        intact _ (List.prefix_refl _) steps [.reset builder] builder.other f rfl held kept
      have table :
          (fresh.run (steps ++ [.reset builder])).table = (fresh.run steps).table.reset := by
        rw [run_append]
        cases builder <;> rfl
      rw [table, resolves _ f sound] at bound
      exact bound label (resolve_reset _ f label named)

end Intact

theorem clauses_intact_iff (steps : List (Step V)) :
    ((∀ moment, moment <+: steps → Intact Table.resolve moment) ↔ ResetsAlone fresh steps) ∧
      ((∀ s ∈ steps, s.IsLegible) →
        ((∀ moment, moment <+: steps → Intact Table.read moment) ↔ ResetsAlone fresh steps)) := by
  have resolved (t : Table V) (f : Fragment) (sound : Sound True t f) (t' : Table V) :
      t'.read f = t'.resolve f := by
    rw [Table.read, readText, sound.plain trivial, Table.resolve]
  have alone_before (moment : List (Step V)) (front : moment <+: steps)
      (alone : ResetsAlone fresh steps) : ResetsAlone fresh moment := by
    obtain ⟨later, rfl⟩ := front
    exact ((resets_alone_append _ _ _).mp alone).1
  constructor
  · constructor
    · exact intact_alone False Table.resolve (fun _ _ _ _ => rfl) steps False.elim
    · exact fun alone moment front => alone_intact False Table.resolve (fun _ _ _ _ => rfl) moment
        False.elim (alone_before moment front alone)
  · intro clear
    constructor
    · exact intact_alone True Table.read resolved steps fun _ => clear
    · exact fun alone moment front => alone_intact True Table.read resolved moment
        (fun _ s present => clear s (front.subset present)) (alone_before moment front alone)

theorem query_clauses_intact :
    let steps : List (Step Nat) :=
      [.reset .key, .update none [("visits", .assign (.literal 1))], .key [("user.id", .equals 2)],
        .enter (.path "visits")]
    (∀ s ∈ steps, s.IsLegible) ∧ ∀ moment, moment <+: steps → Intact Table.read moment := by
  intro steps
  have words : AliasFree "=" ∧ IsIndexed "visits" ∧ IsIndexed "user.id" := by decide +kernel
  have legible : ∀ s ∈ steps, s.IsLegible := by
    simp only [steps, List.forall_mem_cons]
    refine ⟨trivial, ⟨by simp, words.2.1, trivial, trivial⟩, ?_, trivial, by simp⟩
    simp only [Step.IsLegible, List.forall_mem_cons]
    exact ⟨⟨words.2.2, words.1⟩, by simp⟩
  have alone : ResetsAlone fresh steps := by
    refine ⟨?_, by simp, by simp, by simp, trivial⟩
    rintro builder same
    cases builder <;> rfl
  exact ⟨legible, ((clauses_intact_iff steps).2 legible).mpr alone⟩

theorem reset_misleads_update :
    let steps : List (Step Nat) :=
      [.update none [("a", .assign (.literal 1))], .reset .key, .key [("x", .equals 2)]]
    let clause : Fragment := [.name "#n0", .text "", .text " = ", .value ":v0"]
    let assigns (name : String) (v : Nat) : List (Symbol Nat) :=
      [.name name, .char ' ', .char '=', .char ' ', .value v]
    (fresh.run (steps.take 1)).clauses .update = [clause] ∧
      (fresh.run (steps.take 1)).table.read clause = assigns "a" 1 ∧
      (fresh.run steps).clauses .update = [clause] ∧
      (fresh.run steps).table.read clause = assigns "x" 2 ∧ ¬ Intact Table.read steps := by
  intro steps clause assigns
  have lexed : lexemes (Fragment.text clause) =
      [.name "#n0", .char ' ', .char '=', .char ' ', .value ":v0"] := by
    decide +kernel
  have before : (fresh.run (steps.take 1)).table.read clause = assigns "a" 1 := by
    rw [Table.read, readText, lexed]
    rfl
  have after : (fresh.run steps).table.read clause = assigns "x" 2 := by
    rw [Table.read, readText, lexed]
    rfl
  refine ⟨rfl, before, rfl, after, ?_⟩
  intro intact
  obtain ⟨_, same, _⟩ := intact (steps.take 1) (steps.drop 1) .update clause rfl
    (List.mem_singleton_self _) (by simp [steps])
  rw [before, after] at same
  simp [assigns] at same

end ItemExpr.Workspace
