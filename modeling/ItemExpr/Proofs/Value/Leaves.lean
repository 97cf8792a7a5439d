import ItemExpr.Proofs.Table.Tidy
import ItemExpr.Value.Plain
import Mathlib.Tactic.SplitIfs
import Mathlib.Tactic.Tauto

set_option autoImplicit false

namespace ItemExpr

namespace Value

mutual

-- What is reached through lists, tuples and the values of dictionaries and is none of these.
def leaves : Value → List Value
  | .list vs => leavesEach vs
  | .tuple vs => leavesEach vs
  | .map entries => leavesEntries entries
  | v => [v]

def leavesEach : List Value → List Value
  | [] => []
  | v :: rest => v.leaves ++ leavesEach rest

def leavesEntries : List (Value × Value) → List Value
  | [] => []
  | (_, v) :: rest => v.leaves ++ leavesEntries rest

end

mutual

def keys : Value → List Value
  | .list vs => keysEach vs
  | .tuple vs => keysEach vs
  | .map entries => keysEntries entries
  | _ => []

def keysEach : List Value → List Value
  | [] => []
  | v :: rest => v.keys ++ keysEach rest

def keysEntries : List (Value × Value) → List Value
  | [] => []
  | (k, v) :: rest => k :: (v.keys ++ keysEntries rest)

end

def isModel : Value → Bool
  | .model _ _ => true
  | _ => false

mutual

def IsModelFree : Value → Prop
  | .list vs => AreModelFree vs
  | .tuple vs => AreModelFree vs
  | .map entries => EntriesModelFree entries
  | .member type _ v => type.mixes v = true → v.IsModelFree
  | .model _ _ => False
  | _ => True

def AreModelFree : List Value → Prop
  | [] => True
  | v :: rest => v.IsModelFree ∧ AreModelFree rest

def EntriesModelFree : List (Value × Value) → Prop
  | [] => True
  | (k, v) :: rest => k.IsModelFree ∧ v.IsModelFree ∧ EntriesModelFree rest

end

def isSingle : Value → Bool
  | .member _ _ _ => false
  | .model _ _ => false
  | v => !v.isContainer

@[elab_as_elim]
theorem container_induction {motive : Value → Prop}
    (list : ∀ vs : List Value, (∀ v ∈ vs, motive v) → motive (.list vs))
    (tuple : ∀ vs : List Value, (∀ v ∈ vs, motive v) → motive (.tuple vs))
    (map : ∀ entries : List (Value × Value), (∀ entry ∈ entries, motive entry.2) →
      motive (.map entries))
    (member : ∀ (type : EnumType) (name : String) (v : Value), motive v →
      motive (.member type name v))
    (model : ∀ (type : ModelType) (fields : List (Field Value)),
      (∀ f ∈ fields, motive f.value) → motive (.model type fields))
    (single : ∀ v : Value, v.isSingle = true → motive v) (v : Value) : motive v := by
  match v with
  | .list vs => exact list vs fun v _ => container_induction list tuple map member model single v
  | .tuple vs => exact tuple vs fun v _ => container_induction list tuple map member model single v
  | .map entries =>
      refine map entries fun entry present => ?_
      obtain ⟨k, v⟩ := entry
      have smaller : sizeOf v < sizeOf entries := by
        have whole := List.sizeOf_lt_of_mem present
        rw [Prod.mk.sizeOf_spec] at whole
        omega
      exact container_induction list tuple map member model single v
  | .member type name v =>
      exact member type name v (container_induction list tuple map member model single v)
  | .model type fields =>
      refine model type fields fun f present => ?_
      obtain ⟨name, label, v, isSet⟩ := f
      have smaller : sizeOf v < sizeOf fields := by
        have whole := List.sizeOf_lt_of_mem present
        rw [Field.mk.sizeOf_spec] at whole
        omega
      exact container_induction list tuple map member model single v
  | .null | .bool _ | .int _ | .float _ | .decimal _ | .str _ | .bytes _ | .byteArray _ | .set _
  | .frozenSet _ | .dateTime _ | .date _ | .uuid _ | .undefined | .object _ _
  | .unprintable _ => exact single _ rfl

theorem plain_each_eq (vs : List Value) : plainEach vs = vs.map plain := by
  induction vs with
  | nil => rfl
  | cons v rest ih => rw [plainEach, ih, List.map_cons]

theorem plain_entries_eq (entries : List (Value × Value)) :
    plainEntries entries = entries.map fun entry => (entry.1, entry.2.plain) := by
  induction entries with
  | nil => rfl
  | cons entry rest ih => rw [plainEntries, ih, List.map_cons]

theorem dump_each_eq (vs : List Value) : dumpEach vs = vs.map dump := by
  induction vs with
  | nil => rfl
  | cons v rest ih => rw [dumpEach, ih, List.map_cons]

theorem dump_entries_eq (entries : List (Value × Value)) :
    dumpEntries entries = entries.map fun entry => (entry.1, entry.2.dump) := by
  induction entries with
  | nil => rfl
  | cons entry rest ih => rw [dumpEntries, ih, List.map_cons]

theorem dump_fields_eq (fields : List (Field Value)) :
    dumpFields fields = fields.map fun f => (f.label.getD f.name, f.value.dump) := by
  induction fields with
  | nil => rfl
  | cons f rest ih => rw [dumpFields, ih, List.map_cons]

theorem leaves_leaf (v : Value) (leaf : v.isContainer = false) : v.leaves = [v] := by
  cases v with
  | list | tuple | map => cases leaf
  | _ => rfl

theorem single_leaves (v : Value) (single : v.isSingle = true) : v.leaves = [v] := by
  cases v with
  | list | tuple | map => cases single
  | _ => rfl

theorem single_plain (v : Value) (single : v.isSingle = true) : v.plain = v := by
  cases v with
  | list | tuple | map | member | model => cases single
  | _ => rfl

theorem single_dump (v : Value) (single : v.isSingle = true) : v.dump = v := by
  cases v with
  | list | tuple | map | member | model => cases single
  | _ => rfl

theorem single_no_model (v : Value) (single : v.isSingle = true) : v.isModel = false := by
  cases v with
  | model => cases single
  | _ => rfl

section Walks

variable (P : Value → Prop)

theorem leaves_of_each (vs : List Value) :
    (∀ leaf ∈ leavesEach vs, P leaf) ↔ ∀ v ∈ vs, ∀ leaf ∈ v.leaves, P leaf := by
  induction vs with
  | nil => simp [leavesEach]
  | cons v rest ih => rw [leavesEach, List.forall_mem_append, ih, List.forall_mem_cons]

theorem leaves_of_entries (entries : List (Value × Value)) :
    (∀ leaf ∈ leavesEntries entries, P leaf) ↔
      ∀ entry ∈ entries, ∀ leaf ∈ entry.2.leaves, P leaf := by
  induction entries with
  | nil => simp [leavesEntries]
  | cons entry rest ih => rw [leavesEntries, List.forall_mem_append, ih, List.forall_mem_cons]

theorem keys_of_each (vs : List Value) :
    (∀ k ∈ keysEach vs, P k) ↔ ∀ v ∈ vs, ∀ k ∈ v.keys, P k := by
  induction vs with
  | nil => simp [keysEach]
  | cons v rest ih => rw [keysEach, List.forall_mem_append, ih, List.forall_mem_cons]

theorem keys_of_entries (entries : List (Value × Value)) :
    (∀ k ∈ keysEntries entries, P k) ↔
      ∀ entry ∈ entries, P entry.1 ∧ ∀ k ∈ entry.2.keys, P k := by
  induction entries with
  | nil => simp [keysEntries]
  | cons entry rest ih =>
      rw [keysEntries, List.forall_mem_cons, List.forall_mem_append, ih, List.forall_mem_cons,
        and_assoc]

end Walks

theorem each_model_free_iff (vs : List Value) : AreModelFree vs ↔ ∀ v ∈ vs, v.IsModelFree := by
  induction vs with
  | nil => simp [AreModelFree]
  | cons v rest ih => rw [AreModelFree, ih, List.forall_mem_cons]

theorem entries_model_free_iff (entries : List (Value × Value)) :
    EntriesModelFree entries ↔ ∀ entry ∈ entries, entry.1.IsModelFree ∧ entry.2.IsModelFree := by
  induction entries with
  | nil => simp [EntriesModelFree]
  | cons entry rest ih => rw [EntriesModelFree, ih, List.forall_mem_cons, and_assoc]

theorem model_free_iff (v : Value) :
    v.IsModelFree ↔ (∀ leaf ∈ v.leaves, leaf.IsModelFree) ∧ ∀ k ∈ v.keys, k.IsModelFree := by
  induction v using container_induction with
  | list vs ih | tuple vs ih =>
      rw [IsModelFree, leaves, keys, leaves_of_each, keys_of_each, each_model_free_iff,
        ← forall₂_and]
      exact forall₂_congr ih
  | map entries ih =>
      rw [IsModelFree, leaves, keys, leaves_of_entries, keys_of_entries, entries_model_free_iff,
        ← forall₂_and]
      refine forall₂_congr fun entry present => ?_
      rw [ih entry present]
      tauto
  | member | model => simp [leaves, keys]
  | single v single =>
      cases v with
      | list | tuple | map => cases single
      | _ => simp [leaves, keys]

theorem collapse_subset {A : Type} (entries : List (String × A)) : collapse entries ⊆ entries := by
  have kept (known rest : List (String × A)) (inside : known ⊆ entries) (later : rest ⊆ entries) :
      rest.foldl (fun known entry => put entry.1 entry.2 known) known ⊆ entries := by
    induction rest generalizing known with
    | nil => exact inside
    | cons entry rest ih =>
        refine ih (put entry.1 entry.2 known) ?_ (List.subset_of_cons_subset later)
        intro e present
        rcases put_mem entry.1 entry.2 known e present with rfl | old
        · exact later (List.mem_cons_self ..)
        · exact inside old
  exact kept [] entries (List.nil_subset _) (List.Subset.refl _)

theorem dump_leaves (v : Value) : ∀ leaf ∈ v.dump.leaves, leaf.isModel = false := by
  induction v using container_induction with
  | list vs ih | tuple vs ih =>
      rw [dump, leaves, leaves_of_each, dump_each_eq, List.forall_mem_map]
      exact ih
  | map entries ih =>
      rw [dump, leaves, leaves_of_entries, dump_entries_eq, List.forall_mem_map]
      exact ih
  | member => simp [dump, leaves, isModel]
  | model type fields ih =>
      rw [dump, ofEntries, leaves, leaves_of_entries, List.forall_mem_map]
      intro entry present
      have field := collapse_subset _ present
      rw [dump_fields_eq] at field
      obtain ⟨f, inside, rfl⟩ := List.mem_map.mp field
      exact ih f inside
  | single v single =>
      rw [single_dump v single, single_leaves v single, List.forall_mem_singleton]
      exact single_no_model v single

theorem plain_leaves (v : Value) : ∀ leaf ∈ v.plain.leaves, leaf.isModel = false := by
  induction v using container_induction with
  | list vs ih | tuple vs ih =>
      rw [plain, leaves, leaves_of_each, plain_each_eq, List.forall_mem_map]
      exact ih
  | map entries ih =>
      rw [plain, leaves, leaves_of_entries, plain_entries_eq, List.forall_mem_map]
      exact ih
  | member type name v ih =>
      rw [plain]
      split_ifs
      · exact ih
      · simp [leaves, isModel]
  | model type fields => exact dump_leaves (.model type fields)
  | single v single =>
      rw [single_plain v single, single_leaves v single, List.forall_mem_singleton]
      exact single_no_model v single

theorem plain_again (v : Value) (free : v.IsModelFree) : v.plain.plain = v.plain := by
  induction v using container_induction with
  | list vs ih | tuple vs ih =>
      rw [IsModelFree, each_model_free_iff] at free
      rw [plain, plain, plain_each_eq, plain_each_eq, List.map_map]
      exact congrArg list (List.map_congr_left fun v present => ih v present (free v present))
  | map entries ih =>
      rw [IsModelFree, entries_model_free_iff] at free
      rw [plain, plain, plain_entries_eq, plain_entries_eq, List.map_map]
      refine congrArg map (List.map_congr_left fun entry present => ?_)
      exact congrArg (entry.1, ·) (ih entry present (free entry present).2)
  | member type name v ih =>
      rw [IsModelFree] at free
      rw [plain]
      split_ifs with mixes
      · exact ih (free mixes)
      · rw [plain, if_neg mixes]
  | model => exact free.elim
  | single v single => rw [single_plain v single, single_plain v single]

theorem dump_plain (v : Value)
    (whole : ∀ leaf ∈ v.leaves, leaf.isModel = false → leaf.IsModelFree) :
    v.dump.plain = v.plain.plain := by
  induction v using container_induction with
  | list vs ih | tuple vs ih =>
      rw [leaves, leaves_of_each] at whole
      rw [dump, plain, plain, plain, dump_each_eq, plain_each_eq, plain_each_eq, plain_each_eq,
        List.map_map, List.map_map]
      exact congrArg list (List.map_congr_left fun v present => ih v present (whole v present))
  | map entries ih =>
      rw [leaves, leaves_of_entries] at whole
      rw [dump, plain, plain, plain, dump_entries_eq, plain_entries_eq, plain_entries_eq,
        plain_entries_eq, List.map_map, List.map_map]
      refine congrArg map (List.map_congr_left fun entry present => ?_)
      exact congrArg (entry.1, ·) (ih entry present (whole entry present))
  | member type name v =>
      have free : (member type name v).IsModelFree := whole _ (List.mem_singleton.mpr rfl) rfl
      exact (plain_again _ free).symm
  | model => rw [plain]
  | single v single => rw [single_dump v single, single_plain v single, single_plain v single]

end Value

end ItemExpr
