import ItemExpr.Proofs.Table.Settled

set_option autoImplicit false

namespace ItemExpr

section Entries

variable {α : Type}

theorem put_keys (key : String) (entry : α) (entries : List (String × α)) :
    (put key entry entries).map Prod.fst =
      if key ∈ entries.map Prod.fst then entries.map Prod.fst
      else entries.map Prod.fst ++ [key] := by
  induction entries with
  | nil => rfl
  | cons head rest ih =>
      obtain ⟨other, old⟩ := head
      by_cases same : other = key
      · simp [put, same]
      · have different : key ≠ other := Ne.symm same
        rw [put, if_neg same, List.map_cons, ih, List.map_cons]
        by_cases known : key ∈ rest.map Prod.fst
        · rw [if_pos known, if_pos (List.mem_cons_of_mem _ known)]
        · rw [if_neg known, if_neg (by simpa [different] using known), List.cons_append]

theorem put_keys_nodup (key : String) (entry : α) (entries : List (String × α))
    (distinct : (entries.map Prod.fst).Nodup) : ((put key entry entries).map Prod.fst).Nodup := by
  rw [put_keys]
  split_ifs with known
  · exact distinct
  · exact List.Nodup.append distinct (List.nodup_singleton _) (by simpa using known)

theorem put_mem (key : String) (entry : α) (entries : List (String × α)) (e : String × α)
    (present : e ∈ put key entry entries) : e = (key, entry) ∨ e ∈ entries := by
  induction entries with
  | nil => exact .inl (List.mem_singleton.mp present)
  | cons head rest ih =>
      obtain ⟨other, old⟩ := head
      by_cases same : other = key
      · rw [put, if_pos same] at present
        exact (List.mem_cons.mp present).imp_right (List.mem_cons_of_mem _)
      · rw [put, if_neg same] at present
        rcases List.mem_cons.mp present with rfl | later
        · exact .inr (List.mem_cons_self ..)
        · exact (ih later).imp_right (List.mem_cons_of_mem _)

theorem put_entries_nodup (key : String) (entry : α) (entries : List (String × α))
    (distinct : (entries.map Prod.fst).Nodup) (single : (entries.map Prod.snd).Nodup)
    (own : ∀ e ∈ entries, e.2 = entry → e.1 = key) :
    ((put key entry entries).map Prod.snd).Nodup := by
  induction entries with
  | nil => simp [put]
  | cons head rest ih =>
      obtain ⟨other, old⟩ := head
      rw [List.map_cons, List.nodup_cons] at distinct single
      rw [List.forall_mem_cons] at own
      by_cases same : other = key
      · rw [put, if_pos same, List.map_cons, List.nodup_cons]
        refine ⟨?_, single.2⟩
        intro present
        obtain ⟨e, later, equal⟩ := List.mem_map.mp present
        exact distinct.1 (List.mem_map.mpr ⟨e, later, (own.2 e later equal).trans same.symm⟩)
      · rw [put, if_neg same, List.map_cons, List.nodup_cons]
        refine ⟨?_, ih distinct.2 single.2 own.2⟩
        intro present
        obtain ⟨e, later, equal⟩ := List.mem_map.mp present
        rcases put_mem key entry rest e later with rfl | known
        · exact same (own.1 equal.symm)
        · exact single.1 (List.mem_map.mpr ⟨e, known, equal⟩)

end Entries

variable {V : Type}

def Table.addNames (t : Table V) (names : List String) : Table V :=
  names.foldl (fun t name => (t.addName name).2) t

theorem add_segments_names (t : Table V) (segments : List Segment) :
    (t.addSegments segments).2 = t.addNames (segments.map Segment.name) := by
  match segments with
  | [] => rfl
  | [s] => rfl
  | s :: next :: rest =>
      rw [add_segments_cons t s (next :: rest) (by simp)]
      exact add_segments_names (t.addName s.name).2 (next :: rest)

theorem enter_options (t : Table V) (call : Call V) : (t.enter call).options = t.options := by
  cases call with
  | path p => exact (add_segments_frame t _).1
  | value v => rfl

theorem enter_all_options (t : Table V) (calls : List (Call V)) :
    (t.enterAll calls).options = t.options := by
  induction calls generalizing t with
  | nil => rfl
  | cons call rest ih => exact (ih (t.enter call)).trans (enter_options t call)

-- Aliases that are distinct and marked, and no name under two of them. It is enough to know where
-- a reserved name stands: any other is entered only if it is nowhere.
structure Tidy (t : Table V) : Prop where
  distinct : (t.names.map Prod.fst).Nodup
  single : (t.names.map Prod.snd).Nodup
  marked : ∀ entry ∈ t.names, entry.1.toList.head? = some '#'
  reserved : ∀ entry ∈ t.names, t.options.reserved entry.2 = true → entry.1 = "#" ++ entry.2

theorem tidy_put (t : Table V) (tidy : Tidy t) (label name : String) (next : Nat)
    (marked : label.toList.head? = some '#')
    (own : ∀ entry ∈ t.names, entry.2 = name → entry.1 = label)
    (shape : t.options.reserved name = true → label = "#" ++ name) :
    Tidy { t with names := put label name t.names, nextName := next } where
  distinct := put_keys_nodup label name t.names tidy.distinct
  single := put_entries_nodup label name t.names tidy.distinct tidy.single own
  marked := by
    intro entry present
    rcases put_mem label name t.names entry present with rfl | old
    · exact marked
    · exact tidy.marked entry old
  reserved := by
    intro entry present reserved
    rcases put_mem label name t.names entry present with rfl | old
    · exact shape reserved
    · exact tidy.reserved entry old reserved

-- The last case stands for two: a reserved name, and one that is not known yet.
theorem add_name_puts (t : Table V) (tidy : Tidy t) (name : String) :
    (t.options.reserved name = false ∧ t.options.bare name = true ∧
        t.addName name = (.text name, t)) ∨
      (∃ label, (label, name) ∈ t.names ∧ t.addName name = (.name label, t)) ∨
      ∃ label next, t.addName name =
          (.name label, { t with names := put label name t.names, nextName := next }) ∧
        label.toList.head? = some '#' ∧ (∀ entry ∈ t.names, entry.2 = name → entry.1 = label) ∧
          (t.options.reserved name = true → label = "#" ++ name) := by
  have adds := add_name_adds t name
  generalize t.addName name = added at adds ⊢
  cases adds with
  | reserved reserved =>
      refine .inr (.inr ⟨"#" ++ name, t.nextName, rfl, by simp, ?_, fun _ => rfl⟩)
      rintro entry present rfl
      exact tidy.reserved entry present reserved
  | bare plain bare => exact .inl ⟨plain, bare, rfl⟩
  | found label _ _ present => exact .inr (.inl ⟨label, present, rfl⟩)
  | counted plain _ missing =>
      refine .inr (.inr ⟨t.options.nameLabel t.nextName, t.nextName + 1, rfl, ?_, ?_,
        by simp [plain]⟩)
      · have marked := t.options.name_marked
        rw [name_label_chars]
        cases chars : t.options.namePrefix.toList <;> simp_all
      · exact fun entry present same => absurd same (missing entry present)

theorem add_name_tidy (t : Table V) (tidy : Tidy t) (name : String) :
    Tidy (t.addName name).2 := by
  obtain ⟨_, _, written⟩ | ⟨_, _, written⟩ | ⟨label, next, written, marked, own, shape⟩ :=
    add_name_puts t tidy name
  · rwa [written]
  · rwa [written]
  · rw [written]
    exact tidy_put t tidy label name next marked own shape

theorem add_name_bound (t : Table V) (tidy : Tidy t) (name : String)
    (aliased : t.options.reserved name = true ∨ t.options.bare name = false) :
    ∃ label, (t.addName name).1 = .name label ∧
      find? label (t.addName name).2.names = some name := by
  obtain ⟨plain, bare, _⟩ | ⟨label, present, written⟩ | ⟨label, next, written, _⟩ :=
    add_name_puts t tidy name
  · simp [plain, bare] at aliased
  · exact ⟨label, by rw [written], by
      rw [written]
      exact find_of_mem label name t.names tidy.distinct present⟩
  · exact ⟨label, by rw [written], by
      rw [written]
      exact find_put_self label name t.names⟩

theorem add_names_tidy (t : Table V) (tidy : Tidy t) (names : List String) :
    Tidy (t.addNames names) := by
  induction names generalizing t with
  | nil => exact tidy
  | cons name rest ih => exact ih (t.addName name).2 (add_name_tidy t tidy name)

theorem enter_tidy (t : Table V) (tidy : Tidy t) (call : Call V) : Tidy (t.enter call) := by
  cases call with
  | path p =>
      rw [Table.enter, Table.addPath, add_segments_names]
      exact add_names_tidy t tidy _
  | value v => exact ⟨tidy.distinct, tidy.single, tidy.marked, tidy.reserved⟩

def valuesOf (calls : List (Call V)) : List V :=
  calls.filterMap fun
    | .path _ => none
    | .value v => some v

structure Listed (t : Table V) (given : List V) : Prop where
  values : t.values = given.zipIdx.map fun (v, k) => (t.options.valueLabel k, v)
  nextValue : t.nextValue = given.length

theorem listed_keys (t : Table V) (given : List V) (listed : Listed t given) :
    t.values.map Prod.fst = (List.range t.nextValue).map t.options.valueLabel := by
  rw [listed.values, listed.nextValue, List.map_map, List.range_eq_range', ← List.zipIdx_map_snd 0,
    List.map_map]
  rfl

theorem add_value_listed (t : Table V) (given : List V) (listed : Listed t given) (v : V) :
    Listed (t.addValue v).2 (given ++ [v]) := by
  have missing : t.options.valueLabel t.nextValue ∉ t.values.map Prod.fst := by
    rw [listed_keys t given listed]
    intro present
    obtain ⟨k, below, same⟩ := List.mem_map.mp present
    have equal := value_label_injective t.options k t.nextValue same
    have bound := List.mem_range.mp below
    omega
  have values : (t.addValue v).2.values =
      t.values ++ [(t.options.valueLabel t.nextValue, v)] := put_new _ v t.values missing
  refine ⟨?_, ?_⟩
  · have options : (t.addValue v).2.options = t.options := rfl
    rw [values, options, List.zipIdx_append, List.map_append, ← listed.values]
    simp [listed.nextValue]
  · rw [List.length_append, ← listed.nextValue]
    rfl

theorem enter_listed (t : Table V) (given : List V) (listed : Listed t given) (call : Call V) :
    Listed (t.enter call) (given ++ valuesOf [call]) := by
  cases call with
  | path p =>
      obtain ⟨options, values, next⟩ := add_segments_frame t (t.options.segments p)
      rw [Table.enter, Table.addPath]
      exact ⟨by simpa [options, values, valuesOf] using listed.values,
        by simpa [next, valuesOf] using listed.nextValue⟩
  | value v => exact add_value_listed t given listed v

theorem enter_all_kept (t : Table V) (given : List V) (tidy : Tidy t) (listed : Listed t given)
    (calls : List (Call V)) :
    Tidy (t.enterAll calls) ∧ Listed (t.enterAll calls) (given ++ valuesOf calls) := by
  induction calls generalizing t given with
  | nil => exact ⟨tidy, by simpa [valuesOf, Table.enterAll] using listed⟩
  | cons call rest ih =>
      have others := ih (t.enter call) (given ++ valuesOf [call]) (enter_tidy t tidy call)
        (enter_listed t given listed call)
      rwa [List.append_assoc, valuesOf, valuesOf, ← List.filterMap_append] at others

end ItemExpr
