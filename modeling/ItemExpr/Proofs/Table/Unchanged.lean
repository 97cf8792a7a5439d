import ItemExpr.Proofs.Table.Tidy

set_option autoImplicit false

namespace ItemExpr

theorem put_same_iff {α : Type} (key : String) (entry : α) (entries : List (String × α)) :
    put key entry entries = entries ↔ find? key entries = some entry := by
  induction entries with
  | nil => simp [put, find?]
  | cons head rest ih =>
      obtain ⟨other, old⟩ := head
      by_cases same : other = key
      · subst same
        simp [put, find?, eq_comm]
      · simp [put, find?, same, ih]

theorem put_ne_nil {α : Type} (key : String) (entry : α) (entries : List (String × α)) :
    put key entry entries ≠ [] := by
  cases entries with
  | nil => simp [put]
  | cons head rest =>
      rw [put]
      split <;> exact List.cons_ne_nil _ _

variable {V : Type}

def Table.IsKnown (t : Table V) (name : String) : Prop :=
  if t.options.reserved name = true then find? ("#" ++ name) t.names = some name
  else t.options.bare name = true ∨ ∃ entry ∈ t.names, entry.2 = name

instance (t : Table V) (name : String) : Decidable (t.IsKnown name) :=
  inferInstanceAs (Decidable (if t.options.reserved name = true
    then find? ("#" ++ name) t.names = some name
    else t.options.bare name = true ∨ ∃ entry ∈ t.names, entry.2 = name))

theorem add_name_same_iff (t : Table V) (name : String) :
    (t.addName name).2 = t ↔ t.IsKnown name := by
  have adds := add_name_adds t name
  generalize t.addName name = added at adds ⊢
  cases adds with
  | reserved reserved =>
      rw [Table.IsKnown, if_pos reserved, ← put_same_iff]
      exact ⟨fun same => congrArg Table.names same, fun same => by rw [same]⟩
  | bare plain bare => simp [Table.IsKnown, plain, bare]
  | found label plain covered present =>
      have known : ∃ entry ∈ t.names, entry.2 = name := ⟨_, present, rfl⟩
      simp [Table.IsKnown, plain, known]
  | counted plain covered missing =>
      have unknown : ¬ ∃ entry ∈ t.names, entry.2 = name := fun ⟨entry, present, same⟩ =>
        missing entry present same
      rw [Table.IsKnown, if_neg (by simp [plain])]
      refine ⟨fun same => ?_, fun known => ?_⟩
      · exact absurd (congrArg Table.nextName same) (Nat.succ_ne_self t.nextName)
      · simp only [covered, unknown, or_false, Bool.false_eq_true] at known

theorem add_name_next (t : Table V) (name : String) : t.nextName ≤ (t.addName name).2.nextName := by
  have adds := add_name_adds t name
  generalize t.addName name = added at adds ⊢
  cases adds with
  | counted _ _ _ => exact Nat.le_succ t.nextName
  | _ => exact Nat.le_refl t.nextName

theorem add_names_next (t : Table V) (names : List String) :
    t.nextName ≤ (t.addNames names).nextName := by
  induction names generalizing t with
  | nil => exact Nat.le_refl t.nextName
  | cons name rest ih => exact Nat.le_trans (add_name_next t name) (ih (t.addName name).2)

theorem steady_step (t : Table V) (name : String) (rest : List String)
    (steady : (t.addNames (name :: rest)).nextName = t.nextName) :
    (t.addName name).2.nextName = t.nextName ∧
      ((t.addName name).2.addNames rest).nextName = (t.addName name).2.nextName := by
  have first := add_name_next t name
  have others := add_names_next (t.addName name).2 rest
  change ((t.addName name).2.addNames rest).nextName = t.nextName at steady
  omega

theorem reserved_found (t : Table V) (names : List String)
    (steady : (t.addNames names).nextName = t.nextName) (name : String)
    (reserved : t.options.reserved name = true)
    (given : name ∈ names ∨ find? ("#" ++ name) t.names = some name) :
    find? ("#" ++ name) (t.addNames names).names = some name := by
  induction names generalizing t with
  | nil => exact given.resolve_left (List.not_mem_nil)
  | cons next rest ih =>
      obtain ⟨here, later⟩ := steady_step t next rest steady
      refine ih (t.addName next).2 later (by rwa [(add_name_frame t next).1]) ?_
      rcases given with listed | found
      · rcases List.mem_cons.mp listed with rfl | listed
        · rw [add_name_reserved t name reserved]
          exact .inr (find_put_self _ _ _)
        · exact .inl listed
      · refine .inr ?_
        have adds := add_name_adds t next
        generalize t.addName next = added at adds here ⊢
        cases adds with
        | reserved _ =>
            by_cases same : next = name
            · subst same
              exact find_put_self _ _ _
            · have apart : "#" ++ next ≠ "#" ++ name := fun equal =>
                same (append_injective "#" next name equal)
              exact (find_put_other _ _ _ _ apart).trans found
        | bare _ _ => exact found
        | found _ _ _ _ => exact found
        | counted _ _ _ => exact absurd here (Nat.succ_ne_self t.nextName)

theorem steady_known (t : Table V) (names : List String)
    (steady : (t.addNames names).nextName = t.nextName)
    (found : ∀ name ∈ names, t.options.reserved name = true →
      find? ("#" ++ name) t.names = some name) : ∀ name ∈ names, t.IsKnown name := by
  induction names with
  | nil => simp
  | cons name rest ih =>
      rw [List.forall_mem_cons] at found
      obtain ⟨here, later⟩ := steady_step t name rest steady
      have same : (t.addName name).2 = t := by
        have adds := add_name_adds t name
        generalize t.addName name = added at adds here ⊢
        cases adds with
        | reserved reserved => simp only [(put_same_iff _ _ _).mpr (found.1 reserved)]
        | bare _ _ => rfl
        | found _ _ _ _ => rfl
        | counted _ _ _ => exact absurd here (Nat.succ_ne_self t.nextName)
      rw [same] at later
      exact List.forall_mem_cons.mpr ⟨(add_name_same_iff t name).mp same, ih later found.2⟩

theorem add_names_same_iff (t : Table V) (names : List String) :
    t.addNames names = t ↔ ∀ name ∈ names, t.IsKnown name := by
  constructor
  · intro same
    have steady := congrArg Table.nextName same
    refine steady_known t names steady fun name listed reserved => ?_
    have found := reserved_found t names steady name reserved (.inl listed)
    rwa [same] at found
  · intro known
    induction names with
    | nil => rfl
    | cons name rest ih =>
        rw [List.forall_mem_cons] at known
        change (t.addName name).2.addNames rest = t
        rw [(add_name_same_iff t name).mpr known.1]
        exact ih known.2

theorem enter_paths_names (t : Table V) (keys : List String) :
    t.enterAll (keys.map .path) =
      t.addNames (keys.flatMap fun key => (t.options.segments key).map Segment.name) := by
  induction keys generalizing t with
  | nil => rfl
  | cons key rest ih =>
      have first : t.enter (.path key) = t.addNames ((t.options.segments key).map Segment.name) :=
        add_segments_names t _
      have others := ih (t.enter (.path key))
      rw [enter_options] at others
      rw [List.flatMap_cons, Table.addNames, List.foldl_append]
      exact others.trans (congrArg (Table.addNames · _) first)

theorem enter_paths_same_iff (t : Table V) (keys : List String) :
    t.enterAll (keys.map .path) = t ↔
      ∀ key ∈ keys, ∀ s ∈ t.options.segments key, t.IsKnown s.name := by
  rw [enter_paths_names, add_names_same_iff]
  simp only [List.mem_flatMap, List.mem_map]
  constructor
  · exact fun known key listed s present => known s.name ⟨key, listed, s, present, rfl⟩
  · rintro known name ⟨key, listed, s, present, rfl⟩
    exact known key listed s present

end ItemExpr
