import ItemExpr.Proofs.Number.Spelling
import ItemExpr.Proofs.Table.Tidy

set_option autoImplicit false

namespace ItemExpr

variable {V : Type}

inductive Table.Step (V : Type)
  | enter (call : Call V)
  | reset

namespace Table

def step (t : Table V) : Step V → Table V
  | .enter call => t.enter call
  | .reset => t.reset

def run (o : Options) (steps : List (Step V)) : Table V :=
  steps.foldl step { options := o }

def sinceReset (steps : List (Step V)) : List (Call V) :=
  steps.foldl (fun calls step =>
    match step with
    | .enter call => calls ++ [call]
    | .reset => []) []

end Table

theorem run_since_reset (o : Options) (steps : List (Table.Step V)) :
    Table.run o steps = ({ options := o } : Table V).enterAll (Table.sinceReset steps) := by
  have later (steps : List (Table.Step V)) (calls : List (Call V)) :
      steps.foldl Table.step (({ options := o } : Table V).enterAll calls) =
        ({ options := o } : Table V).enterAll (steps.foldl (fun calls step =>
          match step with
          | .enter call => calls ++ [call]
          | .reset => []) calls) := by
    induction steps generalizing calls with
    | nil => rfl
    | cons step rest ih =>
        rw [List.foldl_cons, List.foldl_cons, ← ih]
        cases step with
        | enter call => simp [Table.step, Table.enterAll]
        | reset =>
            rw [Table.step, Table.reset, enter_all_options]
            rfl
  exact later steps []

def Options.IsCounted (o : Options) (label : String) : Prop := ∃ k, label = o.nameLabel k

theorem counted_iff (o : Options) (label : String) :
    o.IsCounted label ↔
      label = o.nameLabel (Number.ofDigits (label.toList.drop o.namePrefix.length)) := by
  constructor
  · rintro ⟨k, rfl⟩
    have digits : (o.nameLabel k).toList.drop o.namePrefix.length = Nat.toDigits 10 k := by
      rw [name_label_chars, ← String.length_toList, List.drop_left]
    rw [digits, of_digits_numeral]
  · exact fun same => ⟨_, same⟩

instance (o : Options) (label : String) : Decidable (o.IsCounted label) :=
  decidable_of_iff _ (counted_iff o label).symm

def Options.countedNames (o : Options) (names : List String) : List String :=
  (names.filter fun name => !o.reserved name && !o.bare name).eraseDups

def namesOf (o : Options) (calls : List (Call V)) : List String :=
  calls.flatMap fun
    | .path p => (o.segments p).map Segment.name
    | .value _ => []

theorem counted_names_append (o : Options) (names : List String) (name : String) :
    o.countedNames (names ++ [name]) =
      if o.reserved name = false ∧ o.bare name = false ∧ name ∉ o.countedNames names
      then o.countedNames names ++ [name] else o.countedNames names := by
  have before : name ∈ o.countedNames names ↔
      name ∈ names.filter fun name => !o.reserved name && !o.bare name := List.mem_eraseDups
  have whole : o.countedNames (names ++ [name]) = o.countedNames names ++
      (((if o.reserved name = false ∧ o.bare name = false then [name] else []).removeAll
        (names.filter fun name => !o.reserved name && !o.bare name)).eraseDups) := by
    rw [Options.countedNames, List.filter_append, List.eraseDups_append, List.filter_singleton]
    cases o.reserved name <;> cases o.bare name <;> rfl
  rw [whole]
  by_cases counted : o.reserved name = false ∧ o.bare name = false
  · rw [if_pos counted]
    by_cases known : name ∈ o.countedNames names
    · rw [if_neg fun all => all.2.2 known]
      have present := before.mp known
      simp only [List.removeAll, List.filter_singleton, List.elem_eq_mem, present]
      simp
    · rw [if_pos ⟨counted.1, counted.2, known⟩]
      have absent := mt before.mpr known
      simp only [List.removeAll, List.filter_singleton, List.elem_eq_mem, absent]
      rfl
  · rw [if_neg counted, if_neg fun all => counted ⟨all.1, all.2.1⟩]
    simp

structure Numbered (t : Table V) (seen : List String) : Prop where
  entries : t.names.filter (fun entry => t.options.IsCounted entry.1) =
    (t.options.countedNames seen).zipIdx.map fun (name, k) => (t.options.nameLabel k, name)
  nextName : t.nextName = (t.options.countedNames seen).length

theorem numbered_mem (t : Table V) (coherent : Coherent t) (seen : List String)
    (numbered : Numbered t seen) (name : String) (plain : t.options.reserved name = false) :
    name ∈ t.options.countedNames seen ↔ ∃ entry ∈ t.names, entry.2 = name := by
  have listed := congrArg (List.map Prod.snd) numbered.entries
  rw [List.map_map, show Prod.snd ∘ (fun (name, k) => (t.options.nameLabel k, name)) =
    (Prod.fst : String × Nat → String) from rfl, List.zipIdx_map_fst] at listed
  rw [← listed, List.mem_map]
  constructor
  · rintro ⟨entry, present, same⟩
    exact ⟨entry, List.mem_of_mem_filter present, same⟩
  · rintro ⟨entry, present, rfl⟩
    refine ⟨entry, List.mem_filter.mpr ⟨present, ?_⟩, rfl⟩
    cases coherent.names entry present with
    | reserved reserved _ => simp [plain] at reserved
    | counted k _ _ _ shape => exact decide_eq_true ⟨k, shape⟩

theorem add_name_numbered (t : Table V) (coherent : Coherent t) (seen : List String)
    (numbered : Numbered t seen) (name : String) :
    Numbered (t.addName name).2 (seen ++ [name]) := by
  have appended := counted_names_append t.options seen name
  -- A name that is not counted now leaves the counted entries and their number alone.
  have uncounted (t' : Table V) (same : t'.options = t.options)
      (old : t.options.countedNames (seen ++ [name]) = t.options.countedNames seen)
      (entries : t'.names.filter (fun entry => t.options.IsCounted entry.1) =
        t.names.filter fun entry => t.options.IsCounted entry.1)
      (next : t'.nextName = t.nextName) : Numbered t' (seen ++ [name]) := by
    refine ⟨?_, ?_⟩
    · rw [same, old, entries, numbered.entries]
    · rw [same, old, next, numbered.nextName]
  have adds := add_name_adds t name
  generalize t.addName name = added at adds ⊢
  cases adds with
  | reserved reserved =>
      rw [if_neg (by simp [reserved])] at appended
      refine uncounted _ rfl appended ?_ rfl
      by_cases known : "#" ++ name ∈ t.names.map Prod.fst
      · rw [put_known _ _ _ coherent.distinct (reserved_entry t coherent name reserved known)]
      · have label : ¬ t.options.IsCounted ("#" ++ name) := by
          rintro ⟨k, same⟩
          exact absurd reserved (Bool.eq_false_iff.mp (coherent.apart name k same))
        rw [put_new _ _ _ known, List.filter_append, List.filter_singleton]
        simp [label]
  | bare plain bare =>
      rw [if_neg (by simp [bare])] at appended
      exact uncounted t rfl appended rfl rfl
  | found label plain covered present =>
      have known := (numbered_mem t coherent seen numbered name plain).mpr ⟨_, present, rfl⟩
      rw [if_neg (by simp [known])] at appended
      exact uncounted t rfl appended rfl rfl
  | counted plain covered missing =>
      have unseen : name ∉ t.options.countedNames seen := by
        rw [numbered_mem t coherent seen numbered name plain]
        rintro ⟨entry, present, same⟩
        exact missing entry present same
      rw [if_pos ⟨plain, covered, unseen⟩] at appended
      have own : t.options.IsCounted (t.options.nameLabel t.nextName) := ⟨_, rfl⟩
      refine ⟨?_, ?_⟩
      · rw [put_new _ _ _ (next_name_missing t coherent), appended, List.zipIdx_append,
          List.map_append, ← numbered.entries, List.filter_append, List.filter_singleton]
        simp only [own, decide_true, cond_true]
        simp [numbered.nextName]
      · rw [appended, List.length_append, ← numbered.nextName]
        rfl

theorem add_names_numbered (t : Table V) (coherent : Coherent t) (seen : List String)
    (numbered : Numbered t seen) (names : List String) :
    Numbered (t.addNames names) (seen ++ names) := by
  induction names generalizing t seen with
  | nil => simpa [Table.addNames] using numbered
  | cons name rest ih =>
      have others := ih (t.addName name).2 (add_name_extends t coherent name).1.coherent
        (seen ++ [name]) (add_name_numbered t coherent seen numbered name)
      rwa [List.append_assoc] at others

theorem enter_numbered (t : Table V) (coherent : Coherent t) (seen : List String)
    (numbered : Numbered t seen) (call : Call V) :
    Numbered (t.enter call) (seen ++ namesOf t.options [call]) := by
  cases call with
  | path p =>
      rw [Table.enter, Table.addPath, add_segments_names]
      simpa [namesOf] using add_names_numbered t coherent seen numbered
        ((t.options.segments p).map Segment.name)
  | value v =>
      have same : Numbered (t.enter (.value v)) seen := ⟨numbered.entries, numbered.nextName⟩
      simpa [namesOf] using same

theorem enter_all_numbered (t : Table V) (coherent : Coherent t) (seen : List String)
    (numbered : Numbered t seen) (calls : List (Call V)) :
    Numbered (t.enterAll calls) (seen ++ namesOf t.options calls) := by
  induction calls generalizing t seen with
  | nil => simpa [namesOf, Table.enterAll] using numbered
  | cons call rest ih =>
      have others := ih (t.enter call) (enter_extends t coherent call).coherent
        (seen ++ namesOf t.options [call]) (enter_numbered t coherent seen numbered call)
      rwa [enter_options, List.append_assoc, namesOf, namesOf, ← List.flatMap_append] at others

-- What holds whatever the options are. Segments may have been entered of a path that is not
-- complete when a name is.
structure Kept (t : Table V) (calls : List (Call V)) : Prop where
  single : (t.names.map Prod.snd).Nodup
  bound : ∀ (segments : List Segment) (name : String),
    t.options.reserved name = true ∨ t.options.bare name = false →
      ∃ label, ((t.addSegments segments).2.addName name).1 = .name label ∧
        find? label ((t.addSegments segments).2.addName name).2.names = some name
  nameMarked : ∀ entry ∈ t.names, entry.1.toList.head? = some '#'
  valueMarked : ∀ entry ∈ t.values, entry.1.toList.head? = some ':'
  values : t.values = (valuesOf calls).zipIdx.map fun (v, k) => (t.options.valueLabel k, v)
  nextValue : t.nextValue = (valuesOf calls).length

structure Counted (t : Table V) (calls : List (Call V)) : Prop where
  grows : ∀ more : List (Call V), t.names <+: (t.enterAll more).names
  entries : t.names.filter (fun entry => t.options.IsCounted entry.1) =
    (t.options.countedNames (namesOf t.options calls)).zipIdx.map fun (name, k) =>
      (t.options.nameLabel k, name)
  nextName : t.nextName = (t.options.countedNames (namesOf t.options calls)).length
  again : ∀ (before : List (Call V)) (p : String) (after : List (Call V)),
    calls = before ++ .path p :: after →
      t.addPath p = (((({ options := t.options } : Table V).enterAll before).addPath p).1, t)

theorem kept_entered (o : Options) (calls : List (Call V)) :
    Kept (({ options := o } : Table V).enterAll calls) calls := by
  have options := enter_all_options ({ options := o } : Table V) calls
  have tidy : Tidy ({ options := o } : Table V) := ⟨by simp, by simp, by simp, by simp⟩
  have listed : Listed ({ options := o } : Table V) [] := ⟨rfl, rfl⟩
  obtain ⟨tidy, listed⟩ := enter_all_kept _ [] tidy listed calls
  rw [List.nil_append] at listed
  refine ⟨tidy.single, ?_, tidy.marked, ?_, listed.values, listed.nextValue⟩
  · intro segments name aliased
    rw [← (add_segments_frame _ segments).1] at aliased
    rw [add_segments_names] at aliased ⊢
    exact add_name_bound _ (add_names_tidy _ tidy _) name aliased
  · intro entry present
    rw [listed.values] at present
    obtain ⟨⟨v, k⟩, _, rfl⟩ := List.mem_map.mp present
    have marked := o.value_marked
    rw [options, value_label_chars]
    cases chars : o.valuePrefix.toList <;> simp_all

theorem counted_entered (o : Options) (apart : o.Apart) (calls : List (Call V)) :
    Counted (({ options := o } : Table V).enterAll calls) calls := by
  have options := enter_all_options ({ options := o } : Table V) calls
  have fresh : Coherent ({ options := o } : Table V) := coherent_fresh o apart
  have coherent := (enter_all_extends _ fresh calls).coherent
  have numbered := enter_all_numbered _ fresh [] ⟨rfl, rfl⟩ calls
  rw [List.nil_append] at numbered
  refine ⟨?_, ?_, ?_, ?_⟩
  · exact fun more => (enter_all_extends _ coherent more).names
  · rw [numbered.entries, options]
  · rw [numbered.nextName, options]
  · rintro before p after rfl
    -- The path is settled once it is entered, and later calls leave it so.
    have earlier := (enter_all_extends _ fresh before).coherent
    have settled := add_segments_settled _ earlier _ (segments_ne_nil o p)
    have entered := (enter_extends _ earlier (.path p)).coherent
    have later := enter_all_extends _ entered after
    have same := enter_all_options ({ options := o } : Table V) before
    rw [options, Table.addPath, Table.addPath, options, same]
    refine settled_written _ _ _ ?_
    have whole : ({ options := o } : Table V).enterAll (before ++ .path p :: after) =
        ((({ options := o } : Table V).enterAll before).enter (.path p)).enterAll after := by
      simp [Table.enterAll]
    rw [whole]
    refine settled_extends _ _ entered later _ _ ?_
    simpa [Table.enter, Table.addPath, same] using settled

theorem run_numbered (o : Options) (steps : List (Table.Step V)) :
    Kept (Table.run o steps) (Table.sinceReset steps) ∧
      (o.Apart → Counted (Table.run o steps) (Table.sinceReset steps)) := by
  rw [run_since_reset]
  exact ⟨kept_entered o _, fun apart => counted_entered o apart _⟩

theorem default_run_numbered :
    let steps : List (Table.Step Nat) :=
      [.enter (.path "orders"), .reset, .enter (.path "a.b[0]"), .enter (.value 7),
        .enter (.path "b.c")]
    let t := Table.run {} steps
    Options.Apart {} ∧ Kept t (Table.sinceReset steps) ∧ Counted t (Table.sinceReset steps) ∧
      t.names = [("#n0", "a"), ("#n1", "b"), ("#n2", "c")] ∧ t.nextName = 3 ∧
      t.values = [(":v0", 7)] ∧ t.nextValue = 1 := by
  intro steps t
  obtain ⟨kept, counted⟩ := run_numbered {} steps
  exact ⟨default_apart, kept, counted default_apart, rfl, rfl, rfl, rfl⟩

end ItemExpr
