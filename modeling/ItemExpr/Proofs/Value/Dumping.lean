import ItemExpr.Proofs.Update.Dispatch
import ItemExpr.Proofs.Update.Values
import ItemExpr.Proofs.Value.Leaves
import ItemExpr.Proofs.Wire.Members
import ItemExpr.Proofs.Workspace.Surplus

set_option autoImplicit false

namespace ItemExpr

namespace Value

mutual

-- What is the same after it is dumped and prepared. A tuple never is, it comes out as a list.
def IsFixed : Value → Prop
  | .list vs => AreFixed vs
  | .map entries => EntriesFixed entries
  | .set vs => (Value.set vs).prepare = .ok (.set vs)
  | .tuple _ => False
  | .frozenSet _ => False
  | .float _ => False
  | .dateTime _ => False
  | .date _ => False
  | .uuid _ => False
  | .member _ _ _ => False
  | .model _ _ => False
  | _ => True

def AreFixed : List Value → Prop
  | [] => True
  | v :: rest => v.IsFixed ∧ AreFixed rest

def EntriesFixed : List (Value × Value) → Prop
  | [] => True
  | (_, v) :: rest => v.IsFixed ∧ EntriesFixed rest

end

def IsSettled : Value → Prop
  | .model _ _ => False
  | .member type _ v => type.mixes v = true → v.IsFixed
  | _ => True

def IsSentSettled : Value → Prop
  | .model _ _ => False
  | .member type _ v => type.mixes v = true → v.plain.sent? = v.direct?
  | _ => True

theorem single_settled (v : Value) (single : v.isSingle = true) : v.IsSettled := by
  cases v with
  | member | model => cases single
  | _ => trivial

theorem single_sent_settled (v : Value) (single : v.isSingle = true) : v.IsSentSettled := by
  cases v with
  | member | model => cases single
  | _ => trivial

section Pointwise

variable {A B : Type} {R S : A → B → Prop} {P : A → Prop}

theorem forall₂_iff_each (as : List A) (bs : List B) (related : List.Forall₂ R as bs)
    (each : ∀ a ∈ as, ∀ b, R a b → (S a b ↔ P a)) : List.Forall₂ S as bs ↔ ∀ a ∈ as, P a := by
  induction related with
  | nil => simp
  | cons first _ ih =>
      rw [List.forall_mem_cons] at each
      rw [List.forall₂_cons, List.forall_mem_cons, each.1 _ first, ih each.2]

theorem mapM_same_iff (f g : A → Option B) (as : List A)
    (each : ∀ a ∈ as, f a = g a ↔ P a ∨ (f a = none ∧ g a = none)) :
    as.mapM f = as.mapM g ↔ (∀ a ∈ as, P a) ∨ (as.mapM f = none ∧ as.mapM g = none) := by
  induction as with
  | nil => simp
  | cons a rest ih =>
      rw [List.forall_mem_cons] at each
      have others := ih each.2
      have first := each.1
      rw [List.mapM_cons, List.mapM_cons, List.forall_mem_cons]
      cases here : f a <;> cases there : g a <;> cases inner : rest.mapM f <;>
        cases outer : rest.mapM g <;> simp_all

end Pointwise

theorem prepare_each_iff (vs ps : List Value) :
    prepareEach vs = .ok ps ↔ List.Forall₂ (fun v p => v.prepare = .ok p) vs ps := by
  induction vs generalizing ps with
  | nil => cases ps <;> simp [prepareEach]
  | cons v rest ih =>
      rw [prepareEach, List.forall₂_cons_left_iff]
      cases v.prepare with
      | error e => simp
      | ok p =>
          simp only [mapped_ok_iff, ih, Except.ok.injEq]
          constructor
          · rintro ⟨ps, others, rfl⟩
            exact ⟨p, ps, rfl, others, rfl⟩
          · rintro ⟨p, ps, rfl, others, rfl⟩
            exact ⟨ps, others, rfl⟩

theorem prepare_entries_iff (entries prepared : List (Value × Value)) :
    prepareEntries entries = .ok prepared ↔
      List.Forall₂ (fun entry p => entry.2.prepare = .ok p.2 ∧ entry.1 = p.1) entries prepared := by
  induction entries generalizing prepared with
  | nil => cases prepared <;> simp [prepareEntries]
  | cons entry rest ih =>
      obtain ⟨k, v⟩ := entry
      rw [prepareEntries, List.forall₂_cons_left_iff]
      cases v.prepare with
      | error e => simp
      | ok p =>
          simp only [mapped_ok_iff, ih, Except.ok.injEq]
          constructor
          · rintro ⟨ps, others, rfl⟩
            exact ⟨(k, p), ps, ⟨rfl, rfl⟩, others, rfl⟩
          · rintro ⟨⟨k', p'⟩, ps, ⟨rfl, rfl⟩, others, rfl⟩
            exact ⟨ps, others, rfl⟩

theorem dumped_each_iff (vs ps : List Value) :
    (list (plainEach vs)).prepare = .ok (.list ps) ↔
      List.Forall₂ (fun v p => v.plain.prepare = .ok p) vs ps := by
  rw [prepare, mapped_ok_iff]
  simp only [list.injEq, exists_eq_right]
  rw [prepare_each_iff, plain_each_eq, List.forall₂_map_left_iff]

theorem dumped_entries_iff (entries prepared : List (Value × Value)) :
    (map (plainEntries entries)).prepare = .ok (.map prepared) ↔
      List.Forall₂ (fun entry p => entry.2.plain.prepare = .ok p.2 ∧ entry.1 = p.1)
        entries prepared := by
  rw [prepare, mapped_ok_iff]
  simp only [map.injEq, exists_eq_right]
  rw [prepare_entries_iff, plain_entries_eq, List.forall₂_map_left_iff]

theorem each_fixed_iff (vs : List Value) : AreFixed vs ↔ ∀ v ∈ vs, v.IsFixed := by
  induction vs with
  | nil => simp [AreFixed]
  | cons v rest ih => rw [AreFixed, ih, List.forall_mem_cons]

theorem entries_fixed_iff (entries : List (Value × Value)) :
    EntriesFixed entries ↔ ∀ entry ∈ entries, entry.2.IsFixed := by
  induction entries with
  | nil => simp [EntriesFixed]
  | cons entry rest ih => rw [EntriesFixed, ih, List.forall_mem_cons]

theorem member_ne (type : EnumType) (name : String) (v : Value) : v ≠ .member type name v := by
  intro same
  have sizes := congrArg sizeOf same
  rw [member.sizeOf_spec] at sizes
  omega

theorem container_prepared (v p : Value) (container : v.isContainer = true)
    (prepared : v.plain.prepare = .ok p) : p.isContainer = true := by
  cases v with
  | list | tuple | map =>
      obtain ⟨_, -, rfl⟩ := (mapped_ok_iff _ _ _).mp prepared
      rfl
  | _ => cases container

theorem frozen_set_changes (vs : List Value) :
    (frozenSet vs).prepare ≠ .ok (.frozenSet vs) := by
  intro same
  rw [prepare] at same
  cases made : prepareEach vs with
  | error e => simp [made] at same
  | ok ps =>
      rw [made] at same
      obtain ⟨_, -, whole⟩ := (mapped_ok_iff _ _ _).mp same
      cases whole

theorem fixed_iff (v : Value) : v.plain.prepare = .ok v ↔ v.IsFixed := by
  induction v using container_induction with
  | list vs ih =>
      rw [plain, dumped_each_iff, List.forall₂_same, IsFixed, each_fixed_iff]
      exact forall₂_congr ih
  | map entries ih =>
      rw [plain, dumped_entries_iff, List.forall₂_same, IsFixed, entries_fixed_iff]
      refine forall₂_congr fun entry present => ?_
      rw [and_iff_left rfl]
      exact ih entry present
  | tuple | model =>
      refine iff_of_false (fun same => ?_) id
      obtain ⟨_, -, whole⟩ := (mapped_ok_iff _ _ _).mp same
      cases whole
  | member type name v =>
      refine iff_of_false (fun same => ?_) id
      rw [plain] at same
      split_ifs at same with mixes
      · rw [EnumType.mixes, Bool.and_eq_true] at mixes
        cases container_prepared v _ mixes.2 same
      · exact member_ne type name v (Except.ok.inj same)
  | single v single =>
      rw [single_plain v single]
      cases v with
      | list | tuple | map | member | model => cases single
      | set => exact Iff.rfl
      | frozenSet vs => exact iff_of_false (frozen_set_changes vs) id
      | _ => simp [prepare, IsFixed]

theorem plain_prepared_iff (v p : Value) (prepared : v.prepare = .ok p) :
    v.plain.prepare = .ok p ↔ ∀ leaf ∈ v.leaves, leaf.IsSettled := by
  induction v using container_induction generalizing p with
  | list vs ih | tuple vs ih =>
      obtain ⟨ps, each, rfl⟩ := (mapped_ok_iff _ _ _).mp prepared
      rw [prepare_each_iff] at each
      rw [leaves, leaves_of_each, plain, dumped_each_iff]
      exact forall₂_iff_each vs ps each ih
  | map entries ih =>
      obtain ⟨ps, each, rfl⟩ := (mapped_ok_iff _ _ _).mp prepared
      rw [prepare_entries_iff] at each
      rw [leaves, leaves_of_entries, plain, dumped_entries_iff]
      refine forall₂_iff_each entries ps each fun entry present p own => ?_
      rw [and_iff_left own.2]
      exact ih entry present p.2 own.1
  | member type name v =>
      obtain rfl : v = p := Except.ok.inj prepared
      rw [leaves_leaf _ rfl, List.forall_mem_singleton, IsSettled, plain]
      split_ifs with mixes
      · rw [forall_prop_of_true mixes]
        exact fixed_iff v
      · exact iff_of_true prepared fun mixed => absurd mixed mixes
  | model type fields =>
      obtain rfl : model type fields = p := Except.ok.inj prepared
      rw [leaves_leaf _ rfl, List.forall_mem_singleton]
      refine iff_of_false (fun same => ?_) id
      obtain ⟨ps, -, whole⟩ := (mapped_ok_iff _ _ _).mp same
      cases whole
  | single v single =>
      rw [single_plain v single, single_leaves v single, List.forall_mem_singleton]
      exact iff_of_true prepared (single_settled v single)

theorem keeps_each_iff (vs : List Value) : KeepsSetsEach vs ↔ ∀ v ∈ vs, v.KeepsSets := by
  induction vs with
  | nil => simp [KeepsSetsEach]
  | cons v rest ih => rw [KeepsSetsEach, ih, List.forall_mem_cons]

theorem keeps_entries_iff (entries : List (Value × Value)) :
    KeepsSetsEntries entries ↔ ∀ entry ∈ entries, entry.2.KeepsSets := by
  induction entries with
  | nil => simp [KeepsSetsEntries]
  | cons entry rest ih => rw [KeepsSetsEntries, ih, List.forall_mem_cons]

theorem plain_keeps (v : Value) (keeps : v.plain.KeepsSets) : v.KeepsSets := by
  induction v using container_induction with
  | list vs ih | tuple vs ih =>
      rw [plain, KeepsSets, keeps_each_iff, plain_each_eq, List.forall_mem_map] at keeps
      rw [KeepsSets, keeps_each_iff]
      exact fun v present => ih v present (keeps v present)
  | map entries ih =>
      rw [plain, KeepsSets, keeps_entries_iff, plain_entries_eq, List.forall_mem_map] at keeps
      rw [KeepsSets, keeps_entries_iff]
      exact fun entry present => ih entry present (keeps entry present)
  | member | model => trivial
  | single v single => rwa [single_plain v single] at keeps

theorem plain_refused (v : Value) (e : Unhashable) (refused : v.prepare = .error e) :
    ∃ e', v.plain.prepare = .error e' := by
  cases made : v.plain.prepare with
  | error e' => exact ⟨e', rfl⟩
  | ok p =>
      have keeps := plain_keeps v ((prepare_fine_iff v.plain).mp (by rw [made]; rfl))
      have fine := (prepare_fine_iff v).mpr keeps
      rw [refused] at fine
      cases fine

theorem plain_sent_iff (v : Value) :
    v.plain.sent? = v.sent? ↔
      (∀ leaf ∈ v.leaves, leaf.IsSentSettled) ∨ (v.plain.sent? = none ∧ v.sent? = none) := by
  have lists := Option.map_injective fun ws ws' => (Wire.list.injEq ws ws').mp
  have maps := Option.map_injective fun ws ws' => (Wire.map.injEq ws ws').mp
  induction v using container_induction with
  | list vs ih | tuple vs ih =>
      rw [plain, sent_sequence _ (plainEach vs) rfl, sent_sequence _ vs rfl, lists.eq_iff,
        Option.map_eq_none_iff, Option.map_eq_none_iff, leaves, leaves_of_each, plain_each_eq,
        List.mapM_map]
      exact mapM_same_iff _ _ vs ih
  | map entries ih =>
      rw [plain, sent_map, sent_map, maps.eq_iff, Option.map_eq_none_iff, Option.map_eq_none_iff,
        leaves, leaves_of_entries, plain_entries_eq, List.mapM_map]
      refine mapM_same_iff _ _ entries fun entry present => ?_
      have pairs := Option.map_injective fun (w w' : Wire) same =>
        (Prod.mk.injEq entry.1 w entry.1 w').mp same |>.2
      rw [Function.comp_apply, sentEntry?, sentEntry?, pairs.eq_iff, Option.map_eq_none_iff,
        Option.map_eq_none_iff]
      exact ih entry present
  | member type name v =>
      rw [leaves_leaf _ rfl, List.forall_mem_singleton, IsSentSettled, plain]
      split_ifs with mixes
      · rw [sent_member, forall_prop_of_true mixes]
        exact ⟨.inl, fun either => either.elim id fun neither => neither.1.trans neither.2.symm⟩
      · exact iff_of_true rfl (.inl fun mixed => absurd mixed mixes)
  | model type fields =>
      have unsent : (model type fields).sent? = none := (sent_prepared _ _ rfl).trans rfl
      rw [leaves_leaf _ rfl, List.forall_mem_singleton, unsent]
      exact ⟨fun none => .inr ⟨none, rfl⟩, fun either => either.elim False.elim And.left⟩
  | single v single =>
      rw [single_plain v single, single_leaves v single, List.forall_mem_singleton]
      exact iff_of_true rfl (.inl (single_sent_settled v single))

end Value

open Value (sent?)

namespace Table

def forms (t : Table Value) : List (String × Option Wire) :=
  t.values.map fun (label, v) => (label, v.sent?)

def formsAfter (t : Table Value) (sent : List (Option Wire)) : List (String × Option Wire) :=
  t.forms ++ (sent.zipIdx t.nextValue).map fun (form, k) => (t.options.valueLabel k, form)

end Table

theorem entered_forms (o : Options) (t : Table Value) (reached : t.Reached o)
    (calls : List (Call Value)) :
    (t.enterAll calls).forms = t.formsAfter ((valuesOf calls).map sent?) := by
  rw [Table.forms, entered_values o t reached, List.map_append, Table.formsAfter,
    reached_options o t reached, List.zipIdx_map, List.map_map, List.map_map]
  rfl

theorem key_calls (entries : List (String × KeyClause Value)) (w : Workspace Value) :
    (w.buildKey entries).2.table = w.table.enterAll (keyLeaves entries) := by
  rw [Workspace.buildKey]
  induction entries generalizing w with
  | nil => rfl
  | cons entry rest ih =>
      obtain ⟨name, c⟩ := entry
      have first := write_leaves w.table [] (c.items name)
      rw [key_items_leaves, ← (add_clause_frame w name c).1] at first
      rw [keyLeaves, List.flatMap_cons, Table.enterAll, List.foldl_append]
      exact (ih (w.addClause name c)).trans (congrArg (Table.enterAll · _) first)

theorem condition_calls (c : Condition Value) (counted : c.IsCounted) (t : Table Value) :
    (c.render t).2 = t.enterAll c.leaves := by
  obtain ⟨sound, leaves⟩ := Condition.condition_yields c counted
  rw [← leaves, ← write_leaves t []]
  simp only [Condition.render, Script.run, sound]

namespace Change

theorem put_given (v : Value) (kept : v ≠ .undefined) (present : v ≠ .null) :
    (Change.put (.plain v)).given = [v] := by
  rw [given]
  · rfl
  · exact fun skipped => kept (Term.plain.inj skipped)
  · exact fun removed => present (Term.plain.inj removed)

theorem kept_given (c : Change)
    (settled : ∀ v ∈ c.given, ∀ leaf ∈ v.plain.leaves, leaf.IsSentSettled) :
    c.kept.given.map (fun v => v.plain.sent?) = c.given.map fun v => v.plain.sent? := by
  cases c with
  | put t =>
      cases t with
      | plain v =>
          by_cases special : v = .undefined ∨ v = .null
          · rcases special with rfl | rfl <;> rfl
          · rw [not_or] at special
            have plainKept : v.plain ≠ .undefined ∧ v.plain ≠ .null := by
              rcases v.plain_same_or_container with same | container
              · rwa [same]
              · constructor <;> intro empty <;> simp [empty, Value.isContainer] at container
            rw [put_given _ special.1 special.2, List.forall_mem_singleton] at settled
            rw [kept, Term.kept, put_given _ plainKept.1 plainKept.2,
              put_given _ special.1 special.2, List.map_singleton, List.map_singleton,
              (Value.plain_sent_iff v.plain).mpr (.inl settled)]
      | _ => rfl
  | _ => rfl

theorem model_given (fields : List (Field Change))
    (settled : ∀ v ∈ givenEach (setEntries fields), ∀ leaf ∈ v.plain.leaves,
      leaf.IsSentSettled) :
    (givenEach (ofModel fields)).map (fun v => v.plain.sent?) =
      (givenEach (setEntries fields)).map fun v => v.plain.sent? := by
  rw [ofModel]
  generalize setEntries fields = entries at settled ⊢
  induction entries with
  | nil => rfl
  | cons entry rest ih =>
      rw [givenEach, List.forall_mem_append] at settled
      rw [List.map_cons, givenEach, givenEach, List.map_append, List.map_append,
        kept_given _ settled.1, ih settled.2]

end Change

open Change (givenEach indexesEach actions ofModel)

-- What each of the builders sends for the values that it is given. Indexes that are too long stop
-- an update, and so do wrong counts a condition.
structure Workspace.SendsAlike (w : Workspace Value) : Prop where
  update : ∀ changes : List (String × Change),
    (∀ i ∈ indexesEach changes, Number.isWritable i = true) →
      ∃ w', applyEntries [] (actions changes) w = (none, w') ∧
        w'.table.forms = w.table.formsAfter ((givenEach changes).map fun v => v.plain.sent?)
  model : ∀ fields : List (Field Change),
    (∀ i ∈ indexesEach (ofModel fields), Number.isWritable i = true) →
      (∀ v ∈ givenEach (setEntries fields), ∀ leaf ∈ v.plain.leaves, leaf.IsSentSettled) →
        ∃ w', applyEntries [] (Update.Source.actions (.model (fields.map (.map Change.argument))))
            w = (none, w') ∧
          w'.table.forms =
            w.table.formsAfter ((givenEach (setEntries fields)).map fun v => v.plain.sent?)
  condition : ∀ c : Condition Value, c.IsCounted →
    (c.render w.table).2.forms = w.table.formsAfter ((valuesOf c.leaves).map sent?)
  key : ∀ entries : List (String × KeyClause Value),
    (w.buildKey entries).2.table.forms =
      w.table.formsAfter ((valuesOf (keyLeaves entries)).map sent?)

-- Where it can be seen whether a value was dumped not at all, once or twice.
structure Value.ShowsDumping (v : Value) : Prop where
  dumped : ∀ leaf ∈ v.plain.leaves, leaf.isModel = false
  modelFree : v.plain.IsModelFree ↔
    (∀ leaf ∈ v.plain.leaves, leaf.IsModelFree) ∧ ∀ k ∈ v.plain.keys, k.IsModelFree
  once : ∀ p, v.prepare = .ok p → (v.plain.prepare = .ok p ↔ ∀ leaf ∈ v.leaves, leaf.IsSettled)
  twice : ∀ p, v.plain.prepare = .ok p →
    (v.plain.plain.prepare = .ok p ↔ ∀ leaf ∈ v.plain.leaves, leaf.IsSettled)
  refused : ∀ e, v.prepare = .error e → ∃ e', v.plain.prepare = .error e'
  sent : v.plain.sent? = v.sent? ↔
    (∀ leaf ∈ v.leaves, leaf.IsSentSettled) ∨ (v.plain.sent? = none ∧ v.sent? = none)

theorem update_forms (o : Options) (w : Workspace Value) (reached : w.table.Reached o)
    (changes : List (String × Change))
    (short : ∀ i ∈ indexesEach changes, Number.isWritable i = true) :
    ∃ w', Workspace.applyEntries [] (actions changes) w = (none, w') ∧
      w'.table.forms = w.table.formsAfter ((givenEach changes).map fun v => v.plain.sent?) := by
  have sound := Workspace.entries_sound (actions changes) (Change.entries_short changes short) [] w
  cases applied : Workspace.applyEntries [] (actions changes) w with
  | mk fault w' =>
      obtain rfl : fault = none := by simpa [applied] using sound
      refine ⟨w', rfl, ?_⟩
      rw [Workspace.entries_calls _ _ w w' applied, entered_forms o w.table reached,
        Change.changes_stored changes short, List.map_map]
      rfl

theorem dumping_shown_iff (o : Options) (w : Workspace Value) (reached : w.table.Reached o) :
    (∀ v : Value, v.ShowsDumping) ∧ w.SendsAlike := by
  refine ⟨fun v => ?_, ?_⟩
  · exact
      { dumped := v.plain_leaves
        modelFree := v.plain.model_free_iff
        once := v.plain_prepared_iff
        twice := v.plain.plain_prepared_iff
        refused := v.plain_refused
        sent := v.plain_sent_iff }
  · exact
      { update := update_forms o w reached
        model := by
          intro fields short settled
          rw [Change.model_actions, ← Change.model_given fields settled]
          exact update_forms o w reached (ofModel fields) short
        condition := by
          intro c counted
          rw [condition_calls c counted, entered_forms o w.table reached]
        key := by
          intro entries
          rw [key_calls, entered_forms o w.table reached] }

-- A model in a tuple. The tuple within it and the size that is a list stay as they are until the
-- dump is dumped once more.
def visitValue : Value :=
  .tuple [.model ⟨⟨"travel", "Visit"⟩, false⟩ [⟨"place", some "at",
      .tuple [.date ⟨2024, 1, 2⟩, .member ⟨"Size", true⟩ "SMALL" (.list [.int 7, .str "x"])],
      false⟩],
    .float ⟨0x3FF8000000000000⟩]

def visitForm : Wire :=
  .list [.map [(.str "at", .list [.string "2024-01-02", .list [.number "7", .string "x"]])],
    .number "1.5"]

def visitWorkspace : Workspace Value :=
  { table := ({ options := .standard } : Table Value).enter (.path "id") }

theorem visit_dumped_unseen :
    visitWorkspace.table.Reached .standard ∧
      visitValue.plain.plain.prepare = visitValue.plain.prepare ∧
      (∃ w', Workspace.applyEntries [] (actions [("visit", .put (.plain visitValue))])
          visitWorkspace = (none, w') ∧ w'.table.forms = [(":v0", some visitForm)]) ∧
      ((Condition.compare (.path "visit") "=" (.value visitValue.plain)).render
        visitWorkspace.table).2.forms = [(":v0", some visitForm)] := by
  have reached : visitWorkspace.table.Reached .standard := .enter _ (.path "id") .fresh
  obtain ⟨shows, alike⟩ := dumping_shown_iff .standard visitWorkspace reached
  have settled : ∀ leaf ∈ visitValue.plain.leaves, leaf.IsSettled := by
    have leaves : visitValue.plain.leaves = [.date ⟨2024, 1, 2⟩,
      .member ⟨"Size", true⟩ "SMALL" (.list [.int 7, .str "x"]),
      .float ⟨0x3FF8000000000000⟩] := rfl
    rw [leaves, List.forall_mem_cons, List.forall_mem_cons, List.forall_mem_singleton]
    exact ⟨trivial, fun _ => ⟨trivial, trivial, trivial⟩, trivial⟩
  have again := ((shows visitValue).twice _ rfl).mpr settled
  obtain ⟨w', applied, updated⟩ :=
    alike.update [("visit", .put (.plain visitValue))] (by simp [indexesEach, Change.indexes])
  have compared := alike.condition (.compare (.path "visit") "=" (.value visitValue.plain))
    ⟨trivial, trivial⟩
  exact ⟨reached, again, ⟨w', applied, updated.trans rfl⟩, compared.trans rfl⟩

def smallSize : Value :=
  .member ⟨"Size", true⟩ "SMALL" (.tuple [.float ⟨0x3FF8000000000000⟩, .int 2])

def sizedBox : Value := .model ⟨⟨"shop", "Box"⟩, false⟩ [⟨"size", none, smallSize, true⟩]

def frozenTag : Value := .model ⟨⟨"shop", "Tag"⟩, true⟩ []

theorem tuple_member_shown :
    (smallSize.IsModelFree ∧ smallSize.plain.prepare ≠ smallSize.prepare) ∧
      (Workspace.applyEntries [] (actions [("size", .put (.plain smallSize))])
          visitWorkspace).2.table.forms =
        [(":v0", some (.list [.number "1.5", .number "2"]))] ∧
      ((Condition.compare (.path "size") "=" (.value smallSize)).render
        visitWorkspace.table).2.forms = [(":v0", none)] ∧
      sizedBox.plain.plain.prepare ≠ sizedBox.plain.prepare ∧
      frozenTag.unhashable? = none ∧ ¬ (Value.map [(frozenTag, .null)]).plain.IsModelFree := by
  have free : smallSize.IsModelFree := fun _ => ⟨trivial, trivial, trivial⟩
  refine ⟨⟨free, fun same => ?_⟩, rfl, rfl, fun same => ?_, rfl, fun free => free.1⟩
  · cases same
  · cases same

end ItemExpr
