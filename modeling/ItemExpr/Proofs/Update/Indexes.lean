import ItemExpr.Proofs.Entering
import ItemExpr.Proofs.Number.Spelling
import ItemExpr.Proofs.Update.Dispatch
import ItemExpr.Proofs.Update.Values
import ItemExpr.Proofs.Workspace.Surplus
import Mathlib.Data.List.Induction
import Mathlib.Tactic.IntervalCases

set_option autoImplicit false

namespace ItemExpr

structure IsDecimal (s : String) (i : Int) (ds : List Char) : Prop where
  chars : s.toList = if i < 0 then '-' :: ds else ds
  digits : ∀ c ∈ ds, c.isDigit = true
  value : Number.ofDigits ds = i.natAbs
  leading : ds.head? = some '0' → ds = ['0']

theorem numeral_leads (n : Nat) (positive : 0 < n) : (Nat.toDigits 10 n).head? ≠ some '0' := by
  induction n using Nat.strong_induction_on with
  | _ n ih =>
      by_cases single : n < 10
      · rw [Nat.toDigits_of_lt_base single]
        interval_cases n <;> decide
      · rw [Nat.toDigits_of_base_le (by decide) (by omega),
          List.head?_append_of_ne_nil _ Nat.toDigits_ne_nil]
        exact ih (n / 10) (by omega) (by omega)

theorem integer_decimal (i : Int) : IsDecimal (toString i) i (Nat.toDigits 10 i.natAbs) where
  chars := by
    cases i with
    | ofNat n => simp [toString, Int.repr]
    | negSucc n => simp [toString, Int.repr, Int.negSucc_lt_zero]
  digits := numeral_digits i.natAbs
  value := of_digits_numeral i.natAbs
  leading := by
    intro zero
    by_cases none : i.natAbs = 0
    · rw [none]
      rfl
    · exact absurd zero (numeral_leads i.natAbs (by omega))

theorem decimal_unique (s : String) (i j : Int) (ds es : List Char) (left : IsDecimal s i ds)
    (right : IsDecimal s j es) : i = j := by
  have same := left.chars.symm.trans right.chars
  have abs (equal : ds = es) : i.natAbs = j.natAbs :=
    left.value.symm.trans ((congrArg Number.ofDigits equal).trans right.value)
  have unsigned : ¬ ('-').isDigit = true := by decide
  by_cases below : i < 0 <;> by_cases lower : j < 0
  · rw [if_pos below, if_pos lower, List.cons.injEq] at same
    have := abs same.2
    omega
  · rw [if_pos below, if_neg lower] at same
    exact absurd (right.digits '-' (same ▸ List.mem_cons_self ..)) unsigned
  · rw [if_neg below, if_pos lower] at same
    exact absurd (left.digits '-' (same ▸ List.mem_cons_self ..)) unsigned
  · rw [if_neg below, if_neg lower] at same
    have := abs same
    omega

theorem integer_injective (i j : Int) (same : toString i = toString j) : i = j :=
  decimal_unique (toString i) i j _ _ (integer_decimal i) (same ▸ integer_decimal j)

namespace Value

def AreIndexes (ks : List Value) (is : List Int) : Prop :=
  List.Forall₂ (fun k i => k.index = .ok i) ks is

inductive FailsFirst : List Value → IndexError → Prop
  | here (k : Value) (rest : List Value) (e : IndexError) : k.index = .error e →
      FailsFirst (k :: rest) e
  | later (k : Value) (i : Int) (rest : List Value) (e : IndexError) : k.index = .ok i →
      FailsFirst rest e → FailsFirst (k :: rest) e

theorem indexes_cases (ks : List Value) :
    (∃ e, FailsFirst ks e ∧ indexes ks = .error e) ∨
      ∃ is, AreIndexes ks is ∧ indexes ks = .ok is := by
  induction ks with
  | nil => exact .inr ⟨[], .nil, rfl⟩
  | cons k rest ih =>
      cases read : k.index with
      | error e => exact .inl ⟨e, .here k rest e read, by rw [indexes, read]⟩
      | ok i =>
          obtain ⟨e, fails, failed⟩ | ⟨is, named, found⟩ := ih
          · exact .inl ⟨e, .later k i rest e read fails, by rw [indexes, read, failed]⟩
          · exact .inr ⟨i :: is, .cons read named, by rw [indexes, read, found]⟩

end Value

section Gathering

variable {A : Type}

def gatherInto (known given : List (Int × A)) : List (Int × A) :=
  given.foldl (fun known (i, a) => putIndex i a known) known

theorem add_indexed_cases (known : List (Int × A)) (pairs : List (Value × A)) :
    (∃ e, Value.FailsFirst (pairs.map Prod.fst) e ∧ addIndexed known pairs = .error e) ∨
      ∃ is, Value.AreIndexes (pairs.map Prod.fst) is ∧
        addIndexed known pairs = .ok (gatherInto known (is.zip (pairs.map Prod.snd))) := by
  induction pairs generalizing known with
  | nil => exact .inr ⟨[], .nil, rfl⟩
  | cons pair rest ih =>
      obtain ⟨k, a⟩ := pair
      cases read : k.index with
      | error e => exact .inl ⟨e, .here k _ e read, by rw [addIndexed, read]⟩
      | ok i =>
          obtain ⟨e, fails, failed⟩ | ⟨is, named, found⟩ := ih (putIndex i a known)
          · exact .inl ⟨e, .later k i _ e read fails, by rw [addIndexed, read]; exact failed⟩
          · exact .inr ⟨i :: is, .cons read named, by rw [addIndexed, read]; exact found⟩

theorem put_index_keys (i : Int) (a : A) (entries : List (Int × A)) :
    (putIndex i a entries).map Prod.fst =
      if i ∈ entries.map Prod.fst then entries.map Prod.fst
      else entries.map Prod.fst ++ [i] := by
  induction entries with
  | nil => rfl
  | cons head rest ih =>
      obtain ⟨other, old⟩ := head
      by_cases same : other = i
      · simp [putIndex, same]
      · have different : i ≠ other := Ne.symm same
        rw [putIndex, if_neg same, List.map_cons, ih, List.map_cons]
        by_cases known : i ∈ rest.map Prod.fst
        · rw [if_pos known, if_pos (List.mem_cons_of_mem _ known)]
        · rw [if_neg known, if_neg (by simpa [different] using known), List.cons_append]

theorem put_index_mem (i : Int) (a : A) (entries : List (Int × A))
    (distinct : (entries.map Prod.fst).Nodup) (e : Int × A) (present : e ∈ putIndex i a entries) :
    e = (i, a) ∨ e ∈ entries ∧ e.1 ≠ i := by
  induction entries with
  | nil => exact .inl (List.mem_singleton.mp present)
  | cons head rest ih =>
      obtain ⟨other, old⟩ := head
      rw [List.map_cons, List.nodup_cons] at distinct
      by_cases same : other = i
      · subst same
        rw [putIndex, if_pos rfl] at present
        refine (List.mem_cons.mp present).imp_right fun later => ⟨List.mem_cons_of_mem _ later, ?_⟩
        exact fun equal => distinct.1 (List.mem_map.mpr ⟨e, later, equal⟩)
      · rw [putIndex, if_neg same] at present
        rcases List.mem_cons.mp present with rfl | later
        · exact .inr ⟨List.mem_cons_self .., same⟩
        · exact (ih distinct.2 later).imp_right fun kept =>
            ⟨List.mem_cons_of_mem _ kept.1, kept.2⟩

-- Every index that is given has one entry, in the place where it is given first and with what is
-- given for it last.
structure HitsOnce (given entries : List (Int × A)) : Prop where
  places : entries.map Prod.fst = (given.map Prod.fst).eraseDups
  distinct : (entries.map Prod.fst).Nodup
  last : ∀ i a, (i, a) ∈ entries →
    ∃ before after, given = before ++ (i, a) :: after ∧ i ∉ after.map Prod.fst

theorem gathered_once (given : List (Int × A)) : HitsOnce given (gatherInto [] given) := by
  induction given using List.reverseRecOn with
  | nil => exact ⟨rfl, List.nodup_nil, fun _ _ present => absurd present List.not_mem_nil⟩
  | append_singleton given entry ih =>
      obtain ⟨j, b⟩ := entry
      have step : gatherInto [] (given ++ [(j, b)]) = putIndex j b (gatherInto [] given) :=
        List.foldl_append
      have listed : j ∈ (gatherInto [] given).map Prod.fst ↔ j ∈ given.map Prod.fst := by
        rw [ih.places, List.mem_eraseDups]
      refine ⟨?_, ?_, ?_⟩
      · rw [step, put_index_keys, List.map_append, List.eraseDups_append, ← ih.places]
        by_cases known : j ∈ given.map Prod.fst
        · simp [List.removeAll, listed.mpr known, known]
        · simp [List.removeAll, List.eraseDups_cons, mt listed.mp known, known]
      · rw [step, put_index_keys]
        split_ifs with known
        · exact ih.distinct
        · exact List.Nodup.append ih.distinct (List.nodup_singleton _) (by simpa using known)
      · intro i a present
        rw [step] at present
        rcases put_index_mem j b _ ih.distinct (i, a) present with here | ⟨known, apart⟩
        · rw [here]
          exact ⟨given, [], rfl, List.not_mem_nil⟩
        · obtain ⟨before, after, split, none⟩ := ih.last i a known
          exact ⟨before, after ++ [(j, b)], by rw [split]; simp, by simpa [none] using apart⟩

example :
    indexed [(.str " 0_1", 'a'), (.int 2, 'b'), (.bool true, 'c')] = .ok [(1, 'c'), (2, 'b')] := by
  rfl

end Gathering

section Stored

variable {V : Type}

theorem entered_found (o : Options) (t : Table V) (reached : t.Reached o) (v : V)
    (later : List (Call V)) :
    find? (t.options.valueLabel t.nextValue) ((t.enter (.value v)).enterAll later).values =
      some v := by
  obtain ⟨before, rfl⟩ := reached_entered o t reached
  generalize start : ({ options := o } : Table V) = t₀
  have whole : ((t₀.enterAll before).enter (.value v)).enterAll later =
      t₀.enterAll (before ++ .value v :: later) := by simp [Table.enterAll]
  have old := kept_entered o before
  have new := kept_entered o (before ++ .value v :: later)
  rw [start] at old new
  have listed : Listed (t₀.enterAll (before ++ .value v :: later)) _ := ⟨new.values, new.nextValue⟩
  have distinct : ((t₀.enterAll (before ++ .value v :: later)).values.map Prod.fst).Nodup := by
    rw [listed_keys _ _ listed]
    exact List.Nodup.map (value_label_injective _) List.nodup_range
  rw [whole]
  refine find_of_mem _ v _ distinct ?_
  rw [new.values, values_append, List.zipIdx_append, List.map_append, enter_all_options,
    enter_all_options, old.nextValue]
  exact List.mem_append_right _ (by simp [valuesOf])

end Stored

namespace Operand

variable {V : Type}

def written (t : Table V) : Operand V → Fragment
  | .literal _ => [.value (t.options.valueLabel t.nextValue)]
  | .path p => (t.addPath p).1
  | .pathOr p _ =>
      .text "if_not_exists(" ::
        ((t.addPath p).1 ++
          [.text ", ", .value (t.options.valueLabel t.nextValue), .text ")"])

def leaves : Operand V → List (Call V)
  | .literal v => [.value v]
  | .path p => [.path p]
  | .pathOr p v => [.path p, .value v]

theorem leaves_stored (operand : Operand V) : valuesOf operand.leaves = operand.stored := by
  cases operand <;> rfl

theorem operand_written (operand : Operand V) (self : Fragment) (t : Table V) :
    t.write self operand.script.items = (operand.written t, t.enterAll operand.leaves) := by
  cases operand with
  | literal v => rfl
  | path p =>
      simp [script, Script.path, Table.write, Table.writeItem, written, leaves, Table.enterAll,
        Table.enter]
  | pathOr p v =>
      obtain ⟨options, _, next⟩ := add_segments_frame t (t.options.segments p)
      have items : (Operand.pathOr p v).script.items =
          [.text "if_not_exists(", .path p, .text ", ", .value v, .text ")"] := rfl
      rw [items]
      simp [Table.write, Table.writeItem, written, leaves, Table.enterAll, Table.enter,
        Table.addPath, Table.addValue, options, next, Options.valueLabel, toString]

end Operand

def Fragment.element (target : Fragment) (i : Int) : Fragment := target ++ [.text s!"[{i}]"]

def stopped (indexes : List Int) : Option Fault :=
  if indexes.all Number.isWritable then none else some .longIndex

def beforeLong {A : Type} (entries : List (Int × A)) : List (Int × A) :=
  entries.takeWhile fun entry => Number.isWritable entry.1

section Elements

variable {V : Type}

theorem stopped_cons (i : Int) (rest : List Int) (short : Number.isWritable i = true) :
    stopped (i :: rest) = stopped rest := by
  simp [stopped, short]

theorem stopped_long (i : Int) (rest : List Int) (long : ¬ Number.isWritable i = true) :
    stopped (i :: rest) = some .longIndex := by
  simp [stopped, long]

theorem before_long_cons {A : Type} (i : Int) (a : A) (rest : List (Int × A))
    (short : Number.isWritable i = true) :
    beforeLong ((i, a) :: rest) = (i, a) :: beforeLong rest :=
  List.takeWhile_cons_of_pos short

theorem before_long_stopped {A : Type} (i : Int) (a : A) (rest : List (Int × A))
    (long : ¬ Number.isWritable i = true) : beforeLong ((i, a) :: rest) = [] :=
  List.takeWhile_cons_of_neg long

theorem before_long_map {A B : Type} (f : A → B) (entries : List (Int × A)) :
    beforeLong (entries.map fun (i, a) => (i, f a)) =
      (beforeLong entries).map fun (i, a) => (i, f a) := by
  rw [beforeLong, beforeLong]
  generalize Number.isWritable = isShort
  rw [List.takeWhile_map]
  rfl

theorem short_element (i : Int) (short : Number.isWritable i = true) :
    (Script.self ++ .index i : Script V) = ⟨[.self, .text s!"[{i}]"], none⟩ := by
  rw [Script.index, if_pos short]
  rfl

theorem long_element (i : Int) (long : ¬ Number.isWritable i = true) :
    (Script.self ++ .index i : Script V) = ⟨[.self], some .longIndex⟩ := by
  rw [Script.index, if_neg long]
  rfl

theorem element_text (target : Fragment) (i j : Int)
    (same : (target.element i).text = (target.element j).text) : i = j := by
  have texts : s!"[{i}]" = s!"[{j}]" := by
    refine append_injective target.text _ _ ?_
    simpa [Fragment.element, Fragment.text_append, Fragment.text, Token.spelling] using same
  have chars := congrArg String.toList texts
  have inner : (toString i).toList = (toString j).toList := by simpa [toString] using chars
  exact integer_injective i j (String.toList_injective inner)

namespace Workspace

theorem add_clause_written (target : Fragment) (group : Group) (s : Script V)
    (rest : List (Group × Script V)) (w : Workspace V) (f : Fragment) (t : Table V)
    (ran : s.run target w.table = (.ok f, t)) :
    addClauses target ((group, s) :: rest) w =
      addClauses target rest { w with table := t, update := w.update.push group f } := by
  rw [addClauses, runScript, ran]

theorem add_clause_stopped (target : Fragment) (group : Group) (s : Script V)
    (rest : List (Group × Script V)) (w : Workspace V) (e : Fault) (t : Table V)
    (ran : s.run target w.table = (.error e, t)) :
    addClauses target ((group, s) :: rest) w = (some e, { w with table := t }) := by
  rw [addClauses, runScript, ran]

theorem indexes_removed (indexes : List Int) (target : Fragment) (w : Workspace V) :
    apply target (.removeIndexes indexes) w =
      (stopped indexes,
        { w with
          update := { w.update with
            remove := w.update.remove ++
              (indexes.takeWhile Number.isWritable).map target.element } }) := by
  induction indexes generalizing w with
  | nil => simp [apply, Action.clauses, addClauses, stopped]
  | cons i rest ih =>
      change addClauses target
        ((.remove, .self ++ .index i) :: (Action.removeIndexes rest).clauses) w = _
      by_cases short : Number.isWritable i = true
      · have ran : (Script.self ++ .index i : Script V).run target w.table =
            (.ok (target.element i), w.table) := by
          rw [short_element i short]
          rfl
        rw [add_clause_written _ _ _ _ _ _ _ ran, stopped_cons i rest short,
          List.takeWhile_cons_of_pos short]
        refine (ih _).trans ?_
        simp [Clauses.push]
      · have ran : (Script.self ++ .index i : Script V).run target w.table =
            (.error .longIndex, w.table) := by
          rw [long_element i short]
          rfl
        rw [add_clause_stopped _ _ _ _ _ _ _ ran, stopped_long i rest short,
          List.takeWhile_cons_of_neg short]
        simp

end Workspace

theorem assignment_run (i : Int) (operand : Operand V) (short : Number.isWritable i = true)
    (target : Fragment) (t : Table V) :
    (Script.self ++ .index i ++ .text " = " ++ operand.script : Script V).run target t =
      (.ok (target.element i ++ .text " = " :: operand.written t),
        t.enterAll operand.leaves) := by
  have items : (Script.self ++ .index i ++ .text " = " ++ operand.script : Script V) =
      ⟨[.self, .text s!"[{i}]", .text " = "] ++ operand.script.items, none⟩ := by
    rw [short_element i short, Script.append_of_sound _ _ rfl, Script.append_of_sound _ _ rfl,
      operand.operand_sound]
    rfl
  rw [items, Script.run, Table.write_append, operand.operand_written]
  simp [Table.write, Table.writeItem, Fragment.element]

theorem long_assignment (i : Int) (operand : Operand V) (long : ¬ Number.isWritable i = true) :
    (Script.self ++ .index i ++ .text " = " ++ operand.script : Script V) =
      ⟨[.self], some .longIndex⟩ := by
  rw [long_element i long, Script.append_of_fault _ _ _ rfl, Script.append_of_fault _ _ _ rfl]

def assignments (target : Fragment) : Table V → List (Int × Operand V) → List Fragment
  | _, [] => []
  | t, (i, operand) :: rest =>
      (target.element i ++ .text " = " :: operand.written t) ::
        assignments target (t.enterAll operand.leaves) rest

def entryLeaves (entries : List (Int × Operand V)) : List (Call V) :=
  entries.flatMap fun entry => entry.2.leaves

theorem entry_leaves_cons (i : Int) (operand : Operand V) (rest : List (Int × Operand V))
    (t : Table V) :
    t.enterAll (entryLeaves ((i, operand) :: rest)) =
      (t.enterAll operand.leaves).enterAll (entryLeaves rest) := by
  rw [entryLeaves, List.flatMap_cons, Table.enterAll, List.foldl_append]
  rfl

namespace Workspace

theorem indexes_assigned (entries : List (Int × Operand V)) (target : Fragment)
    (w : Workspace V) :
    apply target (.assignIndexes entries) w =
      (stopped (entries.map Prod.fst),
        { w with
          table := w.table.enterAll (entryLeaves (beforeLong entries))
          update := { w.update with
            set := w.update.set ++ assignments target w.table (beforeLong entries) } }) := by
  induction entries generalizing w with
  | nil =>
      simp [apply, Action.clauses, addClauses, stopped, beforeLong, Table.enterAll, entryLeaves,
        assignments]
  | cons entry rest ih =>
      obtain ⟨i, operand⟩ := entry
      have start : apply target (.assignIndexes ((i, operand) :: rest)) w = addClauses target
          ((.set, .self ++ .index i ++ .text " = " ++ operand.script) ::
            (Action.assignIndexes rest).clauses) w := rfl
      rw [start, List.map_cons]
      by_cases short : Number.isWritable i = true
      · have ran := assignment_run i operand short target w.table
        rw [add_clause_written _ _ _ _ _ _ _ ran, stopped_cons i _ short,
          before_long_cons i operand rest short, entry_leaves_cons, assignments]
        refine (ih _).trans ?_
        simp [Clauses.push]
      · have ran : (Script.self ++ .index i ++ .text " = " ++ operand.script : Script V).run target
            w.table = (.error .longIndex, w.table) := by
          rw [long_assignment i operand short]
          rfl
        rw [add_clause_stopped _ _ _ _ _ _ _ ran, stopped_long i _ short,
          before_long_stopped i operand rest short]
        simp [entryLeaves, assignments, Table.enterAll]

end Workspace

def IsAssigned (t t' : Table V) (target : Fragment) (entry : Int × Operand V)
    (clause : Fragment) : Prop :=
  ∃ now : Table V, Enters t now ∧ Enters now t' ∧
    clause = target.element entry.1 ++ .text " = " :: entry.2.written now ∧
      ∀ v ∈ entry.2.stored, find? (now.options.valueLabel now.nextValue) t'.values = some v

theorem operand_found (o : Options) (t : Table V) (reached : t.Reached o) (operand : Operand V)
    (later : List (Call V)) (v : V) (stored : v ∈ operand.stored) :
    find? (t.options.valueLabel t.nextValue)
      ((t.enterAll operand.leaves).enterAll later).values = some v := by
  cases operand with
  | literal w =>
      obtain rfl := List.mem_singleton.mp stored
      exact entered_found o t reached v later
  | path p => exact absurd stored List.not_mem_nil
  | pathOr p w =>
      obtain rfl := List.mem_singleton.mp stored
      obtain ⟨options, _, next⟩ := add_segments_frame t (t.options.segments p)
      have found := entered_found o (t.enter (.path p)) (.enter t (.path p) reached) v later
      rw [Table.enter, Table.addPath, options, next] at found
      exact found

theorem assignments_assigned (o : Options) (target : Fragment) (entries : List (Int × Operand V))
    (t : Table V) (reached : t.Reached o) :
    List.Forall₂ (IsAssigned t (t.enterAll (entryLeaves entries)) target) entries
      (assignments target t entries) := by
  induction entries generalizing t with
  | nil => exact .nil
  | cons entry rest ih =>
      obtain ⟨i, operand⟩ := entry
      have first : Enters t (t.enterAll operand.leaves) := ⟨_, rfl⟩
      have others := ih (t.enterAll operand.leaves) (enters_reached o _ _ reached first)
      rw [entry_leaves_cons, assignments]
      refine .cons ?_ (others.imp ?_)
      · exact ⟨t, enters_refl t, enters_trans _ _ _ first ⟨_, rfl⟩, rfl,
          operand_found o t reached operand _⟩
      · rintro entry clause ⟨now, before, after, written, found⟩
        exact ⟨now, enters_trans _ _ _ first before, after, written, found⟩

theorem entry_leaves_stored (entries : List (Int × Operand V)) :
    valuesOf (entryLeaves entries) = entries.flatMap fun entry => entry.2.stored := by
  induction entries with
  | nil => rfl
  | cons entry rest ih =>
      rw [entryLeaves, List.flatMap_cons, values_append, entry.2.leaves_stored, List.flatMap_cons]
      exact congrArg (entry.2.stored ++ ·) ih

namespace Action

def RemovesAt (a : Action V) (fault : Option Fault) (indexes : List Int) : Prop :=
  ∀ (target : Fragment) (w : Workspace V),
    Workspace.apply target a w =
      (fault, { w with
        update := { w.update with
          remove := w.update.remove ++ indexes.map target.element } })

structure Assigned (target : Fragment) (entries : List (Int × Operand V)) (w w' : Workspace V) :
    Prop where
  clauses : ∃ clauses, w'.update = { w.update with set := w.update.set ++ clauses } ∧
    List.Forall₂ (IsAssigned w.table w'.table target) entries clauses
  targets : (entries.map fun entry => (target.element entry.1).text).Nodup
  table : w'.table = w.table.enterAll (entryLeaves entries)
  values : w'.table.values = w.table.values ++
    ((entries.flatMap fun entry => entry.2.stored).zipIdx w.table.nextValue).map
      fun (v, k) => (w.table.options.valueLabel k, v)
  key : w'.key = w.key
  log : w'.log = w.log

def AssignsAt (a : Action V) (fault : Option Fault) (entries : List (Int × Operand V)) : Prop :=
  ∀ (o : Options) (target : Fragment) (w : Workspace V), w.table.Reached o →
    ∃ w', Workspace.apply target a w = (fault, w') ∧ Assigned target entries w w'

theorem assign_indexes_at (entries : List (Int × Operand V))
    (distinct : (entries.map Prod.fst).Nodup) :
    AssignsAt (.assignIndexes entries) (stopped (entries.map Prod.fst)) (beforeLong entries) := by
  intro o target w reached
  refine ⟨_, Workspace.indexes_assigned entries target w, ?_⟩
  exact
    { clauses := ⟨_, rfl, assignments_assigned o target _ w.table reached⟩
      targets := by
        have kept := distinct.sublist ((List.takeWhile_sublist
          fun entry : Int × Operand V => Number.isWritable entry.1).map Prod.fst)
        have apart := kept.map fun i j same => element_text target i j same
        rwa [List.map_map] at apart
      table := rfl
      values := by
        rw [reached_options o w.table reached, ← entry_leaves_stored]
        exact entered_values o w.table reached _
      key := rfl
      log := rfl }

end Action

end Elements

def Update.RemovesEach (vs : List Argument) : Prop :=
  (∃ e, removeIndexes vs = .error e) ∨
    ∃ is kind a, Value.AreIndexes (vs.map Argument.toValue) is ∧
      removeIndexes vs = .ok (.action kind a) ∧ a.RemovesAt none is

-- The first key that names no index fails the construction. Otherwise the clauses have the indexes
-- in plain digits, up to the first that is too long: one for each index that is removed, one for
-- each different index that is assigned, with what the last key for it is given.
theorem indexes_hit_once :
    (∀ vs : List Argument,
      (∃ e, Value.FailsFirst (vs.map Argument.toValue) e ∧
        Update.removeIndexes vs = .error (.index e)) ∨
      ∃ is kind a, Value.AreIndexes (vs.map Argument.toValue) is ∧
        Update.removeIndexes vs = .ok (.action kind a) ∧
        a.RemovesAt (stopped is) (is.takeWhile Number.isWritable)) ∧
    (∀ pairs : List (Value × Argument),
      (∃ e, Value.FailsFirst (pairs.map Prod.fst) e ∧
        Update.assignIndexes pairs = .error (.index e)) ∨
      ∃ is entries kind a, Value.AreIndexes (pairs.map Prod.fst) is ∧
        HitsOnce (is.zip (pairs.map Prod.snd)) entries ∧
        Update.assignIndexes pairs = .ok (.action kind a) ∧
        a.AssignsAt (stopped (entries.map Prod.fst))
          ((beforeLong entries).map fun (i, x) => (i, x.valueOperand))) ∧
    ∀ i : Int, ∃ ds, IsDecimal (toString i) i ds := by
  refine ⟨?_, ?_, fun i => ⟨_, integer_decimal i⟩⟩
  · intro vs
    obtain ⟨e, fails, failed⟩ | ⟨is, named, found⟩ :=
      Value.indexes_cases (vs.map Argument.toValue)
    · exact .inl ⟨e, fails, by rw [Update.removeIndexes, failed]⟩
    · refine .inr ⟨is, _, _, named, by rw [Update.removeIndexes, found], ?_⟩
      exact fun target w => Workspace.indexes_removed is target w
  · intro pairs
    obtain ⟨e, fails, failed⟩ | ⟨is, named, found⟩ := add_indexed_cases [] pairs
    · exact .inl ⟨e, fails, by rw [Update.assignIndexes, indexed, failed]⟩
    · have once := gathered_once (is.zip (pairs.map Prod.snd))
      generalize gatherInto [] (is.zip (pairs.map Prod.snd)) = entries at found once
      refine .inr ⟨is, entries, _, _, named, once, by rw [Update.assignIndexes, indexed, found], ?_⟩
      have keys : (entries.map fun (i, x) => (i, x.valueOperand)).map Prod.fst =
          entries.map Prod.fst := by
        rw [List.map_map]
        rfl
      have assigned := Action.assign_indexes_at (entries.map fun (i, x) => (i, x.valueOperand))
        (keys ▸ once.distinct)
      rwa [keys, before_long_map] at assigned

theorem power_truncated (k : Nat) : Decimal.truncate false 1 k = 10 ^ k := by
  simp [Decimal.truncate, Number.tenTo]

theorem long_index_not_removed :
    ¬ Update.RemovesEach [.value (.decimal (.finite false 1 4300))] := by
  have converted : Value.index (.decimal (.finite false 1 4300)) = .ok (10 ^ Number.maxDigits) :=
    congrArg Except.ok (power_truncated Number.maxDigits)
  generalize Value.decimal (.finite false 1 4300) = v at converted ⊢
  have read : Value.indexes [v] = .ok [10 ^ Number.maxDigits] := by
    rw [Value.indexes, converted, Value.indexes]
  have made : Update.removeIndexes [.value v] =
      .ok (.action "DeleteIndexes" (.removeIndexes [10 ^ Number.maxDigits])) :=
    Change.remove_indexes_built [.value v] [10 ^ Number.maxDigits] read
  rintro (⟨e, failed⟩ | ⟨is, kind, a, named, built, removes⟩)
  · rw [made] at failed
    cases failed
  · rw [made, Except.ok.injEq, Argument.action.injEq] at built
    obtain ⟨_, rfl⟩ := built
    have stops := removes [] { table := { options := .standard } }
    rw [Workspace.indexes_removed, stopped_long _ _ (by simp [Change.power_long])] at stops
    cases (Prod.mk.inj stops).1

end ItemExpr
