import ItemExpr.Params
import ItemExpr.Proofs.Condition.Reading
import ItemExpr.Proofs.Update.Compile

set_option autoImplicit false

namespace ItemExpr

variable {V : Type}

-- Entering the fragments made the second table out of the first. If all of them were `kept`, each
-- new value is mentioned once, and if they are `full`, each new name is mentioned.
structure Linked (kept full : Prop) (t t' : Table V) (fs : List Fragment) : Prop where
  grown : Extends t t'
  reads : ∀ f ∈ fs, ∃ symbols, Reads t' f symbols
  values : kept → (t'.values.map Prod.fst).Perm
    (t.values.map Prod.fst ++ fs.flatMap Fragment.valueLabels)
  names : kept → full → ∀ label ∈ t'.names.map Prod.fst,
    label ∈ t.names.map Prod.fst ∨ ∃ f ∈ fs, label ∈ f.nameLabels

section Linking

variable (kept full : Prop)

theorem linked_nil (t : Table V) (coherent : Coherent t) : Linked kept full t t [] where
  grown := extends_refl t coherent
  reads := by simp
  values := fun _ => by simp
  names := fun _ _ _ present => .inl present

theorem linked_append (t t' t'' : Table V) (fs gs : List Fragment) (first : Linked kept full t t' fs)
    (second : Linked kept full t' t'' gs) : Linked kept full t t'' (fs ++ gs) where
  grown := extends_trans _ _ _ first.grown second.grown
  reads := by
    intro f present
    rcases List.mem_append.mp present with here | later
    · obtain ⟨symbols, reads⟩ := first.reads f here
      exact ⟨symbols, reads_extends _ _ second.grown f symbols reads⟩
    · exact second.reads f later
  values := by
    intro all
    have front := (first.values all).append_right (gs.flatMap Fragment.valueLabels)
    rw [List.flatMap_append, ← List.append_assoc]
    exact (second.values all).trans front
  names := by
    intro all whole label present
    rcases second.names all whole label present with old | ⟨f, here, mentioned⟩
    · rcases first.names all whole label old with older | ⟨f, here, mentioned⟩
      · exact .inl older
      · exact .inr ⟨f, List.mem_append_left _ here, mentioned⟩
    · exact .inr ⟨f, List.mem_append_right _ here, mentioned⟩

theorem written_linked (t t' : Table V) (f : Fragment) (symbols : List (Symbol V))
    (written : Written t f t' symbols) : Linked kept full t t' [f] where
  grown := written.grown
  reads := by
    intro g present
    rw [List.mem_singleton.mp present]
    exact ⟨symbols, written.reads⟩
  values := fun _ => by simp [written.values]
  names := by
    intro _ _ label present
    exact (written.names label present).imp_right fun inside => ⟨f, by simp, inside⟩

theorem linked_weaken (kept' full' : Prop) (t t' : Table V) (fs : List Fragment)
    (linked : Linked kept full t t' fs) (lessKept : kept' → kept) (lessFull : full' → full) :
    Linked kept' full' t t' fs where
  grown := linked.grown
  reads := linked.reads
  values := fun all => linked.values (lessKept all)
  names := fun all whole => linked.names (lessKept all) (lessFull whole)

theorem linked_gather (t t' : Table V) (fs gs : List Fragment) (linked : Linked kept full t t' fs)
    (reads : ∀ g ∈ gs, ∃ symbols, Reads t' g symbols)
    (values : kept →
      (fs.flatMap Fragment.valueLabels).Perm (gs.flatMap Fragment.valueLabels))
    (names : kept → ∀ f ∈ fs, ∀ label ∈ f.nameLabels, ∃ g ∈ gs, label ∈ g.nameLabels) :
    Linked kept full t t' gs where
  grown := linked.grown
  reads := reads
  values := fun all => (linked.values all).trans ((values all).append_left _)
  names := by
    intro all whole label present
    rcases linked.names all whole label present with old | ⟨f, here, mentioned⟩
    · exact .inl old
    · exact .inr (names all f here label mentioned)

end Linking

section Joining

variable (separator : String)

theorem join_cons (f g : Fragment) (rest : List Fragment) :
    Fragment.join separator (f :: g :: rest) =
      f ++ ([.text separator] ++ Fragment.join separator (g :: rest)) := by
  simp [Fragment.join, List.intercalate_cons_cons]

theorem join_reads (present : separator ≠ "") (clear : Quiet separator ∧ Separate separator)
    (t : Table V) (fs : List Fragment) (symbols : List (List (Symbol V)))
    (each : List.Forall₂ (Reads t) fs symbols) :
    Reads t (Fragment.join separator fs) (joinSymbols separator symbols) := by
  induction each with
  | nil => exact .nil
  | @cons f said fs symbols first rest ih =>
      cases rest with
      | nil => simpa [Fragment.join, joinSymbols, followSymbols] using first
      | @cons g next fs symbols second rest =>
          have separate : Separate (Fragment.text ([.text separator] ++
              Fragment.join separator (g :: fs))) := by
            rw [Fragment.text_append]
            exact separate_front _ _ (by simpa [Fragment.text, Token.spelling] using present)
              (by simpa [Fragment.text, Token.spelling] using clear.2)
          rw [join_cons]
          exact reads_append t f _ said _ first
            (.text separator _ _ (quiet_mute _ clear.1) ih) separate

theorem join_labels (label? : Token → Option String) (silent : ∀ s, label? (.text s) = none)
    (fs : List Fragment) :
    (Fragment.join separator fs).filterMap label? = fs.flatMap (List.filterMap label?) := by
  match fs with
  | [] => rfl
  | [f] => simp [Fragment.join]
  | f :: g :: rest =>
      have others := join_labels label? silent (g :: rest)
      rw [join_cons, List.filterMap_append, List.filterMap_append, others]
      simp [silent]

end Joining

section Keys

def KeyClause.IsOffered : KeyClause V → Prop
  | .compare operator _ => IsOperator operator
  | .between _ _ _ => True
  | .beginsWith _ => True

def KeyClause.IsLegible : KeyClause V → Prop
  | .compare operator _ => AliasFree operator.spelling
  | .between _ _ _ => True
  | .beginsWith _ => True

theorem operator_free (operator : Word) (offered : IsOperator operator) :
    AliasFree operator.spelling := by
  obtain ⟨r, rfl⟩ := offered
  cases r <;> decide

theorem key_offered_legible (c : KeyClause V) (offered : c.IsOffered) : c.IsLegible := by
  cases c with
  | compare operator v => exact operator_free operator offered
  | _ => trivial

theorem key_items_clear (name : String) (indexed : IsIndexed name) (c : KeyClause V)
    (legible : c.IsLegible) : ∀ item ∈ c.items name, item.Clear := by
  have text (s : String) (clear : Quiet s ∧ Separate s) : (Item.text s : Item V).Clear :=
    ⟨quiet_mute s clear.1, clear.2⟩
  cases c with
  | compare operator v =>
      have word := word_clear (V := V) operator.spelling legible (.text s!" {operator.spelling} ")
        (List.mem_singleton_self _)
      simpa [KeyClause.items, Item.Clear, indexed] using word
  | between operator low high =>
      have first := text " BETWEEN " Condition.between_clear
      have second := text " AND " Condition.and_clear
      simpa [KeyClause.items, Item.Clear, indexed] using And.intro first second
  | beginsWith v =>
      have opened := text "begins_with(" (by simp [Quiet, Separate])
      have middle := text ", " comma_clear
      have closed := text ")" close_clear
      simpa [KeyClause.items, Item.Clear, indexed] using And.intro opened (And.intro middle closed)

theorem add_clause_frame (w : Workspace V) (name : String) (c : KeyClause V) :
    (w.addClause name c).table = (w.table.write [] (c.items name)).2 ∧
      (w.addClause name c).update = w.update := by
  by_cases free : w.key.length < maxKeyClauses
  · simp [Workspace.addClause, Workspace.writeClause, Workspace.write, Workspace.keepClause, free]
  · simp [Workspace.addClause, Workspace.writeClause, Workspace.write, Workspace.keepClause, free,
      Workspace.record]

theorem keys_update (entries : List (String × KeyClause V)) (w : Workspace V) :
    (entries.foldl (fun w (name, c) => w.addClause name c) w).update = w.update := by
  induction entries generalizing w with
  | nil => rfl
  | cons entry rest ih =>
      obtain ⟨name, c⟩ := entry
      exact (ih (w.addClause name c)).trans (add_clause_frame w name c).2

theorem add_clause_key (w : Workspace V) (name : String) (c : KeyClause V)
    (room : w.key.length ≤ maxKeyClauses) :
    (w.addClause name c).key =
      (w.key ++ [(w.table.write [] (c.items name)).1]).take maxKeyClauses := by
  by_cases free : w.key.length < maxKeyClauses
  · have fits : (w.key ++ [(w.table.write [] (c.items name)).1]).length ≤ maxKeyClauses := by
      rw [List.length_append, List.length_singleton]
      omega
    rw [List.take_of_length_le fits]
    simp [Workspace.addClause, Workspace.writeClause, Workspace.write, Workspace.keepClause, free]
  · have same : w.key.length = maxKeyClauses := by omega
    rw [← same, List.take_left]
    simp [Workspace.addClause, Workspace.writeClause, Workspace.write, Workspace.keepClause, free,
      Workspace.record]

theorem take_again {α : Type} (n : Nat) (front back : List α) :
    (front.take n ++ back).take n = (front ++ back).take n := by
  rw [List.take_append, List.take_append, List.take_take, Nat.min_self, List.length_take]
  congr 2
  omega

theorem keys_linked (entries : List (String × KeyClause V))
    (legible : ∀ entry ∈ entries, IsIndexed entry.1 ∧ entry.2.IsLegible) (w : Workspace V)
    (coherent : Coherent w.table) (defaults : w.table.options = {})
    (room : w.key.length ≤ maxKeyClauses) :
    ∃ written,
      (entries.foldl (fun w (name, c) => w.addClause name c) w).key =
        (w.key ++ written).take maxKeyClauses ∧
      List.Forall₂ (Reads (entries.foldl (fun w (name, c) => w.addClause name c) w).table) written
        (entries.map fun (name, c) => itemSymbols [] (c.items name)) ∧
      Linked True True w.table (entries.foldl (fun w (name, c) => w.addClause name c) w).table
        written := by
  induction entries generalizing w with
  | nil =>
      refine ⟨[], ?_, .nil, linked_nil True True w.table coherent⟩
      rw [List.append_nil, List.take_of_length_le room]
      rfl
  | cons entry rest ih =>
      obtain ⟨name, c⟩ := entry
      rw [List.forall_mem_cons] at legible
      have written := write_written w.table coherent defaults [] [] (known_nil w.table)
        (c.items name) (key_items_clear name legible.1.1 c legible.1.2)
      rw [← (add_clause_frame w name c).1] at written
      have first := written_linked True True _ _ _ _ written
      obtain ⟨others, kept, reads, linked⟩ := ih legible.2 (w.addClause name c)
        first.grown.coherent (first.grown.options.trans defaults)
        (by rw [add_clause_key w name c room]; exact List.length_take_le _ _)
      refine ⟨(w.table.write [] (c.items name)).1 :: others, ?_, ?_, ?_⟩
      · rw [List.foldl_cons, kept, add_clause_key w name c room, take_again, List.append_assoc]
        rfl
      · exact .cons (reads_extends _ _ linked.grown _ _ written.reads) reads
      · exact linked_append True True _ _ _ _ _ first linked

theorem key_linked (full : Prop) (entries : List (String × KeyClause V))
    (legible : ∀ entry ∈ entries, IsIndexed entry.1 ∧ entry.2.IsLegible) (w : Workspace V)
    (coherent : Coherent w.table) (defaults : w.table.options = {}) (empty : w.key = []) :
    Reads (w.buildKey entries).2.table (w.buildKey entries).1
        (joinSymbols " AND "
          ((entries.map fun (name, c) => itemSymbols [] (c.items name)).take maxKeyClauses)) ∧
      Linked (entries.length ≤ maxKeyClauses) full w.table (w.buildKey entries).2.table
        [(w.buildKey entries).1] := by
  obtain ⟨written, kept, reads, linked⟩ :=
    keys_linked entries legible w coherent defaults (by simp [empty])
  have expression : (w.buildKey entries).1 =
      Fragment.join " AND " (written.take maxKeyClauses) := by
    rw [Workspace.buildKey, Workspace.keyExpression, kept, empty, List.nil_append]
  have long : written.length = entries.length := by
    rw [reads.length_eq, List.length_map]
  have all (few : entries.length ≤ maxKeyClauses) : written.take maxKeyClauses = written :=
    List.take_of_length_le (long ▸ few)
  have said := join_reads " AND " (by simp) Condition.and_clear _ _ _
    (List.forall₂_take maxKeyClauses reads)
  rw [expression]
  refine ⟨said, ?_⟩
  apply linked_gather _ _ _ _ written _
    (linked_weaken True True _ _ _ _ _ linked (fun _ => trivial) fun _ => trivial)
  · intro g present
    rw [List.mem_singleton.mp present]
    exact ⟨_, said⟩
  · intro few
    rw [all few, List.flatMap_singleton, Fragment.valueLabels,
      join_labels " AND " Token.valueLabel? fun _ => rfl]
    exact .refl _
  · intro few f here label mentioned
    refine ⟨_, List.mem_singleton_self _, ?_⟩
    rw [all few, Fragment.nameLabels, join_labels " AND " Token.nameLabel? fun _ => rfl]
    exact List.mem_flatMap.mpr ⟨f, here, mentioned⟩

end Keys

section Updates

def ofGroup {α : Type} (added : List (Group × α)) (group : Group) : List α :=
  (added.filter fun clause => clause.1 = group).map Prod.snd

theorem gathered_perm (added : List (Group × Fragment)) :
    (added.map Prod.snd).Perm (Group.inOrder.flatMap (ofGroup added)) := by
  induction added with
  | nil => exact .refl _
  | cons clause rest ih =>
      obtain ⟨group, f⟩ := clause
      refine (ih.cons f).trans ?_
      have moved (front back : List Fragment) : (f :: (front ++ back)).Perm (front ++ f :: back) :=
        List.perm_middle.symm
      cases group with
      | set => simp [Group.inOrder, ofGroup]
      | remove =>
          simpa [Group.inOrder, ofGroup] using moved (ofGroup rest .set)
            (ofGroup rest .remove ++ (ofGroup rest .add ++ ofGroup rest .delete))
      | add =>
          simpa [Group.inOrder, ofGroup] using moved (ofGroup rest .set ++ ofGroup rest .remove)
            (ofGroup rest .add ++ ofGroup rest .delete)
      | delete =>
          simpa [Group.inOrder, ofGroup] using
            moved (ofGroup rest .set ++ (ofGroup rest .remove ++ ofGroup rest .add))
              (ofGroup rest .delete)

theorem keyword_clear (group : Group) :
    Quiet s!"{group.keyword} " ∧ Separate s!"{group.keyword} " := by
  cases group <;> simp [Quiet, Separate, Group.keyword, toString]

def groupSymbols? (group : Group) (parts : List (List (Symbol V))) : Option (List (Symbol V)) :=
  if parts.isEmpty then none else some (chars s!"{group.keyword} " ++ joinSymbols ", " parts)

def expressionSymbols? (parts : Group → List (List (Symbol V))) : Option (List (Symbol V)) :=
  match Group.inOrder.filterMap fun group => groupSymbols? group (parts group) with
  | [] => none
  | said => some (joinSymbols " " said)

section Expressions

variable (t : Table V) (cs : Clauses) (parts : Group → List (List (Symbol V)))

theorem group_reads (group : Group)
    (each : List.Forall₂ (Reads t) (cs.get group) (parts group)) :
    Option.Rel (Reads t) (cs.groupFragment? group) (groupSymbols? group (parts group)) := by
  rw [Clauses.groupFragment?, groupSymbols?]
  generalize cs.get group = written at each
  generalize parts group = said at each
  cases each with
  | nil => exact .none
  | cons first rest =>
      have joined := join_reads ", " (by simp) comma_clear t _ _ (.cons first rest)
      exact .some (.text _ _ _ (quiet_mute _ (keyword_clear group).1) joined)

theorem groups_read (each : ∀ group, List.Forall₂ (Reads t) (cs.get group) (parts group))
    (groups : List Group) :
    List.Forall₂ (Reads t) (groups.filterMap cs.groupFragment?)
      (groups.filterMap fun group => groupSymbols? group (parts group)) := by
  induction groups with
  | nil => exact .nil
  | cons group rest ih =>
      have first := group_reads t cs parts group (each group)
      rw [List.filterMap_cons, List.filterMap_cons]
      generalize cs.groupFragment? group = written at first
      generalize groupSymbols? group (parts group) = said at first
      cases first with
      | none => exact ih
      | some reads => exact .cons reads ih

theorem expression_reads (each : ∀ group, List.Forall₂ (Reads t) (cs.get group) (parts group)) :
    Option.Rel (Reads t) cs.expression? (expressionSymbols? parts) := by
  have groups := groups_read t cs parts each Group.inOrder
  rw [Clauses.expression?, expressionSymbols?]
  generalize Group.inOrder.filterMap cs.groupFragment? = written at groups
  generalize (Group.inOrder.filterMap fun group => groupSymbols? group (parts group)) = said at groups
  cases groups with
  | nil => exact .none
  | cons first rest =>
      exact .some (join_reads " " (by simp) (by simp [Quiet, Separate]) t _ _ (.cons first rest))

end Expressions

section Labels

variable (label? : Token → Option String) (silent : ∀ s, label? (.text s) = none)

include silent

theorem group_labels (cs : Clauses) (groups : List Group) :
    (groups.filterMap cs.groupFragment?).flatMap (List.filterMap label?) =
      (groups.flatMap cs.get).flatMap (List.filterMap label?) := by
  induction groups with
  | nil => rfl
  | cons group rest ih =>
      rw [List.flatMap_cons, List.flatMap_append, ← ih]
      by_cases empty : (cs.get group).isEmpty = true
      · have none : cs.get group = [] := List.isEmpty_iff.mp empty
        simp [Clauses.groupFragment?, none]
      · simp [Clauses.groupFragment?, empty, silent, join_labels ", " label? silent]

theorem expression_labels (cs : Clauses) :
    cs.expression?.toList.flatMap (List.filterMap label?) =
      (Group.inOrder.flatMap cs.get).flatMap (List.filterMap label?) := by
  rw [← group_labels label? silent cs Group.inOrder, Clauses.expression?]
  cases Group.inOrder.filterMap cs.groupFragment? with
  | nil => rfl
  | cons g rest => simp [join_labels " " label? silent]

end Labels

theorem of_group_reads (t : Table V) (added : List (Group × Fragment))
    (readings : List (Group × List (Symbol V)))
    (reads : List.Forall₂ (fun clause reading => clause.1 = reading.1 ∧ Reads t clause.2 reading.2)
      added readings) (group : Group) :
    List.Forall₂ (Reads t) (ofGroup added group) (ofGroup readings group) := by
  induction reads with
  | nil => exact .nil
  | @cons clause reading added readings read _ ih =>
      by_cases here : clause.1 = group
      · have same : reading.1 = group := read.1 ▸ here
        simpa [ofGroup, here, same] using And.intro read.2 ih
      · have other : reading.1 ≠ group := read.1 ▸ here
        simpa [ofGroup, here, other] using ih

theorem reads_each (t : Table V) (added : List (Group × Fragment))
    (readings : List (Group × List (Symbol V)))
    (reads : List.Forall₂ (fun clause reading => clause.1 = reading.1 ∧ Reads t clause.2 reading.2)
      added readings) :
    ∀ f ∈ added.map Prod.snd, ∃ symbols, Reads t f symbols := by
  induction reads with
  | nil => simp
  | cons read _ ih =>
      rw [List.map_cons, List.forall_mem_cons]
      exact ⟨⟨_, read.2⟩, ih⟩

section Compiled

variable (w w' : Workspace V) (added : List (Group × Fragment))
  (readings : List (Group × List (Symbol V)))
  (compiled : Workspace.Compiled [] w w' added readings) (empty : w.update = {})

include compiled empty

theorem compiled_clauses : w'.update.get = ofGroup added := by
  funext group
  rw [compiled.update, get_push_all, empty]
  cases group <;> rfl

theorem compiled_expression :
    Option.Rel (Reads w'.table) w'.updateExpression? (expressionSymbols? (ofGroup readings)) := by
  have clauses := compiled_clauses w w' added readings compiled empty
  exact expression_reads w'.table w'.update _ fun group =>
    clauses ▸ of_group_reads w'.table added readings compiled.reads group

end Compiled

theorem update_linked (entries : List (String × Action V)) (offered : Action.EntriesOffered entries)
    (w w' : Workspace V) (coherent : Coherent w.table) (defaults : w.table.options = {})
    (empty : w.update = {}) (ran : Workspace.applyEntries [] entries w = (none, w')) :
    Linked True (Action.EntriesFruitful entries) w.table w'.table w'.updateExpression?.toList := by
  obtain ⟨added, compiled, covered⟩ := Workspace.entries_compiled entries offered [] [] w w' coherent
    defaults (known_nil w.table) ran
  have reads := reads_each w'.table added _ compiled.reads
  have linked : Linked True (Action.EntriesFruitful entries) w.table w'.table
      (added.map Prod.snd) :=
    { grown := compiled.grown
      reads := reads
      values := fun _ => by rw [compiled.values, List.flatMap_map]
      names := fun _ fruitful label present =>
        (covered fruitful label present).imp_right fun ⟨clause, here, mentioned⟩ =>
          ⟨clause.2, List.mem_map_of_mem here, mentioned⟩ }
  have perm := gathered_perm added
  rw [← compiled_clauses w w' added _ compiled empty] at perm
  apply linked_gather _ _ _ _ _ _ linked
  · intro f made
    have expression := compiled_expression w w' added _ compiled empty
    rw [Option.mem_toList.mp made] at expression
    generalize expressionSymbols? (ofGroup (Action.entriesReadings [] entries)) = said at expression
    cases expression with
    | some read => exact ⟨_, read⟩
  · intro _
    have labels := expression_labels Token.valueLabel? (fun _ => rfl) w'.update
    have same := perm.flatMap_right Fragment.valueLabels
    exact same.trans (labels ▸ .refl _)
  · intro _ f present label mentioned
    have labels := expression_labels Token.nameLabel? (fun _ => rfl) w'.update
    have inside : label ∈ (Group.inOrder.flatMap w'.update.get).flatMap
        (List.filterMap Token.nameLabel?) :=
      List.mem_flatMap.mpr ⟨f, perm.mem_iff.mp present, mentioned⟩
    rw [← labels] at inside
    exact List.mem_flatMap.mp inside

end Updates

end ItemExpr
