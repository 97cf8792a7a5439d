import ItemExpr.Proofs.Update.Change
import ItemExpr.Proofs.Update.Sound
import Mathlib.Algebra.Group.Int.Defs

set_option autoImplicit false

namespace ItemExpr

section Saying

variable (about : List (Symbol Value))

theorem says_index (i : Int) (short : Number.isWritable i = true) :
    Says about (.index i) (chars s!"[{i}]") := by
  rw [Script.index, if_pos short]
  exact says_text about s!"[{i}]"

theorem says_value_operand (t : Term) : Says about t.argument.valueOperand.script t.asValue := by
  cases t with
  | plain v => exact says_value about v.plain
  | path p => exact says_path about p
  | pathOr p v =>
      have front := says_append about _ _ _ _ (says_text about "if_not_exists(") (says_path about p)
      have middle := says_append about _ _ _ _ (says_append about _ _ _ _ front (says_text about ", "))
        (says_value about v.plain)
      exact says_append about _ _ _ _ middle (says_text about ")")
  | literal v => exact says_value about v.plain

theorem says_path_operand (t : Term) : Says about t.argument.pathOperand.script t.asPath := by
  by_cases text : ∃ p, t = .plain (.str p)
  · obtain ⟨p, rfl⟩ := text
    exact says_path about p
  · have operand : t.argument.pathOperand = t.argument.valueOperand := by
      match t with
      | .plain v => cases v <;> first | rfl | exact absurd ⟨_, rfl⟩ text
      | .path p => rfl
      | .pathOr p v => rfl
      | .literal v => rfl
    have same : t.asPath = t.asValue := by
      rw [Term.asPath]
      exact fun p shape => text ⟨p, shape⟩
    rw [operand, same]
    exact says_value_operand about t

theorem path_operand_some (t : Term) (present : t ≠ .plain .null) :
    t.argument.pathOperand? = some t.argument.pathOperand := by
  match t with
  | .plain v => cases v <;> first | rfl | exact absurd rfl present
  | .path p => rfl
  | .pathOr p v => rfl
  | .literal v => rfl

theorem says_path_operand_or (t : Term) :
    Says about (Operand.scriptOrSelf t.argument.pathOperand?) (t.asPathOr about) := by
  by_cases null : t = .plain .null
  · subst null
    exact says_self about
  · have operand := path_operand_some t null
    have same : t.asPathOr about = t.asPath := by
      rw [Term.asPathOr]
      exact null
    rw [operand, same]
    exact says_path_operand about t

theorem says_assign (s : Script Value) (right : List (Symbol Value)) (said : Says about s right) :
    Says about (.self ++ .text " = " ++ s) (about ++ chars " = " ++ right) :=
  says_append about _ _ _ _ (says_append about _ _ _ _ (says_self about) (says_text about " = ")) said

theorem says_arithmetic (first second : Script Value) (left right : List (Symbol Value))
    (operator : Operator) (firstSays : Says about first left) (secondSays : Says about second right) :
    Says about
      (.self ++ .text " = " ++ first ++ .text s!" {operator.sign.word.spelling} " ++ second)
      (about ++ chars " = " ++ Change.calculated left operator right) := by
  have sign : (chars s!" {operator.sign.word.spelling} " : List (Symbol Value)) =
      chars " " ++ chars operator.text ++ chars " " := by
    cases operator <;> simp [chars, toString, Operator.sign, Operator.text, Sign.word, Word.spelling]
  have front := says_assign about first left firstSays
  have middle := says_append about _ _ _ _ front
    (says_text about s!" {operator.sign.word.spelling} ")
  have whole := says_append about _ _ _ _ middle secondSays
  rw [sign] at whole
  simpa only [Change.calculated, List.append_assoc] using whole

theorem says_list_append (first second : Script Value) (left right : List (Symbol Value))
    (firstSays : Says about first left) (secondSays : Says about second right) :
    Says about
      (.self ++ .text " = list_append(" ++ first ++ .text ", " ++ second ++ .text ")")
      (about ++ chars " = " ++ Change.listed left right) := by
  have opened : (chars " = list_append(" : List (Symbol Value)) =
      chars " = " ++ chars "list_append(" := by
    simp [chars]
  have front := says_append about _ _ _ _
    (says_append about _ _ _ _ (says_self about) (says_text about " = list_append(")) firstSays
  have middle := says_append about _ _ _ _
    (says_append about _ _ _ _ front (says_text about ", ")) secondSays
  have whole := says_append about _ _ _ _ middle (says_text about ")")
  rw [opened] at whole
  simpa only [Change.listed, List.append_assoc] using whole

theorem says_default (s : Script Value) (right : List (Symbol Value)) (said : Says about s right) :
    Says about (.self ++ .text " = if_not_exists(" ++ .self ++ .text ", " ++ s ++ .text ")")
      (about ++ chars " = " ++ (chars "if_not_exists(" ++ about ++ chars ", " ++ right ++ chars ")")) := by
  have opened : (chars " = if_not_exists(" : List (Symbol Value)) =
      chars " = " ++ chars "if_not_exists(" := by
    simp [chars]
  have front := says_append about _ _ _ _
    (says_append about _ _ _ _ (says_self about) (says_text about " = if_not_exists("))
    (says_self about)
  have middle := says_append about _ _ _ _
    (says_append about _ _ _ _ front (says_text about ", ")) said
  have whole := says_append about _ _ _ _ middle (says_text about ")")
  rw [opened] at whole
  simpa only [List.append_assoc] using whole

end Saying

namespace Change

theorem clause_reading (about : List (Symbol Value)) (group : Group) (s : Script Value)
    (symbols : List (Symbol Value)) (said : Says about s symbols) :
    [(group, itemSymbols about s.items)] = [(group, symbols)] := by
  rw [said.meaning]

theorem put_action (t : Term) (kept : t ≠ .plain .undefined) (present : t ≠ .plain .null) :
    (Change.put t).argument.toAction = .assign t.argument.valueOperand := by
  match t with
  | .plain v => cases v <;> first | rfl | exact absurd rfl kept | exact absurd rfl present
  | .path p => rfl
  | .pathOr p v => rfl
  | .literal v => rfl

theorem put_readings (t : Term) (target : String) :
    (Change.put t).argument.toAction.readings (pathSymbols target) =
      (Change.put t).clauses target := by
  by_cases skipped : t = .plain .undefined
  · subst skipped
    rfl
  · by_cases removed : t = .plain .null
    · subst removed
      exact clause_reading _ _ _ _ (says_self _)
    · have action := put_action t skipped removed
      have meant : (Change.put t).clauses target = assigned target t.asValue := by
        rw [Change.clauses]
        · exact skipped
        · exact removed
      rw [action, meant]
      exact clause_reading _ _ _ _ (says_assign _ _ _ (says_value_operand _ t))

theorem inside_symbols (under : Option String) (path : String) :
    insideSymbols (under.elim [] pathSymbols) path =
      (pathSymbols (pathUnder under path) : List (Symbol Value)) := by
  cases under with
  | none => rfl
  | some p =>
      rw [pathUnder, path_symbols_append]
      obtain ⟨n, more, shape⟩ := path_symbols_cons (V := Value) p
      simp [insideSymbols, shape]

-- What is written goes down symbol by symbol and what is meant by whole paths, so the targets are
-- kept equal on the way; a dot between two paths is the same in both.
open ItemExpr.Action in
mutual

theorem change_readings (c : Change) (target : String)
    (short : ∀ i ∈ c.indexes, Number.isWritable i = true) :
    c.argument.toAction.readings (pathSymbols target) = c.clauses target := by
  match c with
  | .put t => exact put_readings t target
  | .set t => exact clause_reading _ _ _ _ (says_assign _ _ _ (says_value_operand _ t))
  | .setDefault t => exact clause_reading _ _ _ _ (says_default _ _ _ (says_value_operand _ t))
  | .remove => exact clause_reading _ _ _ _ (says_self _)
  | .arithmetic left operator right =>
      exact clause_reading _ _ _ _ (says_arithmetic _ _ _ _ _ operator
        (says_path_operand_or _ left) (says_path_operand _ right))
  | .increment t =>
      exact clause_reading _ _ _ _ (says_arithmetic _ _ _ _ _ .plus (says_self _)
        (says_path_operand _ t))
  | .decrement t =>
      exact clause_reading _ _ _ _ (says_arithmetic _ _ _ _ _ .minus (says_self _)
        (says_path_operand _ t))
  | .add left right =>
      exact clause_reading _ _ _ _ (says_arithmetic _ _ _ _ _ .plus
        (says_path_operand_or _ left) (says_path_operand _ right))
  | .subtract left right =>
      exact clause_reading _ _ _ _ (says_arithmetic _ _ _ _ _ .minus
        (says_path_operand_or _ left) (says_path_operand _ right))
  | .listAppend left right =>
      exact clause_reading _ _ _ _ (says_list_append _ _ _ _ _ (says_path_operand_or _ left)
        (says_path_operand_or _ right))
  | .append t =>
      exact clause_reading _ _ _ _ (says_list_append _ _ _ _ _ (says_self _)
        (says_path_operand_or _ t))
  | .prepend t =>
      exact clause_reading _ _ _ _ (says_list_append _ _ _ _ _ (says_path_operand_or _ t)
        (says_self _))
  | .join left right =>
      exact clause_reading _ _ _ _ (says_list_append _ _ _ _ _ (says_path_operand_or _ left)
        (says_path_operand_or _ right))
  | .removeIndexes indexes =>
      show (indexes.map _).map _ = indexes.map _
      rw [List.map_map]
      apply List.map_congr_left
      intro i present
      have said := says_append _ _ _ _ _ (says_self (pathSymbols target))
        (says_index _ i (short i present))
      exact congrArg (Prod.mk Group.remove) said.meaning
  | .assignIndexes entries =>
      show ((entries.map _).map _).map _ = entries.map _
      rw [List.map_map, List.map_map]
      apply List.map_congr_left
      intro entry present
      have inside : Number.isWritable entry.1 = true :=
        short entry.1 (List.mem_map_of_mem present)
      have front := says_append _ _ _ _ _ (says_self (pathSymbols target)) (says_index _ _ inside)
      have said := says_append _ _ _ _ _ (says_append _ _ _ _ _ front (says_text _ " = "))
        (says_value_operand _ entry.2)
      exact congrArg (Prod.mk Group.set) said.meaning
  | .addElements t =>
      exact clause_reading _ _ _ _ (says_append _ _ _ _ _
        (says_append _ _ _ _ _ (says_self _) (says_text _ " ")) (says_path_operand _ t))
  | .deleteElements t =>
      exact clause_reading _ _ _ _ (says_append _ _ _ _ _
        (says_append _ _ _ _ _ (says_self _) (says_text _ " ")) (says_path_operand _ t))
  | .map entries => exact entries_readings entries (some target) short
  | .modelMap groups => exact groups_readings groups target short

theorem entries_readings (entries : List (String × Change)) (under : Option String)
    (short : ∀ i ∈ indexesEach entries, Number.isWritable i = true) :
    entriesReadings (under.elim [] pathSymbols) (actions entries) = clausesEach under entries := by
  match entries with
  | [] => rfl
  | (path, c) :: rest =>
      rw [indexesEach, List.forall_mem_append] at short
      have first := change_readings c (pathUnder under path) short.1
      have others := entries_readings rest under short.2
      rw [← inside_symbols under path] at first
      exact congrArg₂ List.append first others

theorem groups_readings (groups : List (String × List (String × Change))) (under : String)
    (short : ∀ i ∈ indexesGroups groups, Number.isWritable i = true) :
    groupsReadings (pathSymbols under)
        ((sources groups).map fun (path, source) => (path, source.actions)) =
      clausesGroups under groups := by
  match groups with
  | [] => rfl
  | (path, entries) :: rest =>
      rw [indexesGroups, List.forall_mem_append] at short
      have first := entries_readings entries (some (pathUnder (some under) path)) short.1
      have others := groups_readings rest under short.2
      have deeper : pathSymbols under ++ (chars "." ++ pathSymbols path) =
          (pathSymbols (pathUnder (some under) path) : List (Symbol Value)) :=
        (path_symbols_append under path).symm
      rw [Option.elim, ← deeper] at first
      exact congrArg₂ List.append first others

end

theorem value_operand_offered (t : Term) (indexed : ∀ p ∈ t.valuePaths, IsIndexed p) :
    t.argument.valueOperand.IsOffered := by
  cases t with
  | plain v => trivial
  | path p => exact indexed p (by simp [Term.valuePaths])
  | pathOr p v => exact indexed p (by simp [Term.valuePaths])
  | literal v => trivial

theorem path_operand_offered (t : Term) (indexed : ∀ p ∈ t.paths, IsIndexed p) :
    t.argument.pathOperand.IsOffered := by
  match t with
  | .plain v => cases v <;> first | trivial | exact indexed _ (by simp [Term.paths])
  | .path p => exact indexed p (by simp [Term.paths, Term.valuePaths])
  | .pathOr p v => exact indexed p (by simp [Term.paths, Term.valuePaths])
  | .literal v => trivial

theorem path_operand_or_offered (t : Term) (indexed : ∀ p ∈ t.paths, IsIndexed p) :
    Operand.IsOfferedOrSelf t.argument.pathOperand? := by
  intro operand given
  by_cases null : t = .plain .null
  · subst null
    simp [Term.argument, Argument.pathOperand?] at given
  · have same := path_operand_some t null
    rw [same, Option.mem_some] at given
    exact given ▸ path_operand_offered t indexed

open ItemExpr.Action in
mutual

theorem change_offered (c : Change) (indexed : ∀ p ∈ c.paths, IsIndexed p) :
    c.argument.toAction.IsOffered := by
  match c with
  | .put t =>
      by_cases skipped : t = .plain .undefined
      · subst skipped
        trivial
      · by_cases removed : t = .plain .null
        · subst removed
          trivial
        · rw [put_action t skipped removed]
          exact value_operand_offered t indexed
  | .set t => exact value_operand_offered t indexed
  | .setDefault t => exact value_operand_offered t indexed
  | .remove => trivial
  | .arithmetic left operator right =>
      rw [paths, List.forall_mem_append] at indexed
      exact ⟨path_operand_or_offered left indexed.1, by cases operator <;> trivial,
        path_operand_offered right indexed.2⟩
  | .increment t => exact ⟨by simp [Operand.IsOfferedOrSelf], trivial, path_operand_offered t indexed⟩
  | .decrement t => exact ⟨by simp [Operand.IsOfferedOrSelf], trivial, path_operand_offered t indexed⟩
  | .add left right =>
      rw [paths, List.forall_mem_append] at indexed
      exact ⟨path_operand_or_offered left indexed.1, trivial, path_operand_offered right indexed.2⟩
  | .subtract left right =>
      rw [paths, List.forall_mem_append] at indexed
      exact ⟨path_operand_or_offered left indexed.1, trivial, path_operand_offered right indexed.2⟩
  | .listAppend left right =>
      rw [paths, List.forall_mem_append] at indexed
      exact ⟨path_operand_or_offered left indexed.1, path_operand_or_offered right indexed.2⟩
  | .append t => exact ⟨by simp [Operand.IsOfferedOrSelf], path_operand_or_offered t indexed⟩
  | .prepend t => exact ⟨path_operand_or_offered t indexed, by simp [Operand.IsOfferedOrSelf]⟩
  | .join left right =>
      rw [paths, List.forall_mem_append] at indexed
      exact ⟨path_operand_or_offered left indexed.1, path_operand_or_offered right indexed.2⟩
  | .removeIndexes _ => trivial
  | .assignIndexes entries =>
      intro entry present
      obtain ⟨⟨i, t⟩, inside, rfl⟩ := List.mem_map.mp present
      exact value_operand_offered t fun p here =>
        indexed p (List.mem_flatMap.mpr ⟨(i, t), inside, here⟩)
  | .addElements t => exact path_operand_offered t indexed
  | .deleteElements t => exact path_operand_offered t indexed
  | .map entries => exact entries_offered entries indexed
  | .modelMap groups => exact groups_offered groups indexed

theorem entries_offered (entries : List (String × Change))
    (indexed : ∀ p ∈ pathsEach entries, IsIndexed p) : EntriesOffered (actions entries) := by
  match entries with
  | [] => trivial
  | (path, c) :: rest =>
      rw [pathsEach, List.forall_mem_cons, List.forall_mem_append] at indexed
      exact ⟨indexed.1, change_offered c indexed.2.1, entries_offered rest indexed.2.2⟩

theorem groups_offered (groups : List (String × List (String × Change)))
    (indexed : ∀ p ∈ pathsGroups groups, IsIndexed p) :
    GroupsOffered ((sources groups).map fun (path, source) => (path, source.actions)) := by
  match groups with
  | [] => trivial
  | (path, entries) :: rest =>
      rw [pathsGroups, List.forall_mem_cons, List.forall_mem_append] at indexed
      exact ⟨indexed.1, entries_offered entries indexed.2.1, groups_offered rest indexed.2.2⟩

end

open ItemExpr.Action in
mutual

theorem change_short (c : Change) (short : ∀ i ∈ c.indexes, Number.isWritable i = true) :
    c.argument.toAction.HasShortIndexes := by
  match c with
  | .put t =>
      by_cases skipped : t = .plain .undefined
      · subst skipped
        trivial
      · by_cases removed : t = .plain .null
        · subst removed
          trivial
        · rw [put_action t skipped removed]
          trivial
  | .removeIndexes _ => exact short
  | .assignIndexes entries =>
      intro entry present
      obtain ⟨⟨i, t⟩, inside, rfl⟩ := List.mem_map.mp present
      exact short i (List.mem_map.mpr ⟨(i, t), inside, rfl⟩)
  | .map entries => exact entries_short entries short
  | .modelMap groups => exact groups_short groups short
  | .set _ => trivial
  | .setDefault _ => trivial
  | .remove => trivial
  | .arithmetic _ _ _ => trivial
  | .increment _ => trivial
  | .decrement _ => trivial
  | .add _ _ => trivial
  | .subtract _ _ => trivial
  | .listAppend _ _ => trivial
  | .append _ => trivial
  | .prepend _ => trivial
  | .join _ _ => trivial
  | .addElements _ => trivial
  | .deleteElements _ => trivial

theorem entries_short (entries : List (String × Change))
    (short : ∀ i ∈ indexesEach entries, Number.isWritable i = true) :
    HaveShortIndexes (actions entries) := by
  match entries with
  | [] => trivial
  | (path, c) :: rest =>
      rw [indexesEach, List.forall_mem_append] at short
      exact ⟨change_short c short.1, entries_short rest short.2⟩

theorem groups_short (groups : List (String × List (String × Change)))
    (short : ∀ i ∈ indexesGroups groups, Number.isWritable i = true) :
    GroupsHaveShortIndexes ((sources groups).map fun (path, source) => (path, source.actions)) := by
  match groups with
  | [] => trivial
  | (path, entries) :: rest =>
      rw [indexesGroups, List.forall_mem_append] at short
      exact ⟨entries_short entries short.1, groups_short rest short.2⟩

end

def IsWrittenAsMeant (entries : List (String × Change)) (w : Workspace Value) : Prop :=
  ∃ w', Workspace.applyEntries [] (actions entries) w = (none, w') ∧
    ∀ group, ∃ added, w'.update.get group = w.update.get group ++ added ∧
      added.map w'.table.read =
        ((clausesEach none entries).filter fun clause => clause.1 = group).map Prod.snd

theorem added_read (t : Table Value) (coherent : Coherent t) (group : Group)
    (added : List (Group × Fragment)) (readings : List (Group × List (Symbol Value)))
    (reads : List.Forall₂ (fun clause reading => clause.1 = reading.1 ∧ Reads t clause.2 reading.2)
      added readings) :
    ((added.filter fun clause => clause.1 = group).map Prod.snd).map t.read =
      (readings.filter fun reading => reading.1 = group).map Prod.snd := by
  induction reads with
  | nil => rfl
  | @cons clause reading added readings read _ ih =>
      have text := read_eq t coherent clause.2 reading.2 read.2
      by_cases same : clause.1 = group
      · have other : reading.1 = group := read.1.symm.trans same
        simpa [same, other, text] using ih
      · have other : reading.1 ≠ group := fun equal => same (read.1.trans equal)
        simpa [same, other] using ih

def profileChanges : List (String × Change) :=
  [("count", .increment (.plain (.int 1))),
    ("profile", .map [("tags[0].old", .removeIndexes [2]), ("name", .put (.plain .null))]),
    ("groups", .modelMap [("admins", [("size", .add (.plain (.str "base")) (.plain (.int 3)))])])]

def profileWorkspace : Workspace Value :=
  { table := ({ options := .standard } : Table Value).enter (.path "profile")
    update := { set := [[.text "a = b"]] } }

theorem long_index_stops (i : Int) (long : Number.isWritable i = false) (path : String)
    (w : Workspace Value) :
    (Workspace.applyEntries [] (actions [(path, .removeIndexes [i])]) w).1 = some .longIndex := by
  have index : (Script.index i : Script Value) = .fail .longIndex := by
    rw [Script.index, long]
    rfl
  have built : actions [(path, .removeIndexes [i])] = [(path, .removeIndexes [i])] := rfl
  have kept : (Action.removeIndexes [i] : Action Value) ≠ .skip := by simp
  rw [built, Workspace.apply_entries_cons _ _ _ _ _ kept]
  simp [Workspace.andThen, Workspace.apply, Action.clauses, Workspace.addClauses, index,
    Workspace.runScript, Script.run, Script.append_of_sound, Script.self, Script.fail]

theorem power_long : Number.isWritable (10 ^ Number.maxDigits) = false := by
  simp [Number.isWritable, Number.tenTo, Int.natAbs_pow]

end Change
end ItemExpr
