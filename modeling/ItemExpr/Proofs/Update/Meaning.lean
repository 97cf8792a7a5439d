import ItemExpr.Proofs.Script
import ItemExpr.Update.Build

set_option autoImplicit false

namespace ItemExpr

variable {V : Type}

def Sign.IsArithmetic : Sign → Prop
  | .plus => True
  | .minus => True
  | _ => False

def Operand.IsOffered : Operand V → Prop
  | .literal _ => True
  | .path p => IsIndexed p
  | .pathOr p _ => IsIndexed p

def Script.IsAbout (s : Script V) : Prop := ∃ items, s.items = .self :: items

theorem about_append (a b : Script V) (about : a.IsAbout) : (a ++ b).IsAbout := by
  obtain ⟨items, front⟩ := about
  cases fault : a.fault with
  | some e =>
      rw [Script.append_of_fault a b e fault]
      exact ⟨items, front⟩
  | none =>
      rw [Script.append_of_sound a b fault]
      exact ⟨items ++ b.items, by simp [front]⟩

theorem self_about : (Script.self : Script V).IsAbout := ⟨[], rfl⟩

theorem integer_chars (i : Int) : ∀ c ∈ (toString i).toList, c = '-' ∨ c.isDigit = true := by
  intro c present
  cases i with
  | ofNat n =>
      have shape : (toString (Int.ofNat n)).toList = Nat.toDigits 10 n := by
        simp [toString, Int.repr]
      rw [shape] at present
      exact .inr (numeral_digits n c present)
  | negSucc n =>
      have shape : (toString (Int.negSucc n)).toList = '-' :: Nat.toDigits 10 (n + 1) := by
        simp [toString, Int.repr]
      rw [shape] at present
      exact (List.mem_cons.mp present).imp_right (numeral_digits (n + 1) c)

theorem index_clear (i : Int) : (Script.index i : Script V).Clear := by
  by_cases short : Number.isWritable i = true
  · rw [Script.index, if_pos short]
    apply text_clear
    constructor
    · intro c present
      have cases : c = '[' ∨ c ∈ (toString i).toList ∨ c = ']' := by
        simpa [toString] using present
      rcases cases with rfl | inside | rfl
      · decide
      · rcases integer_chars i c inside with rfl | digit
        · decide
        · constructor <;> rintro rfl <;> simp at digit
      · decide
    · simp [Separate, toString]
  · rw [Script.index, if_neg short]
    simp [Script.Clear, Script.fail]

namespace Operand

theorem operand_clear (o : Operand V) (offered : o.IsOffered) : o.script.Clear := by
  cases o with
  | literal v => exact value_clear v
  | path p => exact path_clear p offered
  | pathOr p v =>
      have opened := append_clear _ _ (text_clear "if_not_exists(" (by simp [Quiet, Separate]))
        (path_clear (V := V) p offered)
      have valued := append_clear _ _
        (append_clear _ _ opened (text_clear ", " comma_clear)) (value_clear v)
      exact append_clear _ _ valued (text_clear ")" close_clear)

def IsOfferedOrSelf (o : Option (Operand V)) : Prop := ∀ operand ∈ o, operand.IsOffered

theorem operand_or_self_clear (o : Option (Operand V)) (offered : IsOfferedOrSelf o) :
    (scriptOrSelf o).Clear := by
  cases o with
  | none => exact self_clear
  | some operand => exact operand_clear operand (offered operand rfl)

end Operand

namespace Action

mutual

def IsOffered : Action V → Prop
  | .skip => True
  | .remove => True
  | .assign o => o.IsOffered
  | .assignDefault o => o.IsOffered
  | .arithmetic left sign right =>
      Operand.IsOfferedOrSelf left ∧ sign.IsArithmetic ∧ right.IsOffered
  | .listAppend left right => Operand.IsOfferedOrSelf left ∧ Operand.IsOfferedOrSelf right
  | .removeIndexes _ => True
  | .assignIndexes entries => ∀ entry ∈ entries, entry.2.IsOffered
  | .addElements o => o.IsOffered
  | .deleteElements o => o.IsOffered
  | .nested entries => EntriesOffered entries
  | .keyed groups => GroupsOffered groups

def EntriesOffered : List (String × Action V) → Prop
  | [] => True
  | (path, a) :: rest => IsIndexed path ∧ a.IsOffered ∧ EntriesOffered rest

def GroupsOffered : List (String × List (String × Action V)) → Prop
  | [] => True
  | (path, entries) :: rest => IsIndexed path ∧ EntriesOffered entries ∧ GroupsOffered rest

end

mutual

def IsLegible : Action V → Prop
  | .skip => True
  | .remove => True
  | .assign o => o.IsOffered
  | .assignDefault o => o.IsOffered
  | .arithmetic left sign right =>
      Operand.IsOfferedOrSelf left ∧ AliasFree sign.word.spelling ∧ right.IsOffered
  | .listAppend left right => Operand.IsOfferedOrSelf left ∧ Operand.IsOfferedOrSelf right
  | .removeIndexes _ => True
  | .assignIndexes entries => ∀ entry ∈ entries, entry.2.IsOffered
  | .addElements o => o.IsOffered
  | .deleteElements o => o.IsOffered
  | .nested entries => EntriesLegible entries
  | .keyed groups => GroupsLegible groups

def EntriesLegible : List (String × Action V) → Prop
  | [] => True
  | (path, a) :: rest => IsIndexed path ∧ a.IsLegible ∧ EntriesLegible rest

def GroupsLegible : List (String × List (String × Action V)) → Prop
  | [] => True
  | (path, entries) :: rest => IsIndexed path ∧ EntriesLegible entries ∧ GroupsLegible rest

end

theorem arithmetic_free (sign : Sign) (arithmetic : sign.IsArithmetic) :
    AliasFree sign.word.spelling := by
  match sign with
  | .plus => decide
  | .minus => decide
  | .attribute _ => exact arithmetic.elim
  | .size _ => exact arithmetic.elim

mutual

theorem offered_legible (a : Action V) (offered : a.IsOffered) : a.IsLegible := by
  cases a with
  | arithmetic left sign right => exact ⟨offered.1, arithmetic_free sign offered.2.1, offered.2.2⟩
  | nested entries => exact entries_offered_legible entries offered
  | keyed groups => exact groups_offered_legible groups offered
  | _ => exact offered

theorem entries_offered_legible (entries : List (String × Action V))
    (offered : EntriesOffered entries) : EntriesLegible entries := by
  match entries with
  | [] => trivial
  | (path, a) :: rest =>
      exact ⟨offered.1, offered_legible a offered.2.1, entries_offered_legible rest offered.2.2⟩

theorem groups_offered_legible (groups : List (String × List (String × Action V)))
    (offered : GroupsOffered groups) : GroupsLegible groups := by
  match groups with
  | [] => trivial
  | (path, entries) :: rest =>
      exact ⟨offered.1, entries_offered_legible entries offered.2.1,
        groups_offered_legible rest offered.2.2⟩

end

theorem clauses_clear (a : Action V) (legible : a.IsLegible) :
    ∀ clause ∈ a.clauses, clause.2.Clear := by
  have equals : (Script.self ++ Script.text " = " : Script V).Clear :=
    append_clear _ _ self_clear (text_clear " = " (by simp [Quiet, Separate]))
  have blank : (Script.self ++ Script.text " " : Script V).Clear :=
    append_clear _ _ self_clear (text_clear " " (by simp [Quiet, Separate]))
  cases a with
  | skip => simp [clauses]
  | remove => simpa [clauses] using self_clear
  | assign o => simpa [clauses] using append_clear _ _ equals (Operand.operand_clear o legible)
  | assignDefault o =>
      have front := append_clear _ _ (append_clear _ _ self_clear
        (text_clear " = if_not_exists(" (by simp [Quiet, Separate]))) (self_clear (V := V))
      have inner := append_clear _ _ (append_clear _ _ front (text_clear ", " comma_clear))
        (Operand.operand_clear o legible)
      simpa [clauses] using append_clear _ _ inner (text_clear ")" close_clear)
  | arithmetic left sign right =>
      obtain ⟨leftOffered, free, rightOffered⟩ := legible
      have front := append_clear _ _ equals (Operand.operand_or_self_clear left leftOffered)
      have middle := append_clear _ _ front (word_clear sign.word.spelling free)
      simpa [clauses] using append_clear _ _ middle (Operand.operand_clear right rightOffered)
  | listAppend left right =>
      have front := append_clear _ _ (append_clear _ _ self_clear
        (text_clear " = list_append(" (by simp [Quiet, Separate])))
        (Operand.operand_or_self_clear left legible.1)
      have inner := append_clear _ _ (append_clear _ _ front (text_clear ", " comma_clear))
        (Operand.operand_or_self_clear right legible.2)
      simpa [clauses] using append_clear _ _ inner (text_clear ")" close_clear)
  | removeIndexes indexes =>
      intro clause present
      obtain ⟨i, _, rfl⟩ := List.mem_map.mp present
      exact append_clear _ _ self_clear (index_clear i)
  | assignIndexes entries =>
      intro clause present
      obtain ⟨⟨i, o⟩, inside, rfl⟩ := List.mem_map.mp present
      have front := append_clear _ _ (append_clear _ _ self_clear (index_clear i))
        (text_clear (V := V) " = " (by simp [Quiet, Separate]))
      exact append_clear _ _ front (Operand.operand_clear o (legible (i, o) inside))
  | addElements o => simpa [clauses] using append_clear _ _ blank (Operand.operand_clear o legible)
  | deleteElements o =>
      simpa [clauses] using append_clear _ _ blank (Operand.operand_clear o legible)
  | nested entries => simp [clauses]
  | keyed groups => simp [clauses]

theorem clauses_about (a : Action V) : ∀ clause ∈ a.clauses, clause.2.IsAbout := by
  intro clause present
  have front (s : Script V) : (Script.self ++ s).IsAbout := about_append _ s self_about
  cases a with
  | skip => simp [clauses] at present
  | remove =>
      rw [List.mem_singleton.mp present]
      exact self_about
  | assign o =>
      rw [List.mem_singleton.mp present]
      exact about_append _ _ (front _)
  | assignDefault o =>
      rw [List.mem_singleton.mp present]
      simp only [Script.append_assoc]
      exact front _
  | arithmetic left sign right =>
      rw [List.mem_singleton.mp present]
      simp only [Script.append_assoc]
      exact front _
  | listAppend left right =>
      rw [List.mem_singleton.mp present]
      simp only [Script.append_assoc]
      exact front _
  | removeIndexes indexes =>
      obtain ⟨i, _, rfl⟩ := List.mem_map.mp present
      exact front _
  | assignIndexes entries =>
      obtain ⟨⟨i, o⟩, _, rfl⟩ := List.mem_map.mp present
      simp only [Script.append_assoc]
      exact front _
  | addElements o =>
      rw [List.mem_singleton.mp present]
      exact about_append _ _ (front _)
  | deleteElements o =>
      rw [List.mem_singleton.mp present]
      exact about_append _ _ (front _)
  | nested entries => simp [clauses] at present
  | keyed groups => simp [clauses] at present

end Action

def insideSymbols (under : List (Symbol V)) (path : String) : List (Symbol V) :=
  match under with
  | [] => pathSymbols path
  | _ :: _ => under ++ (chars "." ++ pathSymbols path)

namespace Action

mutual

def readings (about : List (Symbol V)) : Action V → List (Group × List (Symbol V))
  | .nested entries => entriesReadings about entries
  | .keyed groups => groupsReadings about groups
  | a => a.clauses.map fun clause => (clause.1, itemSymbols about clause.2.items)

def entriesReadings (under : List (Symbol V)) :
    List (String × Action V) → List (Group × List (Symbol V))
  | [] => []
  | (path, a) :: rest => a.readings (insideSymbols under path) ++ entriesReadings under rest

def groupsReadings (under : List (Symbol V)) :
    List (String × List (String × Action V)) → List (Group × List (Symbol V))
  | [] => []
  | (path, entries) :: rest =>
      entriesReadings (under ++ (chars "." ++ pathSymbols path)) entries ++
        groupsReadings under rest

end

mutual

def count : Action V → Nat
  | .nested entries => countEach entries
  | .keyed groups => countGroups groups
  | a => a.clauses.length

def countEach : List (String × Action V) → Nat
  | [] => 0
  | (_, a) :: rest => a.count + countEach rest

def countGroups : List (String × List (String × Action V)) → Nat
  | [] => 0
  | (_, entries) :: rest => countEach entries + countGroups rest

end

mutual

theorem readings_count (about : List (Symbol V)) (a : Action V) :
    (a.readings about).length = a.count := by
  match a with
  | .nested entries => exact entries_readings_count about entries
  | .keyed groups => exact groups_readings_count about groups
  | .skip => rfl
  | .remove => rfl
  | .assign _ => rfl
  | .assignDefault _ => rfl
  | .arithmetic _ _ _ => rfl
  | .listAppend _ _ => rfl
  | .removeIndexes _ => simp [readings, count]
  | .assignIndexes _ => simp [readings, count]
  | .addElements _ => rfl
  | .deleteElements _ => rfl

theorem entries_readings_count (under : List (Symbol V)) (entries : List (String × Action V)) :
    (entriesReadings under entries).length = countEach entries := by
  match entries with
  | [] => rfl
  | (path, a) :: rest =>
      rw [entriesReadings, List.length_append, readings_count, entries_readings_count under rest,
        countEach]

theorem groups_readings_count (under : List (Symbol V))
    (groups : List (String × List (String × Action V))) :
    (groupsReadings under groups).length = countGroups groups := by
  match groups with
  | [] => rfl
  | (path, entries) :: rest =>
      rw [groupsReadings, List.length_append, entries_readings_count, groups_readings_count under rest,
        countGroups]

end

mutual

def IsFruitful : Action V → Prop
  | .nested entries => 0 < countEach entries ∧ EntriesFruitful entries
  | .keyed groups => 0 < countGroups groups ∧ GroupsFruitful groups
  | .removeIndexes indexes => indexes ≠ []
  | .assignIndexes entries => entries ≠ []
  | _ => True

def EntriesFruitful : List (String × Action V) → Prop
  | [] => True
  | (_, a) :: rest => a.IsFruitful ∧ EntriesFruitful rest

def GroupsFruitful : List (String × List (String × Action V)) → Prop
  | [] => True
  | (_, entries) :: rest => 0 < countEach entries ∧ EntriesFruitful entries ∧ GroupsFruitful rest

end

theorem fruitful_count (a : Action V) (fruitful : a.IsFruitful) (kept : a ≠ .skip) :
    0 < a.count := by
  cases a with
  | skip => exact absurd rfl kept
  | nested entries => exact fruitful.1
  | keyed groups => exact fruitful.1
  | removeIndexes indexes =>
      simpa [count, clauses] using List.length_pos_of_ne_nil fruitful
  | assignIndexes entries =>
      simpa [count, clauses] using List.length_pos_of_ne_nil fruitful
  | _ => exact Nat.one_pos

mutual

def HasShortIndexes : Action V → Prop
  | .removeIndexes indexes => ∀ i ∈ indexes, Number.isWritable i = true
  | .assignIndexes entries => ∀ entry ∈ entries, Number.isWritable entry.1 = true
  | .nested entries => HaveShortIndexes entries
  | .keyed groups => GroupsHaveShortIndexes groups
  | _ => True

def HaveShortIndexes : List (String × Action V) → Prop
  | [] => True
  | (_, a) :: rest => a.HasShortIndexes ∧ HaveShortIndexes rest

def GroupsHaveShortIndexes : List (String × List (String × Action V)) → Prop
  | [] => True
  | (_, entries) :: rest => HaveShortIndexes entries ∧ GroupsHaveShortIndexes rest

end

end Action
end ItemExpr
