import ItemExpr.Proofs.Map

set_option autoImplicit false

namespace ItemExpr

namespace Argument

def IsEntry : Argument → Prop
  | .value .null => False
  | .value .undefined => False
  | .operand _ => False
  | .action _ _ => False
  | _ => True

def IsData : Argument → Prop
  | .operand _ => False
  | _ => True

def IsUnnamed : Argument → Prop
  | .operand _ => False
  | .value (.str _) => False
  | .value .null => False
  | _ => True

inductive LikeTerm (kind : Argument → Prop) : Argument → Argument → Prop
  | same (a : Argument) : LikeTerm kind a a
  | plain (a a' : Argument) : kind a → kind a' → LikeTerm kind a a'
  | literal (v v' : Argument) : LikeTerm kind (Update.literal v) (Update.literal v')
  | pathOr (p : String) (v v' : Argument) :
      LikeTerm kind (Update.pathOr p v) (Update.pathOr p v')

inductive LikeIndexes : List (Value × Argument) → List (Value × Argument) → Prop
  | nil : LikeIndexes [] []
  | cons (index : Value) (a a' : Argument) (rest rest' : List (Value × Argument)) :
      LikeTerm IsData a a' → LikeIndexes rest rest' →
      LikeIndexes ((index, a) :: rest) ((index, a') :: rest')

open Update in
mutual

inductive Alike : Argument → Argument → Prop
  | term (a a' : Argument) : LikeTerm IsEntry a a' → Alike a a'
  | assign (a a' : Argument) : LikeTerm IsData a a' → Alike (assign a) (assign a')
  | assignDefault (a a' : Argument) : LikeTerm IsData a a' →
      Alike (assignDefault a) (assignDefault a')
  | increment (a a' : Argument) : LikeTerm IsUnnamed a a' → Alike (increment a) (increment a')
  | decrement (a a' : Argument) : LikeTerm IsUnnamed a a' → Alike (decrement a) (decrement a')
  | add (a a' b b' : Argument) : LikeTerm IsUnnamed a a' → LikeTerm IsUnnamed b b' →
      Alike (add a b) (add a' b')
  | subtract (a a' b b' : Argument) : LikeTerm IsUnnamed a a' → LikeTerm IsUnnamed b b' →
      Alike (subtract a b) (subtract a' b')
  | arithmetic (a a' operator b b' made made' : Argument) : LikeTerm IsUnnamed a a' →
      LikeTerm IsUnnamed b b' → arithmetic a operator b = .ok made →
      arithmetic a' operator b' = .ok made' → Alike made made'
  | listAppend (a a' b b' : Argument) : LikeTerm IsUnnamed a a' → LikeTerm IsUnnamed b b' →
      Alike (listAppend a b) (listAppend a' b')
  | append (a a' : Argument) : LikeTerm IsUnnamed a a' → Alike (append a) (append a')
  | prepend (a a' : Argument) : LikeTerm IsUnnamed a a' → Alike (prepend a) (prepend a')
  | join (a a' b b' : Argument) : LikeTerm IsUnnamed a a' → LikeTerm IsUnnamed b b' →
      Alike (join a b) (join a' b')
  | assignIndexes (entries entries' : List (Value × Argument)) (made made' : Argument) :
      LikeIndexes entries entries' → assignIndexes entries = .ok made →
      assignIndexes entries' = .ok made' → Alike made made'
  | addElements (a a' : Argument) : LikeTerm IsUnnamed a a' → Alike (addElements a) (addElements a')
  | deleteElements (a a' : Argument) : LikeTerm IsUnnamed a a' →
      Alike (deleteElements a) (deleteElements a')
  | nested (source source' : Source) : LikeSource source source' →
      Alike (nested source) (nested source')
  | keyed (groups groups' : List (String × Source)) : LikeGroups groups groups' →
      Alike (keyed groups) (keyed groups')

inductive LikeEntries : List (String × Argument) → List (String × Argument) → Prop
  | nil : LikeEntries [] []
  | cons (key : String) (a a' : Argument) (rest rest' : List (String × Argument)) :
      Alike a a' → LikeEntries rest rest' → LikeEntries ((key, a) :: rest) ((key, a') :: rest')

inductive LikeFields : List (Field Argument) → List (Field Argument) → Prop
  | nil : LikeFields [] []
  | cons (name : String) (label : Option String) (isSet : Bool) (a a' : Argument)
      (rest rest' : List (Field Argument)) : Alike a a' → LikeFields rest rest' →
      LikeFields (⟨name, label, a, isSet⟩ :: rest) (⟨name, label, a', isSet⟩ :: rest')

inductive LikeSource : Source → Source → Prop
  | entries (es es' : List (String × Argument)) : LikeEntries es es' →
      LikeSource (.entries es) (.entries es')
  | model (fields fields' : List (Field Argument)) : LikeFields fields fields' →
      LikeSource (.model fields) (.model fields')

inductive LikeGroups : List (String × Source) → List (String × Source) → Prop
  | nil : LikeGroups [] []
  | cons (key : String) (source source' : Source) (rest rest' : List (String × Source)) :
      LikeSource source source' → LikeGroups rest rest' →
      LikeGroups ((key, source) :: rest) ((key, source') :: rest')

end

def veil (_ : Value) : Unit := ()

theorem data_literal (a : Argument) (data : a.IsData) :
    a.valueOperand = .literal a.toValue.plain := by
  cases a with
  | operand o => exact absurd data id
  | _ => rfl

theorem unnamed_literal (a : Argument) (unnamed : a.IsUnnamed) :
    a.pathOperand = .literal a.toValue.plain ∧ a.pathOperand? = some a.pathOperand := by
  cases a with
  | operand o => exact absurd unnamed id
  | value v =>
      cases v with
      | str s => exact absurd unnamed id
      | null => exact absurd unnamed id
      | _ => exact ⟨rfl, rfl⟩
  | _ => exact ⟨rfl, rfl⟩

theorem entry_assigned (a : Argument) (entry : a.IsEntry) :
    a.toAction = .assign (.literal a.toValue.plain) := by
  cases a with
  | operand o => exact absurd entry id
  | action kind x => exact absurd entry id
  | value v =>
      cases v with
      | null => exact absurd entry id
      | undefined => exact absurd entry id
      | _ => rfl
  | _ => rfl

theorem plain_entry (a : Argument) (entry : a.IsEntry) : a.plain.IsEntry := by
  cases a with
  | value v =>
      have plain : (Argument.value v).plain = .value v.plain := rfl
      rw [plain]
      rcases v.plain_same_or_container with same | container
      · rwa [same]
      · cases dumped : v.plain with
        | null | undefined => simp [dumped, Value.isContainer] at container
        | _ => trivial
  | _ => exact entry

theorem like_value_operand (a a' : Argument) (like : LikeTerm IsData a a') :
    a.valueOperand.map veil = a'.valueOperand.map veil := by
  cases like with
  | same => rfl
  | plain _ _ data data' =>
      rw [data_literal a data, data_literal a' data']
      rfl
  | literal v v' => rfl
  | pathOr p v v' => rfl

theorem like_path_operand (a a' : Argument) (like : LikeTerm IsUnnamed a a') :
    a.pathOperand.map veil = a'.pathOperand.map veil := by
  cases like with
  | same => rfl
  | plain _ _ unnamed unnamed' =>
      rw [(unnamed_literal a unnamed).1, (unnamed_literal a' unnamed').1]
      rfl
  | literal v v' => rfl
  | pathOr p v v' => rfl

theorem like_path_operand_or (a a' : Argument) (like : LikeTerm IsUnnamed a a') :
    a.pathOperand?.map (Operand.map veil) = a'.pathOperand?.map (Operand.map veil) := by
  have operands := like_path_operand a a' like
  cases like with
  | same => rfl
  | plain _ _ unnamed unnamed' =>
      rw [(unnamed_literal a unnamed).2, (unnamed_literal a' unnamed').2]
      exact congrArg some operands
  | literal v v' => rfl
  | pathOr p v v' => rfl

structure SameActions (a a' : Argument) : Prop where
  given : a.toAction.map veil = a'.toAction.map veil
  kept : a.plain.toAction.map veil = a'.plain.toAction.map veil

theorem like_entry (a a' : Argument) (like : LikeTerm IsEntry a a') : SameActions a a' := by
  cases like with
  | same => exact ⟨rfl, rfl⟩
  | plain _ _ entry entry' =>
      constructor
      · rw [entry_assigned a entry, entry_assigned a' entry']
        rfl
      · rw [entry_assigned _ (plain_entry a entry), entry_assigned _ (plain_entry a' entry')]
        rfl
  | literal v v' => exact ⟨rfl, rfl⟩
  | pathOr p v v' => exact ⟨rfl, rfl⟩

theorem same_action (kind kind' : String) (x x' : Action Value)
    (same : x.map veil = x'.map veil) : SameActions (.action kind x) (.action kind' x') :=
  ⟨same, same⟩

theorem like_arithmetic (kind : String) (left left' : Option (Operand Value)) (sign : Sign)
    (right right' : Operand Value)
    (first : left.map (Operand.map veil) = left'.map (Operand.map veil))
    (second : right.map veil = right'.map veil) :
    SameActions (.action kind (.arithmetic left sign right))
      (.action kind (.arithmetic left' sign right')) :=
  same_action _ _ _ _ (by rw [Action.map, Action.map, first, second])

theorem like_list_append (kind : String) (left left' right right' : Option (Operand Value))
    (first : left.map (Operand.map veil) = left'.map (Operand.map veil))
    (second : right.map (Operand.map veil) = right'.map (Operand.map veil)) :
    SameActions (.action kind (.listAppend left right))
      (.action kind (.listAppend left' right')) :=
  same_action _ _ _ _ (by rw [Action.map, Action.map, first, second])

theorem like_sign (a a' operator b b' made made' : Argument)
    (first : LikeTerm IsUnnamed a a') (second : LikeTerm IsUnnamed b b')
    (built : Update.arithmetic a operator b = .ok made)
    (built' : Update.arithmetic a' operator b' = .ok made') : SameActions made made' := by
  rw [Update.arithmetic] at built built'
  cases sign : Sign.ofWord? operator.word with
  | none => simp [sign] at built
  | some sign' =>
      simp only [sign, Except.ok.injEq] at built built'
      rw [← built, ← built']
      exact like_arithmetic _ _ _ _ _ _ (like_path_operand_or a a' first)
        (like_path_operand b b' second)

theorem like_pairs (entries entries' : List (Value × Argument))
    (like : LikeIndexes entries entries') :
    entries.map (fun (k, a) => (k, a.valueOperand.map veil)) =
      entries'.map fun (k, a) => (k, a.valueOperand.map veil) := by
  induction like with
  | nil => rfl
  | cons index a a' rest rest' term _ ih =>
      simp only [List.map_cons, ih, like_value_operand a a' term]

theorem like_indexes (entries entries' : List (Value × Argument)) (made made' : Argument)
    (like : LikeIndexes entries entries') (built : Update.assignIndexes entries = .ok made)
    (built' : Update.assignIndexes entries' = .ok made') : SameActions made made' := by
  rw [Update.assignIndexes] at built built'
  cases read : indexed entries with
  | error e => simp [read] at built
  | ok known =>
      cases read' : indexed entries' with
      | error e => simp [read'] at built'
      | ok known' =>
          have mapped := add_indexed_map (fun a => a.valueOperand.map veil) [] known entries read
          have mapped' := add_indexed_map (fun a => a.valueOperand.map veil) [] known' entries' read'
          rw [like_pairs entries entries' like, mapped'] at mapped
          simp only [read, read', Except.ok.injEq] at built built' mapped
          rw [← built, ← built']
          refine same_action _ _ _ _ ?_
          simpa [Action.map, List.map_map, Function.comp_def] using mapped.symm

theorem map_each_eq (entries : List (String × Action Value)) :
    Action.mapEach veil entries = entries.map fun (key, a) => (key, a.map veil) := by
  induction entries with
  | nil => rfl
  | cons entry rest ih => rw [Action.mapEach, ih, List.map_cons]

mutual

theorem alike_actions : ∀ {a a' : Argument}, Alike a a' → SameActions a a'
  | _, _, .term a a' like => like_entry a a' like
  | _, _, .assign a a' like =>
      same_action _ _ _ _ (congrArg Action.assign (like_value_operand a a' like))
  | _, _, .assignDefault a a' like =>
      same_action _ _ _ _ (congrArg Action.assignDefault (like_value_operand a a' like))
  | _, _, .increment a a' like =>
      like_arithmetic _ _ _ _ _ _ rfl (like_path_operand a a' like)
  | _, _, .decrement a a' like =>
      like_arithmetic _ _ _ _ _ _ rfl (like_path_operand a a' like)
  | _, _, .add a a' b b' first second =>
      like_arithmetic _ _ _ _ _ _ (like_path_operand_or a a' first) (like_path_operand b b' second)
  | _, _, .subtract a a' b b' first second =>
      like_arithmetic _ _ _ _ _ _ (like_path_operand_or a a' first) (like_path_operand b b' second)
  | _, _, .arithmetic a a' operator b b' made made' first second built built' =>
      like_sign a a' operator b b' made made' first second built built'
  | _, _, .listAppend a a' b b' first second =>
      like_list_append _ _ _ _ _ (like_path_operand_or a a' first) (like_path_operand_or b b' second)
  | _, _, .append a a' like => like_list_append _ _ _ _ _ rfl (like_path_operand_or a a' like)
  | _, _, .prepend a a' like => like_list_append _ _ _ _ _ (like_path_operand_or a a' like) rfl
  | _, _, .join a a' b b' first second =>
      like_list_append _ _ _ _ _ (like_path_operand_or a a' first) (like_path_operand_or b b' second)
  | _, _, .assignIndexes entries entries' made made' like built built' =>
      like_indexes entries entries' made made' like built built'
  | _, _, .addElements a a' like =>
      same_action _ _ _ _ (congrArg Action.addElements (like_path_operand a a' like))
  | _, _, .deleteElements a a' like =>
      same_action _ _ _ _ (congrArg Action.deleteElements (like_path_operand a a' like))
  | _, _, .nested source source' like =>
      same_action _ _ _ _ (congrArg Action.nested (source_actions like))
  | _, _, .keyed groups groups' like =>
      same_action _ _ _ _ (congrArg Action.keyed (groups_actions like))

theorem entries_actions : ∀ {es es' : List (String × Argument)}, LikeEntries es es' →
    es.map (fun (key, a) => (key, a.toAction.map veil)) =
      es'.map fun (key, a) => (key, a.toAction.map veil)
  | _, _, .nil => rfl
  | _, _, .cons key a a' rest rest' like others => by
      simp only [List.map_cons, (alike_actions like).given, entries_actions others]

theorem fields_actions : ∀ {fields fields' : List (Field Argument)}, LikeFields fields fields' →
    fields.map (Field.map fun a => a.plain.toAction.map veil) =
      fields'.map (Field.map fun a => a.plain.toAction.map veil)
  | _, _, .nil => rfl
  | _, _, .cons name label isSet a a' rest rest' like others => by
      rw [List.map_cons, List.map_cons, Field.map, Field.map, (alike_actions like).kept,
        fields_actions others]

theorem source_actions : ∀ {source source' : Update.Source}, LikeSource source source' →
    Action.mapEach veil source.actions = Action.mapEach veil source'.actions
  | _, _, .entries es es' like => by
      have same := entries_actions like
      simpa only [Update.Source.actions, map_each_eq, List.map_map, Function.comp_def] using same
  | _, _, .model fields fields' like => by
      have same := fields_actions like
      have each (fields : List (Field Argument)) :
          Action.mapEach veil (Update.Source.actions (.model fields)) =
            setEntries (fields.map (Field.map fun a => a.plain.toAction.map veil)) := by
        rw [set_entries_map, Update.Source.actions, map_each_eq, List.map_map]
        rfl
      rw [each fields, each fields', same]

theorem groups_actions : ∀ {groups groups' : List (String × Update.Source)},
    LikeGroups groups groups' →
    Action.mapGroups veil (groups.map fun (key, source) => (key, source.actions)) =
      Action.mapGroups veil (groups'.map fun (key, source) => (key, source.actions))
  | _, _, .nil => rfl
  | _, _, .cons key source source' rest rest' like others => by
      rw [List.map_cons, List.map_cons, Action.mapGroups, Action.mapGroups, source_actions like,
        groups_actions others]

end

end Argument
end ItemExpr
