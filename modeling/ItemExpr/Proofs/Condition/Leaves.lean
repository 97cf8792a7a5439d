import ItemExpr.Params
import ItemExpr.Proofs.Condition.Reading
import ItemExpr.Proofs.Table.Numbering

set_option autoImplicit false

namespace ItemExpr

variable {V : Type}

theorem erase_dups_map {A B : Type} [BEq A] [LawfulBEq A] [BEq B] [LawfulBEq B] (g : A → B)
    (xs : List A) (injective : ∀ a ∈ xs, ∀ b ∈ xs, g a = g b → a = b) :
    (xs.map g).eraseDups = xs.eraseDups.map g := by
  match xs with
  | [] => simp
  | a :: rest =>
      have kept : (rest.map g).filter (fun b => !b == g a) = (rest.filter fun b => !b == a).map g := by
        rw [List.filter_map]
        congr 1
        apply List.filter_congr
        intro b present
        by_cases same : b = a
        · simp [same]
        · have apart : g b ≠ g a := fun equal =>
            same (injective b (by simp [present]) a (by simp) equal)
          simp [same, apart]
      have shorter : (rest.filter fun b => !b == a).length < (a :: rest).length :=
        Nat.lt_succ_of_le (List.length_filter_le _ rest)
      have inner := erase_dups_map g (rest.filter fun b => !b == a) fun b hb c hc =>
        injective b (by simp [(List.mem_filter.mp hb).1]) c (by simp [(List.mem_filter.mp hc).1])
      rw [List.map_cons, List.eraseDups_cons, List.eraseDups_cons, List.map_cons, kept, inner]
termination_by xs.length
decreasing_by exact shorter

theorem numbered_names (label : Nat → String) (listed : List String) :
    (listed.zipIdx.map fun (name, k) => (label k, name)).map Prod.snd = listed := by
  rw [List.map_map]
  exact List.zipIdx_map_fst 0 listed

theorem numbered_index (label : Nat → String) (listed : List String) (distinct : listed.Nodup) :
    listed.map (fun name => label (listed.idxOf name)) = (List.range listed.length).map label := by
  apply List.ext_getElem
  · simp
  · intro k below _
    rw [List.length_map] at below
    simp [distinct.idxOf_getElem k below]

theorem numbered_mem_index (label : Nat → String) (listed : List String) (distinct : listed.Nodup)
    (entry : String × String)
    (present : entry ∈ listed.zipIdx.map fun (name, k) => (label k, name)) :
    entry.2 ∈ listed ∧ entry.1 = label (listed.idxOf entry.2) := by
  obtain ⟨⟨name, k⟩, member, rfl⟩ := List.mem_map.mp present
  have found := List.mem_zipIdx_iff_getElem?.mp member
  dsimp only at found ⊢
  obtain ⟨below, rfl⟩ := List.getElem?_eq_some_iff.mp found
  exact ⟨List.getElem_mem below, by rw [distinct.idxOf_getElem k below]⟩

def Lexeme.nameLabel? : Lexeme → Option String
  | .name label => some label
  | _ => none

def Lexeme.valueLabel? : Lexeme → Option String
  | .value label => some label
  | _ => none

def nameAliases (s : String) : List String := (lexemes s).filterMap Lexeme.nameLabel?

def valueAliases (s : String) : List String := (lexemes s).filterMap Lexeme.valueLabel?

theorem token_labels (read : Lexeme → Option String) (label? : Token → Option String)
    (each : ∀ token : Token, token.lexemes.filterMap read = (label? token).toList) (f : Fragment) :
    (f.flatMap Token.lexemes).filterMap read = f.filterMap label? := by
  induction f with
  | nil => rfl
  | cons token rest ih =>
      rw [List.flatMap_cons, List.filterMap_append, ih, each, List.filterMap_cons]
      cases label? token <;> rfl

theorem name_labels_read (f : Fragment) :
    (f.flatMap Token.lexemes).filterMap Lexeme.nameLabel? = f.nameLabels := by
  apply token_labels
  rintro (s | label | label)
  · simp [Token.lexemes, Token.nameLabel?, Lexeme.nameLabel?, List.filterMap_map,
      Function.comp_def]
  · rfl
  · rfl

theorem value_labels_read (f : Fragment) :
    (f.flatMap Token.lexemes).filterMap Lexeme.valueLabel? = f.valueLabels := by
  apply token_labels
  rintro (s | label | label)
  · simp [Token.lexemes, Token.valueLabel?, Lexeme.valueLabel?, List.filterMap_map,
      Function.comp_def]
  · rfl
  · rfl

theorem chars_names (s : String) : (chars s : List (Symbol V)).filterMap Symbol.name? = [] := by
  simp [chars, Symbol.name?, List.filterMap_map, Function.comp_def]

theorem reads_names (t : Table V) (f : Fragment) (symbols : List (Symbol V))
    (reads : Reads t f symbols) :
    List.Forall₂ (fun label name => (label, name) ∈ t.names) f.nameLabels
      (symbols.filterMap Symbol.name?) := by
  induction reads with
  | nil => exact .nil
  | text s f symbols _ _ ih =>
      rw [List.filterMap_append, chars_names]
      exact ih
  | name k label name f symbols _ present _ _ ih => exact .cons present ih
  | value k label v f symbols _ _ _ _ ih => exact ih

def Item.leaves : Item V → List (Call V)
  | .path p => [.path p]
  | .value v => [.value v]
  | .text _ => []
  | .self => []

theorem write_leaves (t : Table V) (self : Fragment) (items : List (Item V)) :
    (t.write self items).2 = t.enterAll (items.flatMap Item.leaves) := by
  induction items generalizing t with
  | nil => rfl
  | cons item rest ih =>
      have first : (t.writeItem self item).2 = t.enterAll item.leaves := by cases item <;> rfl
      rw [Table.write, List.flatMap_cons, Table.enterAll, List.foldl_append]
      exact (ih (t.writeItem self item).2).trans (congrArg (Table.enterAll · _) first)

theorem segment_names (s : Segment) :
    (s.symbols : List (Symbol V)).filterMap Symbol.name? = [s.name] := by
  simp [Segment.symbols, Symbol.name?, chars_names]

theorem segment_symbols_names (segments : List Segment) :
    (segmentSymbols segments : List (Symbol V)).filterMap Symbol.name? =
      segments.map Segment.name := by
  match segments with
  | [] => rfl
  | [s] => simpa [segmentSymbols] using segment_names s
  | s :: next :: rest =>
      rw [segment_symbols_cons, List.filterMap_append, List.filterMap_append, segment_names,
        chars_names, segment_symbols_names (next :: rest)]
      rfl

theorem item_symbols_names (items : List (Item V)) :
    (itemSymbols [] items).filterMap Symbol.name? = namesOf {} (items.flatMap Item.leaves) := by
  induction items with
  | nil => rfl
  | cons item rest ih =>
      rw [itemSymbols, List.flatMap_cons, List.filterMap_append, List.flatMap_cons, namesOf,
        List.flatMap_append]
      refine congrArg₂ _ ?_ ih
      cases item with
      | text s => exact chars_names s
      | path p => simpa [Item.symbols, Item.leaves, pathSymbols] using segment_symbols_names _
      | value v => rfl
      | self => rfl

structure Yields (s : Script V) (leaves : List (Call V)) : Prop where
  sound : s.fault = none
  leaves : s.items.flatMap Item.leaves = leaves

theorem yields_text (s : String) : Yields (Script.text s : Script V) [] := ⟨rfl, rfl⟩

theorem yields_append (a b : Script V) (leaves others : List (Call V)) (first : Yields a leaves)
    (second : Yields b others) : Yields (a ++ b) (leaves ++ others) where
  sound := append_sound a b first.sound second.sound
  leaves := by
    rw [Script.append_of_sound a b first.sound, List.flatMap_append, first.leaves, second.leaves]

theorem yields_after (a : Script V) (s : String) (leaves : List (Call V)) (first : Yields a leaves) :
    Yields (a ++ .text s) leaves := by
  simpa using yields_append a (.text s) leaves [] first (yields_text s)

theorem yields_enclosed (front back : String) (a : Script V) (leaves : List (Call V))
    (inner : Yields a leaves) : Yields (.text front ++ a ++ .text back) leaves :=
  yields_after _ back _ (by simpa using yields_append (.text front) a [] leaves (yields_text front) inner)

theorem yields_join (separator : String) (s : Script V) (rest : List (Script V))
    (leaves others : List (Call V)) (first : Yields s leaves)
    (behind : Yields (.join separator rest) others) :
    Yields (.join separator (s :: rest)) (leaves ++ others) := by
  cases rest with
  | nil =>
      have none : others = [] := behind.leaves.symm
      rw [none, List.append_nil]
      exact first
  | cons next rest =>
      exact yields_append _ _ _ _ (yields_after s separator leaves first) behind

namespace Condition

mutual

def leaves : Condition V → List (Call V)
  | .path p => [.path p]
  | .attribute p => [.path p]
  | .size p => [.path p]
  | .value v => [.value v]
  | .compare left _ right => left.leaves ++ right.leaves
  | .between subject low high => subject.leaves ++ low.leaves ++ high.leaves
  | .isIn subject choices => subject.leaves ++ leavesEach choices
  | .call _ subject arguments => subject.leaves ++ leavesEach arguments
  | .all conditions => leavesEach conditions
  | .any conditions => leavesEach conditions
  | .negation condition => condition.leaves
  | .strict _ conditions => leavesEach conditions

def leavesEach : List (Condition V) → List (Call V)
  | [] => []
  | c :: rest => c.leaves ++ leavesEach rest

end

mutual

theorem condition_yields (c : Condition V) (counted : c.IsCounted) : Yields c.script c.leaves := by
  match c with
  | .path p => exact ⟨rfl, rfl⟩
  | .attribute p => exact ⟨rfl, rfl⟩
  | .size p => exact yields_enclosed "size(" ")" (.path p) _ ⟨rfl, rfl⟩
  | .value v => exact ⟨rfl, rfl⟩
  | .compare left operator right =>
      exact yields_append _ _ _ _ (yields_after _ _ _ (condition_yields left counted.1))
        (condition_yields right counted.2)
  | .between subject low high =>
      have start := yields_after _ " BETWEEN " _ (condition_yields subject counted.1)
      have middle := yields_append _ _ _ _ start (condition_yields low counted.2.1)
      exact yields_append _ _ _ _ (yields_after _ " AND " _ middle)
        (condition_yields high counted.2.2)
  | .isIn subject choices =>
      have start := yields_after _ " IN (" _ (condition_yields subject counted.1)
      exact yields_after _ ")" _
        (yields_append _ _ _ _ start (conditions_yield ", " choices counted.2))
  | .call function subject arguments =>
      exact yields_enclosed _ ")" _ _ (yields_join ", " _ _ _ _ (condition_yields subject counted.1)
        (conditions_yield ", " arguments counted.2))
  | .all conditions =>
      exact yields_enclosed "(" ")" _ _ (conditions_yield " AND " conditions counted)
  | .any conditions =>
      exact yields_enclosed "(" ")" _ _ (conditions_yield " OR " conditions counted)
  | .negation condition =>
      exact yields_enclosed "(NOT " ")" _ _ (condition_yields condition counted)
  | .strict operator conditions =>
      rw [script, counted.1]
      by_cases negated : operator.passesFor "NOT" = true
      · simp only [negated, if_true]
        exact yields_enclosed "(NOT " ")" _ _ (conditions_yield " AND " conditions counted.2)
      · simp only [negated]
        exact yields_enclosed "(" ")" _ _ (conditions_yield _ conditions counted.2)

theorem conditions_yield (separator : String) (cs : List (Condition V)) (counted : AreCounted cs) :
    Yields (.join separator (scripts cs)) (leavesEach cs) := by
  match cs with
  | [] => exact ⟨rfl, rfl⟩
  | c :: rest =>
      exact yields_join separator _ _ _ _ (condition_yields c counted.1)
        (conditions_yield separator rest counted.2)

end

end Condition

theorem entered_names (calls : List (Call V)) :
    let t := ({ options := {} } : Table V).enterAll calls
    let listed := (namesOf {} calls).eraseDups
    listed.Nodup ∧ t.nextName = listed.length ∧
      t.names = listed.zipIdx.map fun (name, k) => (Options.nameLabel {} k, name) := by
  intro t listed
  have options : t.options = {} := enter_all_options _ calls
  have kept := kept_entered {} calls
  have counted := counted_entered {} default_apart calls
  have coherent : Coherent t := (enter_all_extends _ coherent_default calls).coherent
  have every : t.names.filter (fun entry => t.options.IsCounted entry.1) = t.names := by
    apply List.filter_eq_self.mpr
    intro entry present
    have counted := coherent.names entry present
    rw [options] at counted ⊢
    exact decide_eq_true (default_label _ _ _ counted)
  have shown : ({} : Options).countedNames (namesOf {} calls) = listed := by
    rw [Options.countedNames, List.filter_eq_self.mpr (by simp)]
  have entries := every.symm.trans counted.entries
  have next := counted.nextName
  rw [options, shown] at entries next
  have single : (t.names.map Prod.snd).Nodup := kept.single
  rw [entries, numbered_names] at single
  exact ⟨single, next, entries⟩

theorem first_aliases (calls : List (Call V)) (labels : List String)
    (stand : List.Forall₂
      (fun label name => (label, name) ∈ (({ options := {} } : Table V).enterAll calls).names)
      labels (namesOf {} calls)) :
    labels.eraseDups = (List.range (({ options := {} } : Table V).enterAll calls).nextName).map
      (Options.nameLabel {}) := by
  obtain ⟨distinct, next, names⟩ := entered_names calls
  rw [names] at stand
  rw [next]
  generalize namesOf {} calls = given at stand distinct ⊢
  have known : ∀ name ∈ given, name ∈ given.eraseDups := fun name => List.mem_eraseDups.mpr
  generalize listing : given.eraseDups = listed at stand distinct known ⊢
  let label (name : String) := Options.nameLabel {} (listed.idxOf name)
  have labelled : labels = given.map label := by
    clear listing known
    induction stand with
    | nil => rfl
    | cons present _ ih =>
        rw [ih, List.map_cons]
        exact congrArg (· :: _) (numbered_mem_index _ listed distinct _ present).2
  rw [labelled, erase_dups_map label given, listing, numbered_index _ listed distinct]
  intro a first b second same
  exact (List.idxOf_inj (known a first)).mp (name_label_injective {} _ _ same)

theorem write_numbered (items : List (Item V)) (clear : ∀ item ∈ items, item.Clear) :
    let t := ({ options := {} } : Table V).enterAll (items.flatMap Item.leaves)
    ∃ f, ({ options := {} } : Table V).write [] items = (f, t) ∧
      valueAliases f.text = (List.range t.nextValue).map (Options.valueLabel {}) ∧
      (nameAliases f.text).eraseDups = (List.range t.nextName).map (Options.nameLabel {}) := by
  intro t
  have written := write_written _ (coherent_default (V := V)) rfl [] [] (known_nil _) items clear
  have entered := write_leaves ({ options := {} } : Table V) [] items
  generalize ({ options := {} } : Table V).write [] items = result at written entered ⊢
  obtain ⟨f, t'⟩ := result
  change t' = t at entered
  subst entered
  have kept := kept_entered {} (items.flatMap Item.leaves)
  have options : t.options = {} := enter_all_options _ _
  have lexed := reads_lexemes _ _ _ written.reads
  refine ⟨f, rfl, ?_, ?_⟩
  · have keys : t.values.map Prod.fst = _ := listed_keys t _ ⟨kept.values, kept.nextValue⟩
    rw [options] at keys
    rw [valueAliases, lexed, value_labels_read, ← keys]
    exact written.values.symm
  · have names := reads_names _ _ _ written.reads
    rw [item_symbols_names] at names
    rw [nameAliases, lexed, name_labels_read]
    exact first_aliases _ _ names

namespace Condition

-- Numbers are handed out in the order in which the text is read: to every value its own, to a name
-- where it occurs first.
theorem leaves_numbered {X : Type} (field : String) (params : Params V X)
    (cs : List (Condition V)) (present : cs ≠ []) (offered : AreOffered cs)
    (counted : AreCounted cs) :
    ∃ text w, ({ table := { options := {} } } : Workspace V).addConditions field cs params =
        (.ok (put field (.expression text) params), w) ∧
      (valueAliases text = (List.range w.table.nextValue).map (Options.valueLabel {}) ∧
        w.table.nextValue = (valuesOf (leavesEach cs)).length ∧
        w.table.values =
          (valuesOf (leavesEach cs)).zipIdx.map fun (v, k) => (Options.valueLabel {} k, v)) ∧
      (nameAliases text).eraseDups = (List.range w.table.nextName).map (Options.nameLabel {}) ∧
        w.table.nextName = (namesOf {} (leavesEach cs)).eraseDups.length ∧
        w.table.names = (namesOf {} (leavesEach cs)).eraseDups.zipIdx.map
          fun (name, k) => (Options.nameLabel {} k, name) := by
  have clear := join_clear " AND " and_clear _ (conditions_clear cs offered)
  obtain ⟨sound, leaves⟩ := conditions_yield " AND " cs counted
  obtain ⟨f, wrote, values, names⟩ := write_numbered _ clear
  rw [leaves] at wrote values names
  have kept := kept_entered {} (leavesEach cs)
  have options : (({ options := {} } : Table V).enterAll (leavesEach cs)).options = {} :=
    enter_all_options _ _
  have listed := kept.values
  rw [options] at listed
  refine ⟨f.text, { table := ({ options := {} } : Table V).enterAll (leavesEach cs) }, ?_,
    ⟨values, kept.nextValue, listed⟩, names, (entered_names _).2⟩
  simp [Workspace.addConditions, Workspace.runScript, present, Script.run, sound, wrote, Except.map]

def mixedChoice : List (Condition Nat) :=
  [.strict "AND"
      [.compare (.path "a.b[0]") "<>" (.value 7),
        .negation (.between (.size "b") (.value 8) (.attribute "a"))],
    .any
      [.isIn (.attribute "c.a") [.value 9, .size "b", .value 7],
        .call "contains" (.path "d[1][2]") [.value 7]]]

theorem mixed_choice_numbered :
    (AreOffered mixedChoice ∧ AreCounted mixedChoice) ∧
      ∃ text w, ({ table := { options := {} } } : Workspace Nat).addConditions "FilterExpression"
            mixedChoice ([] : Params Nat Unit) =
          (.ok (put "FilterExpression" (.expression text) []), w) ∧
        valueAliases text = [":v0", ":v1", ":v2", ":v3", ":v4"] ∧
        w.table.values = [(":v0", 7), (":v1", 8), (":v2", 9), (":v3", 7), (":v4", 7)] ∧
        (nameAliases text).eraseDups = ["#n0", "#n1", "#n2", "#n3"] ∧
        w.table.names = [("#n0", "a"), ("#n1", "b"), ("#n2", "c"), ("#n3", "d")] := by
  have indexed : IsIndexed "a.b[0]" ∧ IsIndexed "b" ∧ IsIndexed "a" ∧ IsIndexed "c.a" ∧
      IsIndexed "d[1][2]" := by decide +kernel
  have offered : AreOffered mixedChoice := by
    simp [AreOffered, IsOffered, mixedChoice, IsFunction, indexed,
      show IsOperator "<>" from ⟨.notEqual, rfl⟩]
  have counted : AreCounted mixedChoice := by
    simp [AreCounted, IsCounted, mixedChoice, usageError?, Word.passesFor]
  have values : valuesOf (leavesEach mixedChoice) = [7, 8, 9, 7, 7] := rfl
  have names : (namesOf {} (leavesEach mixedChoice)).eraseDups = ["a", "b", "c", "d"] := by
    decide +kernel
  obtain ⟨text, w, wrote, ⟨aliases, next, entries⟩, first, counter, known⟩ :=
    leaves_numbered "FilterExpression" ([] : Params Nat Unit) mixedChoice (by simp [mixedChoice])
      offered counted
  rw [values] at next entries
  rw [names] at counter known
  rw [next] at aliases
  rw [counter] at first
  exact ⟨⟨offered, counted⟩, text, w, wrote, aliases, entries, first, known⟩

end Condition
end ItemExpr
