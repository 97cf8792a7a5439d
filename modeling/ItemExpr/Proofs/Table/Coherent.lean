import ItemExpr.Table
import Mathlib.Data.List.Nodup
import Std.Data.String.ToNat

set_option autoImplicit false

namespace ItemExpr

theorem numeral_digits (k : Nat) : ∀ c ∈ Nat.toDigits 10 k, c.isDigit = true :=
  fun _ present => Nat.isDigit_of_mem_toDigits (by decide) (by decide) present

theorem append_injective (a b c : String) (same : a ++ b = a ++ c) : b = c := by
  have chars := congrArg String.toList same
  simp only [String.toList_append, List.append_cancel_left_eq] at chars
  exact String.toList_injective chars

section Entries

variable {α : Type}

theorem find_mem (key : String) (entry : α) (entries : List (String × α))
    (found : find? key entries = some entry) : (key, entry) ∈ entries := by
  induction entries with
  | nil => simp [find?] at found
  | cons head rest ih =>
      obtain ⟨other, old⟩ := head
      by_cases same : other = key
      · simp only [find?, if_pos same, Option.some.injEq] at found
        simp [same, found]
      · rw [find?, if_neg same] at found
        exact List.mem_cons_of_mem _ (ih found)

theorem find_none (key : String) (entries : List (String × α))
    (missing : key ∉ entries.map Prod.fst) : find? key entries = none := by
  cases found : find? key entries with
  | none => rfl
  | some entry => exact absurd (List.mem_map_of_mem (find_mem key entry entries found)) missing

theorem find_of_mem (key : String) (entry : α) (entries : List (String × α))
    (distinct : (entries.map Prod.fst).Nodup) (present : (key, entry) ∈ entries) :
    find? key entries = some entry := by
  induction entries with
  | nil => simp at present
  | cons head rest ih =>
      obtain ⟨other, old⟩ := head
      rw [List.map_cons, List.nodup_cons] at distinct
      by_cases same : other = key
      · rcases List.mem_cons.mp present with here | later
        · simp [find?, same, (Prod.mk.inj here).2]
        · exact absurd (List.mem_map.mpr ⟨_, later, same.symm⟩) distinct.1
      · rw [find?, if_neg same]
        rcases List.mem_cons.mp present with here | later
        · exact absurd (Prod.mk.inj here).1.symm same
        · exact ih distinct.2 later

theorem put_new (key : String) (entry : α) (entries : List (String × α))
    (missing : key ∉ entries.map Prod.fst) : put key entry entries = entries ++ [(key, entry)] :=
  put_absent key entry entries (find_none key entries missing)

theorem put_known (key : String) (entry : α) (entries : List (String × α))
    (distinct : (entries.map Prod.fst).Nodup) (present : (key, entry) ∈ entries) :
    put key entry entries = entries := by
  induction entries with
  | nil => simp at present
  | cons head rest ih =>
      obtain ⟨other, old⟩ := head
      rw [List.map_cons, List.nodup_cons] at distinct
      by_cases same : other = key
      · rcases List.mem_cons.mp present with here | later
        · simp [put, same, (Prod.mk.inj here).2]
        · exact absurd (List.mem_map.mpr ⟨_, later, same.symm⟩) distinct.1
      · rcases List.mem_cons.mp present with here | later
        · exact absurd (Prod.mk.inj here).1.symm same
        · simp [put, same, ih distinct.2 later]

end Entries

def Options.nameLabel (o : Options) (k : Nat) : String := o.namePrefix ++ toString k

def Options.valueLabel (o : Options) (k : Nat) : String := o.valuePrefix ++ toString k

theorem name_label_chars (o : Options) (k : Nat) :
    (o.nameLabel k).toList = o.namePrefix.toList ++ Nat.toDigits 10 k := by
  simp [Options.nameLabel]

theorem value_label_chars (o : Options) (k : Nat) :
    (o.valueLabel k).toList = o.valuePrefix.toList ++ Nat.toDigits 10 k := by
  simp [Options.valueLabel]

theorem name_label_injective (o : Options) (j k : Nat) (same : o.nameLabel j = o.nameLabel k) :
    j = k :=
  Nat.repr_injective (append_injective _ _ _ same)

theorem value_label_injective (o : Options) (j k : Nat) (same : o.valueLabel j = o.valueLabel k) :
    j = k :=
  Nat.repr_injective (append_injective _ _ _ same)

-- No reserved name is written like the alias of a counted one.
def Options.Apart (o : Options) : Prop :=
  ∀ (name : String) (k : Nat), "#" ++ name = o.nameLabel k → o.reserved name = false

inductive Alias (o : Options) (bound : Nat) (label name : String) : Prop
  | reserved (reserved : o.reserved name = true) (shape : label = "#" ++ name)
  | counted (k : Nat) (below : k < bound) (plain : o.reserved name = false)
      (covered : o.bare name = false) (shape : label = o.nameLabel k)

structure Coherent {V : Type} (t : Table V) : Prop where
  apart : t.options.Apart
  distinct : (t.names.map Prod.fst).Nodup
  names : ∀ entry ∈ t.names, Alias t.options t.nextName entry.1 entry.2
  values : t.values.map Prod.fst = (List.range t.nextValue).map t.options.valueLabel

structure Extends {V : Type} (t t' : Table V) : Prop where
  coherent : Coherent t'
  options : t'.options = t.options
  names : t.names <+: t'.names
  values : t.values <+: t'.values
  nextName : t.nextName ≤ t'.nextName
  nextValue : t.nextValue ≤ t'.nextValue

inductive Means {V : Type} (t : Table V) : Token → String → Prop
  | entered (label name : String) : (label, name) ∈ t.names → Means t (.name label) name
  | bare (name : String) : t.options.reserved name = false → t.options.bare name = true →
      Means t (.text name) name

variable {V : Type}

theorem alias_widen (o : Options) (bound wider : Nat) (label name : String) (le : bound ≤ wider)
    (entry : Alias o bound label name) : Alias o wider label name := by
  cases entry with
  | reserved reserved shape => exact .reserved reserved shape
  | counted k below plain covered shape =>
      exact .counted k (Nat.lt_of_lt_of_le below le) plain covered shape

theorem coherent_fresh (o : Options) (apart : o.Apart) :
    Coherent ({ options := o } : Table V) where
  apart := apart
  distinct := List.nodup_nil
  names := by simp
  values := rfl

theorem default_apart : Options.Apart {} := fun _ _ _ => rfl

theorem default_delimiter : ({} : Settings).delimiter ≠ "" := by decide

theorem default_marks : ({} : Settings).namePrefix.toList.head? = some '#' ∧
    ({} : Settings).valuePrefix.toList.head? = some ':' := by decide

def Options.standard : Options where
  delimiter_ne := default_delimiter
  name_marked := default_marks.1
  value_marked := default_marks.2

theorem coherent_default : Coherent ({ options := {} } : Table V) :=
  coherent_fresh {} default_apart

theorem extends_refl (t : Table V) (coherent : Coherent t) : Extends t t where
  coherent := coherent
  options := rfl
  names := List.prefix_refl _
  values := List.prefix_refl _
  nextName := Nat.le_refl _
  nextValue := Nat.le_refl _

theorem extends_trans (t t' t'' : Table V) (first : Extends t t') (second : Extends t' t'') :
    Extends t t'' where
  coherent := second.coherent
  options := second.options.trans first.options
  names := first.names.trans second.names
  values := first.values.trans second.values
  nextName := Nat.le_trans first.nextName second.nextName
  nextValue := Nat.le_trans first.nextValue second.nextValue

theorem means_extends (t t' : Table V) (token : Token) (name : String) (later : Extends t t')
    (means : Means t token name) : Means t' token name := by
  cases means with
  | entered label _ present => exact .entered label name (later.names.subset present)
  | bare _ plain bare => exact .bare name (later.options ▸ plain) (later.options ▸ bare)

theorem find_name (t : Table V) (coherent : Coherent t) (label name : String)
    (present : (label, name) ∈ t.names) : find? label t.names = some name :=
  find_of_mem label name t.names coherent.distinct present

theorem find_value (t : Table V) (coherent : Coherent t) (label : String) (v : V)
    (present : (label, v) ∈ t.values) : find? label t.values = some v := by
  apply find_of_mem label v t.values _ present
  rw [coherent.values]
  exact List.Nodup.map (fun j k same => value_label_injective t.options j k same) List.nodup_range

theorem extends_name (t : Table V) (coherent : Coherent t) (label name : String) (next : Nat)
    (missing : label ∉ t.names.map Prod.fst) (le : t.nextName ≤ next)
    (entry : Alias t.options next label name) :
    Extends t { t with names := t.names ++ [(label, name)], nextName := next } where
  coherent :=
    { apart := coherent.apart
      distinct := by
        rw [List.map_append]
        exact List.Nodup.append coherent.distinct (List.nodup_singleton _) (by simpa using missing)
      names := by
        intro known present
        rcases List.mem_append.mp present with old | new
        · exact alias_widen _ _ _ _ _ le (coherent.names known old)
        · rw [List.mem_singleton.mp new]
          exact entry
      values := coherent.values }
  options := rfl
  names := List.prefix_append _ _
  values := List.prefix_refl _
  nextName := le
  nextValue := Nat.le_refl _

theorem next_name_missing (t : Table V) (coherent : Coherent t) :
    t.options.nameLabel t.nextName ∉ t.names.map Prod.fst := by
  intro present
  obtain ⟨⟨label, name⟩, known, same⟩ := List.mem_map.mp present
  cases coherent.names _ known with
  | reserved reserved shape =>
      have plain := coherent.apart name t.nextName (shape.symm.trans same)
      exact absurd reserved (Bool.eq_false_iff.mp plain)
  | counted k below _ _ shape =>
      have equal := name_label_injective t.options k t.nextName (shape.symm.trans same)
      omega

theorem reserved_entry (t : Table V) (coherent : Coherent t) (name : String)
    (reserved : t.options.reserved name = true) (known : "#" ++ name ∈ t.names.map Prod.fst) :
    ("#" ++ name, name) ∈ t.names := by
  obtain ⟨⟨label, other⟩, present, same⟩ := List.mem_map.mp known
  have equal : other = name := by
    cases coherent.names _ present with
    | reserved _ shape => exact append_injective "#" other name (shape.symm.trans same)
    | counted k _ _ _ shape =>
        have plain := coherent.apart name k (same.symm.trans shape)
        exact absurd reserved (Bool.eq_false_iff.mp plain)
  rw [← same, ← equal]
  exact present

inductive AddsName (t : Table V) (name : String) : Token × Table V → Prop
  | reserved (reserved : t.options.reserved name = true) :
      AddsName t name (.name ("#" ++ name), { t with names := put ("#" ++ name) name t.names })
  | bare (plain : t.options.reserved name = false) (bare : t.options.bare name = true) :
      AddsName t name (.text name, t)
  | found (label : String) (plain : t.options.reserved name = false)
      (covered : t.options.bare name = false) (present : (label, name) ∈ t.names) :
      AddsName t name (.name label, t)
  | counted (plain : t.options.reserved name = false) (covered : t.options.bare name = false)
      (missing : ∀ entry ∈ t.names, entry.2 ≠ name) :
      AddsName t name (.name (t.options.nameLabel t.nextName),
        { t with names := put (t.options.nameLabel t.nextName) name t.names
                 nextName := t.nextName + 1 })

theorem add_name_adds (t : Table V) (name : String) : AddsName t name (t.addName name) := by
  rw [Table.addName]
  cases reserved : t.options.reserved name with
  | true => exact .reserved reserved
  | false =>
      cases bare : t.options.bare name with
      | true => exact .bare reserved bare
      | false =>
          cases found : t.names.find? (·.2 = name) with
          | some entry =>
              obtain ⟨label, other⟩ := entry
              have same : other = name := by simpa using List.find?_some found
              exact .found label reserved bare (same ▸ List.mem_of_find?_eq_some found)
          | none =>
              have missing := List.find?_eq_none.mp found
              exact .counted reserved bare fun entry present => by simpa using missing entry present

theorem add_name_cases (t : Table V) (coherent : Coherent t) (name : String) :
    ((t.addName name).2 = t ∧ Means t (t.addName name).1 name) ∨
      ∃ label next, t.addName name =
          (.name label, { t with names := t.names ++ [(label, name)], nextName := next }) ∧
        label ∉ t.names.map Prod.fst ∧ t.nextName ≤ next ∧ Alias t.options next label name := by
  have adds := add_name_adds t name
  generalize t.addName name = added at adds ⊢
  cases adds with
  | reserved reserved =>
      by_cases known : "#" ++ name ∈ t.names.map Prod.fst
      · have present := reserved_entry t coherent name reserved known
        left
        rw [put_known _ _ _ coherent.distinct present]
        exact ⟨rfl, .entered _ name present⟩
      · refine .inr ⟨"#" ++ name, t.nextName, ?_, known, Nat.le_refl _, .reserved reserved rfl⟩
        rw [put_new _ _ _ known]
  | bare plain bare => exact .inl ⟨rfl, .bare name plain bare⟩
  | found label _ _ present => exact .inl ⟨rfl, .entered label name present⟩
  | counted plain covered _ =>
      have missing := next_name_missing t coherent
      refine .inr ⟨t.options.nameLabel t.nextName, t.nextName + 1, ?_, missing,
        Nat.le_succ _, .counted _ (Nat.lt_succ_self _) plain covered rfl⟩
      rw [put_new _ name t.names missing]

theorem add_name_extends (t : Table V) (coherent : Coherent t) (name : String) :
    Extends t (t.addName name).2 ∧ Means (t.addName name).2 (t.addName name).1 name := by
  rcases add_name_cases t coherent name with ⟨same, means⟩ | ⟨label, next, written, missing, le, entry⟩
  · rw [same]
    exact ⟨extends_refl t coherent, means⟩
  · rw [written]
    exact ⟨extends_name t coherent label name next missing le entry, .entered label name (by simp)⟩

theorem next_value_missing (t : Table V) (coherent : Coherent t) :
    t.options.valueLabel t.nextValue ∉ t.values.map Prod.fst := by
  rw [coherent.values]
  intro present
  obtain ⟨k, below, same⟩ := List.mem_map.mp present
  have equal := value_label_injective t.options k t.nextValue same
  have bound := List.mem_range.mp below
  omega

theorem add_value_eq (t : Table V) (coherent : Coherent t) (v : V) :
    t.addValue v = (.value (t.options.valueLabel t.nextValue),
      { t with values := t.values ++ [(t.options.valueLabel t.nextValue, v)]
               nextValue := t.nextValue + 1 }) := by
  exact congrArg (fun values => (Token.value _, { t with values, nextValue := t.nextValue + 1 }))
    (put_new _ v t.values (next_value_missing t coherent))

theorem add_value_extends (t : Table V) (coherent : Coherent t) (v : V) :
    Extends t (t.addValue v).2 := by
  rw [add_value_eq t coherent v]
  exact
    { coherent :=
        { apart := coherent.apart
          distinct := coherent.distinct
          names := coherent.names
          values := by simp [coherent.values, List.range_succ] }
      options := rfl
      names := List.prefix_refl _
      values := List.prefix_append _ _
      nextName := Nat.le_refl _
      nextValue := Nat.le_succ _ }

end ItemExpr
