import ItemExpr.Proofs.Wire.Refusal

set_option autoImplicit false

namespace ItemExpr

namespace Value

def sent? (v : Value) : Option Wire := (serialize v).toOption

def direct? (v : Value) : Option Wire := (encode v).toOption

end Value

open Value (sent? direct?)

theorem sent_prepared (v p : Value) (prepared : v.prepare = .ok p) : v.sent? = p.direct? := by
  rw [sent?, direct?, serialize, prepared]
  cases made : encode p with
  | ok w => simp [made, Except.toOption]
  | error e => cases e <;> cases v.display <;> simp [made, Except.toOption]

theorem sent_unprepared (v : Value) (e : Unhashable) (failed : v.prepare = .error e) :
    v.sent? = none := by
  rw [sent?, serialize, failed]
  rfl

theorem sent_member (type : EnumType) (name : String) (v : Value) :
    (Value.member type name v).sent? = v.direct? := sent_prepared _ v rfl

theorem option_map {E A B : Type} (r : Except E A) (f : A → B) :
    (r.map f).toOption = r.toOption.map f := by
  cases r <;> rfl

def sentEntry? (entry : Value × Value) : Option (Value × Wire) := entry.2.sent?.map (entry.1, ·)

def directEntry? (entry : Value × Value) : Option (Value × Wire) :=
  entry.2.direct?.map (entry.1, ·)

theorem encode_each_direct (vs : List Value) : (encodeEach vs).toOption = vs.mapM direct? := by
  induction vs with
  | nil => rfl
  | cons v rest ih =>
      rw [encodeEach, List.mapM_cons, ← ih, direct?]
      cases encode v with
      | error e => rfl
      | ok w => cases encodeEach rest <;> rfl

theorem encode_entries_direct (entries : List (Value × Value)) :
    (encodeEntries entries).toOption = entries.mapM directEntry? := by
  induction entries with
  | nil => rfl
  | cons entry rest ih =>
      obtain ⟨key, v⟩ := entry
      rw [encodeEntries, List.mapM_cons, ← ih, directEntry?, direct?]
      cases encode v with
      | error e => rfl
      | ok w => cases encodeEntries rest <;> rfl

theorem prepare_each_sent (vs : List Value) :
    ((Value.prepareEach vs).toOption.bind fun ps => ps.mapM direct?) = vs.mapM sent? := by
  induction vs with
  | nil => rfl
  | cons v rest ih =>
      rw [Value.prepareEach, List.mapM_cons, ← ih]
      cases made : v.prepare with
      | error e =>
          rw [sent_unprepared v e made]
          rfl
      | ok p =>
          rw [sent_prepared v p made]
          cases Value.prepareEach rest with
          | error e => cases p.direct? <;> rfl
          | ok ps => exact List.mapM_cons

theorem prepare_entries_sent (entries : List (Value × Value)) :
    ((Value.prepareEntries entries).toOption.bind fun ps => ps.mapM directEntry?) =
      entries.mapM sentEntry? := by
  induction entries with
  | nil => rfl
  | cons entry rest ih =>
      obtain ⟨key, v⟩ := entry
      rw [Value.prepareEntries, List.mapM_cons, ← ih, sentEntry?]
      cases made : v.prepare with
      | error e =>
          rw [sent_unprepared v e made]
          rfl
      | ok p =>
          rw [sent_prepared v p made]
          cases Value.prepareEntries rest with
          | error e => cases p.direct? <;> rfl
          | ok ps => exact List.mapM_cons

theorem direct_sequence (vs : List Value) :
    (Value.list vs).direct? = (vs.mapM direct?).map .list ∧
      (Value.tuple vs).direct? = (vs.mapM direct?).map .list := by
  have both : ((encodeEach vs).map Wire.list).toOption = (vs.mapM direct?).map .list := by
    rw [option_map, encode_each_direct]
  exact ⟨both, both⟩

theorem direct_map (entries : List (Value × Value)) :
    (Value.map entries).direct? = (entries.mapM directEntry?).map .map := by
  rw [direct?, encode, option_map, encode_entries_direct]

theorem sent_sequence (v : Value) (vs : List Value)
    (same : v.prepare = (Value.prepareEach vs).map .list) :
    v.sent? = (vs.mapM sent?).map .list := by
  rw [← prepare_each_sent]
  cases made : Value.prepareEach vs with
  | error e => exact sent_unprepared v e (by rw [same, made]; rfl)
  | ok ps =>
      rw [sent_prepared v (.list ps) (by rw [same, made]; rfl), (direct_sequence ps).1]
      rfl

theorem sent_map (entries : List (Value × Value)) :
    (Value.map entries).sent? = (entries.mapM sentEntry?).map .map := by
  rw [← prepare_entries_sent]
  cases made : Value.prepareEntries entries with
  | error e => exact sent_unprepared _ e (by rw [Value.prepare, made]; rfl)
  | ok ps =>
      rw [sent_prepared _ (.map ps) (by rw [Value.prepare, made]; rfl), direct_map]
      rfl

inductive Context
  | hole
  | list (before : List Value) (inner : Context) (after : List Value)
  | tuple (before : List Value) (inner : Context) (after : List Value)
  | map (before : List (Value × Value)) (key : Value) (inner : Context)
      (after : List (Value × Value))

def Context.fill : Context → Value → Value
  | .hole, v => v
  | .list before inner after, v => .list (before ++ inner.fill v :: after)
  | .tuple before inner after, v => .tuple (before ++ inner.fill v :: after)
  | .map before key inner after, v => .map (before ++ (key, inner.fill v) :: after)

theorem sent_fill (c : Context) (v v' : Value) (same : v.sent? = v'.sent?) :
    (c.fill v).sent? = (c.fill v').sent? := by
  induction c with
  | hole => exact same
  | list before inner after ih | tuple before inner after ih =>
      rw [Context.fill, Context.fill, sent_sequence _ _ rfl, sent_sequence _ _ rfl]
      rw [List.mapM_append, List.mapM_append, List.mapM_cons, List.mapM_cons, ih]
  | map before key inner after ih =>
      have entry : sentEntry? (key, inner.fill v) = sentEntry? (key, inner.fill v') :=
        congrArg (Option.map _) ih
      rw [Context.fill, Context.fill, sent_map, sent_map]
      rw [List.mapM_append, List.mapM_append, List.mapM_cons, List.mapM_cons, entry]

namespace Value

mutual

-- No part that is prepared would be changed, but for tuples and frozen sets.
def IsReady : Value → Prop
  | .float _ => False
  | .dateTime _ => False
  | .date _ => False
  | .uuid _ => False
  | .member type _ v => type.mixes v = true
  | .list vs => AreReady vs
  | .tuple vs => AreReady vs
  | .set vs => AreReady vs ∧ ∀ v ∈ vs, v.tuple? = none
  | .frozenSet vs => AreReady vs ∧ ∀ v ∈ vs, v.tuple? = none
  | .map entries => EntriesReady entries
  | _ => True

def AreReady : List Value → Prop
  | [] => True
  | v :: rest => v.IsReady ∧ AreReady rest

def EntriesReady : List (Value × Value) → Prop
  | [] => True
  | (_, v) :: rest => v.IsReady ∧ EntriesReady rest

end

structure AreElements (vs : List Value) : Prop where
  hashable : ∀ v ∈ vs, v.unhashable? = none
  distinct : vs.Pairwise fun v v' => v.same v' = false

mutual

def IsProper : Value → Prop
  | .list vs => AreProper vs
  | .tuple vs => AreProper vs
  | .set vs => AreElements vs
  | .frozenSet vs => AreElements vs
  | .map entries => EntriesProper entries
  | _ => True

def AreProper : List Value → Prop
  | [] => True
  | v :: rest => v.IsProper ∧ AreProper rest

def EntriesProper : List (Value × Value) → Prop
  | [] => True
  | (_, v) :: rest => v.IsProper ∧ EntriesProper rest

end

def IsMember (v : Value) : Prop :=
  v.isNumber = true ∨ (stringOf? v).isSome = true ∨ (binaryOf? v).isSome = true

end Value

open Value (AreReady EntriesReady AreElements AreProper EntriesProper)

theorem encode_set_members (whole : Value) (vs : List Value) (w : Wire)
    (made : encodeSet whole vs = .ok w) : ∀ v ∈ vs, v.IsMember := by
  rw [encodeSet, all_numbers_find] at made
  cases other : vs.find? fun v => !v.isNumber with
  | none =>
      intro v present
      exact .inl (by simpa using List.find?_eq_none.mp other v present)
  | some odd =>
      have mixed : (vs.all fun v => (stringOf? v).isSome) = true ∨
          (vs.all fun v => (binaryOf? v).isSome) = true := by
        rw [← mapM_some, ← mapM_some]
        cases strings : vs.mapM stringOf? with
        | some ss => exact .inl rfl
        | none =>
            cases bytes : vs.mapM binaryOf? with
            | some bss => exact .inr rfl
            | none => cases odd <;> simp [other, strings, bytes] at made
      intro v present
      rcases mixed with strings | bytes
      · exact .inr (.inl (List.all_eq_true.mp strings v present))
      · exact .inr (.inr (List.all_eq_true.mp bytes v present))

theorem member_ready (v : Value) (member : v.IsMember) : v.IsReady ∧ v.tuple? = none := by
  cases v <;>
    simp_all [Value.IsMember, Value.IsReady, Value.tuple?, Value.isNumber, stringOf?, binaryOf?]

theorem are_ready_iff (vs : List Value) : AreReady vs ↔ ∀ v ∈ vs, v.IsReady := by
  induction vs with
  | nil => simp [AreReady]
  | cons v rest ih => rw [AreReady, ih, List.forall_mem_cons]

theorem encode_set_ready (whole : Value) (vs : List Value) (w : Wire)
    (made : encodeSet whole vs = .ok w) : AreReady vs ∧ ∀ v ∈ vs, v.tuple? = none := by
  have each (v : Value) (present : v ∈ vs) :=
    member_ready v (encode_set_members whole vs w made v present)
  exact ⟨(are_ready_iff vs).mpr fun v present => (each v present).1,
    fun v present => (each v present).2⟩

theorem mapped_ok_iff {E A B : Type} (r : Except E A) (f : A → B) (b : B) :
    r.map f = .ok b ↔ ∃ a, r = .ok a ∧ f a = b := by
  cases r <;> simp [Except.map]

mutual

theorem encode_ready (v : Value) (w : Wire) (made : encode v = .ok w) : v.IsReady := by
  match v with
  | .list vs | .tuple vs =>
      obtain ⟨ws, each, -⟩ := (mapped_ok_iff _ _ _).mp made
      exact encode_each_ready vs ws each
  | .map entries =>
      rw [encode] at made
      obtain ⟨ws, each, -⟩ := (mapped_ok_iff _ _ _).mp made
      exact encode_entries_ready entries ws each
  | .set vs => exact encode_set_ready _ vs w made
  | .frozenSet vs => exact encode_set_ready _ vs w made
  | .member type name v =>
      rw [encode] at made
      split_ifs at made with mixes
      exact mixes
  | .null | .bool _ | .int _ | .decimal _ | .str _ | .bytes _ | .byteArray _ | .undefined
  | .model _ _ | .object _ _ | .unprintable _ => simp [Value.IsReady]
  | .float _ | .dateTime _ | .date _ | .uuid _ => simp [encode] at made

theorem encode_each_ready (vs : List Value) (ws : List Wire) (made : encodeEach vs = .ok ws) :
    AreReady vs := by
  match vs with
  | [] => trivial
  | v :: rest =>
      rw [encodeEach] at made
      cases first : encode v with
      | error e => simp [first] at made
      | ok w =>
          rw [first] at made
          obtain ⟨others, each, -⟩ := (mapped_ok_iff _ _ _).mp made
          exact ⟨encode_ready v w first, encode_each_ready rest others each⟩

theorem encode_entries_ready (entries : List (Value × Value)) (ws : List (Value × Wire))
    (made : encodeEntries entries = .ok ws) : EntriesReady entries := by
  match entries with
  | [] => trivial
  | (key, v) :: rest =>
      rw [encodeEntries] at made
      cases first : encode v with
      | error e => simp [first] at made
      | ok w =>
          rw [first] at made
          obtain ⟨others, each, -⟩ := (mapped_ok_iff _ _ _).mp made
          exact ⟨encode_ready v w first, encode_entries_ready rest others each⟩

end

theorem element_prepared_same (v : Value) (ready : v.IsReady) (single : v.tuple? = none)
    (hashable : v.unhashable? = none) (kept : v.unhashablePrepared? = none) :
    v.prepare = .ok v := by
  cases v with
  | member type name v =>
      have mixes : type.mixes v = true := ready
      rw [EnumType.mixes, Bool.and_eq_true] at mixes
      cases v <;>
        simp_all [Value.isContainer, Value.tuple?, Value.unhashable?, EnumType.mixes]
  | _ => simp_all [Value.prepare, Value.IsReady, Value.unhashablePrepared?, Value.unhashable?]

theorem elements_prepared (vs : List Value) (ready : AreReady vs ∧ ∀ v ∈ vs, v.tuple? = none)
    (hashable : ∀ v ∈ vs, v.unhashable? = none) (kept : ∀ v ∈ vs, v.unhashablePrepared? = none) :
    Value.prepareEach vs = .ok vs := by
  obtain ⟨ready, single⟩ := ready
  induction vs with
  | nil => rfl
  | cons v rest ih =>
      rw [List.forall_mem_cons] at single hashable kept
      rw [Value.prepareEach, element_prepared_same v ready.1 single.1 hashable.1 kept.1,
        ih hashable.2 kept.2 ready.2 single.2]
      rfl

theorem add_elements_distinct (known vs : List Value) (hashable : ∀ v ∈ vs, v.unhashable? = none)
    (distinct : (known ++ vs).Pairwise fun v v' => v.same v' = false) :
    Value.addElements known vs = .ok (known ++ vs) := by
  induction vs generalizing known with
  | nil => rw [Value.addElements, List.append_nil]
  | cons v rest ih =>
      rw [List.forall_mem_cons] at hashable
      have unknown : known.any (·.same v) = false := by
        rw [List.any_eq_false]
        intro other present
        rw [List.pairwise_append] at distinct
        simp [distinct.2.2 other present v (List.mem_cons_self ..)]
      have joined : known ++ v :: rest = known ++ [v] ++ rest := by simp
      rw [Value.addElements, hashable.1]
      simp only [unknown]
      rw [joined] at distinct ⊢
      exact ih _ hashable.2 distinct

theorem encode_set_whole (whole whole' : Value) (vs : List Value) :
    (encodeSet whole vs).toOption = (encodeSet whole' vs).toOption := by
  rw [encodeSet, encodeSet]
  cases allNumbers vs with
  | error e => rfl
  | ok numbers =>
      cases numbers with
      | true => rfl
      | false =>
          dsimp only
          cases vs.mapM stringOf? <;> cases vs.mapM binaryOf? <;> rfl

theorem set_direct (v : Value) (vs : List Value)
    (ready : AreReady vs ∧ ∀ v ∈ vs, v.tuple? = none) (proper : AreElements vs)
    (prepares : v.prepare = (Value.set vs).prepare) (encodes : encode v = encodeSet v vs)
    (keeps : v.KeepsSets ↔ (Value.set vs).KeepsSets) : v.sent? = v.direct? := by
  by_cases hashable : ∀ e ∈ vs, e.unhashablePrepared? = none
  · have elements : Value.elements vs = .ok vs :=
      add_elements_distinct [] vs proper.hashable proper.distinct
    have made : v.prepare = .ok (.set vs) := by
      rw [prepares, Value.prepare, elements_prepared vs ready proper.hashable hashable]
      simp only [elements]
      rfl
    rw [sent_prepared v _ made, direct?, direct?, encodes]
    exact encode_set_whole _ _ vs
  -- A tuple or a frozen set is among the elements, so that there is no form either way.
  · have unprepared : v.sent? = none := by
      cases made : v.prepare with
      | error e => exact sent_unprepared v e made
      | ok p =>
          have kept := keeps.mp ((Value.prepare_fine_iff v).mp (by rw [made]; rfl))
          exact absurd kept.2 hashable
    rw [unprepared, direct?, encodes]
    cases made : encodeSet v vs with
    | error e => rfl
    | ok w =>
        refine absurd (fun e present => ?_) hashable
        have own := proper.hashable e present
        have member := encode_set_members v vs w made e present
        cases e <;>
          simp_all [Value.IsMember, Value.isNumber, stringOf?, binaryOf?, Value.unhashablePrepared?]

mutual

theorem ready_direct (v : Value) (ready : v.IsReady) (proper : v.IsProper) :
    v.sent? = v.direct? := by
  match v with
  | .list vs =>
      rw [sent_sequence _ vs rfl, (direct_sequence vs).1, each_ready_direct vs ready proper]
  | .tuple vs =>
      rw [sent_sequence _ vs rfl, (direct_sequence vs).2, each_ready_direct vs ready proper]
  | .map entries => rw [sent_map, direct_map, entries_ready_direct entries ready proper]
  | .set vs => exact set_direct _ vs ready proper rfl rfl Iff.rfl
  | .frozenSet vs => exact set_direct _ vs ready proper rfl rfl Iff.rfl
  | .member type name v =>
      have mixes : type.mixes v = true := ready
      rw [sent_member, direct?, direct?, encode, if_pos mixes]
  | .null | .bool _ | .int _ | .decimal _ | .str _ | .bytes _ | .byteArray _ | .undefined
  | .model _ _ | .object _ _ | .unprintable _ => exact sent_prepared _ _ rfl

theorem each_ready_direct (vs : List Value) (ready : AreReady vs) (proper : AreProper vs) :
    vs.mapM sent? = vs.mapM direct? := by
  match vs with
  | [] => rfl
  | v :: rest =>
      rw [List.mapM_cons, List.mapM_cons, ready_direct v ready.1 proper.1,
        each_ready_direct rest ready.2 proper.2]

theorem entries_ready_direct (entries : List (Value × Value)) (ready : EntriesReady entries)
    (proper : EntriesProper entries) : entries.mapM sentEntry? = entries.mapM directEntry? := by
  match entries with
  | [] => rfl
  | (key, v) :: rest =>
      rw [List.mapM_cons, List.mapM_cons, sentEntry?, directEntry?, ready_direct v ready.1 proper.1,
        entries_ready_direct rest ready.2 proper.2]

end

-- A member stands for its value everywhere exactly if nothing in the value has to be prepared, or
-- the value is not sent at all.
theorem member_as_value_iff (v : Value) (proper : v.IsProper) :
    (∀ (type : EnumType) (name : String) (c : Context),
        (c.fill (.member type name v)).sent? = (c.fill v).sent?) ↔
      v.IsReady ∨ v.sent? = none := by
  constructor
  · intro agree
    have alone : v.direct? = v.sent? :=
      (sent_member ⟨"", false⟩ "" v).symm.trans (agree ⟨"", false⟩ "" .hole)
    cases sends : v.sent? with
    | none => exact .inr rfl
    | some w =>
        rw [sends, direct?] at alone
        cases made : encode v with
        | error e => simp [made, Except.toOption] at alone
        | ok w' => exact .inl (encode_ready v w' made)
  · intro fine type name c
    refine sent_fill c _ _ ((sent_member type name v).trans ?_)
    rcases fine with ready | unsent
    · exact (ready_direct v ready proper).symm
    · cases made : encode v with
      | error e => rw [unsent, direct?, made]; rfl
      | ok w => exact (ready_direct v (encode_ready v w made) proper).symm

theorem shades_as_value :
    let shades : Value :=
      .tuple [.str "red", .map [(.str "rgb", .set [.int 1, .decimal (.finite false 5 (-1))])],
        .member ⟨"Scale", true⟩ "BYTE" (.tuple [.int 0, .int 255])]
    let c : Context := .map [(.str "id", .int 7)] (.str "shades") (.list [.null] .hole []) []
    let color : EnumType := ⟨"Color", false⟩
    shades.IsProper ∧ (c.fill (.member color "RED" shades)).sent? = (c.fill shades).sent? := by
  intro shades c color
  have proper : shades.IsProper := by
    have elements : AreElements [.int 1, .decimal (.finite false 5 (-1))] := ⟨by decide, by decide⟩
    exact ⟨trivial, ⟨elements, trivial⟩, trivial, trivial⟩
  refine ⟨proper, (member_as_value_iff shades proper).mpr (.inl ?_) color "RED" c⟩
  simp [shades, Value.IsReady, AreReady, EntriesReady, Value.tuple?, EnumType.mixes,
    Value.isContainer]

theorem member_of_float_unsent :
    let half : Value := .float ⟨0x3FF8000000000000⟩
    let day : Value := .date ⟨2024, 1, 2⟩
    let color : EnumType := ⟨"Color", false⟩
    half.sent? = some (.number "1.5") ∧ (Value.member color "RED" half).sent? = none ∧
      day.sent? = some (.string "2024-01-02") ∧ (Value.member color "RED" day).sent? = none ∧
      ¬ ∀ (v : Value) (type : EnumType) (name : String) (c : Context), v.IsProper →
        (c.fill (.member type name v)).sent? = (c.fill v).sent? := by
  intro half day color
  have sent : half.sent? = some (.number "1.5") := rfl
  have unsent : (Value.member color "RED" half).sent? = none := rfl
  refine ⟨sent, unsent, rfl, rfl, ?_⟩
  intro agree
  have same := agree half color "RED" .hole trivial
  rw [Context.fill, Context.fill, sent, unsent] at same
  cases same

end ItemExpr
