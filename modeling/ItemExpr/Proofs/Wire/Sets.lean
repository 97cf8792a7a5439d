import ItemExpr.Proofs.Number.Equality
import ItemExpr.Proofs.Wire.Refusal

set_option autoImplicit false

namespace ItemExpr

open Number (digitCount)

def Decimal.Fits : Decimal → Prop
  | .finite _ c e =>
      digitCount c ≤ 38 ∧ -128 ≤ Decimal.adjusted c e ∧ Decimal.adjusted c e ≤ 126
  | _ => False

instance : (d : Decimal) → Decidable d.Fits
  | .finite _ c e => inferInstanceAs (Decidable
      (digitCount c ≤ 38 ∧ -128 ≤ Decimal.adjusted c e ∧ Decimal.adjusted c e ≤ 126))
  | .infinite _ | .nan _ _ _ => isFalse id

inductive Kind
  | number
  | text
  | binary
  deriving DecidableEq, Repr

namespace Value

def kind? : Value → Option Kind
  | .int _ | .float _ | .decimal _ => some .number
  | .str _ | .dateTime _ | .date _ | .uuid _ => some .text
  | .bytes _ => some .binary
  | _ => none

inductive IsNumeral : Value → Prop
  | int (n : Int) (fits : (Decimal.ofInt n).Fits) : IsNumeral (.int n)
  | float (x : Binary64) (fits : x.written.Fits) : IsNumeral (.float x)
  | decimal (d : Decimal) (fits : d.Fits) : IsNumeral (.decimal d)

structure IsElement (v : Value) : Prop where
  kind : v.kind?.isSome = true
  hashable : v.unhashable? = none
  written : v.text.isSome = true

def IsSetOf (v : Value) (vs : List Value) : Prop := v = .set vs ∨ v = .frozenSet vs

end Value

def IsMixed (vs : List Value) : Prop := ∃ v ∈ vs, ∃ v' ∈ vs, v.kind? ≠ v'.kind?

structure Payloads (A : Type) where
  Holds : Value → Prop
  payload : Value → A
  single : A → Wire
  Alike : A → A → Prop
  hashable : ∀ p, Holds p → p.unhashable? = none
  encodes : ∀ p, Holds p → encode p = .ok (single (payload p))
  alike_self : ∀ p, Holds p → Alike (payload p) (payload p)
  same_iff : ∀ p q, Holds p → Holds q → (p.same q = true ↔ Alike (payload p) (payload q))

structure Gathers {A : Type} (single : A → Wire) (alike : A → A → Prop) (vs : List Value)
    (payloads : List A) : Prop where
  distinct : payloads.Pairwise fun a b => ¬ alike a b
  taken : ∀ a ∈ payloads, ∃ v ∈ vs, serialize v = .ok (single a)
  kept : ∀ v ∈ vs, ∃ a, serialize v = .ok (single a) ∧ ∃ b ∈ payloads, alike b a

def spelledNumber? (s : String) : Option ℚ := (Decimal.ofString? s).bind Decimal.rational?

def SameNumber (s s' : String) : Prop :=
  ∃ q, spelledNumber? s = some q ∧ spelledNumber? s' = some q

-- What stays when the elements `ps` are added to those that are known: no two that are the same,
-- and one for each that was added.
structure Retains (known ps qs : List Value) : Prop where
  starts : known ⊆ qs
  source : ∀ q ∈ qs, q ∈ known ∨ q ∈ ps
  apart : qs.Pairwise fun p q => p.same q = false
  all : ∀ p ∈ ps, ∃ q ∈ qs, q = p ∨ q.same p = true

theorem retains_step (known next qs rest : List Value) (p : Value) (grows : known ⊆ next)
    (added : ∀ q ∈ next, q ∈ known ∨ q = p) (stands : ∃ q ∈ next, q = p ∨ q.same p = true)
    (retains : Retains next rest qs) : Retains known (p :: rest) qs := by
  refine ⟨List.Subset.trans grows retains.starts, fun q present => ?_, retains.apart, ?_⟩
  · rcases retains.source q present with earlier | later
    · exact (added q earlier).imp_right fun own => by simp [own]
    · exact .inr (List.mem_cons_of_mem _ later)
  · obtain ⟨q, present, same⟩ := stands
    exact List.forall_mem_cons.mpr ⟨⟨q, retains.starts present, same⟩, retains.all⟩

theorem add_elements_retains (known ps : List Value) (hashable : ∀ p ∈ ps, p.unhashable? = none)
    (distinct : known.Pairwise fun p q => p.same q = false) :
    ∃ qs, Value.addElements known ps = .ok qs ∧ Retains known ps qs := by
  induction ps generalizing known with
  | nil => exact ⟨known, rfl, List.Subset.refl _, fun q => .inl, distinct, by simp⟩
  | cons p rest ih =>
      rw [List.forall_mem_cons] at hashable
      rw [Value.addElements, hashable.1]
      by_cases found : known.any (·.same p) = true
      · obtain ⟨qs, made, retains⟩ := ih known hashable.2 distinct
        obtain ⟨q, present, same⟩ := List.any_eq_true.mp found
        simp only [found, if_true]
        exact ⟨qs, made, retains_step known known qs rest p (List.Subset.refl _) (fun q => .inl)
          ⟨q, present, .inr same⟩ retains⟩
      · have unlike : ∀ q ∈ known, q.same p = false := by simpa using found
        have longer : (known ++ [p]).Pairwise fun p q => p.same q = false :=
          List.pairwise_append.mpr ⟨distinct, List.pairwise_singleton _ _, by simpa using unlike⟩
        obtain ⟨qs, made, retains⟩ := ih (known ++ [p]) hashable.2 longer
        simp only [found]
        exact ⟨qs, made, retains_step known (known ++ [p]) qs rest p (List.subset_append_left _ _)
          (by simp) ⟨p, by simp, .inl rfl⟩ retains⟩

theorem prepare_each_spec (vs : List Value) (Holds : Value → Prop)
    (each : ∀ v ∈ vs, ∃ p, v.prepare = .ok p ∧ Holds p) :
    ∃ ps, Value.prepareEach vs = .ok ps ∧ (∀ p ∈ ps, Holds p ∧ ∃ v ∈ vs, v.prepare = .ok p) ∧
      ∀ v ∈ vs, ∃ p ∈ ps, v.prepare = .ok p := by
  induction vs with
  | nil => exact ⟨[], rfl, by simp, by simp⟩
  | cons v rest ih =>
      rw [List.forall_mem_cons] at each
      obtain ⟨⟨p, prepared, holds⟩, others⟩ := each
      obtain ⟨ps, made, source, all⟩ := ih others
      refine ⟨p :: ps, by simp [Value.prepareEach, prepared, made, Except.map], ?_, ?_⟩
      · refine List.forall_mem_cons.mpr ⟨⟨holds, v, by simp, prepared⟩, fun p present => ?_⟩
        obtain ⟨own, v, inside, origin⟩ := source p present
        exact ⟨own, v, List.mem_cons_of_mem _ inside, origin⟩
      · refine List.forall_mem_cons.mpr ⟨⟨p, by simp, prepared⟩, fun v inside => ?_⟩
        obtain ⟨p, present, origin⟩ := all v inside
        exact ⟨p, List.mem_cons_of_mem _ present, origin⟩

theorem set_prepared (whole : Value) (vs : List Value) (set : whole.IsSetOf vs)
    (Holds : Value → Prop) (hashable : ∀ p, Holds p → p.unhashable? = none)
    (each : ∀ v ∈ vs, ∃ p, v.prepare = .ok p ∧ Holds p) :
    ∃ qs, whole.prepare = .ok (.set qs) ∧ (∀ q ∈ qs, Holds q ∧ ∃ v ∈ vs, v.prepare = .ok q) ∧
      (qs.Pairwise fun p q => p.same q = false) ∧
      ∀ v ∈ vs, ∃ p, v.prepare = .ok p ∧ Holds p ∧ ∃ q ∈ qs, q = p ∨ q.same p = true := by
  obtain ⟨ps, made, source, all⟩ := prepare_each_spec vs Holds each
  obtain ⟨qs, elements, retains⟩ := add_elements_retains [] ps
    (fun p present => hashable p (source p present).1) .nil
  refine ⟨qs, ?_, fun q present => ?_, retains.apart, fun v present => ?_⟩
  · rcases set with rfl | rfl
    · simp [Value.prepare, made, Value.elements, elements, Except.map]
    · simp [Value.prepare, made, Value.elements, elements, Except.map]
  · exact source q ((retains.source q present).resolve_left (by simp))
  · obtain ⟨p, here, origin⟩ := all v present
    exact ⟨p, origin, (source p here).1, retains.all p here⟩

theorem payloads_gathered {A : Type} (kind : Payloads A) (whole : Value) (vs : List Value)
    (set : whole.IsSetOf vs) (filled : vs ≠ [])
    (each : ∀ v ∈ vs, ∃ p, v.prepare = .ok p ∧ kind.Holds p) :
    ∃ qs, whole.prepare = .ok (.set qs) ∧ qs ≠ [] ∧ (∀ q ∈ qs, kind.Holds q) ∧
      Gathers kind.single kind.Alike vs (qs.map kind.payload) := by
  obtain ⟨qs, made, source, apart, all⟩ := set_prepared whole vs set kind.Holds kind.hashable each
  refine ⟨qs, made, ?_, fun q present => (source q present).1, ?_, ?_, ?_⟩
  · obtain ⟨v, rest, rfl⟩ := List.exists_cons_of_ne_nil filled
    obtain ⟨_, _, _, q, present, _⟩ := all v (by simp)
    exact List.ne_nil_of_mem present
  · refine List.pairwise_map.mpr (List.Pairwise.imp_of_mem ?_ apart)
    intro p q here there unlike alike
    have same := (kind.same_iff p q (source p here).1 (source q there).1).mpr alike
    rw [unlike] at same
    cases same
  · intro a present
    obtain ⟨q, here, rfl⟩ := List.mem_map.mp present
    obtain ⟨holds, v, inside, prepared⟩ := source q here
    exact ⟨v, inside, serialize_ok v q _ prepared (kind.encodes q holds)⟩
  · intro v inside
    obtain ⟨p, prepared, holds, q, here, same⟩ := all v inside
    refine ⟨kind.payload p, serialize_ok v p _ prepared (kind.encodes p holds), kind.payload q,
      List.mem_map_of_mem here, ?_⟩
    rcases same with rfl | same
    · exact kind.alike_self q holds
    · exact (kind.same_iff q p (source q here).1 holds).mp same

theorem fits_finite (d : Decimal) (fits : d.Fits) :
    ∃ negative c e, d = .finite negative c e ∧ wirePrecision.Holds c e := by
  cases d with
  | finite negative c e =>
      exact ⟨negative, c, e, rfl, decimal_holds c e fits.1 fits.2.1 fits.2.2⟩
  | infinite | nan => exact fits.elim

theorem fits_encoded (d : Decimal) (fits : d.Fits) : encodeNumber d = .ok d.text := by
  obtain ⟨negative, c, e, rfl, holds⟩ := fits_finite d fits
  exact encode_number_holds negative c e holds

theorem fits_spelled (d : Decimal) (fits : d.Fits) :
    ∃ q, spelledNumber? d.text = some q ∧ d.rational? = some q := by
  obtain ⟨negative, c, e, rfl, -⟩ := fits_finite d fits
  exact ⟨_, by rw [spelledNumber?, Decimal.text_read]; rfl, rfl⟩

theorem fits_same_iff (d d' : Decimal) (fits : d.Fits) (fits' : d'.Fits) :
    d.sameValue d' = true ↔ SameNumber d.text d'.text := by
  obtain ⟨q, spelled, value⟩ := fits_spelled d fits
  obtain ⟨q', spelled', value'⟩ := fits_spelled d' fits'
  obtain ⟨negative, c, e, rfl, -⟩ := fits_finite d fits
  obtain ⟨negative', c', e', rfl, -⟩ := fits_finite d' fits'
  rw [Decimal.same_finite_iff, SameNumber, spelled, spelled', value, value']
  simp [eq_comm]

inductive Value.IsExact : Value → Prop
  | int (n : Int) (fits : (Decimal.ofInt n).Fits) : IsExact (.int n)
  | decimal (d : Decimal) (fits : d.Fits) : IsExact (.decimal d)

theorem exact_number (p : Value) (holds : p.IsExact) : ∃ d, d.Fits ∧ p.number? = some d ∧
    encode p = (encodeNumber d).map .number ∧
      ∀ q d', q.IsExact → q.number? = some d' → p.same q = d.sameValue d' := by
  cases holds with
  | int n fits =>
      refine ⟨_, fits, rfl, rfl, fun q d' other number => ?_⟩
      cases other <;> simp_all [Value.same, Value.number?]
  | decimal d fits =>
      refine ⟨_, fits, rfl, rfl, fun q d' other number => ?_⟩
      cases other <;> simp_all [Value.same, Value.number?]

def spelling (p : Value) : String := (p.number?.getD (.ofInt 0)).text

def numberPayloads : Payloads String where
  Holds := Value.IsExact
  payload := spelling
  single := .number
  Alike := SameNumber
  hashable := by
    rintro p (⟨n, fits⟩ | ⟨d, fits⟩)
    · rfl
    · obtain ⟨negative, c, e, rfl, -⟩ := fits_finite d fits
      rfl
  encodes := by
    intro p holds
    obtain ⟨d, fits, number, encodes, _⟩ := exact_number p holds
    rw [encodes, fits_encoded d fits, spelling, number]
    rfl
  alike_self := by
    intro p holds
    obtain ⟨d, fits, number, _⟩ := exact_number p holds
    obtain ⟨q, spelled, _⟩ := fits_spelled d fits
    rw [spelling, number]
    exact ⟨q, spelled, spelled⟩
  same_iff := by
    intro p q holds holds'
    obtain ⟨d, fits, number, _, same⟩ := exact_number p holds
    obtain ⟨d', fits', number', _⟩ := exact_number q holds'
    rw [same q d' holds' number', fits_same_iff d d' fits fits', spelling, spelling, number,
      number']
    rfl

def textPayloads : Payloads String where
  Holds p := ∃ s, p = .str s
  payload p := (stringOf? p).getD ""
  single := .string
  Alike := Eq
  hashable := by
    rintro p ⟨s, rfl⟩
    rfl
  encodes := by
    rintro p ⟨s, rfl⟩
    rfl
  alike_self _ _ := rfl
  same_iff := by
    rintro p q ⟨s, rfl⟩ ⟨s', rfl⟩
    simp [Value.same, stringOf?]

def binaryPayloads : Payloads (List UInt8) where
  Holds p := ∃ bs, p = .bytes bs
  payload p := (binaryOf? p).getD []
  single := .binary
  Alike := Eq
  hashable := by
    rintro p ⟨bs, rfl⟩
    rfl
  encodes := by
    rintro p ⟨bs, rfl⟩
    rfl
  alike_self _ _ := rfl
  same_iff := by
    rintro p q ⟨bs, rfl⟩ ⟨bs', rfl⟩
    simp [Value.same, binaryOf?]

theorem numeral_prepared (v : Value) (numeral : v.IsNumeral) :
    ∃ p, v.prepare = .ok p ∧ p.IsExact := by
  cases numeral with
  | int n fits => exact ⟨_, rfl, .int n fits⟩
  | float x fits => exact ⟨_, rfl, .decimal _ fits⟩
  | decimal d fits => exact ⟨_, rfl, .decimal d fits⟩

theorem text_prepared (v : Value) (text : v.kind? = some .text) :
    ∃ p, v.prepare = .ok p ∧ ∃ s, p = .str s := by
  cases v <;> simp [Value.kind?] at text <;> exact ⟨_, rfl, _, rfl⟩

theorem binary_prepared (v : Value) (binary : v.kind? = some .binary) :
    ∃ p, v.prepare = .ok p ∧ ∃ bs, p = .bytes bs := by
  cases v <;> simp [Value.kind?] at binary
  exact ⟨_, rfl, _, rfl⟩

theorem all_numbers_exact (qs : List Value) (holds : ∀ q ∈ qs, q.IsExact) :
    allNumbers qs = .ok true := by
  induction qs with
  | nil => rfl
  | cons q rest ih =>
      rw [List.forall_mem_cons] at holds
      cases holds.1 <;> exact ih holds.2

theorem encode_numbers_exact (qs : List Value) (holds : ∀ q ∈ qs, q.IsExact) :
    encodeNumbers qs = .ok (qs.map spelling) := by
  induction qs with
  | nil => rfl
  | cons q rest ih =>
      rw [List.forall_mem_cons] at holds
      obtain ⟨d, fits, number, _⟩ := exact_number q holds.1
      rw [encodeNumbers, ih holds.2, number, Option.getD_some, fits_encoded d fits, List.map_cons,
        spelling, number]
      rfl

theorem encode_numerals (qs : List Value) (holds : ∀ q ∈ qs, q.IsExact) :
    encodeSet (.set qs) qs = .ok (.numberSet (qs.map spelling)) := by
  rw [encodeSet, all_numbers_exact qs holds, encode_numbers_exact qs holds]
  rfl

theorem mapM_payload {A : Type} (f : Value → Option A) (otherwise : A) (qs : List Value)
    (holds : ∀ q ∈ qs, ∃ a, f q = some a) :
    qs.mapM f = some (qs.map fun q => (f q).getD otherwise) := by
  induction qs with
  | nil => rfl
  | cons q rest ih =>
      rw [List.forall_mem_cons] at holds
      obtain ⟨a, first⟩ := holds.1
      rw [List.mapM_cons, ih holds.2, List.map_cons, first]
      rfl

theorem encode_texts (qs : List Value) (filled : qs ≠ []) (holds : ∀ q ∈ qs, ∃ s, q = .str s) :
    encodeSet (.set qs) qs = .ok (.stringSet (qs.map textPayloads.payload)) := by
  have strings := mapM_payload stringOf? "" qs fun q present => by
    obtain ⟨s, rfl⟩ := holds q present
    exact ⟨s, rfl⟩
  have words : allNumbers qs = .ok false := by
    obtain ⟨q, rest, rfl⟩ := List.exists_cons_of_ne_nil filled
    obtain ⟨s, rfl⟩ := holds q (by simp)
    rfl
  rw [encodeSet, words, strings]
  rfl

theorem encode_binaries (qs : List Value) (filled : qs ≠ [])
    (holds : ∀ q ∈ qs, ∃ bs, q = .bytes bs) :
    encodeSet (.set qs) qs = .ok (.binarySet (qs.map binaryPayloads.payload)) := by
  have binaries := mapM_payload binaryOf? [] qs fun q present => by
    obtain ⟨bs, rfl⟩ := holds q present
    exact ⟨bs, rfl⟩
  obtain ⟨q, rest, rfl⟩ := List.exists_cons_of_ne_nil filled
  obtain ⟨bs, rfl⟩ := holds q (by simp)
  have words : allNumbers (.bytes bs :: rest) = .ok false := rfl
  have strings : (Value.bytes bs :: rest).mapM stringOf? = none := rfl
  rw [encodeSet, words, strings, binaries]
  rfl

theorem ten_to_mono (k m : Nat) (le : k ≤ m) : Number.tenTo k ≤ Number.tenTo m :=
  Nat.pow_le_pow_right (by decide) le

theorem numeral_element (v : Value) (numeral : v.IsNumeral) : v.IsElement := by
  cases numeral with
  | int n fits =>
      have short : n.natAbs < Number.tenTo 38 := (digit_count_le_iff _ _ (by decide)).mp fits.1
      have least := ten_to_mono 38 Number.maxDigits (by decide)
      have written : Number.isWritable n = true := decide_eq_true (Nat.lt_of_lt_of_le short least)
      exact ⟨rfl, rfl, by simp [Value.text, written]⟩
  | float x fits => exact ⟨rfl, rfl, rfl⟩
  | decimal d fits =>
      obtain ⟨negative, c, e, rfl, -⟩ := fits_finite d fits
      exact ⟨rfl, rfl, rfl⟩

theorem sendable_element (v : Value)
    (sendable : v.IsNumeral ∨ v.kind? = some .text ∨ v.kind? = some .binary) : v.IsElement := by
  rcases sendable with numeral | text | binary
  · exact numeral_element v numeral
  · cases v <;> simp [Value.kind?] at text <;> exact ⟨rfl, rfl, rfl⟩
  · cases v <;> simp [Value.kind?] at binary
    exact ⟨rfl, rfl, rfl⟩

theorem element_prepared (v : Value) (element : v.IsElement) :
    ∃ p, v.prepare = .ok p ∧ (p.IsElement ∧ ∀ x, p ≠ .float x) ∧ p.kind? = v.kind? := by
  obtain ⟨kind, hashable, written⟩ := element
  cases v <;> simp only [Value.kind?, Option.isSome_none, Bool.false_eq_true] at kind
  case float x => exact ⟨_, rfl, ⟨⟨rfl, Value.written_hashable x, rfl⟩, by simp⟩, rfl⟩
  case dateTime | date | uuid => exact ⟨_, rfl, ⟨⟨rfl, rfl, rfl⟩, by simp⟩, rfl⟩
  all_goals exact ⟨_, rfl, ⟨⟨kind, hashable, written⟩, by simp⟩, rfl⟩

theorem same_kind (v v' : Value) (element : v.kind?.isSome = true)
    (element' : v'.kind?.isSome = true) (same : v.same v' = true) : v.kind? = v'.kind? := by
  cases v <;> simp only [Value.kind?, Option.isSome_none, Bool.false_eq_true] at element <;>
    cases v' <;> first | rfl | cases same | cases element'

theorem number_kind (q : Value) (kind : q.kind?.isSome = true) (number : q.isNumber = true) :
    q.kind? = some .number := by
  cases q <;> simp_all [Value.kind?, Value.isNumber]

theorem string_kind (q : Value) (read : (stringOf? q).isSome = true) : q.kind? = some .text := by
  cases q <;> simp_all [Value.kind?, stringOf?]

theorem binary_kind (q : Value) (kind : q.kind?.isSome = true)
    (read : (binaryOf? q).isSome = true) : q.kind? = some .binary := by
  cases q <;> simp_all [Value.kind?, binaryOf?]

theorem other_kind (qs : List Value) (mixed : IsMixed qs) (kind : Kind) :
    ∃ q ∈ qs, q.kind? ≠ some kind := by
  obtain ⟨q, here, q', there, differ⟩ := mixed
  by_cases own : q.kind? = some kind
  · exact ⟨q', there, fun own' => differ (own.trans own'.symm)⟩
  · exact ⟨q, here, own⟩

theorem mixed_unread {A : Type} (f : Value → Option A) (kind : Kind) (qs : List Value)
    (mixed : IsMixed qs) (read : ∀ q ∈ qs, (f q).isSome = true → q.kind? = some kind) :
    qs.mapM f = none := by
  rw [← Option.not_isSome_iff_eq_none, mapM_some, List.all_eq_true]
  intro all
  obtain ⟨q, here, differ⟩ := other_kind qs mixed kind
  exact differ (read q here (all q here))

theorem mixed_unsupported (whole : Value) (qs : List Value)
    (elements : ∀ q ∈ qs, q.IsElement ∧ ∀ x, q ≠ .float x) (mixed : IsMixed qs) :
    encodeSet whole qs = .error (unsupported whole) := by
  have words : allNumbers qs = .ok false := by
    rw [all_numbers_find]
    cases found : qs.find? fun v => !v.isNumber with
    | none =>
        obtain ⟨q, here, differ⟩ := other_kind qs mixed .number
        have number : q.isNumber = true := by simpa using List.find?_eq_none.mp found q here
        exact absurd (number_kind q (elements q here).1.kind number) differ
    | some q =>
        have plain := (elements q (List.mem_of_find?_eq_some found)).2
        cases q with
        | float x => exact absurd rfl (plain x)
        | _ => rfl
  have strings := mixed_unread stringOf? .text qs mixed fun q _ => string_kind q
  have binaries := mixed_unread binaryOf? .binary qs mixed
    fun q here => binary_kind q (elements q here).1.kind
  rw [encodeSet, words, strings, binaries]

theorem texts_some (vs : List Value) (written : ∀ v ∈ vs, v.text.isSome = true) :
    ∃ forms, Value.texts vs = some forms := by
  induction vs with
  | nil => exact ⟨[], rfl⟩
  | cons v rest ih =>
      rw [List.forall_mem_cons] at written
      obtain ⟨form, first⟩ := Option.isSome_iff_exists.mp written.1
      obtain ⟨forms, others⟩ := ih written.2
      exact ⟨form :: forms, by rw [Value.texts, first, others]⟩

theorem set_displayed (whole : Value) (vs : List Value) (set : whole.IsSetOf vs)
    (written : ∀ v ∈ vs, v.text.isSome = true) : ∃ shown, whole.display = some shown := by
  obtain ⟨forms, texts⟩ := texts_some vs written
  rcases set with rfl | rfl
  · have shown : (Value.set vs).display = (Value.set vs).text := rfl
    rw [shown, Value.text, texts]
    split_ifs <;> exact ⟨_, rfl⟩
  · have shown : (Value.frozenSet vs).display = (Value.frozenSet vs).text := rfl
    rw [shown, Value.text, texts]
    split_ifs <;> exact ⟨_, rfl⟩

theorem set_kinds (whole : Value) (vs : List Value) (set : whole.IsSetOf vs)
    (elements : ∀ v ∈ vs, v.IsElement) :
    ∃ qs, whole.prepare = .ok (.set qs) ∧ (∀ q ∈ qs, q.IsElement ∧ ∀ x, q ≠ .float x) ∧
      ∀ v ∈ vs, ∃ q ∈ qs, q.kind? = v.kind? := by
  obtain ⟨qs, made, source, -, all⟩ := set_prepared whole vs set
    (fun p => p.IsElement ∧ ∀ x, p ≠ .float x) (fun p holds => holds.1.hashable)
    fun v here => by
      obtain ⟨p, prepared, holds, -⟩ := element_prepared v (elements v here)
      exact ⟨p, prepared, holds⟩
  refine ⟨qs, made, fun q inside => (source q inside).1, fun v here => ?_⟩
  obtain ⟨p, prepared, holds, q, inside, same⟩ := all v here
  obtain ⟨p', prepared', -, kind⟩ := element_prepared v (elements v here)
  obtain rfl : p = p' := by rwa [prepared, Except.ok.injEq] at prepared'
  refine ⟨q, inside, ?_⟩
  rcases same with rfl | same
  · exact kind
  · exact (same_kind q p (source q inside).1.1.kind holds.1.kind same).trans kind

theorem mixed_refused (whole : Value) (vs : List Value) (set : whole.IsSetOf vs)
    (elements : ∀ v ∈ vs, v.IsElement) (mixed : IsMixed vs) :
    ∃ shown cause, serialize whole = .error (.refused shown cause) := by
  obtain ⟨qs, made, prepared, kinds⟩ := set_kinds whole vs set elements
  have still : IsMixed qs := by
    obtain ⟨v, here, v', there, differ⟩ := mixed
    obtain ⟨q, inside, kind⟩ := kinds v here
    obtain ⟨q', inside', kind'⟩ := kinds v' there
    exact ⟨q, inside, q', inside', by rwa [kind, kind']⟩
  -- The refusal shows both the set as it was given and the prepared one.
  obtain ⟨shown, shows⟩ := set_displayed whole vs set fun v here => (elements v here).written
  obtain ⟨form, forms⟩ := set_displayed (.set qs) qs (.inl rfl)
    fun q inside => (prepared q inside).1.written
  refine ⟨shown, .unsupported (Value.set qs).typeText form, ?_⟩
  rw [serialize, made]
  simp only [encode, mixed_unsupported _ qs prepared still, unsupported, forms, shows]

theorem sets_gathered (whole : Value) (vs : List Value) (set : whole.IsSetOf vs)
    (filled : vs ≠ []) :
    ((∀ v ∈ vs, v.IsNumeral) → ∃ ss, serialize whole = .ok (.numberSet ss) ∧
      Gathers .number SameNumber vs ss) ∧
    ((∀ v ∈ vs, v.kind? = some .text) → ∃ ss, serialize whole = .ok (.stringSet ss) ∧
      Gathers .string Eq vs ss) ∧
    ((∀ v ∈ vs, v.kind? = some .binary) → ∃ bss, serialize whole = .ok (.binarySet bss) ∧
      Gathers .binary Eq vs bss) ∧
    ((∀ v ∈ vs, v.IsElement) → IsMixed vs →
      ∃ shown cause, serialize whole = .error (.refused shown cause)) := by
  refine ⟨fun numerals => ?_, fun texts => ?_, fun binaries => ?_, mixed_refused whole vs set⟩
  · obtain ⟨qs, made, -, holds, gathers⟩ := payloads_gathered numberPayloads whole vs set filled
      fun v here => numeral_prepared v (numerals v here)
    exact ⟨_, serialize_ok whole _ _ made (encode_numerals qs holds), gathers⟩
  · obtain ⟨qs, made, kept, holds, gathers⟩ := payloads_gathered textPayloads whole vs set filled
      fun v here => text_prepared v (texts v here)
    exact ⟨_, serialize_ok whole _ _ made (encode_texts qs kept holds), gathers⟩
  · obtain ⟨qs, made, kept, holds, gathers⟩ := payloads_gathered binaryPayloads whole vs set filled
      fun v here => binary_prepared v (binaries v here)
    exact ⟨_, serialize_ok whole _ _ made (encode_binaries qs kept holds), gathers⟩

theorem tenths_gathered :
    let tenths : List Value :=
      [.int 1, .float ⟨0x3FB999999999999A⟩, .decimal (.finite false 10 (-2))]
    let days : List Value := [.str "a", .date ⟨2024, 1, 2⟩, .str "2024-01-02"]
    let blobs : List Value := [.bytes [], .bytes [0]]
    (serialize (.set tenths) = .ok (.numberSet ["1", "0.1"]) ∧
      Gathers .number SameNumber tenths ["1", "0.1"]) ∧
    (serialize (.frozenSet days) = .ok (.stringSet ["a", "2024-01-02"]) ∧
      Gathers .string Eq days ["a", "2024-01-02"]) ∧
    (serialize (.set blobs) = .ok (.binarySet [[], [0]]) ∧ Gathers .binary Eq blobs [[], [0]]) ∧
    ∃ shown cause, serialize (.set (tenths ++ days)) = .error (.refused shown cause) := by
  intro tenths days blobs
  have written : (Binary64.mk 0x3FB999999999999A).written = .finite false 1 (-1) := rfl
  have numerals : ∀ v ∈ tenths, v.IsNumeral := by
    simp only [tenths, List.forall_mem_cons]
    exact ⟨.int _ (by decide), .float _ (by rw [written]; decide), .decimal _ (by decide), by simp⟩
  have texts : ∀ v ∈ days, v.kind? = some .text := by simp [days, Value.kind?]
  refine ⟨?_, ?_, ?_, ?_⟩
  · obtain ⟨ss, sent, gathers⟩ := (sets_gathered _ tenths (.inl rfl) (by simp [tenths])).1 numerals
    have known : serialize (.set tenths) = .ok (.numberSet ["1", "0.1"]) := rfl
    obtain rfl : ss = ["1", "0.1"] := by simpa [known] using sent.symm
    exact ⟨known, gathers⟩
  · obtain ⟨ss, sent, gathers⟩ := (sets_gathered _ days (.inr rfl) (by simp [days])).2.1 texts
    have known : serialize (.frozenSet days) = .ok (.stringSet ["a", "2024-01-02"]) := rfl
    obtain rfl : ss = ["a", "2024-01-02"] := by simpa [known] using sent.symm
    exact ⟨known, gathers⟩
  · obtain ⟨bss, sent, gathers⟩ := (sets_gathered _ blobs (.inl rfl) (by simp [blobs])).2.2.1
      (by simp [blobs, Value.kind?])
    have known : serialize (.set blobs) = .ok (.binarySet [[], [0]]) := rfl
    obtain rfl : bss = [[], [0]] := by simpa [known] using sent.symm
    exact ⟨known, gathers⟩
  · refine (sets_gathered _ (tenths ++ days) (.inl rfl) (by simp [tenths])).2.2.2 ?_ ?_
    · intro v here
      rcases List.mem_append.mp here with here | here
      · exact sendable_element v (.inl (numerals v here))
      · exact sendable_element v (.inr (.inl (texts v here)))
    · exact ⟨.int 1, by simp [tenths], .str "a", by simp [days], by decide⟩

end ItemExpr
