import ItemExpr.Proofs.Number.Range
import ItemExpr.Value.Plain
import Mathlib.Algebra.Order.Field.Rat
import Mathlib.Data.Rat.Cast.Defs
import Mathlib.Tactic.NormNum

set_option autoImplicit false

namespace ItemExpr

-- What a value says. Tuples say what lists say, and numbers are their value and nothing else.
inductive Datum
  | null
  | bool (b : Bool)
  | number (q : ℚ)
  | text (s : String)
  | bytes (bs : List UInt8)
  | list (ds : List Datum)
  | map (entries : List (String × Datum))

def Decimal.rational? : Decimal → Option ℚ
  | .finite negative c e => some ((if negative then -1 else 1) * c * (10 : ℚ) ^ e)
  | _ => none

namespace Value

mutual

def datum? : Value → Option Datum
  | .null => some .null
  | .bool b => some (.bool b)
  | .int n => some (.number n)
  | .decimal d => d.rational?.map .number
  | .str s => some (.text s)
  | .bytes bs => some (.bytes bs)
  | .list vs => (eachDatum? vs).map .list
  | .tuple vs => (eachDatum? vs).map .list
  | .map entries => (entryDatums? entries).map .map
  | _ => none

def eachDatum? : List Value → Option (List Datum)
  | [] => some []
  | v :: rest =>
      match v.datum?, eachDatum? rest with
      | some d, some ds => some (d :: ds)
      | _, _ => none

def entryDatums? : List (Value × Value) → Option (List (String × Datum))
  | [] => some []
  | (.str key, v) :: rest =>
      match v.datum?, entryDatums? rest with
      | some d, some ds => some ((key, d) :: ds)
      | _, _ => none
  | _ => none

end

inductive IsOrdinary : Value → Prop
  | null : IsOrdinary .null
  | bool (b : Bool) : IsOrdinary (.bool b)
  | str (s : String) : IsOrdinary (.str s)
  | bytes (bs : List UInt8) : IsOrdinary (.bytes bs)
  | int (n : Int) (small : n.natAbs < 10 ^ 38) : IsOrdinary (.int n)
  | decimal (negative : Bool) (c : Nat) (e : Int) (digits : Number.digitCount c ≤ 38)
      (least : -128 ≤ Decimal.adjusted c e) (greatest : Decimal.adjusted c e ≤ 126) :
      IsOrdinary (.decimal (.finite negative c e))
  | list (vs : List Value) (each : ∀ v ∈ vs, IsOrdinary v) : IsOrdinary (.list vs)
  | tuple (vs : List Value) (each : ∀ v ∈ vs, IsOrdinary v) : IsOrdinary (.tuple vs)
  | map (entries : List (String × Value)) (each : ∀ entry ∈ entries, IsOrdinary entry.2) :
      IsOrdinary (ofEntries entries)

end Value

namespace Wire

mutual

def decode : Wire → Option Value
  | .null => some .null
  | .bool b => some (.bool b)
  | .number spelling => (Decimal.ofString? spelling).map .decimal
  | .string s => some (.str s)
  | .binary bs => some (.bytes bs)
  | .list ws => (decodeEach ws).map .list
  | .map entries => (decodeEntries entries).map .map
  | _ => none

def decodeEach : List Wire → Option (List Value)
  | [] => some []
  | w :: rest =>
      match w.decode, decodeEach rest with
      | some v, some vs => some (v :: vs)
      | _, _ => none

def decodeEntries : List (Value × Wire) → Option (List (Value × Value))
  | [] => some []
  | (key, w) :: rest =>
      match w.decode, decodeEntries rest with
      | some v, some others => some ((key, v) :: others)
      | _, _ => none

end

end Wire

theorem rational_int (n : Int) : (Decimal.ofInt n).rational? = some (n : ℚ) := by
  have signed : ((if n < 0 then -1 else 1) * (n.natAbs : Int)) = n := by
    split_ifs <;> omega
  have cast := congrArg (fun n : Int => (n : ℚ)) signed
  simp only [Decimal.ofInt, Decimal.rational?, zpow_zero, mul_one, Option.some.injEq]
  rw [← cast]
  push_cast
  split_ifs <;> simp_all

theorem int_holds (n : Int) (small : n.natAbs < 10 ^ 38) : wirePrecision.Holds n.natAbs 0 := by
  have count := (digit_count_le_iff n.natAbs 38 (by decide)).mpr small
  have first : Decimal.adjusted n.natAbs 0 = 0 + Number.digitCount n.natAbs - 1 := rfl
  exact ⟨count, by decide, by simp only [wirePrecision]; omega⟩

theorem decimal_holds (c : Nat) (e : Int) (digits : Number.digitCount c ≤ 38)
    (least : -128 ≤ Decimal.adjusted c e) (greatest : Decimal.adjusted c e ≤ 126) :
    wirePrecision.Holds c e := by
  have first : Decimal.adjusted c e = e + Number.digitCount c - 1 := rfl
  have tiny : wirePrecision.tiny = -165 := rfl
  exact ⟨digits, by omega, greatest⟩

structure Carries (v : Value) (w : Wire) (d : Datum) : Prop where
  sent : ∃ prepared, v.prepare = .ok prepared ∧ encode prepared = .ok w
  said : v.datum? = some d
  read : ∃ u, w.decode = some u ∧ u.datum? = some d

theorem carries_number (v : Value) (negative : Bool) (c : Nat) (e : Int) (q : ℚ)
    (same : v.prepare = .ok v)
    (sent : encode v = (encodeNumber (.finite negative c e)).map .number)
    (said : v.datum? = some (.number q))
    (value : Decimal.rational? (.finite negative c e) = some q)
    (holds : wirePrecision.Holds c e) :
    Carries v (.number (Decimal.text (.finite negative c e))) (.number q) where
  sent := ⟨v, same, by rw [sent, encode_number_holds negative c e holds]; rfl⟩
  said := said
  read := by
    refine ⟨.decimal (.finite negative c e), ?_, ?_⟩
    · rw [Wire.decode, Decimal.text_read, Option.map_some]
    · rw [Value.datum?, value, Option.map_some]

theorem carries_each (vs : List Value) (each : ∀ v ∈ vs, ∃ w d, Carries v w d) :
    ∃ prepared ws us ds, Value.prepareEach vs = .ok prepared ∧ encodeEach prepared = .ok ws ∧
      Value.eachDatum? vs = some ds ∧ Wire.decodeEach ws = some us ∧
        Value.eachDatum? us = some ds := by
  induction vs with
  | nil => exact ⟨[], [], [], [], rfl, rfl, rfl, rfl, rfl⟩
  | cons v rest ih =>
      obtain ⟨w, d, ⟨p, prepare, encode⟩, said, u, decode, read⟩ := each v (by simp)
      obtain ⟨ps, ws, us, ds, prepareRest, encodeRest, saidRest, decodeRest, readRest⟩ :=
        ih fun v present => each v (List.mem_cons_of_mem _ present)
      refine ⟨p :: ps, w :: ws, u :: us, d :: ds, ?_, ?_, ?_, ?_, ?_⟩
      · simp [Value.prepareEach, prepare, prepareRest, Except.map]
      · simp [encodeEach, encode, encodeRest, Except.map]
      · simp [Value.eachDatum?, said, saidRest]
      · simp [Wire.decodeEach, decode, decodeRest]
      · simp [Value.eachDatum?, read, readRest]

theorem carries_sequence (v : Value) (vs : List Value)
    (same : v.prepare = (Value.prepareEach vs).map .list)
    (said : v.datum? = (Value.eachDatum? vs).map .list)
    (each : ∀ v ∈ vs, ∃ w d, Carries v w d) : ∃ w d, Carries v w d := by
  obtain ⟨ps, ws, us, ds, prepare, encoded, saidEach, decode, read⟩ := carries_each vs each
  refine ⟨.list ws, .list ds, ⟨.list ps, ?_, ?_⟩, ?_, .list us, ?_, ?_⟩
  · rw [same, prepare, Except.map]
  · rw [encode, encoded, Except.map]
  · rw [said, saidEach, Option.map_some]
  · rw [Wire.decode, decode, Option.map_some]
  · rw [Value.datum?, read, Option.map_some]

theorem carries_entries (entries : List (String × Value))
    (each : ∀ entry ∈ entries, ∃ w d, Carries entry.2 w d) :
    ∃ prepared ws us ds,
      Value.prepareEntries (entries.map fun (key, v) => (.str key, v)) = .ok prepared ∧
        encodeEntries prepared = .ok ws ∧
        Value.entryDatums? (entries.map fun (key, v) => (.str key, v)) = some ds ∧
        Wire.decodeEntries ws = some us ∧ Value.entryDatums? us = some ds := by
  induction entries with
  | nil => exact ⟨[], [], [], [], rfl, rfl, rfl, rfl, rfl⟩
  | cons entry rest ih =>
      obtain ⟨key, v⟩ := entry
      obtain ⟨w, d, ⟨p, prepare, encode⟩, said, u, decode, read⟩ := each (key, v) (by simp)
      obtain ⟨ps, ws, us, ds, prepareRest, encodeRest, saidRest, decodeRest, readRest⟩ :=
        ih fun entry present => each entry (List.mem_cons_of_mem _ present)
      refine ⟨(.str key, p) :: ps, (.str key, w) :: ws, (.str key, u) :: us, (key, d) :: ds,
        ?_, ?_, ?_, ?_, ?_⟩
      · simp [Value.prepareEntries, prepare, prepareRest, Except.map]
      · simp [encodeEntries, encode, encodeRest, Except.map]
      · simp [Value.entryDatums?, said, saidRest]
      · simp [Wire.decodeEntries, decode, decodeRest]
      · simp [Value.entryDatums?, read, readRest]

theorem ordinary_carries (v : Value) (ordinary : v.IsOrdinary) : ∃ w d, Carries v w d := by
  induction ordinary with
  | null => exact ⟨.null, .null, ⟨_, rfl, rfl⟩, rfl, _, rfl, rfl⟩
  | bool b => exact ⟨.bool b, .bool b, ⟨_, rfl, rfl⟩, rfl, _, rfl, rfl⟩
  | str s => exact ⟨.string s, .text s, ⟨_, rfl, rfl⟩, rfl, _, rfl, rfl⟩
  | bytes bs => exact ⟨.binary bs, .bytes bs, ⟨_, rfl, rfl⟩, rfl, _, rfl, rfl⟩
  | int n small =>
      exact ⟨_, _, carries_number (.int n) _ _ _ n rfl rfl rfl (rational_int n)
        (int_holds n small)⟩
  | decimal negative c e digits least greatest =>
      exact ⟨_, _, carries_number (.decimal (.finite negative c e)) _ _ _ _ rfl rfl rfl rfl
        (decimal_holds c e digits least greatest)⟩
  | list vs _ ih => exact carries_sequence (.list vs) vs rfl rfl ih
  | tuple vs _ ih => exact carries_sequence (.tuple vs) vs rfl rfl ih
  | map entries _ ih =>
      obtain ⟨ps, ws, us, ds, prepare, encoded, said, decode, read⟩ := carries_entries entries ih
      refine ⟨.map ws, .map ds, ⟨.map ps, ?_, ?_⟩, ?_, .map us, ?_, ?_⟩
      · rw [Value.ofEntries, Value.prepare, prepare, Except.map]
      · rw [encode, encoded, Except.map]
      · rw [Value.ofEntries, Value.datum?, said, Option.map_some]
      · rw [Wire.decode, decode, Option.map_some]
      · rw [Value.datum?, read, Option.map_some]

theorem serialize_ok (v p : Value) (w : Wire) (prepared : v.prepare = .ok p)
    (encoded : encode p = .ok w) : serialize v = .ok w := by
  rw [serialize, prepared]
  simp only [encoded]

theorem carries_serialize (v : Value) (w : Wire) (d : Datum) (carries : Carries v w d) :
    serialize v = .ok w := by
  obtain ⟨⟨p, prepared, encoded⟩, _, _⟩ := carries
  exact serialize_ok v p w prepared encoded

theorem ordinary_bool (v : Value) (b : Bool) (ordinary : v.IsOrdinary)
    (said : v.datum? = some (.bool b)) : v = .bool b := by
  cases ordinary with
  | bool b' =>
      rw [Value.datum?, Option.some.injEq, Datum.bool.injEq] at said
      rw [said]
  | _ => simp_all [Value.datum?, Value.ofEntries, Decimal.rational?]

theorem ordinary_round_trip (v : Value) (ordinary : v.IsOrdinary) :
    ∃ w u d, serialize v = .ok w ∧ w.decode = some u ∧ u.datum? = some d ∧ v.datum? = some d ∧
      ∀ v', v'.IsOrdinary → serialize v' = .ok w →
        v'.datum? = some d ∧ ∀ b, v = .bool b ↔ v' = .bool b := by
  obtain ⟨w, d, carries⟩ := ordinary_carries v ordinary
  obtain ⟨u, decode, read⟩ := carries.read
  refine ⟨w, u, d, carries_serialize v w d carries, decode, read, carries.said, ?_⟩
  intro v' ordinary' sent'
  obtain ⟨w', d', carries'⟩ := ordinary_carries v' ordinary'
  obtain rfl : w' = w := by
    have sent := carries_serialize v' w' d' carries'
    rw [sent', Except.ok.injEq] at sent
    exact sent.symm
  obtain ⟨u', decode', read'⟩ := carries'.read
  obtain rfl : u' = u := by rwa [decode', Option.some.injEq] at decode
  obtain rfl : d' = d := by rwa [read', Option.some.injEq] at read
  refine ⟨carries'.said, fun b => ⟨?_, ?_⟩⟩
  · rintro rfl
    exact ordinary_bool v' b ordinary' (carries'.said.trans carries.said.symm)
  · rintro rfl
    exact ordinary_bool v b ordinary (carries.said.trans carries'.said.symm)

theorem receipt_round_trip :
    let receipt := Value.ofEntries [("paid", .bool true),
      ("lines", .tuple [.int (10 ^ 38 - 1), .decimal (.finite true 150 (-2)), .null])]
    receipt.IsOrdinary ∧
      ∃ w u d, serialize receipt = .ok w ∧ w.decode = some u ∧ u.datum? = some d ∧
        receipt.datum? = some d ∧
          ∀ v', v'.IsOrdinary → serialize v' = .ok w →
            v'.datum? = some d ∧ ∀ b, receipt = .bool b ↔ v' = .bool b := by
  intro receipt
  have lines : ∀ v ∈ [Value.int (10 ^ 38 - 1), .decimal (.finite true 150 (-2)), .null],
      v.IsOrdinary := by
    simp only [List.forall_mem_cons]
    exact ⟨.int _ (by decide), .decimal _ _ _ (by decide) (by decide) (by decide), .null, by simp⟩
  have ordinary : receipt.IsOrdinary := by
    refine .map _ ?_
    simp only [List.forall_mem_cons]
    exact ⟨.bool true, .tuple _ lines, by simp⟩
  exact ⟨ordinary, ordinary_round_trip receipt ordinary⟩

end ItemExpr
