import ItemExpr.Proofs.Number.Range
import ItemExpr.Proofs.Wire.Preparing

set_option autoImplicit false

namespace ItemExpr

inductive Risk
  | number (d : Decimal)
  | float
  | other (v : Value)

namespace Risk

def error? : Risk → Option EncodeError
  | .number d => failure? (encodeNumber d)
  | .float => some (.wire .binaryFloat)
  | .other v => some (unsupported v)

def IsSent : Risk → Prop
  | .number (.finite _ c e) => wirePrecision.Holds c e
  | .number (.infinite negative) => negative = true
  | .number (.nan negative signaling payload) =>
      Number.digitCount payload ≤ 38 ∧ (negative = true ∨ signaling = true ∨ payload ≠ 0)
  | .float => False
  | .other _ => False

-- A finite number is sent or it is out of range, which is no refusal.
def IsRefused : Risk → Prop
  | .number (.finite _ _ _) => False
  | .number (.infinite negative) => negative = false
  | .number (.nan negative signaling payload) =>
      38 < Number.digitCount payload ∨ (negative = false ∧ signaling = false ∧ payload = 0)
  | .float => True
  | .other v => v.display.isSome = true

end Risk

theorem nan_plain_iff (negative signaling : Bool) (payload : Nat) :
    (Decimal.text (.nan negative signaling payload) = "Infinity" ∨
      Decimal.text (.nan negative signaling payload) = "NaN") ↔
      ¬ (negative = true ∨ signaling = true ∨ payload ≠ 0) := by
  have some := Nat.toDigits_ne_nil (n := payload) (b := 10)
  by_cases zero : payload = 0 <;> cases negative <;> cases signaling <;>
    simp [Decimal.text, Number.signText, String.ext_iff, zero, some]

theorem encode_number_nan (negative signaling : Bool) (payload : Nat) :
    failure? (encodeNumber (.nan negative signaling payload)) =
      if Number.digitCount payload ≤ 38 ∧ (negative = true ∨ signaling = true ∨ payload ≠ 0)
      then none else some (.wire .notFinite) := by
  by_cases long : Number.digitCount payload ≤ 38
  · have kept : wirePrecision.fit (.nan negative signaling payload) =
        .ok (.nan negative signaling payload) := by
      rw [Precision.fit, if_neg]
      rintro ⟨-, more⟩
      exact absurd long (Nat.not_le.mpr more)
    simp only [encodeNumber, kept, nan_plain_iff, long, true_and]
    split_ifs <;> rfl
  · have dropped : wirePrecision.fit (.nan negative signaling payload) =
        .ok (.nan false false 0) := by
      rw [Precision.fit, if_pos]
      refine ⟨?_, Nat.not_le.mp long⟩
      rintro rfl
      exact long (by decide)
    simp only [encodeNumber, dropped, nan_plain_iff, long, false_and]
    rfl

theorem encode_number_infinite (negative : Bool) :
    failure? (encodeNumber (.infinite negative)) =
      if negative = true then none else some (.wire .notFinite) := by
  cases negative <;> rfl

theorem encode_number_beyond (negative : Bool) (c : Nat) (e : Int)
    (beyond : ¬ wirePrecision.Holds c e) :
    ∃ raised, failure? (encodeNumber (.finite negative c e)) = some (.signals raised) := by
  obtain ⟨first, rest, raises⟩ :=
    Precision.fit_raises wirePrecision negative c e (by decide) beyond
  exact ⟨first :: rest, by rw [encodeNumber, raises]; rfl⟩

theorem risk_sent_iff (risk : Risk) : risk.error? = none ↔ risk.IsSent := by
  cases risk with
  | number d =>
      cases d with
      | finite negative c e =>
          by_cases holds : wirePrecision.Holds c e
          · refine iff_of_true ?_ holds
            rw [Risk.error?, encode_number_holds negative c e holds]
            rfl
          · refine iff_of_false ?_ holds
            obtain ⟨raised, fails⟩ := encode_number_beyond negative c e holds
            simp [Risk.error?, fails]
      | infinite negative => simp [Risk.error?, Risk.IsSent, encode_number_infinite]
      | nan negative signaling payload =>
          rw [Risk.error?, encode_number_nan, Risk.IsSent]
          split_ifs with sent
          · exact iff_of_true rfl sent
          · exact iff_of_false (by simp) sent
  | float => simp [Risk.error?, Risk.IsSent]
  | other v => simp [Risk.error?, Risk.IsSent]

theorem risk_refused_iff (risk : Risk) :
    (∃ e, risk.error? = some (.wire e)) ↔ risk.IsRefused := by
  cases risk with
  | number d =>
      cases d with
      | finite negative c e =>
          refine iff_of_false ?_ id
          rintro ⟨refusal, fails⟩
          by_cases holds : wirePrecision.Holds c e
          · rw [(risk_sent_iff (.number (.finite negative c e))).mpr holds] at fails
            cases fails
          · obtain ⟨raised, raises⟩ := encode_number_beyond negative c e holds
            rw [Risk.error?, raises] at fails
            cases fails
      | infinite negative =>
          rw [Risk.IsRefused, Risk.error?, encode_number_infinite]
          cases negative <;> simp
      | nan negative signaling payload =>
          rw [Risk.IsRefused, Risk.error?, encode_number_nan]
          split_ifs with sent
          · refine iff_of_false (by simp) ?_
            rintro (long | ⟨rfl, rfl, rfl⟩)
            · exact absurd sent.1 (Nat.not_le.mpr long)
            · simp at sent
          · refine iff_of_true ⟨_, rfl⟩ ?_
            by_cases long : Number.digitCount payload ≤ 38
            · exact .inr (by simpa [long] using sent)
            · exact .inl (Nat.not_le.mp long)
  | float => simp [Risk.error?, Risk.IsRefused]
  | other v => cases shown : v.display <;> simp [Risk.error?, Risk.IsRefused, unsupported, shown]

namespace Value

def isNumber : Value → Bool
  | .bool _ => true
  | .int _ => true
  | .decimal _ => true
  | _ => false

def setRisks (whole : Value) (vs : List Value) : List Risk :=
  match vs.find? (fun v => !v.isNumber) with
  | none => (vs.filterMap number?).map .number
  | some (.float _) => [.float]
  | some _ =>
      if vs.all (fun v => (stringOf? v).isSome) || vs.all (fun v => (binaryOf? v).isSome) then []
      else [.other whole]

mutual

def risks : Value → List Risk
  | .null => []
  | .bool _ => []
  | .int n => [.number (.ofInt n)]
  | .decimal d => [.number d]
  | .float _ => [.float]
  | .str _ => []
  | .bytes _ => []
  | .byteArray _ => []
  | .set vs => setRisks (.set vs) vs
  | .frozenSet vs => setRisks (.frozenSet vs) vs
  | .map entries => risksEntries entries
  | .list vs => risksEach vs
  | .tuple vs => risksEach vs
  | .member type name v => if type.mixes v then v.risks else [.other (.member type name v)]
  | v => [.other v]

def risksEach : List Value → List Risk
  | [] => []
  | v :: rest => v.risks ++ risksEach rest

def risksEntries : List (Value × Value) → List Risk
  | [] => []
  | (_, v) :: rest => v.risks ++ risksEntries rest

end

end Value

theorem all_numbers_find (vs : List Value) :
    allNumbers vs = match vs.find? (fun v => !v.isNumber) with
      | none => .ok true
      | some (.float _) => .error (.wire .binaryFloat)
      | some _ => .ok false := by
  induction vs with
  | nil => rfl
  | cons v rest ih =>
      cases v <;> simp [allNumbers, Value.isNumber, Value.number?, ih]

theorem encode_numbers_failure (vs : List Value) (numbers : ∀ v ∈ vs, v.isNumber = true) :
    failure? (encodeNumbers vs) =
      (vs.filterMap Value.number?).findSome? (Risk.error? ∘ .number) := by
  induction vs with
  | nil => rfl
  | cons v rest ih =>
      rw [List.forall_mem_cons] at numbers
      have known : ∃ d, v.number? = some d := by
        cases v <;> simp_all [Value.isNumber, Value.number?]
      obtain ⟨d, known⟩ := known
      rw [encodeNumbers, List.filterMap_cons_some known, List.findSome?_cons, ← ih numbers.2,
        known, Option.getD_some, Function.comp_apply, Risk.error?]
      cases encodeNumber d with
      | error e => rfl
      | ok text => exact failure_map _ _

theorem mapM_some {A B : Type} (f : A → Option B) (l : List A) :
    (l.mapM f).isSome = l.all fun a => (f a).isSome := by
  induction l with
  | nil => rfl
  | cons a rest ih =>
      rw [List.mapM_cons, List.all_cons, ← ih]
      cases f a <;> cases rest.mapM f <;> rfl

theorem encode_set_failure (whole : Value) (vs : List Value) :
    failure? (encodeSet whole vs) = (Value.setRisks whole vs).findSome? Risk.error? := by
  rw [encodeSet, Value.setRisks, all_numbers_find]
  cases other : vs.find? fun v => !v.isNumber with
  | none =>
      have numbers : ∀ v ∈ vs, v.isNumber = true := by simpa using List.find?_eq_none.mp other
      simp only [failure_map, encode_numbers_failure vs numbers, List.findSome?_map]
  | some v =>
      cases v with
      | float x => rfl
      | _ =>
          dsimp only
          rw [← mapM_some, ← mapM_some]
          cases vs.mapM stringOf? <;> cases vs.mapM binaryOf? <;> rfl

mutual

theorem encode_failure (v : Value) : failure? (encode v) = v.risks.findSome? Risk.error? := by
  match v with
  | .null | .bool _ | .str _ | .bytes _ | .byteArray _ => rfl
  | .int n =>
      rw [encode, failure_map, Value.risks, List.findSome?_singleton]
      rfl
  | .decimal d =>
      rw [encode, failure_map, Value.risks, List.findSome?_singleton]
      rfl
  | .set vs => rw [encode, Value.risks, encode_set_failure]
  | .frozenSet vs => rw [encode, Value.risks, encode_set_failure]
  | .map entries => rw [encode, failure_map, Value.risks, encode_entries_failure]
  | .list vs => rw [encode, failure_map, Value.risks, encode_each_failure]
  | .tuple vs => rw [encode, failure_map, Value.risks, encode_each_failure]
  | .member type name v =>
      rw [encode, Value.risks]
      split_ifs
      · exact encode_failure v
      · rfl
  | .float _ | .dateTime _ | .date _ | .uuid _ | .undefined | .model _ _ | .object _ _
  | .unprintable _ => rfl

theorem encode_each_failure (vs : List Value) :
    failure? (encodeEach vs) = (Value.risksEach vs).findSome? Risk.error? := by
  match vs with
  | [] => rfl
  | v :: rest =>
      rw [encodeEach, Value.risksEach, List.findSome?_append, ← encode_failure v,
        ← encode_each_failure rest]
      cases encode v with
      | error e => rfl
      | ok w => exact failure_map _ _

theorem encode_entries_failure (entries : List (Value × Value)) :
    failure? (encodeEntries entries) = (Value.risksEntries entries).findSome? Risk.error? := by
  match entries with
  | [] => rfl
  | (k, v) :: rest =>
      rw [encodeEntries, Value.risksEntries, List.findSome?_append, ← encode_failure v,
        ← encode_entries_failure rest]
      cases encode v with
      | error e => rfl
      | ok w => exact failure_map _ _

end

-- Everything goes well or the value is refused: no set loses an element, and the first risk that
-- is not sent is refused, in which case the value can be shown.
structure Value.IsReportable (v : Value) : Prop where
  sets : v.KeepsSets
  risks : ∀ prepared, v.prepare = .ok prepared → ∀ earlier risk later,
    prepared.risks = earlier ++ risk :: later → (∀ r ∈ earlier, r.IsSent) →
      risk.IsSent ∨ (risk.IsRefused ∧ v.display.isSome = true)

theorem first_failure_iff (risks : List Risk) (shown : Bool) :
    (∀ e, risks.findSome? Risk.error? = some e → (∃ cause, e = .wire cause) ∧ shown = true) ↔
      ∀ earlier risk later, risks = earlier ++ risk :: later → (∀ r ∈ earlier, r.IsSent) →
        risk.IsSent ∨ (risk.IsRefused ∧ shown = true) := by
  simp only [List.findSome?_eq_some_iff, risk_sent_iff]
  constructor
  · intro reported earlier risk later split sent
    cases fails : risk.error? with
    | none => exact .inl ((risk_sent_iff risk).mp fails)
    | some e =>
        obtain ⟨⟨cause, rfl⟩, shows⟩ := reported e ⟨earlier, risk, later, split, fails, sent⟩
        exact .inr ⟨(risk_refused_iff risk).mp ⟨cause, fails⟩, shows⟩
  · rintro reported e ⟨earlier, risk, later, split, fails, sent⟩
    obtain goes | ⟨refused, shows⟩ := reported earlier risk later split sent
    · rw [(risk_sent_iff risk).mpr goes] at fails
      cases fails
    · obtain ⟨cause, known⟩ := (risk_refused_iff risk).mpr refused
      rw [known, Option.some.injEq] at fails
      exact ⟨⟨cause, fails.symm⟩, shows⟩

def Value.IsReported (v : Value) : Prop :=
  (∃ w, serialize v = .ok w) ∨
    ∃ prepared shown cause, v.prepare = .ok prepared ∧ encode prepared = .error (.wire cause) ∧
      v.display = some shown ∧ serialize v = .error (.refused shown cause)

theorem serialize_reported_iff (v : Value) : v.IsReported ↔ v.IsReportable := by
  rw [Value.IsReported]
  cases prepare : v.prepare with
  | error e =>
      refine iff_of_false ?_ ?_
      · rintro (⟨w, sent⟩ | ⟨p, _, _, made, _⟩)
        · simp [serialize, prepare] at sent
        · cases made
      · intro reported
        have fine := (Value.prepare_fine_iff v).mpr reported.sets
        rw [prepare] at fine
        cases fine
  | ok p =>
      have sets : v.KeepsSets := (Value.prepare_fine_iff v).mp (by rw [prepare]; rfl)
      have first : v.IsReportable ↔ ∀ e, failure? (encode p) = some e →
          (∃ cause, e = .wire cause) ∧ v.display.isSome = true := by
        rw [encode_failure, first_failure_iff]
        constructor
        · exact fun reported => reported.risks p prepare
        · intro reported
          refine ⟨sets, fun p' made => ?_⟩
          rw [prepare, Except.ok.injEq] at made
          rwa [← made]
      rw [first]
      cases made : encode p with
      | ok w => simp [serialize, prepare, made, failure?]
      | error e =>
          cases shown : v.display <;> cases e <;> simp [serialize, prepare, made, failure?, shown]

theorem serialize_refused (v : Value) (shown : String) (cause : WireError)
    (refused : serialize v = .error (.refused shown cause)) :
    ∃ prepared, v.prepare = .ok prepared ∧ encode prepared = .error (.wire cause) ∧
      v.display = some shown := by
  rw [serialize] at refused
  cases prepare : v.prepare with
  | error e => simp [prepare] at refused
  | ok p =>
      refine ⟨p, rfl, ?_⟩
      cases made : encode p with
      | ok w => simp [prepare, made] at refused
      | error e => cases shows : v.display <;> cases e <;> simp_all

theorem serialize_unlabelled (v : Value) (label form shown : String) (cause : WireError) :
    serialize v ≠ .error (.refusedAt label form shown cause) := by
  intro labelled
  rw [serialize] at labelled
  cases prepare : v.prepare with
  | error e => simp [prepare] at labelled
  | ok p =>
      cases made : encode p with
      | ok w => simp [prepare, made] at labelled
      | error e => cases shows : v.display <;> cases e <;> simp_all

def failureAt? (label : String) (v : Value) : Option SerializationError :=
  match failure? (serialize v) with
  | some (.refused shown cause) =>
      match v.text with
      | some form => some (.refusedAt label form shown cause)
      | none => some .unshown
  | other => other

theorem failure_at_none_iff (label : String) (v : Value) :
    failureAt? label v = none ↔ ∃ w, serialize v = .ok w := by
  rw [failureAt?]
  cases serialize v with
  | ok w => simp [failure?]
  | error e => cases e <;> cases v.text <;> simp [failure?]

theorem serialize_all_failure {K : Type} (name : K → String) (entries : List (K × Value)) :
    failure? (serializeAll name entries) =
      entries.findSome? fun entry => failureAt? (name entry.1) entry.2 := by
  induction entries with
  | nil => rfl
  | cons entry rest ih =>
      obtain ⟨key, v⟩ := entry
      rw [serializeAll, List.findSome?_cons, ← ih, failureAt?]
      cases serialize v with
      | ok w => exact failure_map _ _
      | error e => cases e <;> cases v.text <;> rfl

theorem failure_at_refused (label : String) (v : Value) (label' form shown : String)
    (cause : WireError) (fails : failureAt? label v = some (.refusedAt label' form shown cause)) :
    serialize v = .error (.refused shown cause) ∧ v.text = some form := by
  have unlabelled := serialize_unlabelled v label' form shown cause
  rw [failureAt?] at fails
  cases made : serialize v with
  | ok w => simp [made, failure?] at fails
  | error e => cases shows : v.text <;> cases e <;> simp_all [failure?]

def AllReported {K : Type} (name : K → String) (entries : List (K × Value)) : Prop :=
  (∃ wires, serializeAll name entries = .ok wires) ∨
    ∃ earlier key v later form shown cause, entries = earlier ++ (key, v) :: later ∧
      (∀ entry ∈ earlier, ∃ w, serialize entry.2 = .ok w) ∧
      serialize v = .error (.refused shown cause) ∧ v.text = some form ∧
      serializeAll name entries = .error (.refusedAt (name key) form shown cause)

def AllReportable {K : Type} (entries : List (K × Value)) : Prop :=
  ∀ earlier key v later, entries = earlier ++ (key, v) :: later →
    (∀ entry ∈ earlier, ∃ w, serialize entry.2 = .ok w) →
      v.IsReportable ∧ ((∃ w, serialize v = .ok w) ∨ v.text.isSome = true)

theorem serialize_all_reported_iff {K : Type} (name : K → String) (entries : List (K × Value)) :
    AllReported name entries ↔ AllReportable entries := by
  rw [AllReported, AllReportable]
  have whole := serialize_all_failure name entries
  have at_first (earlier : List (K × Value)) (key : K) (v : Value) (later : List (K × Value))
      (e : SerializationError) (split : entries = earlier ++ (key, v) :: later)
      (sent : ∀ entry ∈ earlier, ∃ w, serialize entry.2 = .ok w)
      (fails : failureAt? (name key) v = some e) : serializeAll name entries = .error e := by
    rw [← failure_some_iff, whole, List.findSome?_eq_some_iff]
    exact ⟨earlier, (key, v), later, split, fails,
      fun entry present => (failure_at_none_iff _ _).mpr (sent entry present)⟩
  constructor
  · intro reported earlier key v later split sent
    cases fails : failureAt? (name key) v with
    | none =>
        have made := (failure_at_none_iff _ _).mp fails
        exact ⟨(serialize_reported_iff v).mp (.inl made), .inl made⟩
    | some e =>
        have first := at_first earlier key v later e split sent fails
        obtain ⟨wires, made⟩ | ⟨_, _, _, _, form, shown, cause, _, _, _, _, made⟩ := reported
        · rw [first] at made
          cases made
        · rw [first, Except.error.injEq] at made
          rw [made] at fails
          obtain ⟨refused, shows⟩ := failure_at_refused _ _ _ _ _ _ fails
          obtain ⟨p, prepare, encoded, display⟩ := serialize_refused v shown cause refused
          refine ⟨(serialize_reported_iff v).mp (.inr ⟨p, shown, cause, prepare, encoded, display,
            refused⟩), .inr ?_⟩
          rw [shows]
          rfl
  · intro reported
    cases fails : failure? (serializeAll name entries) with
    | none => exact .inl ((failure_none_iff _).mp fails)
    | some e =>
        have found := fails
        rw [whole, List.findSome?_eq_some_iff] at found
        obtain ⟨earlier, ⟨key, v⟩, later, split, own, before⟩ := found
        have sent : ∀ entry ∈ earlier, ∃ w, serialize entry.2 = .ok w :=
          fun entry present => (failure_at_none_iff _ _).mp (before entry present)
        obtain ⟨reports, sends⟩ := reported earlier key v later split sent
        have unsent : ¬ ∃ w, serialize v = .ok w := by
          rw [← failure_at_none_iff (name key), own]
          simp
        obtain made | ⟨_, shown, cause, _, _, _, refused⟩ := (serialize_reported_iff v).mpr reports
        · exact absurd made unsent
        · obtain ⟨form, shows⟩ := Option.isSome_iff_exists.mp (sends.resolve_left unsent)
          have labelled : failureAt? (name key) v =
              some (.refusedAt (name key) form shown cause) := by
            rw [failureAt?, refused]
            simp only [failure?, shows]
          exact .inr ⟨earlier, key, v, later, form, shown, cause, split, sent, refused, shows,
            at_first earlier key v later _ split sent labelled⟩

theorem reported_iff_reportable {K : Type} (name : K → String) (v : Value)
    (entries : List (K × Value)) :
    (v.IsReported ↔ v.IsReportable) ∧ (AllReported name entries ↔ AllReportable entries) :=
  ⟨serialize_reported_iff v, serialize_all_reported_iff name entries⟩

theorem long_integer_unreported :
    (serialize (.int 123456789012345678901234567890123456789) =
        .error (.signals [.inexact, .rounded]) ∧
      ¬ (Value.int 123456789012345678901234567890123456789).IsReported) ∧
    (serialize (.set [.tuple [.int 1]]) = .error (.unhashable (.type "list")) ∧
      ¬ (Value.set [.tuple [.int 1]]).IsReported) := by
  have long : serialize (.int 123456789012345678901234567890123456789) =
      .error (.signals [.inexact, .rounded]) := rfl
  have nested : serialize (.set [.tuple [.int 1]]) = .error (.unhashable (.type "list")) := rfl
  refine ⟨⟨long, ?_⟩, nested, ?_⟩
  · simp [Value.IsReported, long]
  · simp [Value.IsReported, nested]

end ItemExpr
