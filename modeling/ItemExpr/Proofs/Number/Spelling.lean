import ItemExpr.Number.Precision
import ItemExpr.Proofs.Path
import ItemExpr.Proofs.Table.Coherent

set_option autoImplicit false

namespace ItemExpr

open Number (ofDigits)

theorem digit_bounds (c : Char) (digit : c.isDigit = true) : 48 ≤ c.toNat ∧ c.toNat ≤ 57 := by
  rwa [Char.isDigit_iff_toNat] at digit

theorem digit_lower (c : Char) (digit : c.isDigit = true) : c.toLower = c := by
  have bounds := digit_bounds c digit
  delta Char.toLower
  rw [dif_neg]
  rintro ⟨low, -⟩
  have above : 65 ≤ c.toNat := low
  omega

theorem digits_lower (ds : List Char) (digits : ∀ c ∈ ds, c.isDigit = true) :
    ds.map Char.toLower = ds := by
  conv_rhs => rw [← List.map_id ds]
  exact List.map_congr_left fun c present => digit_lower c (digits c present)

theorem of_digits_numeral (k : Nat) : ofDigits (Nat.toDigits 10 k) = k :=
  Nat.ofDigitChars_ten_toDigits

theorem of_digits_padded (k : Nat) (ds : List Char) :
    ofDigits (List.replicate k '0' ++ ds) = ofDigits ds := by
  have whole := Nat.ofDigitChars_append (b := 10) (l := List.replicate k '0') (m := ds) 0
  rw [Nat.ofDigitChars_replicate_zero, Nat.mul_zero] at whole
  exact whole

namespace Decimal

def IsSpelling (c : Char) : Prop := c.isDigit = true ∨ c ∈ ['.', '-', '+', 'E']

theorem spelling_plain (c : Char) (spelling : IsSpelling c) :
    Unicode.isSpace c = false ∧ c ≠ '_' ∧ Number.plainChar c = c := by
  rcases spelling with digit | mark
  · have bounds := digit_bounds c digit
    refine ⟨?_, ?_, ?_⟩
    · simp [Unicode.isSpace]
      omega
    · rintro rfl
      simp at digit
    · rw [Number.plainChar, if_pos (by omega)]
  · simp only [List.mem_cons, List.not_mem_nil, or_false] at mark
    rcases mark with rfl | rfl | rfl | rfl <;> decide

theorem plain_spelling (s : List Char) (spelling : ∀ c ∈ s, IsSpelling c) :
    plainSpelling s = s.map Char.toLower := by
  have inner (s : List Char) (spelling : ∀ c ∈ s, IsSpelling c) :
      s.dropWhile Unicode.isSpace = s := by
    cases s with
    | nil => rfl
    | cons c rest => simp [(spelling_plain c (spelling c (by simp))).1]
  have kept : s.filter (· ≠ '_') = s := by
    rw [List.filter_eq_self]
    intro c present
    simpa using (spelling_plain c (spelling c present)).2.1
  have same : s.map Number.plainChar = s := by
    conv_rhs => rw [← List.map_id s]
    exact List.map_congr_left fun c present => (spelling_plain c (spelling c present)).2.2
  rw [plainSpelling, inner s spelling, inner s.reverse (by simpa using spelling),
    List.reverse_reverse, kept, same]

theorem read_whole (negative : Bool) (whole tail : List Char)
    (digits : ∀ c ∈ whole, c.isDigit = true) (some : whole ≠ [])
    (ended : tail = [] ∨ ∃ rest, tail = 'e' :: rest) :
    readFinite? negative (whole ++ tail) =
      (readExponent? tail).map fun e => .finite negative (ofDigits whole) e := by
  have stop : ∀ c ∈ tail.head?, c.isDigit = false := by
    rcases ended with rfl | ⟨rest, rfl⟩ <;> simp
  obtain ⟨taken, left⟩ := span_boundary Char.isDigit whole tail digits stop
  rw [readFinite?, taken, left]
  rcases ended with rfl | ⟨rest, rfl⟩
  · simp [some, readExponent?]
  · cases read : readExponent? ('e' :: rest) <;> simp [some, read]

theorem read_fraction (negative : Bool) (whole fraction tail : List Char)
    (digits : ∀ c ∈ whole ++ fraction, c.isDigit = true) (some : whole ≠ [])
    (ended : tail = [] ∨ ∃ rest, tail = 'e' :: rest) :
    readFinite? negative (whole ++ '.' :: (fraction ++ tail)) =
      (readExponent? tail).map fun e =>
        .finite negative (ofDigits (whole ++ fraction)) (e - fraction.length) := by
  have stop : ∀ c ∈ tail.head?, c.isDigit = false := by
    rcases ended with rfl | ⟨rest, rfl⟩ <;> simp
  obtain ⟨taken, left⟩ := span_boundary Char.isDigit whole ('.' :: (fraction ++ tail))
    (fun c present => digits c (List.mem_append_left _ present)) (by simp)
  obtain ⟨behind, rest⟩ := span_boundary Char.isDigit fraction tail
    (fun c present => digits c (List.mem_append_right _ present)) stop
  rw [readFinite?, taken, left]
  cases read : readExponent? tail <;> simp [behind, rest, some, read]

def exponentSpelling (e : Int) : List Char :=
  'e' :: (if e < 0 then '-' else '+') :: Nat.toDigits 10 e.natAbs

theorem read_exponent (e : Int) : readExponent? (exponentSpelling e) = some e := by
  have digits : (Nat.toDigits 10 e.natAbs).all Char.isDigit = true := by
    simpa using numeral_digits e.natAbs
  have some : (Nat.toDigits 10 e.natAbs).isEmpty = false := by simp
  by_cases below : e < 0
  · have value : -(e.natAbs : Int) = e := by omega
    rw [exponentSpelling, if_pos below, readExponent?]
    simp only [Number.takeSign, some, digits, of_digits_numeral, value]
    rfl
  · have value : (e.natAbs : Int) = e := by omega
    rw [exponentSpelling, if_neg below, readExponent?]
    simp only [Number.takeSign, some, digits, of_digits_numeral, value]
    rfl

theorem positional_parts (ds : List Char) (e : Int) (digits : ∀ c ∈ ds, c.isDigit = true) :
    (0 ≤ e ∧ Number.positional ds e = ds ++ List.replicate e.toNat '0') ∨
      ∃ k whole fraction, Number.positional ds e = whole ++ '.' :: fraction ∧
        whole ++ fraction = List.replicate k '0' ++ ds ∧ whole ≠ [] ∧
        (∀ c ∈ whole ++ fraction, c.isDigit = true) ∧ (fraction.length : Int) = -e := by
  by_cases whole : 0 ≤ e
  · left
    rw [Number.positional, if_pos whole]
    exact ⟨whole, rfl⟩
  · right
    rw [Number.positional, if_neg whole]
    extract_lets places padded
    have long : places + 1 ≤ padded.length := by
      simp only [padded, List.length_append, List.length_replicate]
      omega
    refine ⟨places + 1 - ds.length, padded.take (padded.length - places),
      padded.drop (padded.length - places), rfl, List.take_append_drop _ _, ?_, ?_, ?_⟩
    · intro empty
      have none := congrArg List.length empty
      rw [List.length_take, List.length_nil] at none
      omega
    · rw [List.take_append_drop]
      intro c present
      rcases List.mem_append.mp present with zeros | own
      · rw [List.eq_of_mem_replicate zeros]
        rfl
      · exact digits c own
    · rw [List.length_drop]
      omega

theorem read_positional (negative : Bool) (c : Nat) (e : Int) (small : e ≤ 0) :
    readFinite? negative (Number.positional (Nat.toDigits 10 c) e) =
      some (.finite negative c e) := by
  have digits := numeral_digits c
  obtain ⟨whole, shape⟩ | ⟨k, whole, fraction, shape, together, some, numeric, behind⟩ :=
    positional_parts (Nat.toDigits 10 c) e digits
  · have read := read_whole negative (Nat.toDigits 10 c) [] digits Nat.toDigits_ne_nil (.inl rfl)
    obtain rfl : e = 0 := by omega
    simpa [shape, readExponent?, of_digits_numeral] using read
  · have read := read_fraction negative whole fraction [] numeric some (.inl rfl)
    rw [List.append_nil, together, of_digits_padded, of_digits_numeral, behind] at read
    simpa [shape, readExponent?] using read

theorem positional_spelling (ds : List Char) (e : Int) (some : ds ≠ [])
    (digits : ∀ c ∈ ds, c.isDigit = true) :
    (∃ d rest, Number.positional ds e = d :: rest ∧ d.isDigit = true) ∧
      ∀ c ∈ Number.positional ds e, c.isDigit = true ∨ c = '.' := by
  obtain ⟨_, shape⟩ | ⟨k, whole, fraction, shape, _, front, numeric, _⟩ :=
    positional_parts ds e digits
  · obtain ⟨d, rest, rfl⟩ := List.exists_cons_of_ne_nil some
    refine ⟨⟨d, _, by rw [shape, List.cons_append], digits d (by simp)⟩, ?_⟩
    intro c present
    rw [shape] at present
    rcases List.mem_append.mp present with own | zeros
    · exact .inl (digits c own)
    · rw [List.eq_of_mem_replicate zeros]
      exact .inl rfl
  · obtain ⟨d, rest, rfl⟩ := List.exists_cons_of_ne_nil front
    refine ⟨⟨d, _, by rw [shape, List.cons_append], numeric d (by simp)⟩, ?_⟩
    intro c present
    rw [shape] at present
    rcases List.mem_append.mp present with before | after
    · exact .inl (numeric c (List.mem_append_left _ before))
    · rcases List.mem_cons.mp after with point | behind
      · exact .inr point
      · exact .inl (numeric c (List.mem_append_right _ behind))

theorem scientific_parts (d : Char) (fraction : List Char) (e : Int) :
    Number.scientific 'E' 1 (d :: fraction) e =
      (if fraction = [] then [d] else d :: '.' :: fraction) ++
        'E' :: (if e + fraction.length < 0 then '-' else '+') ::
          Nat.toDigits 10 (e + fraction.length).natAbs := by
  have first : Number.adjusted (d :: fraction) e = e + fraction.length := by
    rw [Number.adjusted, List.length_cons]
    push_cast
    omega
  have filled : 1 - (Nat.toDigits 10 (e + fraction.length).natAbs).length = 0 := by
    have some := Nat.length_toDigits_pos (n := (e + fraction.length).natAbs) (b := 10)
    omega
  cases fraction with
  | nil =>
      simp only [Number.scientific, first, filled]
      rfl
  | cons next rest =>
      simp only [Number.scientific, first, filled]
      simp

theorem scientific_lower (d : Char) (fraction : List Char) (e : Int)
    (digits : ∀ c ∈ d :: fraction, c.isDigit = true) :
    (Number.scientific 'E' 1 (d :: fraction) e).map Char.toLower =
      (if fraction = [] then [d] else d :: '.' :: fraction) ++
        exponentSpelling (e + fraction.length) := by
  have sign (below : Prop) [Decidable below] :
      (if below then '-' else '+').toLower = if below then '-' else '+' := by
    split_ifs <;> rfl
  have exponent := digits_lower _ (numeral_digits (e + fraction.length).natAbs)
  have significand : (if fraction = [] then [d] else d :: '.' :: fraction).map Char.toLower =
      if fraction = [] then [d] else d :: '.' :: fraction := by
    have own := digits_lower (d :: fraction) digits
    rw [List.map_cons, List.cons.injEq] at own
    split_ifs
    · rw [List.map_singleton, own.1]
    · rw [List.map_cons, List.map_cons, own.1, own.2]
      rfl
  rw [scientific_parts, List.map_append, significand, List.map_cons, List.map_cons, sign, exponent]
  rfl

theorem read_scientific (negative : Bool) (c : Nat) (e : Int) :
    readFinite? negative ((Number.scientific 'E' 1 (Nat.toDigits 10 c) e).map Char.toLower) =
      some (.finite negative c e) := by
  obtain ⟨d, fraction, shape⟩ := List.exists_cons_of_ne_nil (Nat.toDigits_ne_nil (n := c) (b := 10))
  have digits := numeral_digits c
  have value := of_digits_numeral c
  have exponent := read_exponent (e + fraction.length)
  have ended : ∃ rest, exponentSpelling (e + fraction.length) = 'e' :: rest := ⟨_, rfl⟩
  rw [shape] at digits value ⊢
  rw [scientific_lower d fraction e digits]
  cases fraction with
  | nil =>
      rw [if_pos rfl, read_whole negative [d] _ digits (by simp) (.inr ended), exponent]
      simp [value]
  | cons next rest =>
      have read := read_fraction negative [d] (next :: rest) _ digits (by simp) (.inr ended)
      rw [exponent, Option.map_some, Int.add_sub_cancel] at read
      simpa [value] using read

theorem scientific_spelling (d : Char) (fraction : List Char) (e : Int)
    (digits : ∀ c ∈ d :: fraction, c.isDigit = true) :
    ∀ c ∈ Number.scientific 'E' 1 (d :: fraction) e, IsSpelling c := by
  have exponent := numeral_digits (e + fraction.length).natAbs
  rw [List.forall_mem_cons] at digits
  intro c present
  rw [scientific_parts, List.mem_append] at present
  rcases present with front | back
  · have inside : c = d ∨ c = '.' ∨ c ∈ fraction := by
      split_ifs at front
      · exact .inl (List.mem_singleton.mp front)
      · simpa using front
    rcases inside with rfl | rfl | behind
    · exact .inl digits.1
    · exact .inr (by simp)
    · exact .inl (digits.2 c behind)
  · rcases List.mem_cons.mp back with rfl | signed
    · exact .inr (by simp)
    · rcases List.mem_cons.mp signed with rfl | digit
      · right
        split_ifs <;> simp
      · exact .inl (exponent c digit)

theorem read_signed (negative : Bool) (d : Char) (rest : List Char) (digit : d.isDigit = true)
    (s : String) (plain : plainSpelling s.toList = Number.signText negative ++ d :: rest) :
    ofString? s = readFinite? negative (d :: rest) := by
  have other (c : Char) (letter : c.isDigit = false) : d ≠ c := by
    rintro rfl
    simp [digit] at letter
  have sign : Number.takeSign (Number.signText negative ++ d :: rest) = (negative, d :: rest) := by
    cases negative with
    | true => rfl
    | false =>
        rw [Number.signText, if_neg (by simp), List.nil_append, Number.takeSign]
        · simpa using fun same => absurd same (other '-' rfl)
        · simpa using fun same => absurd same (other '+' rfl)
  rw [ofString?, plain, sign]
  simp only
  split
  · exact absurd (List.cons.inj ‹_›).1 (other 'i' rfl)
  · exact absurd (List.cons.inj ‹_›).1 (other 'n' rfl)
  · exact absurd (List.cons.inj ‹_›).1 (other 's' rfl)
  · rfl

theorem text_read (negative : Bool) (c : Nat) (e : Int) :
    ofString? (text (.finite negative c e)) = some (.finite negative c e) := by
  have digits := numeral_digits c
  have sign : ∀ c ∈ Number.signText negative, IsSpelling c := by
    cases negative <;> simp [Number.signText, IsSpelling]
  have signed (body : List Char) (spelling : ∀ c ∈ body, IsSpelling c) :
      plainSpelling (Number.signText negative ++ body) =
        Number.signText negative ++ body.map Char.toLower := by
    rw [plain_spelling _ fun c present => (List.mem_append.mp present).elim (sign c) (spelling c),
      List.map_append]
    cases negative <;> rfl
  by_cases plain : e ≤ 0 ∧ -6 ≤ Number.adjusted (Nat.toDigits 10 c) e
  · obtain ⟨⟨d, rest, shape, digit⟩, chars⟩ :=
      positional_spelling (Nat.toDigits 10 c) e Nat.toDigits_ne_nil digits
    have lower : (d :: rest).map Char.toLower = d :: rest := by
      rw [shape] at chars
      conv_rhs => rw [← List.map_id (d :: rest)]
      refine List.map_congr_left fun c present => ?_
      rcases chars c present with digit | rfl
      · exact digit_lower c digit
      · rfl
    rw [read_signed negative d rest digit, ← shape, read_positional negative c e plain.1]
    rw [text, if_pos plain, String.toList_ofList, signed, shape, lower]
    exact fun c present => (chars c present).imp_right fun point => by simp [point]
  · have read := read_scientific negative c e
    obtain ⟨d, fraction, shape⟩ :=
      List.exists_cons_of_ne_nil (Nat.toDigits_ne_nil (n := c) (b := 10))
    rw [shape] at digits read
    have spelling := scientific_spelling d fraction e digits
    have lower := scientific_lower d fraction e digits
    have front : ∃ rest, (Number.scientific 'E' 1 (d :: fraction) e).map Char.toLower =
        d :: rest := by
      rw [lower]
      split_ifs <;> exact ⟨_, rfl⟩
    obtain ⟨rest, front⟩ := front
    rw [front] at read
    rw [read_signed negative d rest (digits d (by simp)), read]
    rw [text, if_neg plain, String.toList_ofList, shape, signed _ spelling, front]

end Decimal

end ItemExpr
