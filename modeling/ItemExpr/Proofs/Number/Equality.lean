import ItemExpr.Proofs.Wire.RoundTrip
import Mathlib.Tactic.Linarith

set_option autoImplicit false

namespace ItemExpr

open Number (digitCount tenTo)

theorem digit_count_scaled (c k : Nat) (some : c ≠ 0) :
    digitCount (c * tenTo k) = digitCount c + k := by
  have positive : 0 < tenTo k := Nat.pow_pos (by decide)
  have power (m : Nat) : tenTo (m + k) = tenTo m * tenTo k := Nat.pow_add 10 m k
  have within (m : Nat) (front : 0 < m) : digitCount (c * tenTo k) ≤ m + k ↔ digitCount c ≤ m := by
    rw [digit_count_le_iff _ _ (by omega), digit_count_le_iff _ _ front, power]
    exact Nat.mul_lt_mul_right positive
  have upper := (within (digitCount c) (digit_count_pos c)).mpr (Nat.le_refl _)
  -- The product has more digits than the power alone.
  have longer : k < digitCount (c * tenTo k) := by
    by_cases none : k = 0
    · rw [none]
      exact digit_count_pos _
    · by_contra short
      have below := (digit_count_le_iff (c * tenTo k) k (by omega)).mp (by omega)
      have least : tenTo k ≤ c * tenTo k := Nat.le_mul_of_pos_left _ (Nat.pos_of_ne_zero some)
      omega
  have lower := (within (digitCount (c * tenTo k) - k) (by omega)).mp (by omega)
  omega

namespace Decimal

theorem scaled (c : Nat) (e e' : Int) :
    (c : ℚ) * 10 ^ e = ((c * tenTo (e - e').toNat : Nat) : ℚ) * 10 ^ min e e' := by
  have power : ((tenTo (e - e').toNat : Nat) : ℚ) = 10 ^ ((e - e').toNat : Int) := by
    rw [zpow_natCast]
    exact Nat.cast_pow 10 _
  have exponent : ((e - e').toNat : Int) + min e e' = e := by omega
  rw [Nat.cast_mul, mul_assoc, power, ← zpow_add₀ (by norm_num), exponent]

theorem adjusted_scaled (c c' : Nat) (e e' : Int) (some : c ≠ 0) (some' : c' ≠ 0)
    (equal : c * tenTo (e - e').toNat = c' * tenTo (e' - e).toNat) :
    adjusted c e = adjusted c' e' := by
  have counts := congrArg digitCount equal
  rw [digit_count_scaled c _ some, digit_count_scaled c' _ some'] at counts
  have first : adjusted c e = e + digitCount c - 1 := rfl
  have second : adjusted c' e' = e' + digitCount c' - 1 := rfl
  omega

theorem signed_scaled (s s' : ℚ) (c c' : Nat) (e e' : Int) :
    s * c * 10 ^ e = s' * c' * 10 ^ e' ↔
      s * (c * tenTo (e - e').toNat : Nat) = s' * (c' * tenTo (e' - e).toNat : Nat) := by
  have unit : (10 : ℚ) ^ min e e' ≠ 0 := zpow_ne_zero _ (by norm_num)
  rw [mul_assoc, mul_assoc, scaled c e e', scaled c' e' e, min_comm e' e, ← mul_assoc, ← mul_assoc]
  exact mul_left_inj' unit

theorem signed_equal_iff (n n' : Bool) (a a' : Nat) (some : a ≠ 0) (some' : a' ≠ 0) :
    (if n then (-1 : ℚ) else 1) * a = (if n' then -1 else 1) * a' ↔ n = n' ∧ a = a' := by
  have positive : (0 : ℚ) < a := Nat.cast_pos.mpr (Nat.pos_of_ne_zero some)
  have positive' : (0 : ℚ) < a' := Nat.cast_pos.mpr (Nat.pos_of_ne_zero some')
  cases n <;> cases n'
  · simp
  · refine iff_of_false (fun equal => ?_) (by simp)
    simp only [Bool.false_eq_true, if_false, if_true] at equal
    linarith
  · refine iff_of_false (fun equal => ?_) (by simp)
    simp only [Bool.false_eq_true, if_false, if_true] at equal
    linarith
  · simp

theorem signed_zero_iff (n : Bool) (c : Nat) (e : Int) :
    (if n then (-1 : ℚ) else 1) * c * 10 ^ e = 0 ↔ c = 0 := by
  have unit : (10 : ℚ) ^ e ≠ 0 := zpow_ne_zero _ (by norm_num)
  cases n <;> simp [unit]

theorem same_finite_iff (n n' : Bool) (c c' : Nat) (e e' : Int) :
    sameValue (.finite n c e) (.finite n' c' e') = true ↔
      rational? (.finite n c e) = rational? (.finite n' c' e') := by
  rw [sameValue, sameFinite, rational?, rational?, Option.some.injEq]
  by_cases zero : c = 0
  · have own := (signed_zero_iff n c e).mpr zero
    have other := eq_comm.trans (signed_zero_iff n' c' e')
    rw [own, other]
    simp [zero, eq_comm]
  · by_cases zero' : c' = 0
    · have own := (signed_zero_iff n' c' e').mpr zero'
      rw [own, signed_zero_iff]
      simp [zero, zero']
    · have some : c * tenTo (e - e').toNat ≠ 0 :=
        Nat.mul_ne_zero zero (Nat.pow_pos (by decide)).ne'
      have some' : c' * tenTo (e' - e).toNat ≠ 0 :=
        Nat.mul_ne_zero zero' (Nat.pow_pos (by decide)).ne'
      rw [signed_scaled, signed_equal_iff n n' _ _ some some']
      simp only [zero, zero', decide_false, Bool.or_self, Bool.false_eq_true, if_false,
        Bool.and_eq_true, decide_eq_true_eq]
      constructor
      · rintro ⟨⟨same, _⟩, equal⟩
        exact ⟨same, equal⟩
      · rintro ⟨same, equal⟩
        exact ⟨⟨same, adjusted_scaled c c' e e' zero zero' equal⟩, equal⟩

end Decimal

end ItemExpr
