import ItemExpr.Proofs.Number.Spelling
import ItemExpr.Wire.Encode
import Mathlib.Tactic.SplitIfs

set_option autoImplicit false

namespace ItemExpr

theorem digit_count_pos (n : Nat) : 0 < Number.digitCount n := Nat.length_toDigits_pos

theorem digit_count_le_iff (n k : Nat) (some : 0 < k) :
    Number.digitCount n ≤ k ↔ n < Number.tenTo k :=
  Nat.length_toDigits_le_iff (by decide) some

namespace Precision

structure Holds (p : Precision) (c : Nat) (e : Int) : Prop where
  digits : Number.digitCount c ≤ p.digits
  last : p.tiny ≤ e
  first : Decimal.adjusted c e ≤ p.greatest

theorem signals_nil_iff (p : Precision) (c : Nat) (e : Int) (some : 0 < p.digits) :
    p.signals c e = [] ↔ p.Holds c e := by
  have holds : p.Holds c e ↔ Number.digitCount c ≤ p.digits ∧ p.tiny ≤ e ∧
      Decimal.adjusted c e ≤ p.greatest :=
    ⟨fun h => ⟨h.digits, h.last, h.first⟩, fun ⟨digits, last, first⟩ => ⟨digits, last, first⟩⟩
  have count := digit_count_pos c
  have first : Decimal.adjusted c e = e + Number.digitCount c - 1 := rfl
  have tiny : p.tiny = p.least - p.digits + 1 := rfl
  rw [holds, signals]
  by_cases zero : c = 0
  · have single : Number.digitCount c = 1 := by
      subst zero
      rfl
    rw [if_pos zero]
    split_ifs with outside
    · exact iff_of_false (by simp) (by omega)
    · exact iff_of_true rfl (by omega)
  · rw [if_neg zero]
    by_cases large : Decimal.adjusted c e > p.greatest
    · rw [if_pos large]
      exact iff_of_false (by simp) (by omega)
    · rw [if_neg large]
      by_cases small : Decimal.adjusted c e < p.least
      -- A small number has no more digits than fit unless the last of them is too small.
      · rw [if_pos small]
        by_cases below : e < p.tiny
        · rw [if_pos below]
          refine iff_of_false ?_ (by omega)
          dsimp only
          split_ifs <;> simp
        · rw [if_neg below]
          exact iff_of_true rfl (by omega)
      · rw [if_neg small]
        by_cases long : Number.digitCount c > p.digits
        · rw [if_pos long]
          refine iff_of_false ?_ (by omega)
          dsimp only
          split_ifs <;> simp
        · rw [if_neg long]
          exact iff_of_true rfl (by omega)

theorem fit_holds (p : Precision) (negative : Bool) (c : Nat) (e : Int) (some : 0 < p.digits)
    (holds : p.Holds c e) : p.fit (.finite negative c e) = .ok (.finite negative c e) := by
  rw [fit, (signals_nil_iff p c e some).mpr holds]

theorem fit_raises (p : Precision) (negative : Bool) (c : Nat) (e : Int) (some : 0 < p.digits)
    (beyond : ¬ p.Holds c e) :
    ∃ first rest, p.fit (.finite negative c e) = .error (first :: rest) := by
  cases raised : p.signals c e with
  | nil => exact absurd ((signals_nil_iff p c e some).mp raised) beyond
  | cons first rest => exact ⟨first, rest, by rw [fit, raised]⟩

end Precision

theorem encode_number_holds (negative : Bool) (c : Nat) (e : Int)
    (holds : wirePrecision.Holds c e) :
    encodeNumber (.finite negative c e) = .ok (Decimal.text (.finite negative c e)) := by
  have read := Decimal.text_read negative c e
  have finite : ¬ (Decimal.text (.finite negative c e) = "Infinity" ∨
      Decimal.text (.finite negative c e) = "NaN") := by
    have infinity : Decimal.ofString? "Infinity" = some (.infinite false) := by decide
    have notANumber : Decimal.ofString? "NaN" = some (.nan false false 0) := by decide
    rintro (same | same) <;> rw [same] at read
    · simp [infinity] at read
    · simp [notANumber] at read
  rw [encodeNumber, Precision.fit_holds _ _ _ _ (by decide) holds]
  simp only [if_neg finite]

end ItemExpr
