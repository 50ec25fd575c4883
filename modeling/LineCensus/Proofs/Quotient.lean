/-
Rounded quotients are in range. The unit in which a ratio is rounded is found from the
powers of two below its two numbers; seen as exact rationals, the ratio has between `2 ^ 52`
and `2 ^ 53` such units (`exists_unit`), so that after rounding the mantissa has 53 bits and
the exponent is known to within two (`ofRatio_pos`). A quotient of words is rounded three
times, and each exponent stays far from where binary floating-point values of 64 bits end.
-/
import Mathlib.Algebra.Order.Field.Power
import Mathlib.Data.Rat.Cast.Order
import Mathlib.Tactic.Positivity
import Mathlib.Tactic.Ring
import LineCensus.Binary64
import LineCensus.Word

namespace LineCensus.Binary64

variable {neg : Bool} {num den k : Nat} {e : Int}

/-! ## Rounding -/

theorem roundDiv_le (hden : 0 < den) (h : num ≤ k * den) : roundDiv num den ≤ k := by
  rcases Nat.lt_or_eq_of_le h with hlt | rfl
  · have hq : num / den < k := (Nat.div_lt_iff_lt_mul hden).2 hlt
    simp only [roundDiv]
    split_ifs <;> omega
  · simp [roundDiv, Nat.mul_div_cancel _ hden, hden]

theorem le_roundDiv (hden : 0 < den) (h : k * den ≤ num) : k ≤ roundDiv num den := by
  have hq : k ≤ num / den := (Nat.le_div_iff_mul_le hden).2 h
  simp only [roundDiv]
  split_ifs <;> omega

/-- One of two numbers is scaled by a power of two, and the other one by `1`. -/
theorem scale_eq {α : Sort*} (f : Nat → Nat → α) (num den : Nat) (e : Int) :
    (if 0 ≤ e then f num (den <<< e.toNat) else f (num <<< (-e).toNat) den) =
      f (num * 2 ^ (-e).toNat) (den * 2 ^ e.toNat) := by
  split
  next he => rw [Nat.shiftLeft_eq, Int.toNat_of_nonpos (by omega : -e ≤ 0), Nat.pow_zero, Nat.mul_one]
  next he => rw [Nat.shiftLeft_eq, Int.toNat_of_nonpos (by omega : e ≤ 0), Nat.pow_zero, Nat.mul_one]

theorem roundScaled_eq (num den : Nat) (e : Int) :
    roundScaled num den e = roundDiv (num * 2 ^ (-e).toNat) (den * 2 ^ e.toNat) := scale_eq roundDiv num den e

theorem two_zpow_split (e : Int) : (2 : ℚ) ^ e.toNat = 2 ^ e * 2 ^ (-e).toNat := by
  rw [← zpow_natCast, ← zpow_natCast, ← zpow_add₀ (by norm_num)]
  congr 1
  omega

theorem scaled_le_iff (a b : Nat) (e : Int) : a * 2 ^ e.toNat ≤ b * 2 ^ (-e).toNat ↔ (a : ℚ) * 2 ^ e ≤ b := by
  have hpos : (0 : ℚ) < 2 ^ (-e).toNat := by positivity
  rw [← mul_le_mul_iff_of_pos_right hpos, mul_assoc, ← two_zpow_split]
  exact_mod_cast Iff.rfl

theorem le_scaled_iff (a b : Nat) (e : Int) : b * 2 ^ (-e).toNat ≤ a * 2 ^ e.toNat ↔ (b : ℚ) ≤ a * 2 ^ e := by
  have hpos : (0 : ℚ) < 2 ^ (-e).toNat := by positivity
  rw [← mul_le_mul_iff_of_pos_right hpos, mul_assoc, ← two_zpow_split]
  exact_mod_cast Iff.rfl

theorem le_roundScaled (hden : 0 < den) (h : ((k * den : Nat) : ℚ) * 2 ^ e ≤ num) :
    k ≤ roundScaled num den e := by
  rw [roundScaled_eq]
  refine le_roundDiv (by positivity) ?_
  rw [← Nat.mul_assoc]
  exact (scaled_le_iff _ _ e).2 h

theorem roundScaled_le (hden : 0 < den) (h : (num : ℚ) ≤ ((k * den : Nat) : ℚ) * 2 ^ e) :
    roundScaled num den e ≤ k := by
  rw [roundScaled_eq]
  refine roundDiv_le (by positivity) ?_
  rw [← Nat.mul_assoc]
  exact (le_scaled_iff _ _ e).2 h

/-! ## The unit -/

/-- The choice of the unit compares the ratio with a power of two. -/
theorem atLeast_iff (num den : Nat) (e : Int) :
    (if 0 ≤ e then den <<< e.toNat ≤ num else den ≤ num <<< (-e).toNat) ↔ (den : ℚ) * 2 ^ e ≤ num := by
  rw [← scaled_le_iff]
  exact iff_of_eq (scale_eq (fun a b => b ≤ a) num den e)

theorem two_zpow_log2_le {n : Nat} (h : 0 < n) : (2 : ℚ) ^ (n.log2 : Int) ≤ n := by
  rw [zpow_natCast]
  exact_mod_cast Nat.log2_self_le (by omega)

theorem lt_two_zpow_log2 (n : Nat) : (n : ℚ) < 2 ^ ((n.log2 : Int) + 1) := by
  rw [← Nat.cast_succ, zpow_natCast]
  exact_mod_cast Nat.lt_log2_self

/-- The ratio has between `2 ^ 52` and `2 ^ 53` of the units in which it is rounded. -/
theorem exists_unit (neg : Bool) (hnum : 0 < num) (hden : 0 < den) :
    ∃ e : Int, (num.log2 : Int) - den.log2 - 53 ≤ e ∧ e ≤ (num.log2 : Int) - den.log2 - 52 ∧
      ((2 ^ 52 * den : Nat) : ℚ) * 2 ^ e ≤ num ∧ (num : ℚ) ≤ ((2 ^ 53 * den : Nat) : ℚ) * 2 ^ e ∧
      ofRatio neg num den = if roundScaled num den e = 2 ^ 53 then .finite neg (2 ^ 52) (e + 1)
        else .finite neg (roundScaled num den e) e := by
  have hunits : ∀ (i : Nat) (e : Int), ((2 ^ i * den : Nat) : ℚ) * 2 ^ e = den * 2 ^ (e + i) := by
    intro i e
    rw [zpow_add₀ (by norm_num), zpow_natCast]
    push_cast
    ring
  have hnumLow := two_zpow_log2_le hnum
  have hdenHigh := (lt_two_zpow_log2 den).le
  have hzpow : ∀ i : Int, (0 : ℚ) ≤ 2 ^ i := fun i => by positivity
  by_cases hat : (den : ℚ) * 2 ^ ((num.log2 : Int) - den.log2) ≤ num
  · refine ⟨(num.log2 : Int) - den.log2 - 52, by omega, by omega, ?_, ?_, ?_⟩
    · rw [hunits]
      simpa using hat
    · rw [hunits]
      calc (num : ℚ) ≤ 2 ^ ((num.log2 : Int) + 1) := (lt_two_zpow_log2 num).le
        _ = 2 ^ (den.log2 : Int) * 2 ^ ((num.log2 : Int) - den.log2 - 52 + (53 : Nat)) := by
          rw [← zpow_add₀ (by norm_num)]
          congr 1
          omega
        _ ≤ den * 2 ^ ((num.log2 : Int) - den.log2 - 52 + (53 : Nat)) :=
          mul_le_mul_of_nonneg_right (two_zpow_log2_le hden) (hzpow _)
    · simp only [ofRatio, if_neg (Nat.ne_of_gt hnum), atLeast_iff, if_pos hat]
      rfl
  · refine ⟨(num.log2 : Int) - den.log2 - 53, by omega, by omega, ?_, ?_, ?_⟩
    · rw [hunits]
      calc (den : ℚ) * 2 ^ ((num.log2 : Int) - den.log2 - 53 + (52 : Nat))
          ≤ 2 ^ ((den.log2 : Int) + 1) * 2 ^ ((num.log2 : Int) - den.log2 - 53 + (52 : Nat)) :=
          mul_le_mul_of_nonneg_right hdenHigh (hzpow _)
        _ = 2 ^ (num.log2 : Int) := by
          rw [← zpow_add₀ (by norm_num)]
          congr 1
          omega
        _ ≤ num := hnumLow
    · rw [hunits]
      simpa using (not_le.1 hat).le
    · simp only [ofRatio, if_neg (Nat.ne_of_gt hnum), atLeast_iff, if_neg hat]
      rfl

/-- A ratio of positive numbers has 53 bits, and its exponent follows from the sizes of the two. -/
theorem ofRatio_pos (neg : Bool) (hnum : 0 < num) (hden : 0 < den) :
    ∃ m e, ofRatio neg num den = .finite neg m e ∧ m.log2 = 52 ∧
      (num.log2 : Int) - den.log2 - 53 ≤ e ∧ e ≤ (num.log2 : Int) - den.log2 - 51 := by
  obtain ⟨e, hleast, hgreatest, hlow, hhigh, hratio⟩ := exists_unit neg hnum hden
  have hlow' := le_roundScaled hden hlow
  have hhigh' := roundScaled_le hden hhigh
  by_cases hcarry : roundScaled num den e = 2 ^ 53
  · exact ⟨2 ^ 52, e + 1, by rw [hratio, if_pos hcarry], Nat.log2_two_pow, by omega, by omega⟩
  · refine ⟨roundScaled num den e, e, by rw [hratio, if_neg hcarry], ?_, hleast, by omega⟩
    exact (Nat.log2_eq_iff (by omega)).2 ⟨hlow', by omega⟩

/-! ## Quotients of words -/

/-- A positive integer is rounded to one, with 53 bits. -/
theorem ofInt_pos {n : Int} (h : 0 < n) : ∃ m e, ofInt n = .finite false m e ∧ m.log2 = 52 ∧
    (n.natAbs.log2 : Int) - 53 ≤ e ∧ e ≤ (n.natAbs.log2 : Int) - 51 := by
  obtain ⟨m, e, hratio, hm, hleast, hgreatest⟩ := ofRatio_pos false (Int.natAbs_pos.2 (Int.ne_of_gt h)) Nat.one_pos
  have hone : (Nat.log2 1 : Int) = 0 := by decide
  rw [hone] at hleast hgreatest
  refine ⟨m, e, ?_, hm, by omega, by omega⟩
  rw [ofInt, decide_eq_false (by omega), hratio]

@[simp] theorem ofInt_zero : ofInt 0 = .finite false 0 0 := rfl

theorem ne_zero_of_log2 {m : Nat} (h : m.log2 = 52) : m ≠ 0 := by
  rintro rfl
  cases h

theorem log2_shiftLeft {m : Nat} (h : m.log2 = 52) (k : Nat) : (m <<< k).log2 = 52 + k := by
  have hm := ne_zero_of_log2 h
  obtain ⟨hlow, hhigh⟩ := (Nat.log2_eq_iff hm).1 h
  rw [Nat.shiftLeft_eq, Nat.log2_eq_iff (Nat.mul_ne_zero hm (by positivity)), Nat.pow_add, Nat.add_right_comm,
    Nat.pow_add]
  exact ⟨Nat.mul_le_mul_right _ hlow, Nat.mul_lt_mul_of_pos_right hhigh (by positivity)⟩

/-- The quotient of two values of 53 bits has 53 bits, and its exponent follows from theirs. -/
theorem div_pos {m₁ m₂ : Nat} (h₁ : m₁.log2 = 52) (h₂ : m₂.log2 = 52) (e₁ e₂ : Int) :
    ∃ m e, div (.finite false m₁ e₁) (.finite false m₂ e₂) = .finite false m e ∧ m.log2 = 52 ∧
      e₁ - e₂ - 53 ≤ e ∧ e ≤ e₁ - e₂ - 51 := by
  have hshift : ∀ {m : Nat} (_ : m.log2 = 52) (k : Nat), 0 < m <<< k := fun hm k =>
    Nat.shiftLeft_pos_iff.2 (Nat.pos_of_ne_zero (ne_zero_of_log2 hm))
  obtain ⟨m, e, hratio, hm, hleast, hgreatest⟩ :=
    ofRatio_pos false (hshift h₁ (e₁ - min e₁ e₂).toNat) (hshift h₂ (e₂ - min e₁ e₂).toNat)
  rw [log2_shiftLeft h₁, log2_shiftLeft h₂] at hleast hgreatest
  exact ⟨m, e, by rw [div, if_neg (ne_zero_of_log2 h₂)]; exact hratio, hm, by omega, by omega⟩

/-- The mantissa and the exponent of a finite value of 64 bits: of zero, or of one with 53 bits
that is not too great and not subnormal. -/
structure InRange (m : Nat) (e : Int) : Prop where
  mantissa : m ≠ 0 → 2 ^ 52 ≤ m ∧ m < 2 ^ 53
  least : -1022 - 52 ≤ e
  greatest : e ≤ 1023 - 52

/-- **The quotient of a word by a positive word is a number in range**, and not below zero. -/
theorem quotient_inRange {n : Int} {d : Nat} (hn : 0 ≤ n) (hnum : n.natAbs < wordSize) (hd : 0 < d)
    (hden : d < wordSize) : ∃ m e, quotient n d = .finite false m e ∧ InRange m e := by
  have hlog : ∀ k : Nat, k ≠ 0 → k < wordSize → k.log2 < 64 := fun k hk hsize => (Nat.log2_lt hk).2 hsize
  obtain ⟨m₂, e₂, hden', hm₂, hleast₂, hgreatest₂⟩ := ofInt_pos (n := d) (by omega)
  have hlog₂ := hlog d (by omega) hden
  rw [Int.natAbs_natCast] at hleast₂ hgreatest₂
  rcases Int.lt_or_eq_of_le hn with hpos | rfl
  · obtain ⟨m₁, e₁, hnum', hm₁, hleast₁, hgreatest₁⟩ := ofInt_pos hpos
    have hlog₁ := hlog n.natAbs (by omega) hnum
    obtain ⟨m, e, hdiv, hm, hleast, hgreatest⟩ := div_pos hm₁ hm₂ e₁ e₂
    exact ⟨m, e, by rw [quotient, hnum', hden', hdiv], fun hne => (Nat.log2_eq_iff hne).1 hm, by omega, by omega⟩
  · refine ⟨0, 0, ?_, by decide, by decide, by decide⟩
    simp [quotient, hden', div, ne_zero_of_log2 hm₂, ofRatio]

theorem quotient_zero_zero : quotient 0 0 = .nan := rfl

end LineCensus.Binary64
