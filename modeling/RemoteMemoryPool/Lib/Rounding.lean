import Mathlib.Tactic.Ring

/-!
# Conversion of natural numbers to a floating-point format

A format with `p` significant bits represents a natural number exactly when it is below
`2 ^ p`; other numbers are rounded to the nearest representable one, ties to even. The
exponent range is not bounded: the formats used here reach far beyond `2 ^ 64`.
-/

namespace Rounding

/-- `n` rounded to a multiple of `2 ^ e`, ties to an even multiple. -/
def roundToMultiple (e n : Nat) : Nat :=
  let q := n / 2 ^ e
  let r := n % 2 ^ e
  if 2 * r < 2 ^ e ∨ (2 * r = 2 ^ e ∧ q % 2 = 0) then q * 2 ^ e else (q + 1) * 2 ^ e

/-- `n` converted to a format with `p` significant bits. -/
def roundToFormat (p n : Nat) : Nat := roundToMultiple (Nat.log2 n + 1 - p) n

@[simp] lemma roundToMultiple_zero (n : Nat) : roundToMultiple 0 n = n := by
  simp [roundToMultiple, Nat.mod_one]

section Multiples

variable {e n m : Nat}

lemma roundToMultiple_add (hm : 2 * 2 ^ e ∣ m) :
    roundToMultiple e (m + n) = m + roundToMultiple e n := by
  obtain ⟨k, rfl⟩ := hm
  have hsum : 2 * 2 ^ e * k + n = n + 2 ^ e * (2 * k) := by ring
  have hdiv : (2 * 2 ^ e * k + n) / 2 ^ e = n / 2 ^ e + 2 * k := by
    rw [hsum, Nat.add_mul_div_left _ _ (Nat.two_pow_pos e)]
  have hmod : (2 * 2 ^ e * k + n) % 2 ^ e = n % 2 ^ e := by
    rw [hsum, Nat.add_mul_mod_self_left]
  have hpar : (n / 2 ^ e + 2 * k) % 2 = n / 2 ^ e % 2 := by omega
  simp only [roundToMultiple, hdiv, hmod, hpar]
  split <;> ring

lemma roundToMultiple_eq_zero_iff : roundToMultiple e n = 0 ↔ 2 * n ≤ 2 ^ e := by
  have hu := Nat.two_pow_pos e
  have hn := Nat.div_add_mod n (2 ^ e)
  have hr := Nat.mod_lt n hu
  by_cases hq : n / 2 ^ e = 0
  · rw [hq, Nat.mul_zero, Nat.zero_add] at hn
    simp only [roundToMultiple, hq, Nat.zero_mul, Nat.zero_add, Nat.one_mul, and_true]
    split <;> omega
  · have hle : 2 ^ e ≤ 2 ^ e * (n / 2 ^ e) := Nat.le_mul_of_pos_right _ (Nat.pos_of_ne_zero hq)
    have hne : roundToMultiple e n ≠ 0 := by
      simp only [roundToMultiple]
      split
      · exact Nat.mul_ne_zero hq hu.ne'
      · exact Nat.mul_ne_zero (Nat.succ_ne_zero _) hu.ne'
    constructor
    · intro h
      exact absurd h hne
    · intro h
      omega

lemma roundToMultiple_le (hm : 2 ^ e ∣ m) (hn : n ≤ m) : roundToMultiple e n ≤ m := by
  obtain ⟨k, rfl⟩ := hm
  have hu := Nat.two_pow_pos e
  have hdm := Nat.div_add_mod n (2 ^ e)
  simp only [roundToMultiple]
  split
  · rw [Nat.mul_comm]
    omega
  · next hup =>
    -- rounding up: `n` is no multiple, so its quotient is below `k`
    have hlt : n / 2 ^ e < k := by
      by_contra hge
      have hmul : 2 ^ e * k ≤ 2 ^ e * (n / 2 ^ e) := Nat.mul_le_mul_left _ (by omega)
      omega
    calc (n / 2 ^ e + 1) * 2 ^ e ≤ k * 2 ^ e := Nat.mul_le_mul_right _ hlt
      _ = 2 ^ e * k := Nat.mul_comm _ _

/-- Numbers below an even multiple of `2 ^ e` are rounded to it from half a step below on. -/
lemma roundToMultiple_eq_iff (hm : 2 * 2 ^ e ∣ m) (hn : n < m) :
    roundToMultiple e n = m ↔ 2 * m ≤ 2 * n + 2 ^ e := by
  obtain ⟨k, rfl⟩ := hm
  have hu := Nat.two_pow_pos e
  have hdm := Nat.div_add_mod n (2 ^ e)
  have hr := Nat.mod_lt n hu
  generalize hq : n / 2 ^ e = q at hdm
  have hlt : q < 2 * k := by
    rw [← hq]
    apply Nat.div_lt_of_lt_mul
    calc n < 2 * 2 ^ e * k := hn
      _ = 2 ^ e * (2 * k) := by ring
  simp only [roundToMultiple, hq]
  by_cases htop : q + 1 = 2 * k
  · have hm : 2 * 2 ^ e * k = 2 ^ e * q + 2 ^ e := by
      calc 2 * 2 ^ e * k = 2 ^ e * (2 * k) := by ring
        _ = 2 ^ e * q + 2 ^ e := by rw [← htop, Nat.mul_add, Nat.mul_one]
    have hodd : q % 2 = 1 := by omega
    rw [hm, Nat.add_mul, Nat.one_mul, Nat.mul_comm q]
    split <;> omega
  · have hm : 2 ^ e * q + 2 ^ e + 2 ^ e ≤ 2 * 2 ^ e * k := by
      calc 2 ^ e * q + 2 ^ e + 2 ^ e = 2 ^ e * (q + 2) := by ring
        _ ≤ 2 ^ e * (2 * k) := Nat.mul_le_mul_left _ (by omega)
        _ = 2 * 2 ^ e * k := by ring
    rw [Nat.add_mul, Nat.one_mul, Nat.mul_comm q]
    split <;> omega

lemma le_roundToMultiple_iff : n ≤ roundToMultiple e n ↔
    n % 2 ^ e = 0 ∨ 2 ^ e < 2 * (n % 2 ^ e) ∨
      (2 * (n % 2 ^ e) = 2 ^ e ∧ n / 2 ^ e % 2 = 1) := by
  have hu := Nat.two_pow_pos e
  have hdm := Nat.div_add_mod n (2 ^ e)
  have hr := Nat.mod_lt n hu
  simp only [roundToMultiple]
  rw [Nat.add_mul, Nat.one_mul, Nat.mul_comm (n / 2 ^ e)]
  split <;> omega

lemma dvd_roundToMultiple : 2 ^ e ∣ roundToMultiple e n := by
  simp only [roundToMultiple]
  split
  · exact Nat.dvd_mul_left _ _
  · exact Nat.dvd_mul_left _ _

end Multiples

lemma roundToFormat_of_lt {p n : Nat} (h : n < 2 ^ p) : roundToFormat p n = n := by
  by_cases hn : n = 0
  · subst hn
    simp [roundToFormat, roundToMultiple]
  · have hlog : Nat.log2 n < p := (Nat.log2_lt hn).mpr h
    have he : Nat.log2 n + 1 - p = 0 := by omega
    rw [roundToFormat, he, roundToMultiple_zero]

end Rounding
