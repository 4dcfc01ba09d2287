import Mathlib.Tactic

/-!
Positive fractions in lowest terms, and bringing both parts of one below a bound.

* `Fraction`: numerator and denominator have no common divisor. `Fraction.of` reduces them.
* `Half`: ways to round the half of a number that leave nothing at zero.
* `Fraction.halve`: both parts are halved, and reduced, until they are within the bound.
* **`Fraction.halve_le`**: then they are.
-/

namespace ZosCore

/-- A positive fraction in lowest terms. -/
@[ext] structure Fraction where
  num : ℕ
  den : ℕ
  num_pos : 0 < num
  den_pos : 0 < den
  coprime : num.Coprime den

namespace Fraction

variable {num den : ℕ} {a b : Fraction}

/-- A fraction is reduced. -/
def of (num den : ℕ) (hnum : 0 < num) (hden : 0 < den) : Fraction :=
  ⟨num / num.gcd den, den / num.gcd den, Nat.div_gcd_pos_of_pos_left den hnum,
    Nat.div_gcd_pos_of_pos_right num hden, Nat.coprime_div_gcd_div_gcd (Nat.gcd_pos_of_pos_left den hnum)⟩

/-- The product. -/
def mul (a b : Fraction) : Fraction :=
  of (a.num * b.num) (a.den * b.den) (Nat.mul_pos a.num_pos b.num_pos) (Nat.mul_pos a.den_pos b.den_pos)

/-- What a fraction stands for. -/
def value (a : Fraction) : ℚ := a.num / a.den

lemma cast_pos (a : Fraction) : (0 : ℚ) < a.num ∧ (0 : ℚ) < a.den :=
  ⟨by exact_mod_cast a.num_pos, by exact_mod_cast a.den_pos⟩

lemma value_pos (a : Fraction) : 0 < a.value := div_pos a.cast_pos.1 a.cast_pos.2

lemma of_num_le (hnum : 0 < num) (hden : 0 < den) : (of num den hnum hden).num ≤ num :=
  Nat.div_le_self _ _

lemma of_den_le (hnum : 0 < num) (hden : 0 < den) : (of num den hnum hden).den ≤ den :=
  Nat.div_le_self _ _

/-- Reducing a fraction changes nothing. -/
@[simp] lemma value_of (hnum : 0 < num) (hden : 0 < den) : (of num den hnum hden).value = num / den := by
  have hgcd : ((num.gcd den : ℕ) : ℚ) ≠ 0 := by exact_mod_cast (Nat.gcd_pos_of_pos_left den hnum).ne'
  rw [value, of, Nat.cast_div (Nat.gcd_dvd_left num den) hgcd, Nat.cast_div (Nat.gcd_dvd_right num den) hgcd,
    div_div_div_cancel_right₀ hgcd]

@[simp] lemma value_mul (a b : Fraction) : (a.mul b).value = a.value * b.value := by
  rw [mul, value_of, value, value, div_mul_div_comm, Nat.cast_mul, Nat.cast_mul]

lemma value_le_iff : a.value ≤ b.value ↔ a.num * b.den ≤ b.num * a.den := by
  rw [value, value, div_le_div_iff₀ a.cast_pos.2 b.cast_pos.2]
  exact_mod_cast Iff.rfl

end Fraction

/-- A way to round the half of a number, after which nothing is zero. -/
structure Half where
  half : ℕ → ℕ
  pos : ∀ n, 0 < n → 0 < half n
  le : ∀ n, half n ≤ n / 2 + 1

namespace Fraction

/-- Both parts are halved until they are within the bound. -/
def halve (h : Half) (bound : ℕ) (hbound : 2 ≤ bound) (a : Fraction) : Fraction :=
  if bound < a.num ∨ bound < a.den then
    halve h bound hbound (of (h.half a.num) (h.half a.den) (h.pos _ a.num_pos) (h.pos _ a.den_pos))
  else a
  termination_by max a.num a.den
  decreasing_by
    have hnum := (of_num_le (h.pos _ a.num_pos) (h.pos _ a.den_pos)).trans (h.le a.num)
    have hden := (of_den_le (h.pos _ a.num_pos) (h.pos _ a.den_pos)).trans (h.le a.den)
    omega

variable {h : Half} {bound : ℕ} {hbound : 2 ≤ bound}

/-- **The bound is met.** -/
theorem halve_le (a : Fraction) :
    (halve h bound hbound a).num ≤ bound ∧ (halve h bound hbound a).den ≤ bound := by
  fun_induction halve h bound hbound a with
  | case1 a hbig ih => exact ih
  | case2 a hsmall => omega

end Fraction

end ZosCore
