import ZosCore.Economy.State

/-!
`fc::safe<int64_t>`, the type of amounts (`fc/safe.hpp`).

* `Safe.add`, `Safe.sub`, `Safe.mul`, `Safe.div`: the operators, with the tests that they make before
  they compute.
* `Safe.add_eq`, `Safe.sub_eq`, `Safe.mul_eq`: the tests find exactly the results that have no place in
  64 bits.
-/

namespace ZosCore

/-- What arithmetic and the reading of numbers fail with. -/
inductive NumberError where
  /-- `overflow_exception`, `underflow_exception` -/
  | overflow
  /-- `divide_by_zero_exception` -/
  | divideByZero
  /-- `FC_ASSERT` -/
  | assertion
  /-- `FC_THROW` -/
  | thrown
  /-- `std::invalid_argument` -/
  | invalidArgument
  /-- `std::out_of_range` -/
  | outOfRange
  deriving DecidableEq

lemma except_ok_bind {ε α β : Type} (a : α) (f : α → Except ε β) : Except.ok a >>= f = f a := rfl

instance (x : ℤ) : Decidable (Share x) := inferInstanceAs (Decidable (_ ∧ _))

namespace Safe

/-- `std::numeric_limits<int64_t>::min()` -/
def minimum : ℤ := -2 ^ 63

/-- `std::numeric_limits<int64_t>::max()` -/
def maximum : ℤ := 2 ^ 63 - 1

/-- `operator +` -/
def add (a b : ℤ) : Except NumberError ℤ :=
  if b > 0 ∧ a > maximum - b then .error .overflow
  else if b < 0 ∧ a < minimum - b then .error .overflow
  else .ok (a + b)

/-- `operator -` -/
def sub (a b : ℤ) : Except NumberError ℤ :=
  if b > 0 ∧ a < minimum + b then .error .overflow
  else if b < 0 ∧ a > maximum + b then .error .overflow
  else .ok (a - b)

/-- The tests of `operator *`, whose divisions drop what is after the point. -/
def mulOverflows (a b : ℤ) : Bool :=
  if a > 0 then
    if b > 0 then a > maximum.tdiv b else b < minimum.tdiv a
  else
    if b > 0 then a < minimum.tdiv b else a ≠ 0 && b < maximum.tdiv a

/-- `operator *` -/
def mul (a b : ℤ) : Except NumberError ℤ :=
  if mulOverflows a b then .error .overflow else .ok (a * b)

/-- `operator /` -/
def div (a b : ℤ) : Except NumberError ℤ :=
  if b = 0 then .error .divideByZero
  else if a = minimum ∧ b = -1 then .error .overflow
  else .ok (a.tdiv b)

variable {a b : ℤ}

lemma add_eq (ha : Share a) : add a b = if Share (a + b) then .ok (a + b) else .error .overflow := by
  obtain ⟨hlo, hhi⟩ := ha
  rw [add, maximum, minimum]
  by_cases h : Share (a + b)
  · have hfits := h
    obtain ⟨hlo', hhi'⟩ := hfits
    rw [if_pos h, if_neg (by omega), if_neg (by omega)]
  · rw [if_neg h]
    rw [Share] at h
    split_ifs with h1 h2
    · rfl
    · rfl
    · omega

/-- A factor lies beyond the quotient of a bound exactly if the product lies beyond the bound. -/
lemma tdiv_lt_iff {m c d : ℤ} (hm : 0 ≤ m) (hc : 0 < c) : m.tdiv c < d ↔ m < d * c := by
  rw [Int.tdiv_eq_ediv_of_nonneg hm, Int.ediv_lt_iff_lt_mul hc]

/-- The tests of `operator *` find the products that do not fit. -/
lemma mulOverflows_iff : mulOverflows a b = true ↔ ¬ Share (a * b) := by
  have hmax : (0 : ℤ) ≤ 2 ^ 63 - 1 := by norm_num
  have hmin : (0 : ℤ) ≤ 2 ^ 63 := by norm_num
  rw [mulOverflows, maximum, minimum, Share]
  split_ifs with h1 h2 h2
  · have hpos : 0 < a * b := Int.mul_pos h1 h2
    rw [decide_eq_true_eq, gt_iff_lt, tdiv_lt_iff hmax h2]
    omega
  · have hneg : a * b ≤ 0 := Int.mul_nonpos_of_nonneg_of_nonpos (by omega) (by omega)
    have htest := tdiv_lt_iff (d := -b) hmin h1
    rw [neg_mul, mul_comm b a] at htest
    rw [decide_eq_true_eq, Int.neg_tdiv]
    omega
  · have hneg : a * b ≤ 0 := Int.mul_nonpos_of_nonpos_of_nonneg (by omega) (by omega)
    have htest := tdiv_lt_iff (d := -a) hmin h2
    rw [neg_mul] at htest
    rw [decide_eq_true_eq, Int.neg_tdiv]
    omega
  · rcases eq_or_lt_of_le (not_lt.mp h1) with rfl | h1
    · simp
    · have hpos : 0 ≤ a * b := Int.mul_nonneg_of_nonpos_of_nonpos (by omega) (by omega)
      have htest := tdiv_lt_iff (d := -b) hmax (neg_pos.mpr h1)
      rw [neg_mul_neg, mul_comm b a, Int.tdiv_neg] at htest
      rw [Bool.and_eq_true, decide_eq_true_eq, decide_eq_true_eq]
      omega

lemma mul_eq (a b : ℤ) :
    mul a b = if Share (a * b) then .ok (a * b) else .error .overflow := by
  rw [mul]
  by_cases h : Share (a * b)
  · rw [if_pos h, if_neg fun ho => mulOverflows_iff.mp ho h]
  · rw [if_neg h, if_pos (mulOverflows_iff.mpr h)]

end Safe

end ZosCore
