import Mathlib.Data.Nat.Digits.Lemmas

/-!
Numerals whose leading zeros count.

A string of digits is its leading zeros and the number that it stands for; to change its base is to keep
both.

* `zeros`, `value`: the two parts of a string of digits, most significant digit first.
* `numeral`: the string with given parts; `numeral_zeros_value`: it is the only one.
* `recode`: the change of base; `recode_recode`: changing it back undoes it.
-/

namespace ZosCore

namespace Radix

variable {b c z n : ℕ} {l : List ℕ}

/-- The leading zeros of a string. -/
def zeros (l : List ℕ) : ℕ := (l.takeWhile (· = 0)).length

/-- The number that a string stands for in base `b`, the most significant digit being the first. -/
def value (b : ℕ) (l : List ℕ) : ℕ := Nat.ofDigits b l.reverse

/-- The string in base `b` with `z` leading zeros that stands for `n`. -/
def numeral (b z n : ℕ) : List ℕ := List.replicate z 0 ++ (b.digits n).reverse

/-- The leading zeros of what is written otherwise. -/
lemma zeros_map {α : Type*} {f : α → ℕ} {p : α → Bool} {l : List α}
    (h : ∀ a ∈ l, p a = decide (f a = 0)) : zeros (l.map f) = (l.takeWhile p).length := by
  induction l with
  | nil => rfl
  | cons a l ih =>
      have htail := ih fun x hx => h x (List.mem_cons_of_mem a hx)
      rw [zeros] at htail ⊢
      by_cases ha : f a = 0
      · simp [h a List.mem_cons_self, ha, htail]
      · simp [h a List.mem_cons_self, ha]

/-- The digits of a number begin with none that is zero. -/
lemma zeros_digits (b n : ℕ) : zeros (b.digits n).reverse = 0 := by
  rcases Nat.eq_zero_or_pos n with rfl | hn
  · simp [zeros]
  · obtain ⟨l, d, hl⟩ : ∃ l d, b.digits n = l ++ [d] :=
      ⟨_, _, (List.dropLast_append_getLast (Nat.digits_ne_nil_iff_ne_zero.mpr hn.ne')).symm⟩
    have hd : d ≠ 0 := by
      have hlast := Nat.getLast_digit_ne_zero b hn.ne'
      simpa [hl] using hlast
    simp [zeros, hl, hd]

@[simp] lemma zeros_numeral : zeros (numeral b z n) = z := by
  induction z with
  | zero => simpa [numeral] using zeros_digits b n
  | succ z ih =>
      have hsucc : numeral b (z + 1) n = 0 :: numeral b z n := by
        simp [numeral, List.replicate_succ]
      rw [hsucc, zeros]
      simpa [zeros] using ih

@[simp] lemma value_numeral : value b (numeral b z n) = n := by
  simp [value, numeral, Nat.ofDigits_append, Nat.ofDigits_digits]

/-- A string is told by its leading zeros and its value. -/
lemma numeral_zeros_value (hb : 1 < b) (hl : ∀ d ∈ l, d < b) :
    numeral b (zeros l) (value b l) = l := by
  induction l with
  | nil => simp [numeral, zeros, value]
  | cons d l ih =>
      have htail := ih fun d' hd => hl d' (List.mem_cons_of_mem d hd)
      rcases Nat.eq_zero_or_pos d with rfl | hd
      · have hzeros : zeros (0 :: l) = zeros l + 1 := by simp [zeros]
        have hvalue : value b (0 :: l) = value b l := by
          simp [value, Nat.ofDigits_append]
        rw [hzeros, hvalue]
        simpa [numeral, List.replicate_succ] using htail
      · -- no leading zero: these are the digits of the value
        have hzeros : zeros (d :: l) = 0 := by simp [zeros, hd.ne']
        have hdigits : b.digits (value b (d :: l)) = (d :: l).reverse := by
          refine Nat.digits_ofDigits b hb _ (fun x hx => hl x (List.mem_reverse.mp hx)) fun hne => ?_
          simpa using hd.ne'
        rw [hzeros, numeral, hdigits, List.reverse_reverse]
        rfl

lemma lt_of_mem_numeral (hb : 1 < b) {d : ℕ} (hd : d ∈ numeral b z n) : d < b := by
  rcases List.mem_append.mp hd with hd | hd
  · rw [List.eq_of_mem_replicate hd]
    omega
  · exact Nat.digits_lt_base hb (List.mem_reverse.mp hd)

/-- The same string in base `c`. -/
def recode (b c : ℕ) (l : List ℕ) : List ℕ := numeral c (zeros l) (value b l)

/-- **Change of base.** Changing the base and back leaves a string as it was. -/
lemma recode_recode (hb : 1 < b) (hl : ∀ d ∈ l, d < b) : recode c b (recode b c l) = l := by
  rw [recode, recode, zeros_numeral, value_numeral]
  exact numeral_zeros_value hb hl

/-- So that it is the other string's change of base. -/
lemma recode_eq_iff {l' : List ℕ} (hb : 1 < b) (hc : 1 < c) (hl : ∀ d ∈ l, d < b)
    (hl' : ∀ d ∈ l', d < c) : recode b c l = l' ↔ recode c b l' = l := by
  constructor
  · rintro rfl
    exact recode_recode hb hl
  · rintro rfl
    exact recode_recode hc hl'

end Radix

end ZosCore
