import Mathlib.Tactic

/-!
`account_evaluator.cpp`, `db_maint.cpp`: the scaling of the account registration fee.

After so many accounts the fee is shifted to the left, and at the next maintenance it is shifted back,
once, by as many bits as all the shifts together should have been. The fee has 64 bits: what is shifted
out of them does not come back, and a shift by 64 bits and more is undefined.

* `Shifts`: what the shifts are that the language leaves undefined.
* `AccountFee.createAccount`, `AccountFee.removeScaling`: the two ends of the scaling.
* `Restored`: the fee comes back, and does not decrease on the way.
* **`restored_iff`**: it does, whatever the undefined shifts are, iff all shifts are defined and none of
  them loses a bit.
-/

namespace ZosCore

/-- The results of shifts of 64 bits by 64 and more. -/
structure Shifts where
  left : ℕ → ℕ → ℕ
  right : ℕ → ℕ → ℕ

namespace Shifts

variable (u : Shifts)

/-- `<<` on `uint64_t`. -/
def shiftLeft (value count : ℕ) : ℕ :=
  if count < 64 then value * 2 ^ count % 2 ^ 64 else u.left value count

/-- `>>` on `uint64_t`. -/
def shiftRight (value count : ℕ) : ℕ :=
  if count < 64 then value / 2 ^ count else u.right value count

end Shifts

/-- `basic_fee` of the accounts, and `accounts_registered_this_interval`. -/
structure AccountFee where
  basicFee : ℕ
  registered : ℕ
  deriving DecidableEq

namespace AccountFee

variable (u : Shifts) (accountsPerFeeScale bitshifts : ℕ)

/-- `account_create_evaluator::do_apply`: the account is counted, and the fee is scaled. There is no
result where the division by zero ends the program. -/
def createAccount (s : AccountFee) : Option AccountFee :=
  let registered := (s.registered + 1) % 2 ^ 32
  if accountsPerFeeScale = 0 then none
  else if registered % accountsPerFeeScale = 0 then
    some { basicFee := u.shiftLeft s.basicFee bitshifts, registered := registered }
  else some { s with registered := registered }

/-- `perform_chain_maintenance`: "Remove scaling of account registration fee". The count of the shift is
a product of 32 bits. -/
def removeScaling (s : AccountFee) : Option ℕ :=
  if accountsPerFeeScale = 0 then none
  else
    some (u.shiftRight s.basicFee (bitshifts * (s.registered / accountsPerFeeScale) % 2 ^ 32))

/-- The fee after `k` accounts have been created since the last maintenance. -/
def afterAccounts (basicFee : ℕ) : ℕ → Option AccountFee
  | 0 => some { basicFee := basicFee, registered := 0 }
  | k + 1 => (afterAccounts basicFee k).bind (createAccount u accountsPerFeeScale bitshifts)

end AccountFee

open AccountFee

/-- The scaling of `k` accounts is undone at the maintenance, and has never decreased the fee. -/
structure Restored (u : Shifts) (accountsPerFeeScale bitshifts basicFee k : ℕ) : Prop where
  restored : (afterAccounts u accountsPerFeeScale bitshifts basicFee k).bind
    (removeScaling u accountsPerFeeScale bitshifts) = some basicFee
  increases : ∀ i < k, ∀ s s', afterAccounts u accountsPerFeeScale bitshifts basicFee i = some s →
    afterAccounts u accountsPerFeeScale bitshifts basicFee (i + 1) = some s' →
      s.basicFee ≤ s'.basicFee

/-- How often the fee is scaled for `k` accounts. -/
def scalings (accountsPerFeeScale : ℕ) : ℕ → ℕ
  | 0 => 0
  | k + 1 => scalings accountsPerFeeScale k +
      if (k + 1) % 2 ^ 32 % accountsPerFeeScale = 0 then 1 else 0

/-- All shifts for `k` accounts are by less than 64 bits, and none loses a bit of the fee. -/
structure ShiftsFit (accountsPerFeeScale bitshifts basicFee k : ℕ) : Prop where
  left : scalings accountsPerFeeScale k = 0 ∨ bitshifts < 64
  right : bitshifts * (k % 2 ^ 32 / accountsPerFeeScale) % 2 ^ 32 < 64
  keeps : basicFee * 2 ^ (bitshifts * scalings accountsPerFeeScale k) < 2 ^ 64

section

variable {u : Shifts} {scale b fee k i j : ℕ}

/-! ### How often the fee is scaled -/

lemma scalings_mono (h : i ≤ j) : scalings scale i ≤ scalings scale j := by
  induction j, h using Nat.le_induction with
  | base => exact le_rfl
  | succ j _ ih => exact ih.trans (Nat.le_add_right _ _)

/-- As long as the count of the accounts does not wrap, the fee is scaled at every multiple. -/
lemma scalings_eq_div (h : k < 2 ^ 32) : scalings scale k = k / scale := by
  induction k with
  | zero => exact (Nat.zero_div scale).symm
  | succ k ih =>
      rw [scalings, ih (by omega), Nat.mod_eq_of_lt h, Nat.succ_div]
      congr 1
      simp only [Nat.dvd_iff_mod_eq_zero]

/-- A count that has wrapped has been scaled more than `2 ^ 16` times. -/
lemma lt_of_scalings_lt (hscale : 0 < scale) (hmax : scale < 2 ^ 16) (h : scalings scale k < 64) :
    k < 2 ^ 32 := by
  by_contra hk
  have hmono : scalings scale (2 ^ 32 - 1) ≤ scalings scale k := scalings_mono (by omega)
  rw [scalings_eq_div (by norm_num)] at hmono
  have hdiv : 64 ≤ (2 ^ 32 - 1) / scale := by
    rw [Nat.le_div_iff_mul_le hscale]
    omega
  omega

/-! ### The fee before the maintenance -/

/-- After `k` accounts the fee is the low 64 bits of what it should be, if the shifts are defined. -/
lemma afterAccounts_eq (hscale : 0 < scale) (hfee : fee < 2 ^ 64)
    (hleft : scalings scale k = 0 ∨ b < 64) :
    afterAccounts u scale b fee k =
      some { basicFee := fee * 2 ^ (b * scalings scale k) % 2 ^ 64, registered := k % 2 ^ 32 } := by
  induction k with
  | zero => rw [afterAccounts, scalings, mul_zero, pow_zero, mul_one, Nat.mod_eq_of_lt hfee, Nat.zero_mod]
  | succ k ih =>
      have hbefore : scalings scale k = 0 ∨ b < 64 :=
        hleft.imp_left fun h => Nat.le_zero.mp ((scalings_mono (Nat.le_succ k)).trans h.le)
      rw [afterAccounts, ih hbefore, Option.bind_some, createAccount, if_neg hscale.ne', Nat.mod_add_mod,
        scalings]
      by_cases hmod : (k + 1) % 2 ^ 32 % scale = 0
      · have hb : b < 64 := by
          refine hleft.resolve_left fun h => ?_
          rw [scalings, if_pos hmod] at h
          exact absurd h (Nat.succ_ne_zero _)
        rw [if_pos hmod, if_pos hmod, Shifts.shiftLeft, if_pos hb, Nat.mod_mul_mod, mul_assoc, ← pow_add,
          mul_add_one]
      · rw [if_neg hmod, if_neg hmod, add_zero]

/-- If the left shifts are undefined, the fee is what they make of it. -/
lemma afterAccounts_of_undefined {right : ℕ → ℕ → ℕ} {w : ℕ} (hscale : 0 < scale) (hb : 64 ≤ b) :
    afterAccounts ⟨fun _ _ => w, right⟩ scale b fee k =
      some { basicFee := if scalings scale k = 0 then fee else w, registered := k % 2 ^ 32 } := by
  induction k with
  | zero => rfl
  | succ k ih =>
      rw [afterAccounts, ih, Option.bind_some, createAccount, if_neg hscale.ne', Nat.mod_add_mod, scalings]
      by_cases hmod : (k + 1) % 2 ^ 32 % scale = 0
      · rw [if_pos hmod, if_pos hmod, Shifts.shiftLeft, if_neg (by omega), if_neg (Nat.succ_ne_zero _)]
      · rw [if_neg hmod, if_neg hmod, add_zero]

/-! ### The fee after the maintenance -/

/-- What is left of a shift there and back. -/
lemma shift_back {value n : ℕ} (hn : n < 64) :
    value * 2 ^ n % 2 ^ 64 / 2 ^ n = value ↔ value * 2 ^ n < 2 ^ 64 := by
  have hsplit : (2 : ℕ) ^ 64 = 2 ^ (64 - n) * 2 ^ n := by
    rw [← pow_add, Nat.sub_add_cancel hn.le]
  have hpos : 0 < 2 ^ n := Nat.two_pow_pos n
  rw [hsplit, Nat.mul_mod_mul_right, Nat.mul_div_cancel _ hpos, Nat.mul_lt_mul_right hpos]
  constructor
  · intro h
    rw [← h]
    exact Nat.mod_lt _ (Nat.two_pow_pos _)
  · exact Nat.mod_eq_of_lt

/-- The count of the shift back is right, if that of the shifts together is below 64. -/
lemma rightCount_eq (hscale : 0 < scale) (hmax : scale < 2 ^ 16) (h : b * scalings scale k < 64) :
    b * (k % 2 ^ 32 / scale) % 2 ^ 32 = b * scalings scale k := by
  rcases Nat.eq_zero_or_pos b with rfl | hb
  · rw [zero_mul, zero_mul, Nat.zero_mod]
  · have hcount : scalings scale k < 64 := (Nat.le_mul_of_pos_left _ hb).trans_lt h
    have hk : k < 2 ^ 32 := lt_of_scalings_lt hscale hmax hcount
    rw [Nat.mod_eq_of_lt hk, ← scalings_eq_div hk, Nat.mod_eq_of_lt (by omega)]

/-- The fee comes back iff none of the shifts loses a bit. -/
lemma shift_back_iff (hscale : 0 < scale) (hmax : scale < 2 ^ 16) :
    fee * 2 ^ (b * scalings scale k) % 2 ^ 64 / 2 ^ (b * (k % 2 ^ 32 / scale) % 2 ^ 32) = fee ↔
      fee * 2 ^ (b * scalings scale k) < 2 ^ 64 := by
  by_cases hcount : b * scalings scale k < 64
  · rw [rightCount_eq hscale hmax hcount, shift_back hcount]
  · have hdvd : 2 ^ 64 ∣ fee * 2 ^ (b * scalings scale k) :=
      (pow_dvd_pow 2 (not_lt.mp hcount)).mul_left fee
    rw [Nat.mod_eq_zero_of_dvd hdvd, Nat.zero_div]
    constructor
    · rintro rfl
      rw [zero_mul]
      norm_num
    · intro h
      have hzero : fee * 2 ^ (b * scalings scale k) = 0 := Nat.eq_zero_of_dvd_of_lt hdvd h
      exact ((Nat.mul_eq_zero.mp hzero).resolve_right (Nat.two_pow_pos _).ne').symm

lemma removeScaling_eq (hscale : 0 < scale) (s : AccountFee) :
    removeScaling u scale b s = some (u.shiftRight s.basicFee (b * (s.registered / scale) % 2 ^ 32)) :=
  if_neg hscale.ne'

/-- If all shifts fit, the fee comes back. -/
lemma ShiftsFit.restored (h : ShiftsFit scale b fee k) (hscale : 0 < scale) (hmax : scale < 2 ^ 16)
    (hfee : fee < 2 ^ 64) : Restored u scale b fee k where
  restored := by
    rw [afterAccounts_eq hscale hfee h.left, Option.bind_some, removeScaling_eq hscale,
      Shifts.shiftRight, if_pos h.right, (shift_back_iff hscale hmax).mpr h.keeps]
  increases i hi s s' hs hs' := by
    have hbound : ∀ j ≤ k, afterAccounts u scale b fee j =
        some { basicFee := fee * 2 ^ (b * scalings scale j), registered := j % 2 ^ 32 } := by
      intro j hj
      have hmono : fee * 2 ^ (b * scalings scale j) ≤ fee * 2 ^ (b * scalings scale k) := by
        refine Nat.mul_le_mul_left _ (Nat.pow_le_pow_right (by norm_num) ?_)
        exact Nat.mul_le_mul_left _ (scalings_mono hj)
      have hleft : scalings scale j = 0 ∨ b < 64 :=
        h.left.imp_left fun h => Nat.le_zero.mp ((scalings_mono hj).trans h.le)
      rw [afterAccounts_eq hscale hfee hleft, Nat.mod_eq_of_lt (hmono.trans_lt h.keeps)]
    rw [hbound i hi.le] at hs
    rw [hbound (i + 1) hi] at hs'
    cases hs
    cases hs'
    refine Nat.mul_le_mul_left _ (Nat.pow_le_pow_right (by norm_num) ?_)
    exact Nat.mul_le_mul_left _ (scalings_mono (Nat.le_succ i))

/-- If a shift is undefined, it may be one after which the fee does not come back. -/
lemma exists_not_restored (hscale : 0 < scale) (hfee : fee < 2 ^ 64)
    (h : ¬ ((scalings scale k = 0 ∨ b < 64) ∧ b * (k % 2 ^ 32 / scale) % 2 ^ 32 < 64)) :
    ∃ u, ¬ Restored u scale b fee k := by
  by_cases hleft : scalings scale k = 0 ∨ b < 64
  · have hright : ¬ b * (k % 2 ^ 32 / scale) % 2 ^ 32 < 64 := fun hright => h ⟨hleft, hright⟩
    refine ⟨⟨fun v _ => v, fun _ _ => fee + 1⟩, fun hrestored => ?_⟩
    have hback := hrestored.restored
    rw [afterAccounts_eq hscale hfee hleft, Option.bind_some, removeScaling_eq hscale,
      Shifts.shiftRight, if_neg hright, Option.some_inj] at hback
    exact absurd hback (Nat.succ_ne_self fee)
  · rw [not_or, not_lt] at hleft
    refine ⟨⟨fun _ _ => if fee = 0 then 2 ^ 64 - 1 else 0, fun _ _ => fee + 1⟩, fun hrestored => ?_⟩
    have hback := hrestored.restored
    rw [afterAccounts_of_undefined hscale hleft.2, Option.bind_some, removeScaling_eq hscale,
      if_neg hleft.1, Option.some_inj, Shifts.shiftRight] at hback
    by_cases hright : b * (k % 2 ^ 32 / scale) % 2 ^ 32 < 64
    · rw [if_pos hright] at hback
      have hone : 1 ≤ (2 ^ 64 - 1) / 2 ^ (b * (k % 2 ^ 32 / scale) % 2 ^ 32) := by
        rw [Nat.le_div_iff_mul_le (Nat.two_pow_pos _), one_mul]
        exact Nat.le_sub_one_of_lt (Nat.pow_lt_pow_right (by norm_num) hright)
      by_cases hzero : fee = 0
      · rw [if_pos hzero] at hback
        exact absurd (hback.trans hzero) (Nat.one_le_iff_ne_zero.mp hone)
      · rw [if_neg hzero, Nat.zero_div] at hback
        exact hzero hback.symm
    · rw [if_neg hright] at hback
      exact absurd hback (Nat.succ_ne_self fee)

end

/-- **The scaling of the fee is undone iff all shifts fit**, for every number of accounts. -/
theorem restored_iff (accountsPerFeeScale : UInt16) (bitshifts : UInt8) (basicFee : UInt64) (k : ℕ)
    (hscale : 0 < accountsPerFeeScale.toNat) :
    (∀ u, Restored u accountsPerFeeScale.toNat bitshifts.toNat basicFee.toNat k) ↔
      ShiftsFit accountsPerFeeScale.toNat bitshifts.toNat basicFee.toNat k := by
  have hmax : accountsPerFeeScale.toNat < 2 ^ 16 := accountsPerFeeScale.toNat_lt
  have hfee : basicFee.toNat < 2 ^ 64 := basicFee.toNat_lt
  constructor
  · intro h
    obtain ⟨hleft, hright⟩ : (scalings accountsPerFeeScale.toNat k = 0 ∨ bitshifts.toNat < 64) ∧
        bitshifts.toNat * (k % 2 ^ 32 / accountsPerFeeScale.toNat) % 2 ^ 32 < 64 := by
      by_contra hundefined
      obtain ⟨u, hu⟩ := exists_not_restored hscale hfee hundefined
      exact hu (h u)
    have hback := (h ⟨fun v _ => v, fun v _ => v⟩).restored
    rw [afterAccounts_eq hscale hfee hleft, Option.bind_some, removeScaling_eq hscale,
      Shifts.shiftRight, if_pos hright, Option.some_inj, shift_back_iff hscale hmax] at hback
    exact ⟨hleft, hright, hback⟩
  · exact fun h u => h.restored hscale hmax hfee

/-- The default parameters, with the default fee and 3000 accounts. -/
theorem restored_iff_default :
    (∀ u, Restored u 1000 4 10000 3000) ↔ ShiftsFit 1000 4 10000 3000 :=
  restored_iff 1000 4 10000 3000 (by decide)

/-- The default parameters and 13000 accounts: 52 bits are more than the fee has to spare. -/
theorem not_restored_default : ¬ ∀ (accountsPerFeeScale : UInt16) (bitshifts : UInt8)
    (basicFee : UInt64) (k : ℕ), 0 < accountsPerFeeScale.toNat →
      ∀ u, Restored u accountsPerFeeScale.toNat bitshifts.toNat basicFee.toNat k := by
  intro h
  have hback := (h 1000 4 10000 13000 (by decide) ⟨fun v _ => v, fun v _ => v⟩).restored
  have hcount : scalings 1000 13000 = 13 := scalings_eq_div (by norm_num)
  change (afterAccounts _ 1000 4 10000 13000).bind (removeScaling _ 1000 4) = some 10000 at hback
  rw [afterAccounts_eq (by norm_num) (by norm_num) (.inr (by norm_num)), hcount, Option.bind_some,
    removeScaling_eq (by norm_num)] at hback
  revert hback
  decide

end ZosCore
