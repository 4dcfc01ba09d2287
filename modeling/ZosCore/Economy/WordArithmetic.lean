import ZosCore.Economy.Budget
import ZosCore.Economy.ProcessFees
import ZosCore.Protocol.Uint128

/-!
`account_object.cpp`, `worker_object.hpp`, `vesting_balance_object.cpp`: amounts in two words.

The code multiplies in `fc::uint128`, where the models of the economy use the numbers that are kept.

* `cutFeeWords`, `getBudgetWords`, `coinSecondsWords`: the functions as they are computed.
* **`word_arithmetic`**: they are those of the models.
-/

namespace ZosCore

namespace UInt128

/-- `uint128( int64_t )`, with the sign in the high word. -/
def ofInt64 (l : Int64) : UInt128 := ⟨if l < 0 then -1 else 0, l.toUInt64⟩

/-- `operator/=`, by way of the numbers of Boost. -/
def div (a b : UInt128) : UInt128 :=
  let self := a.toNat / b.toNat
  ⟨.ofNat (self / 2 ^ 64), .ofNat (self % 2 ^ 64)⟩

/-- `to_uint64`, with `none` where the assertion does not hold. -/
def toUInt64 (a : UInt128) : Option UInt64 := if a.hi = 0 then some a.lo else none

lemma toNat_toUInt64 (l : Int64) : (l.toUInt64.toNat : ℤ) = l.toInt % 2 ^ 64 := by
  have hbits : l.toInt = Int.bmod l.toUInt64.toNat (2 ^ 64) := BitVec.toInt_eq_toNat_bmod l.toBitVec
  have hlt := l.toUInt64.toNat_lt
  rw [hbits, Int.bmod_def]
  omega

lemma toInt_toInt64 (x : UInt64) : x.toInt64.toInt = int64 x.toNat :=
  BitVec.toInt_eq_toNat_bmod x.toBitVec

lemma toNat_ofInt64 (l : Int64) : (ofInt64 l).toNat = uint128 l.toInt := by
  have hlow := toNat_toUInt64 l
  have hlo := l.le_toInt
  have hhi := l.toInt_lt
  have hneg : l < 0 ↔ l.toInt < 0 := Int64.lt_iff_toInt_lt
  rw [ofInt64, toNat_mk, uint128]
  by_cases h : l.toInt < 0
  · have hall : (-1 : UInt64).toNat = 2 ^ 64 - 1 := rfl
    rw [if_pos (hneg.mpr h), hall]
    omega
  · rw [if_neg (hneg.not.mpr h), UInt64.toNat_zero]
    omega

lemma toNat_div (a b : UInt128) : (a.div b).toNat = a.toNat / b.toNat := by
  have hlt : a.toNat / b.toNat < 2 ^ 128 := (Nat.div_le_self _ _).trans_lt a.toNat_lt
  rw [div, toNat_mk, UInt64.toNat_ofNat_of_lt', UInt64.toNat_ofNat_of_lt', Nat.div_add_mod']
  · rw [UInt64.size]
    omega
  · rw [UInt64.size]
    omega

lemma toUInt64_eq_some_iff {a : UInt128} {x : UInt64} : a.toUInt64 = some x ↔ a.toNat = x.toNat := by
  have hlo := a.lo.toNat_lt
  have hx := x.toNat_lt
  rw [toUInt64, toNat]
  split_ifs with h
  · rw [Option.some_inj, ← UInt64.toNat_inj, h, UInt64.toNat_zero, Nat.zero_mul, Nat.zero_add]
  · have hne : a.hi.toNat ≠ 0 := fun hzero => h (UInt64.toNat_inj.mp hzero)
    refine iff_of_false not_false ?_
    omega

end UInt128

open UInt128

/-- `to_uint64`, and the `share_type` that comes of it. -/
def UInt128.toShare (a : UInt128) : Except EconomyError ℤ :=
  match a.toUInt64 with
  | some x => .ok x.toInt64.toInt
  | none => .error .tooLarge

/-- `cut_fee` -/
def cutFeeWords (a : Int64) (p : UInt16) : Except EconomyError ℤ :=
  if a = 0 ∨ p = 0 then .ok 0
  else if p.toNat = hundredPercent then .ok a.toInt
  else
    let r := ofInt64 a
    let r := r.mul (ofUInt64 p.toUInt64)
    let r := r.div (ofUInt64 (.ofNat hundredPercent))
    r.toShare

/-- `worker_object::get_budget` -/
def getBudgetWords (dailyPay dis : Int64) : Except EconomyError ℤ :=
  if dis.toInt ≠ dayMicroseconds then
    let pay := ofInt64 dailyPay
    let pay := pay.mul (ofInt64 dis)
    let pay := pay.div (ofInt64 (.ofInt dayMicroseconds))
    pay.toShare
  else .ok dailyPay.toInt

/-- `std::max` -/
def stdMax (a b : UInt32) : UInt32 := if a < b then b else a

/-- `std::min` -/
def stdMin (a b : UInt128) : UInt128 := if b.lt a then b else a

/-- `compute_coin_seconds_earned` -/
def coinSecondsWords (vestingSeconds coinSecondsEarnedLastUpdate : UInt32) (coinSecondsEarned : UInt128)
    (balance : Int64) (now : UInt32) : Except EconomyError UInt128 :=
  if now < coinSecondsEarnedLastUpdate then .error .vestingTime
  else
    let deltaSeconds : Int64 := (now - coinSecondsEarnedLastUpdate).toUInt64.toInt64
    let deltaCoinSeconds := (ofInt64 balance).mul (ofInt64 deltaSeconds)
    let coinSecondsEarnedCap := (ofInt64 balance).mul (ofUInt64 (stdMax vestingSeconds 1).toUInt64)
    .ok (stdMin (coinSecondsEarned.add deltaCoinSeconds) coinSecondsEarnedCap)

/-! ### The models -/

lemma UInt128.toShare_eq (a : UInt128) :
    a.toShare = if a.toNat < 2 ^ 64 then .ok (int64 a.toNat) else .error .tooLarge := by
  rw [toShare]
  cases h : a.toUInt64 with
  | some x =>
      have hx := toUInt64_eq_some_iff.mp h
      have hlt : a.toNat < 2 ^ 64 := hx ▸ x.toNat_lt
      rw [if_pos hlt, hx]
      exact congrArg Except.ok (toInt_toInt64 x)
  | none =>
      have hlarge : ¬ a.toNat < 2 ^ 64 := by
        intro hlt
        have hsome : a.toUInt64 = some (.ofNat a.toNat) :=
          toUInt64_eq_some_iff.mpr (UInt64.toNat_ofNat_of_lt' hlt).symm
        rw [h] at hsome
        cases hsome
      rw [if_neg hlarge]

lemma uint128_natCast (n : ℕ) : uint128 n = n % 2 ^ 128 := by
  rw [uint128]
  omega

lemma toInt_eq_zero_iff (a : Int64) : a.toInt = 0 ↔ a = 0 :=
  ⟨fun h => Int64.toInt_inj.mp h, fun h => h ▸ rfl⟩

lemma cutFeeWords_eq (a : Int64) (p : UInt16) : cutFeeWords a p = cutFee a.toInt p.toNat := by
  have hp : p.toNat = 0 ↔ p = 0 := ⟨fun h => UInt16.toNat_inj.mp h, fun h => h ▸ rfl⟩
  have hhundred : (UInt64.ofNat hundredPercent).toNat = hundredPercent := rfl
  have hr : (((ofInt64 a).mul (ofUInt64 p.toUInt64)).div (ofUInt64 (.ofNat hundredPercent))).toNat =
      uint128 (uint128 a.toInt * p.toNat) / hundredPercent := by
    rw [toNat_div, toNat_mul, toNat_ofInt64, toNat_ofUInt64, toNat_ofUInt64, UInt16.toNat_toUInt64,
      hhundred, ← Nat.cast_mul, uint128_natCast]
  rw [cutFeeWords, cutFee]
  simp only [toInt_eq_zero_iff, hp, toShare_eq, hr]

lemma getBudgetWords_eq (dailyPay dis : Int64) :
    getBudgetWords dailyPay dis = getBudget dailyPay.toInt dis.toInt := by
  have hday : uint128 (Int64.ofInt dayMicroseconds).toInt = dayMicroseconds.toNat := by decide
  have hpay : (((ofInt64 dailyPay).mul (ofInt64 dis)).div (ofInt64 (.ofInt dayMicroseconds))).toNat =
      uint128 (uint128 dailyPay.toInt * uint128 dis.toInt) / dayMicroseconds.toNat := by
    rw [toNat_div, toNat_mul, toNat_ofInt64, toNat_ofInt64, toNat_ofInt64, hday, ← Nat.cast_mul,
      uint128_natCast]
  rw [getBudgetWords, getBudget]
  simp only [toShare_eq, hpay]

/-- A time span, in seconds. -/
lemma toNat_seconds (x : UInt32) : (ofInt64 x.toUInt64.toInt64).toNat = x.toNat := by
  have hx := x.toNat_lt
  rw [toNat_ofInt64, toInt_toInt64, UInt32.toNat_toUInt64, int64_of_share ⟨by omega, by omega⟩,
    uint128_natCast, Nat.mod_eq_of_lt (by omega)]

lemma toNat_stdMax (x y : UInt32) : (stdMax x y).toNat = max x.toNat y.toNat := by
  rw [stdMax]
  split_ifs with h
  · exact (max_eq_right (UInt32.lt_iff_toNat_lt.mp h).le).symm
  · exact (max_eq_left (not_lt.mp fun hlt => h (UInt32.lt_iff_toNat_lt.mpr hlt))).symm

lemma toNat_stdMin (a b : UInt128) : (stdMin a b).toNat = min a.toNat b.toNat := by
  rw [stdMin]
  split_ifs with h
  · exact (min_eq_right (lt_iff.mp h).le).symm
  · exact (min_eq_left (not_lt.mp fun hlt => h (lt_iff.mpr hlt))).symm

lemma coinSecondsWords_eq (vestingSeconds lastUpdate now : UInt32) (earned : UInt128) (balance : Int64) :
    (coinSecondsWords vestingSeconds lastUpdate earned balance now).map UInt128.toNat =
      CddVestingPolicy.computeCoinSecondsEarned ⟨vestingSeconds.toNat, earned.toNat, lastUpdate.toNat⟩
        balance.toInt now.toNat := by
  rw [coinSecondsWords, CddVestingPolicy.computeCoinSecondsEarned]
  simp only [UInt32.lt_iff_toNat_lt]
  split_ifs with h
  · rfl
  have hspan : ((now - lastUpdate).toNat : ℤ) = now.toNat - lastUpdate.toNat := by
    rw [UInt32.toNat_sub_of_le _ _ (UInt32.le_iff_toNat_le.mpr (by omega))]
    omega
  have hone : (1 : UInt32).toNat = 1 := rfl
  have hsum : (earned.add ((ofInt64 balance).mul (ofInt64 (now - lastUpdate).toUInt64.toInt64))).toNat =
      uint128 (earned.toNat + uint128 (uint128 balance.toInt * (now.toNat - lastUpdate.toNat))) := by
    rw [toNat_add, toNat_mul, toNat_ofInt64 balance, toNat_seconds, ← hspan, ← Nat.cast_mul, uint128_natCast,
      ← Nat.cast_add, uint128_natCast]
  have hcap : ((ofInt64 balance).mul (ofUInt64 (stdMax vestingSeconds 1).toUInt64)).toNat =
      uint128 (uint128 balance.toInt * (max vestingSeconds.toNat 1 : ℕ)) := by
    rw [toNat_mul, toNat_ofInt64, toNat_ofUInt64, UInt32.toNat_toUInt64, toNat_stdMax, hone, ← Nat.cast_mul,
      uint128_natCast]
  exact congrArg Except.ok ((toNat_stdMin _ _).trans (by rw [hsum, hcap]))

/-- **Amounts in two words.** The cut of a fee, the pay of a worker and the coin seconds, as the code computes
them with `fc::uint128`, are the numbers of the models, also where a product wraps. -/
theorem word_arithmetic (a dis : Int64) (p : UInt16) (vestingSeconds lastUpdate now : UInt32)
    (earned : UInt128) :
    cutFeeWords a p = cutFee a.toInt p.toNat ∧
      getBudgetWords a dis = getBudget a.toInt dis.toInt ∧
      (coinSecondsWords vestingSeconds lastUpdate earned a now).map UInt128.toNat =
        CddVestingPolicy.computeCoinSecondsEarned ⟨vestingSeconds.toNat, earned.toNat, lastUpdate.toNat⟩
          a.toInt now.toNat :=
  ⟨cutFeeWords_eq a p, getBudgetWords_eq a dis,
    coinSecondsWords_eq vestingSeconds lastUpdate now earned a⟩

end ZosCore
