import ZosCore.Chain.Types
import ZosCore.Lib.Exec
import ZosCore.Lib.Total

/-!
`account_object.hpp`, `asset_object.hpp`, `vesting_balance_object.hpp`,
`global_property_object.hpp`, `worker_object.hpp`, and `db_balance.cpp`: the objects that
the core asset, the fees and the coupons are kept in.

An amount is a `share_type`, a 64 bit integer whose sums and differences throw when they
overflow; here it is an integer. Where the code multiplies without such a check, the width
is written out (`int64`, `uint128`).

* `Economy`: the objects, with the core asset apart from the other assets.
* `depositLazyVesting`: an amount goes into a vesting balance, or into a new one.
* `depositCashback`, `depositWitnessPay`: who it is for.
-/

namespace ZosCore

/-! ### Numbers of a fixed width -/

/-- The value that a 64 bit signed integer keeps. -/
def int64 (x : ℤ) : ℤ := x.bmod (2 ^ 64)

/-- The value that `fc::uint128` keeps. -/
def uint128 (x : ℤ) : ℕ := (x % 2 ^ 128).toNat

/-- A `share_type` has 64 bits. -/
def Share (x : ℤ) : Prop := -2 ^ 63 ≤ x ∧ x < 2 ^ 63

lemma int64_of_share {x : ℤ} (h : Share x) : int64 x = x := by
  obtain ⟨hlo, hhi⟩ := h
  rw [int64]
  rw [Int.bmod_def]
  omega

lemma uint128_of_nonneg {x : ℤ} (h0 : 0 ≤ x) (h1 : x < 2 ^ 128) : (uint128 x : ℤ) = x := by
  rw [uint128]
  omega

/-! ### Objects -/

/-- `account_statistics_object` -/
structure AccountStatistics where
  pendingFees : ℤ := 0
  pendingVestedFees : ℤ := 0
  couponFees : ℤ := 0
  amountCoupon : ℤ := 0
  couponMonth : ℕ := 0
  lifetimeFeesPaid : ℤ := 0
  exchangeFees : ℤ := 0
  activateTime : ℕ := 0
  activateCount : ℕ := 0

/-- `account_object`, with its statistics. -/
structure Account where
  networkFeePercentage : ℕ
  lifetimeReferrerFeePercentage : ℕ
  referrerRewardsPercentage : ℕ
  lifetimeReferrer : ℕ
  referrer : ℕ
  registrar : ℕ
  cashbackVb : Option ℕ := none
  statistics : AccountStatistics := {}

/-- `cdd_vesting_policy` -/
structure CddVestingPolicy where
  vestingSeconds : ℕ
  coinSecondsEarned : ℕ
  coinSecondsEarnedLastUpdate : ℕ

/-- `vesting_policy` -/
inductive VestingPolicy where
  | linear
  | cdd (p : CddVestingPolicy)

/-- `vesting_balance_object` -/
structure VestingBalance where
  owner : ℕ
  asset : ℕ
  balance : ℤ
  policy : VestingPolicy

/-- `asset_object` and `asset_dynamic_data_object` -/
structure Asset where
  issuer : ℕ
  isMarketIssued : Bool := false
  maxSupply : ℤ
  currentSupply : ℤ
  accumulatedFees : ℤ := 0
  feePool : ℤ := 0

/-- `miner_type` -/
inductive MinerType where
  | witness
  | locktoken
  | worker
  deriving DecidableEq

/-- `dynamic_global_property_object` -/
structure DynamicProperties where
  initialTime : ℕ := 0
  nextMaintenanceTime : ℕ := 0
  lastBudgetTime : ℕ := 0
  couponSupply : ℤ := 0
  minerSupply : ℤ := 0
  minerFeeUsed : ℤ := 0
  budgetSupply : ℤ := 0
  budgetFeesUsed : ℤ := 0
  minersBudget : MinerType → ℤ := fun _ => 0
  minersPayed : MinerType → ℤ := fun _ => 0
  minersSupply : MinerType → ℤ := fun _ => 0

/-- `chain_parameters` -/
structure Parameters where
  blockInterval : ℕ
  witnessPayPerBlock : ℤ
  witnessPayVestingSeconds : ℕ
  cashbackVestingPeriodSeconds : ℕ
  cashbackVestingThreshold : ℤ
  maxWorkerBudgetPerDay : ℤ
  couponExpireTime : ℕ
  couponPerMonth : ℤ

/-- `worker_type`. All of them keep a record of what they have been paid. -/
inductive WorkerType where
  | refund
  | vestingBalance (balance : ℕ)
  | burn
  | exchange (workerAccount : ℕ)

/-- `worker_object` -/
structure Worker where
  id : ℕ
  workBeginDate : ℕ
  workEndDate : ℕ
  dailyPay : ℤ
  worker : WorkerType
  totalBurned : ℤ := 0
  totalVotesFor : ℕ := 0
  totalVotesAgainst : ℕ := 0
  totalPay : ℤ := 0
  lastPay : ℤ := 0
  lastBudgetTime : ℕ := 0
  isApproved : Bool := false

/-- `witness_object` -/
structure Witness where
  witnessAccount : ℕ
  payVb : Option ℕ := none

/-- The exceptions, one for each check of the modelled functions. -/
inductive EconomyError where
  /-- An object is not found. -/
  | notFound
  /-- "Insufficient Balance" -/
  | insufficientBalance
  /-- `ctx.now >= coin_seconds_earned_last_update` -/
  | vestingTime
  /-- "May not deposit vested into a linear vesting balance." -/
  | linearVesting
  /-- `uint128::to_uint64` of a number that does not fit. -/
  | tooLarge
  /-- `fee.amount >= 0` -/
  | negativeFee
  /-- A fee that is not paid in the core asset. -/
  | feeNotInCore
  /-- `is_authorized_asset` -/
  | notAuthorized
  /-- "Insufficient Fee Paid" -/
  | insufficientFee
  /-- `budget_pay<=budget_amount` -/
  | overBudget
  /-- A check on an asset or its supply. -/
  | supply
  /-- A check on a coupon. -/
  | coupon
  /-- A check of an evaluator that is not modelled. -/
  | evaluator (code : ℕ)
  deriving DecidableEq

/-- The objects. -/
structure Economy where
  /-- `head_block_time()` -/
  time : ℕ := 0
  parameters : Parameters
  properties : DynamicProperties := {}
  core : Asset
  assets : AList (fun _ : ℕ => Asset) := ∅
  nextAssetId : ℕ := 1
  /-- `gateway_dynamic_object::issue_amount`, for a gateway and an asset -/
  issueAmounts : AList (fun _ : ℕ × ℕ => ℤ) := ∅
  accounts : AList (fun _ : ℕ => Account) := ∅
  vestingBalances : AList (fun _ : ℕ => VestingBalance) := ∅
  nextVestingId : ℕ := 0
  balances : AList (fun _ : ℕ × ℕ => ℤ) := ∅
  witnesses : AList (fun _ : ℕ => Witness) := ∅
  workers : List Worker := []

/-- `GRAPHENE_CORE_ASSET` -/
def coreAsset : ℕ := 0

/-- `GRAPHENE_NULL_ACCOUNT` -/
def nullAccount : ℕ := 3

/-- `GRAPHENE_PLATFORM_ACCOUNT` -/
def platformAccount : ℕ := 6

/-- The chain's own accounts: committee, witnesses, relaxed committee, null and temp. -/
def isBlockchainAccount (id : ℕ) : Bool := id ≤ tempAccount

namespace Economy

/-! ### Access -/

/-- `d.get` of an account. -/
def getAccount (e : Economy) (id : ℕ) : Except EconomyError Account :=
  match e.accounts.lookup id with
  | some a => .ok a
  | none => .error .notFound

/-- `modify` of an account. -/
def setAccount (e : Economy) (id : ℕ) (a : Account) : Economy :=
  { e with accounts := e.accounts.insert id a }

/-- `modify` of an account's statistics. -/
def setStatistics (e : Economy) (id : ℕ) (a : Account) (s : AccountStatistics) : Economy :=
  e.setAccount id { a with statistics := s }

/-- `get_balance`. -/
def getBalance (e : Economy) (account asset : ℕ) : ℤ :=
  (e.balances.lookup (account, asset)).getD 0

/-- `adjust_balance`. -/
def adjustBalance (e : Economy) (account asset : ℕ) (delta : ℤ) : Except EconomyError Economy :=
  if delta = 0 then .ok e
  else match e.balances.lookup (account, asset) with
    | none =>
        if 0 < delta then .ok { e with balances := e.balances.insert (account, asset) delta }
        else .error .insufficientBalance
    | some balance =>
        if delta < 0 ∧ ¬ -delta ≤ balance then .error .insufficientBalance
        else .ok { e with balances := e.balances.insert (account, asset) (balance + delta) }

lemma getAccount_eq_ok {e : Economy} {id : ℕ} {a : Account} :
    e.getAccount id = .ok a ↔ e.accounts.lookup id = some a := by
  rw [getAccount]
  cases e.accounts.lookup id <;> simp

/-- `adjust_balance` changes one balance. -/
lemma getBalance_adjustBalance {e e' : Economy} {id asset : ℕ} {delta : ℤ}
    (h : e.adjustBalance id asset delta = .ok e') :
    e'.getBalance id asset = e.getBalance id asset + delta ∧ ∃ b, e' = { e with balances := b } := by
  unfold adjustBalance at h
  unfold getBalance
  by_cases h0 : delta = 0
  · rw [if_pos h0] at h
    cases h
    rw [h0, add_zero]
    exact ⟨rfl, _, rfl⟩
  · rw [if_neg h0] at h
    cases hb : e.balances.lookup (id, asset) with
    | none =>
        simp only [hb] at h
        split_ifs at h
        cases h
        rw [AList.lookup_insert]
        exact ⟨(zero_add delta).symm, _, rfl⟩
    | some balance =>
        simp only [hb] at h
        split_ifs at h
        cases h
        rw [AList.lookup_insert]
        exact ⟨rfl, _, rfl⟩

end Economy

/-! ### Vesting balances -/

/-- `compute_coin_seconds_earned`. -/
def CddVestingPolicy.computeCoinSecondsEarned (p : CddVestingPolicy) (balance : ℤ) (now : ℕ) :
    Except EconomyError ℕ :=
  if now < p.coinSecondsEarnedLastUpdate then .error .vestingTime
  else
    let deltaCoinSeconds := uint128 (uint128 balance * (now - p.coinSecondsEarnedLastUpdate))
    let coinSecondsEarnedCap := uint128 (uint128 balance * max p.vestingSeconds 1)
    .ok (min (uint128 (p.coinSecondsEarned + deltaCoinSeconds)) coinSecondsEarnedCap)

namespace VestingBalance

/-- `vesting_balance_object::deposit`. -/
def deposit (now : ℕ) (amount : ℤ) (v : VestingBalance) : Except EconomyError VestingBalance :=
  match v.policy with
  | .linear => .ok { v with balance := v.balance + amount }
  | .cdd p => do
      let earned ← p.computeCoinSecondsEarned v.balance now
      return { v with
        balance := v.balance + amount
        policy := .cdd { p with coinSecondsEarned := earned, coinSecondsEarnedLastUpdate := now } }

/-- `vesting_balance_object::deposit_vested`. -/
def depositVested (now : ℕ) (amount : ℤ) (v : VestingBalance) :
    Except EconomyError VestingBalance :=
  match v.policy with
  | .linear => .error .linearVesting
  | .cdd p => do
      let earned ← p.computeCoinSecondsEarned v.balance now
      return { v with
        balance := v.balance + amount
        policy := .cdd { p with
          coinSecondsEarned :=
            uint128 (earned + uint128 (int64 (amount * max p.vestingSeconds 1)))
          coinSecondsEarnedLastUpdate := now } }

/-- The deposit of `deposit_lazy_vesting`. -/
def put (requireVesting : Bool) (now : ℕ) (amount : ℤ) (v : VestingBalance) :
    Except EconomyError VestingBalance :=
  if requireVesting then v.deposit now amount else v.depositVested now amount

/-- `deposit_lazy_vesting` may put an amount into the vesting balance. -/
def takes (v : VestingBalance) (owner asset vestingSeconds : ℕ) : Bool :=
  v.owner = owner && v.asset = asset &&
    match v.policy with
    | .linear => false
    | .cdd p => p.vestingSeconds = vestingSeconds

end VestingBalance

namespace Economy

/-- The vesting balance that `deposit_lazy_vesting` makes. -/
def newVesting (e : Economy) (asset : ℕ) (amount : ℤ) (vestingSeconds owner : ℕ)
    (requireVesting : Bool) : VestingBalance where
  owner := owner
  asset := asset
  balance := amount
  policy := .cdd
    { vestingSeconds := vestingSeconds
      coinSecondsEarned := if requireVesting then 0 else uint128 (int64 (amount * vestingSeconds))
      coinSecondsEarnedLastUpdate := e.time }

/-- The end of `deposit_lazy_vesting`: a vesting balance is made. -/
def createVesting (e : Economy) (asset : ℕ) (amount : ℤ) (vestingSeconds owner : ℕ)
    (requireVesting : Bool) : Option ℕ × Economy :=
  (some e.nextVestingId,
    { e with
      vestingBalances := e.vestingBalances.insert e.nextVestingId
        (e.newVesting asset amount vestingSeconds owner requireVesting)
      nextVestingId := e.nextVestingId + 1 })

/-- `deposit_lazy_vesting`. -/
def depositLazyVesting (e : Economy) (ovbid : Option ℕ) (asset : ℕ) (amount : ℤ)
    (vestingSeconds owner : ℕ) (requireVesting : Bool) : Except EconomyError (Option ℕ × Economy) :=
  if amount = 0 then .ok (none, e)
  else match ovbid with
    | none => .ok (e.createVesting asset amount vestingSeconds owner requireVesting)
    | some vbid =>
        match e.vestingBalances.lookup vbid with
        | none => .error .notFound
        | some v =>
            if v.takes owner asset vestingSeconds then do
              let v' ← v.put requireVesting e.time amount
              return (none, { e with vestingBalances := e.vestingBalances.insert vbid v' })
            else .ok (e.createVesting asset amount vestingSeconds owner requireVesting)

/-- `deposit_cashback` of an amount in the core asset. -/
def depositCashback (e : Economy) (id : ℕ) (amount : ℤ) (requireVesting : Bool) :
    Except EconomyError Economy := do
  let acct ← e.getAccount id
  if amount = 0 then return e
  if isBlockchainAccount id then
    return { e with core := { e.core with currentSupply := e.core.currentSupply - amount } }
  let (newVbid, e') ← e.depositLazyVesting acct.cashbackVb coreAsset amount
    e.parameters.cashbackVestingPeriodSeconds id requireVesting
  match newVbid with
  | none => return e'
  | some vbid =>
      if acct.cashbackVb = some vbid then return e'
      else return e'.setAccount id { acct with cashbackVb := some vbid }

/-- `deposit_witness_pay`. -/
def depositWitnessPay (e : Economy) (wid : ℕ) (wit : Witness) (amount : ℤ) :
    Except EconomyError Economy :=
  if amount = 0 then .ok e
  else do
    let (newVbid, e') ← e.depositLazyVesting wit.payVb coreAsset amount
      e.parameters.witnessPayVestingSeconds wit.witnessAccount true
    match newVbid with
    | none => return e'
    | some vbid =>
        if wit.payVb = some vbid then return e'
        else return { e' with witnesses := e'.witnesses.insert wid { wit with payVb := some vbid } }

end Economy

end ZosCore
