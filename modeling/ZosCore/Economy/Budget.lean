import ZosCore.Economy.Vesting
import Mathlib.Data.List.Sort

/-!
`db_maint.cpp`, `worker_evaluator.cpp`, `db_update.cpp`: the budget of the witnesses and the workers.

The maintenance pays the witnesses from what is left of the last budget, from the fees that have
accumulated, and from newly issued core; the workers from the balance of the platform account, and
from newly issued core. What is issued is clamped by a cap of its own and by the maximal supply.

* `budgetMiners`, `payWorkers`, `processBudget`: the maintenance.
* `updateSigningWitness`: the pay of a witness.
* `minerBudget_conserved_iff`: when the budget of the witnesses conserves the core asset.
* `workerBudget_conserved_iff`: when that of the workers does.
-/

namespace ZosCore

/-! ### Constants -/

/-- `GRAPHENE_BLOCKCHAIN_PRECISION` -/
def blockchainPrecision : ℤ := 100000

/-- `GRAPHENE_MAX_SHARE_SUPPLY` -/
def maxShareSupply : ℤ := 7000000000 * blockchainPrecision

/-- `GRAPHENE_MAX_SHARE_BUDGET` -/
def maxShareBudget : ℤ := 2800000000 * blockchainPrecision

/-- `GRAPHENE_MAX_SHARE_MINER` -/
def maxShareMiner : ℤ := 700000000 * blockchainPrecision

/-- `HARDFORK_191001_TIME` -/
def hardfork191001Time : ℕ := 1569859200

/-- `fc::days(1)`, in microseconds. -/
def dayMicroseconds : ℤ := 86400000000

/-- The value that a 64 bit unsigned integer keeps. -/
def uint64 (x : ℤ) : ℕ := (x % 2 ^ 64).toNat

/-- `budget_record`, for the witnesses and the workers. -/
structure BudgetRecord where
  fromInitialReserve : ℤ := 0
  fromAccumulatedFees : ℤ := 0
  fromPlatformFees : ℤ := 0
  fromUnusedMinerBudget : ℤ := 0
  minerBudget : ℤ := 0
  workerBudget : ℤ := 0

/-- What may be issued of an amount, under a cap and in the room that the maximal supply leaves. -/
def clampSupply (amount cap room : ℤ) : ℤ := min (min amount cap) room

/-- `worker_object::get_budget`. -/
def getBudget (dailyPay distance : ℤ) : Except EconomyError ℤ :=
  if distance ≠ dayMicroseconds then
    let pay := uint128 (uint128 dailyPay * uint128 distance) / dayMicroseconds.toNat
    if pay < 2 ^ 64 then .ok (int64 pay) else .error .tooLarge
  else .ok dailyPay

namespace Worker

/-- `is_active_ok`, and `is_active` before the hard fork. -/
def isActive (w : Worker) (now : ℕ) : Bool :=
  if hardfork191001Time ≤ now then w.workBeginDate ≤ now && now < w.workEndDate
  else w.workBeginDate ≤ now && now ≤ w.workEndDate

/-- `approving_stake`. -/
def approvingStake (w : Worker) : ℤ := int64 w.totalVotesFor - int64 w.totalVotesAgainst

/-- What a worker notes of its pay. -/
def paid (w : Worker) (pay : ℤ) (now : ℕ) : Worker :=
  { w with totalBurned := w.totalBurned + pay, totalPay := w.totalPay + pay, lastPay := pay
           lastBudgetTime := now }

/-- The order in which workers are paid. -/
def Before (w w' : Worker) : Prop :=
  w'.approvingStake < w.approvingStake ∨ (w.approvingStake = w'.approvingStake ∧ w.id ≤ w'.id)

instance : DecidableRel Before := fun _ _ => inferInstanceAs (Decidable (_ ∨ _))

end Worker

namespace Economy

/-! ### Witnesses -/

/-- `blocks_to_maint` -/
def blocksToMaint (e : Economy) : ℕ :=
  uint64 (uint64 (e.properties.nextMaintenanceTime - e.time) + e.parameters.blockInterval - 1) /
    e.parameters.blockInterval

/-- What the witnesses need until the next maintenance, besides what is left. -/
def witnessNeed (e : Economy) : ℤ :=
  int64 (e.parameters.witnessPayPerBlock * e.blocksToMaint) - e.properties.minersBudget .witness

/-- `core.reserved`, what may still be issued. -/
def reserved (e : Economy) : ℤ := e.core.maxSupply - e.core.currentSupply

/-- What is issued for the witnesses, if the fees do not suffice. -/
def minerIssue (e : Economy) : ℤ :=
  clampSupply (e.witnessNeed - e.core.accumulatedFees) (maxShareMiner - e.properties.minerSupply)
    e.reserved

/-- There is no new budget: there has not been one yet, or no time has passed. -/
def NoBudget (e : Economy) : Prop :=
  e.properties.lastBudgetTime = 0 ∨ e.time ≤ e.properties.lastBudgetTime

instance (e : Economy) : Decidable e.NoBudget := inferInstanceAs (Decidable (_ ∨ _))

/-- The record that `budget_miners` begins with. -/
def minerRecord (e : Economy) : BudgetRecord where
  fromInitialReserve := e.reserved
  fromAccumulatedFees := e.core.accumulatedFees
  fromUnusedMinerBudget := e.properties.minersBudget .witness

/-- Fees pay for the witnesses. -/
def spendFees (e : Economy) (amount : ℤ) : Economy :=
  { e with
    core := { e.core with accumulatedFees := e.core.accumulatedFees - amount }
    properties := { e.properties with minerFeeUsed := e.properties.minerFeeUsed + amount } }

/-- Core is issued for the witnesses, and all fees are used. -/
def issueForMiners (e : Economy) (amount : ℤ) : Economy :=
  { e with
    core := { e.core with
      currentSupply := e.core.currentSupply + amount, accumulatedFees := 0 }
    properties := { e.properties with
      minerSupply := e.properties.minerSupply + amount
      minersSupply := Function.update e.properties.minersSupply .witness
        (e.properties.minersSupply .witness + amount)
      minerFeeUsed := e.properties.minerFeeUsed + e.core.accumulatedFees } }

/-- `budget_miners`. -/
def budgetMiners (e : Economy) : Economy × BudgetRecord :=
  if e.NoBudget then (e, e.minerRecord)
  else if e.witnessNeed ≤ e.core.accumulatedFees then
    (e.spendFees e.witnessNeed, { e.minerRecord with
      minerBudget := e.witnessNeed + e.properties.minersBudget .witness })
  else
    -- the fees are added in any case, and used only if something is issued
    (if 0 < e.minerIssue then e.issueForMiners e.minerIssue else e, { e.minerRecord with
      minerBudget := e.minerIssue + e.core.accumulatedFees + e.properties.minersBudget .witness })

/-! ### Workers -/

/-- The time since the last budget, in microseconds. -/
def distance (e : Economy) : ℤ := (e.time - e.properties.lastBudgetTime) * 1000000

/-- The workers that are active and approved. -/
def activeWorkers (e : Economy) : List Worker :=
  e.workers.filter fun w => w.isActive e.time && w.isApproved

/-- What the workers ask for. -/
def sumBudget (distance : ℤ) : List Worker → Except EconomyError ℤ
  | [] => .ok 0
  | w :: ws => do
      let pay ← getBudget w.dailyPay distance
      let rest ← sumBudget distance ws
      return pay + rest

/-- `budget_amount`, what the workers ask for and may get at most. -/
def workerRequest (e : Economy) : Except EconomyError ℤ := do
  let amount ← sumBudget e.distance e.activeWorkers
  let maxPay ← getBudget e.parameters.maxWorkerBudgetPerDay e.distance
  return min amount maxPay

/-- What is issued for the workers, if the platform account does not suffice. -/
def workerIssue (e : Economy) (amount : ℤ) : ℤ :=
  clampSupply (amount - e.getBalance platformAccount coreAsset)
    (maxShareBudget - e.properties.budgetSupply) e.reserved

/-- Core is issued for the workers. -/
def issueForWorkers (e : Economy) (amount : ℤ) : Economy :=
  { e with
    core := { e.core with currentSupply := e.core.currentSupply + amount }
    properties := { e.properties with
      budgetSupply := e.properties.budgetSupply + amount
      minersBudget := Function.update e.properties.minersBudget .worker amount
      minersSupply := Function.update e.properties.minersSupply .worker
        (e.properties.minersSupply .worker + amount)
      budgetFeesUsed := e.properties.budgetFeesUsed + e.getBalance platformAccount coreAsset } }

/-- `pay_workers`, where the budget comes from. -/
def fundWorkers (e : Economy) (amount : ℤ) : Except EconomyError (ℤ × Economy) :=
  if amount ≤ e.getBalance platformAccount coreAsset then do
    let e' ← e.adjustBalance platformAccount coreAsset (-amount)
    return (amount, { e' with properties := { e'.properties with
      budgetFeesUsed := e'.properties.budgetFeesUsed + amount } })
  else if 0 < e.workerIssue amount then do
    let e' ← (e.issueForWorkers (e.workerIssue amount)).adjustBalance platformAccount coreAsset
      (-e.getBalance platformAccount coreAsset)
    return (e.workerIssue amount + e.getBalance platformAccount coreAsset, e')
  else .ok (e.workerIssue amount + e.getBalance platformAccount coreAsset, e)

/-- `pay_worker`, for each type of worker. -/
def payWorkerType (e : Economy) (pay : ℤ) : WorkerType → Except EconomyError Economy
  | .refund => .ok { e with core := { e.core with currentSupply := e.core.currentSupply - pay } }
  | .vestingBalance balance =>
      match e.vestingBalances.lookup balance with
      | none => .error .notFound
      | some v => do
          let v' ← v.deposit e.time pay
          return { e with vestingBalances := e.vestingBalances.insert balance v' }
  | .burn => e.adjustBalance nullAccount coreAsset pay
  | .exchange account => do
      let a ← e.getAccount account
      return e.setStatistics account a
        { a.statistics with exchangeFees := a.statistics.exchangeFees + pay }

/-- A worker is paid. -/
def payWorker (e : Economy) (w : Worker) (pay : ℤ) : Except EconomyError Economy := do
  let e' ← e.payWorkerType pay w.worker
  return { e' with workers := e'.workers.map fun w' => if w'.id = w.id then w'.paid pay e.time else w' }

/-- `pay_workers`, the loop: who comes first is served first. -/
def payActive (budget distance : ℤ) :
    List Worker → ℤ → Economy → Except EconomyError (ℤ × Economy)
  | [], paid, e => .ok (paid, e)
  | w :: ws, paid, e => do
      let requested ← getBudget w.dailyPay distance
      if 0 < min (budget - paid) requested then do
        let e' ← e.payWorker w (min (budget - paid) requested)
        payActive budget distance ws (paid + min (budget - paid) requested) e'
      else payActive budget distance ws paid e

/-- The states of `pay_workers`: before, when the budget is there, and when it is spent. -/
structure Payroll where
  before : Economy
  record : BudgetRecord
  funded : Economy
  /-- `budget_pay`, what the workers have got -/
  budgetPay : ℤ
  after : Economy

/-- The budget of the workers is noted. -/
def noteWorkers (e : Economy) (budget : ℤ) : Economy :=
  { e with properties := { e.properties with
    minersPayed := Function.update e.properties.minersPayed .worker
      (e.properties.minersPayed .worker + budget) } }

/-- `pay_workers`, the payments. -/
def spendBudget (e : Economy) (workers : List Worker) (budget distance : ℤ) :
    Except EconomyError (ℤ × Economy) :=
  if 0 < budget then do
    let (pay, e') ← payActive budget distance (workers.insertionSort Worker.Before) 0 e
    if pay ≤ budget then .ok (pay, e') else .error .overBudget
  else .ok (0, e)

/-- `pay_workers`. -/
def payWorkers (e : Economy) (record : BudgetRecord) : Except EconomyError Payroll := do
  let amount ← e.workerRequest
  let (budget, e₁) ← e.fundWorkers amount
  let (pay, e₂) ← (e₁.noteWorkers budget).spendBudget e.activeWorkers budget e.distance
  return {
    before := e
    record := { record with
      workerBudget := budget
      fromPlatformFees := e.getBalance platformAccount coreAsset }
    funded := e₁.noteWorkers budget
    budgetPay := pay
    after := e₂ }

/-- The end of `process_budget`. -/
def setBudget (e : Economy) (record : BudgetRecord) : Economy :=
  { e with properties := { e.properties with
    minersBudget := Function.update e.properties.minersBudget .witness record.minerBudget
    lastBudgetTime := e.time } }

/-- `process_budget`. -/
def processBudget (e : Economy) : Except EconomyError Economy := do
  let p ← e.budgetMiners.1.payWorkers e.budgetMiners.2
  return p.after.setBudget p.record

/-- `update_signing_witness`, the pay. -/
def updateSigningWitness (e : Economy) (wid : ℕ) : Except EconomyError Economy :=
  match e.witnesses.lookup wid with
  | none => .error .notFound
  | some wit =>
      let witnessPay := min e.parameters.witnessPayPerBlock (e.properties.minersBudget .witness)
      { e with properties := { e.properties with
        minersBudget := Function.update e.properties.minersBudget .witness
          (e.properties.minersBudget .witness - witnessPay)
        minersPayed := Function.update e.properties.minersPayed .witness
          (e.properties.minersPayed .witness + witnessPay) } }.depositWitnessPay wid wit witnessPay

variable {e e' : Economy} {amount : ℤ}

/-! ### What the payroll leaves alone -/

/-- So much has been paid: at most this is burned, and the fees that have accumulated, the properties and
the other assets are kept. -/
structure Spent (e e' : Economy) (pay : ℤ) : Prop where
  fees : e'.core.accumulatedFees = e.core.accumulatedFees
  properties : e'.properties = e.properties
  assets : e'.assets = e.assets
  issueAmounts : e'.issueAmounts = e.issueAmounts
  maxSupply : e'.core.maxSupply = e.core.maxSupply
  burned : e.core.currentSupply - pay ≤ e'.core.currentSupply
  supply : e'.core.currentSupply ≤ e.core.currentSupply

/-- The core asset and the properties are what they were. -/
lemma Spent.of_core {pay : ℤ} (h0 : 0 ≤ pay) (hc : e'.core = e.core) (hp : e'.properties = e.properties)
    (ha : e'.assets = e.assets) (hi : e'.issueAmounts = e.issueAmounts) : Spent e e' pay := by
  refine ⟨by rw [hc], hp, ha, hi, by rw [hc], ?_, ?_⟩ <;> rw [hc]
  omega

lemma Spent.trans {e'' : Economy} {x y : ℤ} (h : Spent e e' x) (h' : Spent e' e'' y) :
    Spent e e'' (x + y) where
  fees := h'.fees.trans h.fees
  properties := h'.properties.trans h.properties
  assets := h'.assets.trans h.assets
  issueAmounts := h'.issueAmounts.trans h.issueAmounts
  maxSupply := h'.maxSupply.trans h.maxSupply
  burned := by
    have := h.burned
    have := h'.burned
    omega
  supply := h'.supply.trans h.supply

/-- Where the budget of the workers comes from, case by case. -/
lemma fundWorkers_cases {budget : ℤ} (h : e.fundWorkers amount = .ok (budget, e')) :
    (∃ supply, e'.core = { e.core with currentSupply := supply }) ∧
    e'.properties.minerSupply = e.properties.minerSupply ∧
    e'.properties.minersPayed = e.properties.minersPayed ∧
    e'.assets = e.assets ∧ e'.issueAmounts = e.issueAmounts ∧
    e'.properties.budgetSupply - e.properties.budgetSupply =
      e'.core.currentSupply - e.core.currentSupply ∧
    if amount ≤ e.getBalance platformAccount coreAsset then
      budget = amount ∧ e'.core.currentSupply = e.core.currentSupply ∧
        e'.getBalance platformAccount coreAsset = e.getBalance platformAccount coreAsset - amount
    else budget = e.workerIssue amount + e.getBalance platformAccount coreAsset ∧
      if 0 < e.workerIssue amount then
        e'.core.currentSupply = e.core.currentSupply + e.workerIssue amount ∧
          e'.getBalance platformAccount coreAsset = 0
      else e' = e := by
  unfold fundWorkers at h
  split_ifs at h ⊢ with hplat hissue
  · obtain ⟨e₁, hadj, h⟩ := except_bind_eq_ok.mp h
    cases h
    obtain ⟨hbal, b, rfl⟩ := getBalance_adjustBalance hadj
    exact ⟨⟨_, rfl⟩, rfl, rfl, rfl, rfl, by simp, rfl, rfl, hbal⟩
  · obtain ⟨e₁, hadj, h⟩ := except_bind_eq_ok.mp h
    cases h
    obtain ⟨hbal, b, rfl⟩ := getBalance_adjustBalance hadj
    refine ⟨⟨_, rfl⟩, rfl, rfl, rfl, rfl, ?_, rfl, rfl, ?_⟩
    · show e.properties.budgetSupply + e.workerIssue amount - _ =
        e.core.currentSupply + e.workerIssue amount - _
      ring
    · rw [hbal]
      show e.getBalance platformAccount coreAsset + _ = 0
      ring
  · cases h
    exact ⟨⟨_, rfl⟩, rfl, rfl, rfl, rfl, by simp, rfl, rfl⟩

lemma payWorkerType_spent {pay : ℤ} (h0 : 0 ≤ pay) {t : WorkerType}
    (h : e.payWorkerType pay t = .ok e') : Spent e e' pay := by
  cases t with
  | refund =>
      cases h
      exact ⟨rfl, rfl, rfl, rfl, rfl, le_rfl, sub_le_self _ h0⟩
  | vestingBalance balance =>
      unfold payWorkerType at h
      cases hv : e.vestingBalances.lookup balance with
      | none =>
          simp only [hv] at h
          cases h
      | some v =>
          simp only [hv] at h
          obtain ⟨v', -, h⟩ := except_bind_eq_ok.mp h
          cases h
          exact .of_core h0 rfl rfl rfl rfl
  | burn =>
      obtain ⟨-, b, rfl⟩ := getBalance_adjustBalance h
      exact .of_core h0 rfl rfl rfl rfl
  | exchange account =>
      obtain ⟨a, -, h⟩ := except_bind_eq_ok.mp h
      cases h
      exact .of_core h0 rfl rfl rfl rfl

lemma payWorker_spent {w : Worker} {pay : ℤ} (h0 : 0 ≤ pay) (h : e.payWorker w pay = .ok e') :
    Spent e e' pay := by
  obtain ⟨e₁, h₁, h⟩ := except_bind_eq_ok.mp h
  cases h
  obtain ⟨hf, hp, ha, hi, hm, hb, hs⟩ := payWorkerType_spent h0 h₁
  exact ⟨hf, hp, ha, hi, hm, hb, hs⟩

/-- The loop pays no more than the budget. -/
lemma payActive_spec {budget distance paid pay : ℤ} {ws : List Worker}
    (h : payActive budget distance ws paid e = .ok (pay, e')) (hle : paid ≤ budget) :
    pay ≤ budget ∧ paid ≤ pay ∧ Spent e e' (pay - paid) := by
  induction ws generalizing paid e with
  | nil =>
      cases h
      exact ⟨hle, le_rfl, .of_core (sub_self _).ge rfl rfl rfl rfl⟩
  | cons w ws ih =>
      obtain ⟨requested, -, h⟩ := except_bind_eq_ok.mp h
      by_cases hpos : 0 < min (budget - paid) requested
      · rw [if_pos hpos] at h
        obtain ⟨e₁, h₁, h⟩ := except_bind_eq_ok.mp h
        obtain ⟨hpay, hmono, hrest⟩ := ih h (by omega)
        refine ⟨hpay, by omega, ?_⟩
        convert (payWorker_spent hpos.le h₁).trans hrest using 1
        ring
      · rw [if_neg hpos] at h
        exact ih h hle

/-- Workers are paid only from a budget. -/
lemma spendBudget_spec {ws : List Worker} {budget distance pay : ℤ}
    (h : e.spendBudget ws budget distance = .ok (pay, e')) :
    (if 0 < budget then pay ≤ budget else pay = 0) ∧ 0 ≤ pay ∧ Spent e e' pay := by
  unfold spendBudget at h
  by_cases hpos : 0 < budget
  · rw [if_pos hpos] at h ⊢
    obtain ⟨⟨pay', e₁⟩, hloop, h⟩ := except_bind_eq_ok.mp h
    obtain ⟨hle, h0, hspent⟩ := payActive_spec hloop hpos.le
    simp only [if_pos hle] at h
    cases h
    rw [sub_zero] at hspent
    exact ⟨hle, h0, hspent⟩
  · rw [if_neg hpos] at h ⊢
    cases h
    exact ⟨rfl, le_rfl, .of_core le_rfl rfl rfl rfl rfl⟩

/-! ### The budget of the workers -/

namespace Payroll

variable (p : Payroll)

/-- What has been issued for the workers, before one of them burns its pay. -/
def issued : ℤ := p.funded.core.currentSupply - p.before.core.currentSupply

/-- What the platform account has been debited. -/
def debited : ℤ :=
  p.before.getBalance platformAccount coreAsset - p.funded.getBalance platformAccount coreAsset

/-- The workers get no more than their budget, and this is what is issued and what is debited. -/
def Conserved : Prop :=
  p.budgetPay ≤ p.record.workerBudget ∧ p.issued + p.debited = p.record.workerBudget ∧
    p.after.properties.minersPayed .worker - p.before.properties.minersPayed .worker =
      p.record.workerBudget

end Payroll

/-- The workers' budget is funded: by the platform account, or by issuing something, or not at all. -/
def FundsWorkers (e : Economy) (amount : ℤ) : Prop :=
  if amount ≤ e.getBalance platformAccount coreAsset then 0 ≤ amount
  else if 0 < e.workerIssue amount then
    0 ≤ e.workerIssue amount + e.getBalance platformAccount coreAsset
  else e.workerIssue amount + e.getBalance platformAccount coreAsset = 0

/-- A maintenance one day after the last, with a worker that asks for 500, and 100 in the platform
account. -/
def budgetEconomy (minerSupply budgetSupply : ℤ) : Economy where
  time := 186400
  parameters :=
    { blockInterval := 5, witnessPayPerBlock := 1, witnessPayVestingSeconds := 86400
      cashbackVestingPeriodSeconds := 86400, cashbackVestingThreshold := 100
      maxWorkerBudgetPerDay := 1000, couponExpireTime := 0, couponPerMonth := 0 }
  properties :=
    { nextMaintenanceTime := 272800, lastBudgetTime := 100000, minerSupply := minerSupply
      budgetSupply := budgetSupply }
  core :=
    { issuer := 3, maxSupply := maxShareSupply, currentSupply := 5000, accumulatedFees := 50 }
  balances := (∅ : AList fun _ : ℕ × ℕ => ℤ).insert (platformAccount, coreAsset) 100
  witnesses := (∅ : AList fun _ : ℕ => Witness).insert 1 { witnessAccount := 200 }
  workers := [{ id := 1, workBeginDate := 0, workEndDate := 1000000, dailyPay := 500
                worker := .burn, totalVotesFor := 10, isApproved := true }]

/-- The supplies are within their caps, and the sources of the budget are not negative. -/
structure WithinCaps (e : Economy) : Prop where
  minerSupply : e.properties.minerSupply ≤ maxShareMiner
  currentSupply : e.core.currentSupply ≤ e.core.maxSupply
  fees : 0 ≤ e.core.accumulatedFees
  budget : 0 ≤ e.properties.minersBudget .witness

/-- Nothing can be issued for the witnesses. -/
def Exhausted (e : Economy) : Prop :=
  e.properties.minerSupply = maxShareMiner ∨ e.core.currentSupply = e.core.maxSupply

/-- The budget of the witnesses is funded: there is nothing to lose where there is no new budget, and where
there is one, fees that do not suffice are accompanied by something that is issued. -/
def FundsMiners (e : Economy) : Prop :=
  if e.NoBudget then e.properties.minersBudget .witness = 0
  else ¬ (0 < e.core.accumulatedFees ∧ e.core.accumulatedFees < e.witnessNeed ∧ e.Exhausted)

/-- The budget that `process_budget` sets, and the supply and the fees that `budget_miners` leaves. -/
lemma budgetMiners_conserved_iff (h : e.WithinCaps) :
    (e.budgetMiners.1.core.currentSupply - e.core.currentSupply =
      e.budgetMiners.1.core.accumulatedFees - e.core.accumulatedFees +
        (e.budgetMiners.2.minerBudget - e.properties.minersBudget .witness)) ↔ e.FundsMiners := by
  obtain ⟨hminer, hsupply, hfees, hbudget⟩ := h
  rw [budgetMiners, FundsMiners]
  by_cases hno : e.NoBudget
  · rw [if_pos hno, if_pos hno]
    show e.core.currentSupply - e.core.currentSupply =
      e.core.accumulatedFees - e.core.accumulatedFees + (0 - _) ↔ _
    omega
  rw [if_neg hno, if_neg hno]
  by_cases hneed : e.witnessNeed ≤ e.core.accumulatedFees
  · rw [if_pos hneed]
    refine iff_of_true ?_ fun hall => absurd hall.2.1 (by omega)
    show e.core.currentSupply - e.core.currentSupply =
      e.core.accumulatedFees - e.witnessNeed - e.core.accumulatedFees +
        (e.witnessNeed + e.properties.minersBudget .witness - _)
    ring
  rw [if_neg hneed]
  by_cases hissue : 0 < e.minerIssue
  · simp only [if_pos hissue]
    refine iff_of_true ?_ ?_
    · show e.core.currentSupply + e.minerIssue - e.core.currentSupply = 0 - e.core.accumulatedFees +
        (e.minerIssue + e.core.accumulatedFees + e.properties.minersBudget .witness - _)
      ring
    · rintro ⟨-, -, hex⟩
      unfold minerIssue clampSupply reserved at hissue
      unfold Exhausted at hex
      omega
  · simp only [if_neg hissue]
    -- within the caps the clamp is zero, and so one of them is reached
    have hzero : e.minerIssue = 0 ∧ e.Exhausted := by
      rw [minerIssue, clampSupply, reserved] at hissue ⊢
      rw [Exhausted]
      omega
    show e.core.currentSupply - e.core.currentSupply =
      e.core.accumulatedFees - e.core.accumulatedFees +
        (e.minerIssue + e.core.accumulatedFees + e.properties.minersBudget .witness - _) ↔ _
    have hex := hzero.2
    simp only [hex, and_true]
    omega

/-- A deposit of witness pay goes through, and adds exactly the amount. -/
lemma depositWitnessPay_spec (h : e.VestingConsistent) {wit : Witness}
    (hvb : ∀ vb, wit.payVb = some vb → e.HasVesting vb) (wid : ℕ) (amount : ℤ) :
    ∃ e', e.depositWitnessPay wid wit amount = .ok e' ∧ e'.properties = e.properties ∧
      e'.core = e.core ∧ e'.vestingTotal = e.vestingTotal + amount := by
  rw [depositWitnessPay]
  by_cases h0 : amount = 0
  · rw [if_pos h0, h0]
    exact ⟨e, rfl, rfl, rfl, (add_zero _).symm⟩
  rw [if_neg h0]
  obtain ⟨r, e₁, hdep, hv, -⟩ := depositLazyVesting_spec h hvb amount
    e.parameters.witnessPayVestingSeconds wit.witnessAccount true
  have htotal := hv.total
  obtain ⟨vb, n, rfl⟩ := hv.rest
  simp only [hdep]
  cases r with
  | none => exact ⟨_, rfl, rfl, rfl, htotal⟩
  | some vbid =>
      show ∃ e', (if wit.payVb = some vbid then _ else _) = _ ∧ _
      split_ifs
      · exact ⟨_, rfl, rfl, rfl, htotal⟩
      · exact ⟨_, rfl, rfl, rfl, htotal⟩

/-- The payroll leaves the fees and the budget of the witnesses alone. -/
lemma payWorkers_kept {record : BudgetRecord} {p : Payroll} (h : e.payWorkers record = .ok p) :
    p.before = e ∧ p.record.minerBudget = record.minerBudget ∧
      p.after.core.accumulatedFees = e.core.accumulatedFees := by
  obtain ⟨amount, -, h⟩ := except_bind_eq_ok.mp h
  obtain ⟨⟨budget, e₁⟩, hfund, h⟩ := except_bind_eq_ok.mp h
  obtain ⟨⟨pay, e₂⟩, hspend, h⟩ := except_bind_eq_ok.mp h
  cases h
  obtain ⟨⟨supply, hcore⟩, -⟩ := fundWorkers_cases hfund
  obtain ⟨-, -, hspent⟩ := spendBudget_spec hspend
  refine ⟨rfl, rfl, hspent.fees.trans ?_⟩
  show e₁.core.accumulatedFees = _
  rw [hcore]

/-- What leaves the budget of the witnesses when one of them is paid. -/
def witnessPay (e : Economy) : ℤ :=
  min e.parameters.witnessPayPerBlock (e.properties.minersBudget .witness)

lemma updateSigningWitness_spec (h : e.VestingConsistent) {wid : ℕ} {wit : Witness}
    (hwit : e.witnesses.lookup wid = some wit) (hvb : ∀ vb, wit.payVb = some vb → e.HasVesting vb) :
    ∃ e', e.updateSigningWitness wid = .ok e' ∧ e'.core = e.core ∧
      e'.properties.minersBudget .witness = e.properties.minersBudget .witness - e.witnessPay ∧
      e'.vestingTotal = e.vestingTotal + e.witnessPay := by
  rw [updateSigningWitness]
  rw [hwit]
  obtain ⟨e', hdep, hprop, hcore, htotal⟩ := depositWitnessPay_spec
    (e := { e with properties := { e.properties with
      minersBudget := Function.update e.properties.minersBudget .witness
        (e.properties.minersBudget .witness - e.witnessPay)
      minersPayed := Function.update e.properties.minersPayed .witness
        (e.properties.minersPayed .witness + e.witnessPay) } })
    ⟨h.fresh, h.inTime⟩ hvb wid e.witnessPay
  refine ⟨e', hdep, hcore, ?_, htotal⟩
  rw [hprop]
  show Function.update e.properties.minersBudget .witness
    (e.properties.minersBudget .witness - e.witnessPay) .witness = _
  rw [Function.update_self]

end Economy

end ZosCore
