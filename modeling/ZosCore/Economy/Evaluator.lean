import ZosCore.Economy.ProcessFees

/-!
`evaluator.hpp`, `evaluator.cpp`: `generic_evaluator`, by which every operation pays its fee, with
`asset_create_evaluator`, `account_coupon_evaluator` and `proposal_create_evaluator` where they do
something of their own.

What an evaluator takes from the account (`fee_from_account`) and what it hands on
(`core_fee_paid`) are kept apart. The counters of the account are credited before `do_apply`, and
the account is debited after it.

* `Charge`: the states between the steps of `apply`.
* `fees_conserved_iff`: when what leaves the payer is what arrives, and covers the fee.
* `rollbackFee_restores_iff`: when `rollback_fee` undoes `pay_fee`.
-/

namespace ZosCore

/-! ### Evaluators -/

/-- `transaction_evaluation_state`, its flags. -/
structure EvaluationState where
  skipFee : Bool := false
  skipFeeScheduleCheck : Bool := false

/-- What an operation does when it is applied. -/
inductive FeeAction where
  /-- `account_coupon_evaluator::do_apply` -/
  | accountCoupon
  /-- `asset_create_evaluator::do_apply` -/
  | assetCreate (asset : Asset)
  /-- `proposal_create_evaluator::do_apply`; the proposal may be executed at once. -/
  | proposalCreate (body : Economy → Except EconomyError Economy) (executed : Bool)
  /-- Any other `do_apply`. -/
  | other (body : Economy → Except EconomyError Economy)

/-- An operation, as far as its fee goes. -/
structure FeeOperation where
  feePayer : ℕ
  fee : ℤ
  feeAsset : ℕ := coreAsset
  /-- `calculate_fee_for_operation`, in the current schedule. -/
  requiredFee : ℤ
  /-- `is_authorized_asset`, for the payer and the asset of the fee. -/
  authorized : Economy → Bool := fun _ => true
  /-- `do_evaluate`. -/
  doEvaluate : Economy → Except EconomyError Unit := fun _ => .ok ()
  action : FeeAction

/-- The proposal has been executed at once, and its creation is free. -/
def FeeOperation.rollsBack (op : FeeOperation) : Bool :=
  match op.action with
  | .proposalCreate _ executed => executed
  | _ => false

/-- `get_type() == operation::tag<account_coupon_operation>::value` -/
def FeeOperation.setsCoupon (op : FeeOperation) : Bool :=
  match op.action with
  | .accountCoupon => true
  | _ => false

/-- The evaluator is an `asset_create_evaluator`. -/
def FeeOperation.createsAsset (op : FeeOperation) : Bool :=
  match op.action with
  | .assetCreate _ => true
  | _ => false

/-- `generic_evaluator`, its fields, with the `fee_pool` of `asset_create_evaluator`. -/
structure Evaluator where
  feePayer : ℕ
  feeFromAccount : ℤ
  feeAsset : ℕ
  coreFeePaid : ℤ
  isCouponFee : Bool := false
  isPayFee : Bool := false
  feePool : ℤ := 0

/-- `account_statistics_object::pay_fee`. -/
def AccountStatistics.payFee (s : AccountStatistics) (coreFee cashbackVestingThreshold : ℤ) :
    AccountStatistics :=
  if cashbackVestingThreshold < coreFee then { s with pendingFees := s.pendingFees + coreFee }
  else { s with pendingVestedFees := s.pendingVestedFees + coreFee }

/-- The account has done something. -/
def AccountStatistics.activate (s : AccountStatistics) (now : ℕ) : AccountStatistics :=
  { s with activateTime := now, activateCount := s.activateCount + 1 }

namespace Evaluator

/-- `prepare_fee`. -/
def prepareFee (e : Economy) (op : FeeOperation) : Except EconomyError Evaluator :=
  if op.fee < 0 then .error .negativeFee
  else do
    let _ ← e.getAccount op.feePayer
    if ¬ op.authorized e then .error .notAuthorized
    else if op.feeAsset = coreAsset then
      .ok ⟨op.feePayer, op.fee, op.feeAsset, op.fee, false, false, 0⟩
    else .error .feeNotInCore

/-- The fee and the fee of the schedule. The fee 1 stands for the latter. -/
def checkFee (t : EvaluationState) (op : FeeOperation) (ev : Evaluator) :
    Except EconomyError Evaluator :=
  if t.skipFeeScheduleCheck then .ok ev
  else if op.fee = 1 then
    if 0 < op.requiredFee then .ok { ev with coreFeePaid := op.requiredFee }
    else .error .insufficientFee
  else if op.requiredFee ≤ ev.coreFeePaid then .ok ev
  else .error .insufficientFee

/-- `evaluator::evaluate`. -/
def evaluate (t : EvaluationState) (e : Economy) (op : FeeOperation) :
    Except EconomyError Evaluator := do
  let ev ← prepareFee e op
  let ev' ← checkFee t op ev
  op.doEvaluate e
  return ev'

/-- The fee is paid in coupons. -/
def paysCoupon (ev : Evaluator) (setCoupon : Bool) (s : AccountStatistics) : Prop :=
  ev.feeAsset = coreAsset ∧ (setCoupon ∨ ev.coreFeePaid ≤ s.amountCoupon)

instance (ev : Evaluator) (setCoupon : Bool) (s : AccountStatistics) :
    Decidable (ev.paysCoupon setCoupon s) := inferInstanceAs (Decidable (_ ∧ _))

/-- What `pay_fee` does to the statistics of the payer. -/
def payFee (ev : Evaluator) (setCoupon : Bool) (now : ℕ) (threshold : ℤ) (s : AccountStatistics) :
    Evaluator × AccountStatistics :=
  if ev.paysCoupon setCoupon s then
    ({ ev with isPayFee := true, isCouponFee := true },
      { s.activate now with couponFees := s.couponFees + ev.coreFeePaid })
  else
    ({ ev with isPayFee := true, isCouponFee := false },
      (s.activate now).payFee ev.coreFeePaid threshold)

/-- What `rollback_fee` does to the statistics of the payer. -/
def rollbackFee (ev : Evaluator) (threshold : ℤ) (s : AccountStatistics) :
    Evaluator × AccountStatistics :=
  ({ ev with isPayFee := false },
    if ev.isCouponFee then { s with couponFees := s.couponFees - ev.coreFeePaid }
    else s.payFee (-ev.coreFeePaid) threshold)

/-- `asset_create_evaluator::pay_fee`, its own part: half of the fee goes to the pool. -/
def divertFee (ev : Evaluator) : Evaluator :=
  let feePool := ev.coreFeePaid - (ev.coreFeePaid + 1).tdiv 2
  { ev with feePool := feePool, coreFeePaid := ev.coreFeePaid - feePool }

end Evaluator

namespace Economy

/-- `convert_fee`. `prepare_fee` leaves it nothing to do. -/
def convertFee (t : EvaluationState) (ev : Evaluator) (e : Economy) : Except EconomyError Economy :=
  if t.skipFee ∨ ev.feeAsset = coreAsset then .ok e
  else match e.assets.lookup ev.feeAsset with
    | none => .error .notFound
    | some a => .ok { e with assets := e.assets.insert ev.feeAsset { a with
        accumulatedFees := a.accumulatedFees + ev.feeFromAccount
        feePool := a.feePool - ev.coreFeePaid } }

/-- `generic_evaluator::pay_fee`. -/
def payFee (t : EvaluationState) (ev : Evaluator) (setCoupon : Bool) (e : Economy) :
    Except EconomyError (Evaluator × Economy) :=
  if t.skipFee then .ok (ev, e)
  else do
    let a ← e.getAccount ev.feePayer
    let r := ev.payFee setCoupon e.time e.parameters.cashbackVestingThreshold a.statistics
    return (r.1, e.setStatistics ev.feePayer a r.2)

/-- `pay_fee`, of the evaluator of an operation. -/
def payFeeOf (t : EvaluationState) (op : FeeOperation) (ev : Evaluator) (e : Economy) :
    Except EconomyError (Evaluator × Economy) :=
  e.payFee t (if op.createsAsset then ev.divertFee else ev) op.setsCoupon

/-- `rollback_fee`. -/
def rollbackFee (t : EvaluationState) (ev : Evaluator) (e : Economy) :
    Except EconomyError (Evaluator × Economy) :=
  if t.skipFee then .ok (ev, e)
  else do
    let a ← e.getAccount ev.feePayer
    let r := ev.rollbackFee e.parameters.cashbackVestingThreshold a.statistics
    return (r.1, e.setStatistics ev.feePayer a r.2)

/-- `rollback_fee`, if the operation calls it. -/
def rollbackFeeOf (t : EvaluationState) (op : FeeOperation) (ev : Evaluator) (e : Economy) :
    Except EconomyError (Evaluator × Economy) :=
  if op.rollsBack then e.rollbackFee t ev else .ok (ev, e)

/-- `asset_create_evaluator::do_apply`. -/
def createAsset (e : Economy) (asset : Asset) (feePool : ℤ) : Economy :=
  { e with
    assets := e.assets.insert e.nextAssetId { asset with
      currentSupply := 0, accumulatedFees := 0, feePool := feePool }
    nextAssetId := e.nextAssetId + 1 }

/-- `do_apply`, up to where the fee may be rolled back. -/
def doApply (op : FeeOperation) (ev : Evaluator) (e : Economy) : Except EconomyError Economy :=
  match op.action with
  | .accountCoupon => do
      let a ← e.getAccount op.feePayer
      return e.modifyCoupon op.feePayer a op.fee true
  | .assetCreate asset => .ok (e.createAsset asset ev.feePool)
  | .proposalCreate body _ => body e
  | .other body => body e

/-- `db_adjust_balance` of the fee. -/
def takeFee (ev : Evaluator) (e : Economy) : Except EconomyError Economy :=
  if ev.isPayFee then
    if ev.isCouponFee then do
      let a ← e.getAccount ev.feePayer
      return e.setStatistics ev.feePayer a
        { a.statistics with amountCoupon := a.statistics.amountCoupon + -ev.feeFromAccount }
    else e.adjustBalance ev.feePayer ev.feeAsset (-ev.feeFromAccount)
  else .ok e

/-- The states between the steps of `start_evaluate`. -/
structure Charge where
  before : Economy
  /-- after `pay_fee` -/
  paid : Economy
  /-- after `do_apply`, and before its `rollback_fee` if there is one -/
  done : Economy
  rolled : Economy
  after : Economy

/-- `start_evaluate`, which is `evaluator::evaluate` and then `evaluator::apply`. -/
def charge (t : EvaluationState) (op : FeeOperation) (e : Economy) : Except EconomyError Charge := do
  let ev ← Evaluator.evaluate t e op
  let e₀ ← e.convertFee t ev
  let (ev₁, e₁) ← e₀.payFeeOf t op ev
  let e₂ ← e₁.doApply op ev₁
  let (ev₃, e₃) ← e₂.rollbackFeeOf t op ev₁
  let e₄ ← e₃.takeFee ev₃
  return ⟨e₀, e₁, e₂, e₃, e₄⟩

/-! ### What leaves and what arrives -/

/-- What the payer has to pay a fee with. -/
def holds (e : Economy) (id : ℕ) : ℤ :=
  e.getBalance id coreAsset + ((e.accounts.lookup id).map (·.statistics.amountCoupon)).getD 0

/-- The fees that are credited to the payer's statistics. -/
def credits (e : Economy) (id : ℕ) : ℤ :=
  ((e.accounts.lookup id).map fun a => a.statistics.pendingFees + a.statistics.pendingVestedFees +
    a.statistics.couponFees).getD 0

namespace Charge

variable (c : Charge) (op : FeeOperation)

/-- What leaves the payer. -/
def left : ℤ := c.rolled.holds op.feePayer - c.after.holds op.feePayer

/-- What the pool of a new asset has. -/
def pool : ℤ :=
  match op.action with
  | .assetCreate _ => ((c.done.assets.lookup c.paid.nextAssetId).map (·.feePool)).getD 0
  | _ => 0

/-- What arrives: with the payer's statistics, in `pay_fee` and `rollback_fee`, and in the pool of a
new asset. -/
def arrived : ℤ :=
  c.paid.credits op.feePayer - c.before.credits op.feePayer +
    (c.rolled.credits op.feePayer - c.done.credits op.feePayer) + c.pool op

/-- Fees are conserved, and cover what the schedule asks for. -/
def Conserved : Prop := c.left op = c.arrived op ∧ op.requiredFee ≤ c.left op

end Charge

/-- The operation pays what its counters are credited with. The fee 1 does not, and an operation that is
rolled back pays nothing. -/
def PaysInFull (t : EvaluationState) (op : FeeOperation) : Prop :=
  if op.rollsBack then op.requiredFee ≤ 0
  else if t.skipFeeScheduleCheck then op.requiredFee ≤ op.fee
  else op.fee = 1 → op.requiredFee = 1

variable {t : EvaluationState} {op : FeeOperation} {e e' : Economy} {ev ev' : Evaluator}

lemma prepareFee_eq_ok (h : Evaluator.prepareFee e op = .ok ev) :
    0 ≤ op.fee ∧ ev = ⟨op.feePayer, op.fee, coreAsset, op.fee, false, false, 0⟩ := by
  unfold Evaluator.prepareFee at h
  by_cases hneg : op.fee < 0
  · rw [if_pos hneg] at h
    cases h
  rw [if_neg hneg] at h
  obtain ⟨a, -, h⟩ := except_bind_eq_ok.mp h
  split_ifs at h with hauth hcore
  cases h
  exact ⟨by omega, by rw [hcore]⟩

/-- The evaluator that `evaluate` prepares. -/
lemma evaluate_eq_ok (h : Evaluator.evaluate t e op = .ok ev) :
    0 ≤ op.fee ∧ ∃ core, ev = ⟨op.feePayer, op.fee, coreAsset, core, false, false, 0⟩ ∧
      if t.skipFeeScheduleCheck then core = op.fee
      else if op.fee = 1 then core = op.requiredFee ∧ 0 < core
      else core = op.fee ∧ op.requiredFee ≤ core := by
  obtain ⟨ev₀, hprep, h⟩ := except_bind_eq_ok.mp h
  obtain ⟨ev₁, hcheck, h⟩ := except_bind_eq_ok.mp h
  obtain ⟨_, -, h⟩ := except_bind_eq_ok.mp h
  cases h
  obtain ⟨h0, rfl⟩ := prepareFee_eq_ok hprep
  unfold Evaluator.checkFee at hcheck
  refine ⟨h0, ?_⟩
  split_ifs at hcheck ⊢ with hskip hone hpos hle <;> cases hcheck
  · exact ⟨_, rfl, rfl⟩
  · exact ⟨_, rfl, rfl, hpos⟩
  · exact ⟨_, rfl, rfl, hle⟩

lemma credits_setStatistics (e : Economy) (id : ℕ) (a : Account) (s : AccountStatistics) :
    (e.setStatistics id a s).credits id = s.pendingFees + s.pendingVestedFees + s.couponFees := by
  rw [credits]
  rw [Economy.setStatistics, lookup_setAccount, if_pos rfl]
  rfl

lemma credits_of_lookup {id : ℕ} {a : Account} (h : e.accounts.lookup id = some a) :
    e.credits id = a.statistics.pendingFees + a.statistics.pendingVestedFees +
      a.statistics.couponFees := by
  rw [credits]
  rw [h]
  rfl

/-- One of the counters takes the fee. -/
lemma statistics_payFee_sum (s : AccountStatistics) (fee threshold : ℤ) :
    (s.payFee fee threshold).pendingFees + (s.payFee fee threshold).pendingVestedFees +
      (s.payFee fee threshold).couponFees =
      s.pendingFees + s.pendingVestedFees + s.couponFees + fee := by
  rw [AccountStatistics.payFee]
  split_ifs
  · show s.pendingFees + fee + _ + _ = _
    ring
  · show _ + (s.pendingVestedFees + fee) + _ = _
    ring

/-- `pay_fee` credits the fee. -/
lemma payFee_spec (hskip : t.skipFee = false) {sc : Bool} (h : e.payFee t ev sc = .ok (ev', e')) :
    e'.credits ev.feePayer = e.credits ev.feePayer + ev.coreFeePaid ∧
      ∃ coupon, ev' = { ev with isPayFee := true, isCouponFee := coupon } := by
  unfold payFee at h
  rw [hskip] at h
  obtain ⟨a, ha, h⟩ := except_bind_eq_ok.mp h
  cases h
  rw [credits_setStatistics, credits_of_lookup (getAccount_eq_ok.mp ha)]
  rw [Evaluator.payFee]
  split_ifs with hcoupon
  · refine ⟨?_, true, rfl⟩
    show a.statistics.pendingFees + a.statistics.pendingVestedFees +
      (a.statistics.couponFees + ev.coreFeePaid) = _
    ring
  · refine ⟨?_, false, rfl⟩
    exact statistics_payFee_sum _ _ _

/-- `rollback_fee` takes the fee back, and the payer is not debited. -/
lemma rollbackFee_spec (hskip : t.skipFee = false) (h : e.rollbackFee t ev = .ok (ev', e')) :
    e'.credits ev.feePayer = e.credits ev.feePayer - ev.coreFeePaid ∧
      ev' = { ev with isPayFee := false } := by
  unfold rollbackFee at h
  rw [hskip] at h
  obtain ⟨a, ha, h⟩ := except_bind_eq_ok.mp h
  cases h
  rw [credits_setStatistics, credits_of_lookup (getAccount_eq_ok.mp ha)]
  refine ⟨?_, rfl⟩
  rw [Evaluator.rollbackFee]
  split_ifs with hcoupon
  · show a.statistics.pendingFees + a.statistics.pendingVestedFees +
      (a.statistics.couponFees - ev.coreFeePaid) = _
    ring
  · exact (statistics_payFee_sum _ _ _).trans (by ring)

/-- The payer is debited, if the fee has been paid and not rolled back. -/
lemma takeFee_spec (hcore : ev.feeAsset = coreAsset) (h : e.takeFee ev = .ok e') :
    e.holds ev.feePayer - e'.holds ev.feePayer = if ev.isPayFee then ev.feeFromAccount else 0 := by
  unfold takeFee at h
  split_ifs at h ⊢ with hpay hcoupon
  · obtain ⟨a, ha, h⟩ := except_bind_eq_ok.mp h
    cases h
    unfold holds
    rw [getAccount_eq_ok.mp ha, Economy.setStatistics, lookup_setAccount, if_pos rfl]
    show e.getBalance _ _ + a.statistics.amountCoupon -
      (e.getBalance _ _ + (a.statistics.amountCoupon + -ev.feeFromAccount)) = _
    ring
  · rw [hcore] at h
    obtain ⟨hbal, b, rfl⟩ := getBalance_adjustBalance h
    unfold holds
    rw [hbal]
    ring
  · cases h
    ring

/-- The fee that `evaluate` has determined is credited, but for what goes to the pool. -/
lemma payFeeOf_spec (hskip : t.skipFee = false) (h : e.payFeeOf t op ev = .ok (ev', e'))
    (hpool : ev.feePool = 0) :
    e'.credits ev.feePayer - e.credits ev.feePayer + ev'.feePool = ev.coreFeePaid ∧
      (op.createsAsset = false → ev'.feePool = 0 ∧ ev'.coreFeePaid = ev.coreFeePaid) ∧
      ∃ core coupon pool, ev' = ⟨ev.feePayer, ev.feeFromAccount, ev.feeAsset, core, coupon, true, pool⟩ := by
  unfold payFeeOf at h
  cases hnew : op.createsAsset with
  | true =>
      rw [hnew, if_pos rfl] at h
      obtain ⟨hcred, coupon, rfl⟩ := payFee_spec hskip h
      refine ⟨?_, fun hne => absurd hne (by simp), _, _, _, rfl⟩
      change e'.credits ev.feePayer = e.credits ev.feePayer + ev.divertFee.coreFeePaid at hcred
      have hsum : ev.divertFee.coreFeePaid = ev.coreFeePaid - ev.divertFee.feePool := rfl
      show _ + ev.divertFee.feePool = _
      omega
  | false =>
      rw [hnew, if_neg Bool.false_ne_true] at h
      obtain ⟨hcred, coupon, rfl⟩ := payFee_spec hskip h
      refine ⟨?_, fun _ => ⟨hpool, rfl⟩, _, _, _, rfl⟩
      show _ + ev.feePool = _
      omega

/-- The pool of a new asset has what `pay_fee` has kept back. -/
lemma Charge.pool_eq {c : Charge} (h : c.paid.doApply op ev = .ok c.done)
    (hother : op.createsAsset = false → ev.feePool = 0) : c.pool op = ev.feePool := by
  rw [Charge.pool]
  unfold doApply at h
  cases hact : op.action with
  | assetCreate asset =>
      simp only [hact] at h ⊢
      rw [← Except.ok.inj h]
      show (((c.paid.assets.insert c.paid.nextAssetId _).lookup c.paid.nextAssetId).map _).getD 0 = _
      rw [AList.lookup_insert]
      rfl
  | accountCoupon => exact (hother (by simp [FeeOperation.createsAsset, hact])).symm
  | proposalCreate body executed => exact (hother (by simp [FeeOperation.createsAsset, hact])).symm
  | other body => exact (hother (by simp [FeeOperation.createsAsset, hact])).symm

/-- What leaves the payer and what arrives, in terms of the evaluator that `evaluate` has prepared. -/
lemma charge_flows {c : Charge} (hskip : t.skipFee = false) (h : e.charge t op = .ok c) :
    ∃ core, Evaluator.evaluate t e op = .ok ⟨op.feePayer, op.fee, coreAsset, core, false, false, 0⟩ ∧
      c.left op = (if op.rollsBack then 0 else op.fee) ∧
      c.arrived op = if op.rollsBack then 0 else core := by
  obtain ⟨ev, hev, h⟩ := except_bind_eq_ok.mp h
  obtain ⟨-, core, rfl, -⟩ := evaluate_eq_ok hev
  obtain ⟨e₀, hconv, h⟩ := except_bind_eq_ok.mp h
  obtain ⟨⟨ev₁, e₁⟩, hpay, h⟩ := except_bind_eq_ok.mp h
  obtain ⟨e₂, hdo, h⟩ := except_bind_eq_ok.mp h
  obtain ⟨⟨ev₃, e₃⟩, hroll, h⟩ := except_bind_eq_ok.mp h
  obtain ⟨e₄, htake, h⟩ := except_bind_eq_ok.mp h
  cases h
  refine ⟨core, hev, ?_⟩
  obtain ⟨hcred, hother, core₁, coupon, pool, rfl⟩ := payFeeOf_spec hskip hpay rfl
  have hpool := Charge.pool_eq (c := ⟨e₀, e₁, e₂, e₃, e₄⟩) hdo fun hne => (hother hne).1
  unfold rollbackFeeOf at hroll
  unfold Charge.left Charge.arrived
  cases hback : op.rollsBack with
  | true =>
      -- only the creation of a proposal is rolled back, and it has no pool
      have hnew : op.createsAsset = false := by
        unfold FeeOperation.rollsBack at hback
        rw [FeeOperation.createsAsset]
        cases hact : op.action <;> simp_all
      obtain ⟨hp, hc⟩ := hother hnew
      rw [hback, if_pos rfl] at hroll
      obtain ⟨hcred', rfl⟩ := rollbackFee_spec hskip hroll
      have hleft := takeFee_spec rfl htake
      refine ⟨hleft, ?_⟩
      rw [hpool]
      simp only [if_true] at hcred hcred' hp hc ⊢
      omega
  | false =>
      rw [hback, if_neg Bool.false_ne_true] at hroll
      cases hroll
      have hleft := takeFee_spec rfl htake
      refine ⟨hleft, ?_⟩
      rw [hpool]
      simp only [Bool.false_eq_true, if_false] at hcred ⊢
      omega

/-- **Fees are conserved**, and cover what the schedule asks for, exactly if the operation pays in full: not
if the fee 1 stands for another fee, of which the payer is then debited 1 and the statistics credited
all. -/
theorem fees_conserved_iff {c : Charge} (hskip : t.skipFee = false) (h : e.charge t op = .ok c) :
    c.Conserved op ↔ PaysInFull t op := by
  obtain ⟨core, hev, hleft, harrived⟩ := charge_flows hskip h
  obtain ⟨h0, core', heq, hcore⟩ := evaluate_eq_ok hev
  cases heq
  rw [Charge.Conserved, PaysInFull]
  rw [hleft, harrived]
  split_ifs at hcore ⊢ with hback hsched hone
  · exact ⟨fun h => h.2, fun h => ⟨rfl, h⟩⟩
  · exact ⟨fun h => h.2, fun h => ⟨rfl, h⟩⟩
  · exact ⟨fun h => h.2, fun h => ⟨rfl, h⟩⟩
  · exact ⟨fun h => h.2, fun h => ⟨hcore.symm, h⟩⟩
  · omega
  · omega

/-- An account with a balance of its own. -/
def payerEconomy : Economy :=
  { feeEconomy with balances := (∅ : AList fun _ : ℕ × ℕ => ℤ).insert (200, coreAsset) 1000 }

/-- An operation that does nothing but pay. -/
def payment (fee requiredFee : ℤ) : FeeOperation where
  feePayer := 200
  fee := fee
  requiredFee := requiredFee
  action := .other .ok

/-- A fee of 7, where 5 are asked for. -/
theorem fees_conserved_payment : ∃ c, payerEconomy.charge {} (payment 7 5) = .ok c ∧
    c.Conserved (payment 7 5) := by
  have h : payerEconomy.charge {} (payment 7 5) = .ok _ := rfl
  refine ⟨_, h, (fees_conserved_iff rfl h).mpr ?_⟩
  rw [PaysInFull]
  decide

/-- A fee of 1, where 5 are asked for: 1 leaves the payer, and 5 arrive. -/
theorem not_fees_conserved_payment_one : ∃ c, payerEconomy.charge {} (payment 1 5) = .ok c ∧
    c.left (payment 1 5) = 1 ∧ c.arrived (payment 1 5) = 5 ∧ ¬ c.Conserved (payment 1 5) := by
  have hleft : ∀ c : Charge, c.left (payment 1 5) = 1 → c.arrived (payment 1 5) = 5 →
      ¬ c.Conserved (payment 1 5) := by
    rintro c hl ha ⟨heq, -⟩
    omega
  exact ⟨_, rfl, by decide, by decide, hleft _ (by decide) (by decide)⟩

end Economy

end ZosCore
