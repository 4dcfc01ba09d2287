import ZosCore.Member.Authentication

/-!
`transfer_evaluator.cpp`, `withdraw_permission_evaluator.cpp`, `asset_evaluator.cpp`,
`vesting_balance_evaluator.cpp`: the operations that take something out of a balance, and the
accounts with a lock on theirs.

Every evaluator asserts `!is_lock_balance()` of the accounts that it names. That of
`withdraw_permission_claim_operation` names them wrongly: its `from` is the account that the amount
goes to, so the account that it comes from is never asked.

* `State.transfer`, `State.withdrawPermissionClaim`, `State.assetReserve`,
  `State.vestingBalanceCreate`: the evaluators; those of the gateways are in `Authentication.lean`.
* `Movement`: one amount that leaves an account and may come to another.
  `DebitOp.moved`: every operation is one movement.
* `DebitOp.spares_iff`: no locked account loses anything, exactly if the operation is not a claim on
  a locked account.
-/

namespace ZosCore.Member

/-! ### Operations -/

/-- `GRAPHENE_MAX_MEMO_DATA_LENGTH` -/
def maxMemoDataLength : ℕ := 280

/-- `GRAPHENE_MAX_SHARE_SUPPLY` -/
def maxShareSupply : ℤ := 7000000000 * 100000

/-- `white_list` -/
def whiteList : ℕ := 0x02

/-- `transfer_operation`; of the memo, the size of its message. -/
structure Transfer where
  fee : ℤ
  feeAsset : ℕ := 0
  from_ : ℕ
  to_ : ℕ
  amount : ℤ
  asset : ℕ
  memo : Option ℕ := none

/-- `withdraw_permission_claim_operation`; of the memo, the size of its message. -/
structure WithdrawPermissionClaim where
  fee : ℤ
  withdrawPermission : ℕ
  withdrawFromAccount : ℕ
  withdrawToAccount : ℕ
  amountToWithdraw : ℤ
  asset : ℕ
  memo : Option ℕ := none

/-- `asset_reserve_operation` -/
structure AssetReserve where
  fee : ℤ
  payer : ℕ
  amountToReserve : ℤ
  asset : ℕ

/-- `vesting_policy_initializer` -/
inductive VestingPolicyInitializer where
  | linear (beginTimestamp vestingCliffSeconds vestingDurationSeconds : ℕ)
  | cdd (startClaim vestingSeconds : ℕ)

/-- `vesting_balance_create_operation` -/
structure VestingBalanceCreate where
  fee : ℤ
  creator : ℕ
  owner : ℕ
  amount : ℤ
  asset : ℕ
  policy : VestingPolicyInitializer

/-- The check of a memo. -/
def MemoFits (memo : Option ℕ) : Prop := ∀ size ∈ memo, size < maxMemoDataLength

instance (memo : Option ℕ) : Decidable (MemoFits memo) :=
  inferInstanceAs (Decidable (∀ size ∈ memo, size < maxMemoDataLength))

namespace Transfer

/-- `validate` -/
def Valid (op : Transfer) : Prop :=
  0 ≤ op.fee ∧ op.from_ ≠ op.to_ ∧ 0 < op.amount ∧ MemoFits op.memo

instance (op : Transfer) : Decidable op.Valid := inferInstanceAs (Decidable (_ ∧ _))

end Transfer

namespace WithdrawPermissionClaim

/-- `validate` -/
def Valid (op : WithdrawPermissionClaim) : Prop :=
  op.withdrawToAccount ≠ op.withdrawFromAccount ∧ 0 < op.amountToWithdraw ∧ 0 ≤ op.fee ∧
    MemoFits op.memo

instance (op : WithdrawPermissionClaim) : Decidable op.Valid := inferInstanceAs (Decidable (_ ∧ _))

end WithdrawPermissionClaim

namespace AssetReserve

/-- `validate` -/
def Valid (op : AssetReserve) : Prop :=
  0 ≤ op.fee ∧ op.amountToReserve ≤ maxShareSupply ∧ 0 < op.amountToReserve

instance (op : AssetReserve) : Decidable op.Valid := inferInstanceAs (Decidable (_ ∧ _))

end AssetReserve

namespace VestingBalanceCreate

/-- `validate` -/
def Valid (op : VestingBalanceCreate) : Prop := 0 ≤ op.fee ∧ 0 < op.amount

instance (op : VestingBalanceCreate) : Decidable op.Valid := inferInstanceAs (Decidable (_ ∧ _))

end VestingBalanceCreate

/-- `available_this_period`; the end of the period is a sum of 32 bits. -/
def WithdrawPermission.availableThisPeriod (p : WithdrawPermission) (currentTime : ℕ) : ℤ :=
  if (p.periodStartTime + p.withdrawalPeriodSec) % 2 ^ 32 ≤ currentTime then p.withdrawalLimit
  else if p.claimedThisPeriod < p.withdrawalLimit then p.withdrawalLimit - p.claimedThisPeriod
  else 0

/-- `_is_authorized_asset` -/
def Account.isAuthorizedAssetSlow (a : Account) (assetId : ℕ) (asset : Asset) : Bool :=
  (match a.allowedAssets with
    | none => true
    | some allowed => decide (assetId ∈ allowed)) &&
  !a.blacklistingAccounts.any (· ∈ asset.blacklistAuthorities) &&
  (asset.whitelistAuthorities.isEmpty || a.whitelistingAccounts.any (· ∈ asset.whitelistAuthorities))

/-- `is_authorized_asset` -/
def Account.isAuthorizedAsset (a : Account) (assetId : ℕ) (asset : Asset) : Bool :=
  asset.flags &&& whiteList = 0 && a.allowedAssets.isNone || a.isAuthorizedAssetSlow assetId asset

namespace State

/-- `do_evaluate` of `transfer_operation`. -/
def evaluateTransfer (s : State) (op : Transfer) : Except MemberError Unit := do
  let fromAccount ← orThrow (s.accounts.lookup op.from_)
  let toAccount ← orThrow (s.accounts.lookup op.to_)
  let assetType ← orThrow (s.assets.lookup op.asset)
  let feeAssetType ← orThrow (s.assets.lookup op.feeAsset)
  fcAssert (¬ fromAccount.isLockBalance) .lockBalance
  fcAssert (¬ toAccount.isLockBalance) .lockBalance
  fcAssert (fromAccount.isAuthorizedAsset op.asset assetType) .notAuthorizedAsset
  fcAssert (toAccount.isAuthorizedAsset op.asset assetType) .notAuthorizedAsset
  fcAssert assetType.canTransfer .cashAsset
  fcAssert feeAssetType.canTransfer .cashAsset
  fcAssert (assetType.isTransferRestricted →
    op.from_ = assetType.issuer ∨ op.to_ = assetType.issuer) .transferRestricted
  fcAssert (op.amount ≤ s.getBalance op.from_ op.asset) .insufficientBalance

/-- `do_evaluate` of `withdraw_permission_claim_operation`. The account `from_` is looked up under
`withdraw_to_account`, as the source has it. -/
def evaluateWithdrawPermissionClaim (s : State) (op : WithdrawPermissionClaim) :
    Except MemberError Unit := do
  let permit ← orThrow (s.permissions.lookup op.withdrawPermission)
  fcAssert (s.time < permit.expiration) .permission
  fcAssert (permit.authorizedAccount = op.withdrawToAccount) .permission
  fcAssert (permit.withdrawFromAccount = op.withdrawFromAccount) .permission
  fcAssert (permit.withdrawalAsset = op.asset) .permission
  fcAssert (permit.periodStartTime ≤ s.time) .permission
  fcAssert (op.amountToWithdraw ≤ permit.availableThisPeriod s.time) .permission
  fcAssert (op.amountToWithdraw ≤ s.getBalance op.withdrawFromAccount op.asset) .insufficientBalance
  let asset ← orThrow (s.assets.lookup op.asset)
  fcAssert (asset.isTransferRestricted →
    asset.issuer = permit.authorizedAccount ∨ asset.issuer = permit.withdrawFromAccount)
    .transferRestricted
  let from_ ← orThrow (s.accounts.lookup op.withdrawToAccount)
  let to_ ← orThrow (s.accounts.lookup permit.authorizedAccount)
  fcAssert (¬ from_.isLockBalance) .lockBalance
  fcAssert (¬ to_.isLockBalance) .lockBalance
  fcAssert (to_.isAuthorizedAsset op.asset asset) .notAuthorizedAsset
  fcAssert (from_.isAuthorizedAsset op.asset asset) .notAuthorizedAsset
  fcAssert (asset.isCashIssued → to_.isGatewayMember) .notGatewayMember

/-- `do_evaluate` of `asset_reserve_operation`. -/
def evaluateAssetReserve (s : State) (op : AssetReserve) : Except MemberError Unit := do
  let a ← orThrow (s.assets.lookup op.asset)
  fcAssert (¬ a.isMarketIssued op.asset) .marketIssued
  let fromAccount ← orThrow (s.accounts.lookup op.payer)
  fcAssert (¬ fromAccount.isLockBalance) .lockBalance
  fcAssert (fromAccount.isAuthorizedAsset op.asset a) .notAuthorizedAsset
  fcAssert (0 ≤ a.currentSupply - op.amountToReserve) .supply

/-- `do_evaluate` of `vesting_balance_create_operation`. -/
def evaluateVestingBalanceCreate (s : State) (op : VestingBalanceCreate) :
    Except MemberError Unit := do
  let creatorAccount ← orThrow (s.accounts.lookup op.creator)
  let _ ← orThrow (s.accounts.lookup op.owner)
  fcAssert (¬ creatorAccount.isLockBalance) .lockBalance
  fcAssert (0 < op.amount) .invalid
  fcAssert (op.amount ≤ s.getBalance op.creator op.asset) .insufficientBalance
  let asset ← orThrow (s.assets.lookup op.asset)
  fcAssert (¬ asset.isTransferRestricted) .transferRestricted

/-- `transfer_operation` -/
def transfer (s : State) (op : Transfer) : Except MemberError State := do
  fcAssert op.Valid .invalid
  s.evaluateTransfer op
  let s₁ ← s.adjustBalance op.from_ op.asset (-op.amount)
  s₁.adjustBalance op.to_ op.asset op.amount

/-- `withdraw_permission_claim_operation`: the permission counts the amount, by its periods. -/
def withdrawPermissionClaim (s : State) (op : WithdrawPermissionClaim) :
    Except MemberError State := do
  fcAssert op.Valid .invalid
  s.evaluateWithdrawPermissionClaim op
  let p ← orThrow (s.permissions.lookup op.withdrawPermission)
  let periods := (s.time - p.periodStartTime) / p.withdrawalPeriodSec
  let s₁ := { s with permissions := s.permissions.insert op.withdrawPermission { p with
    periodStartTime := (p.periodStartTime + periods * p.withdrawalPeriodSec) % 2 ^ 32
    claimedTotal := p.claimedTotal + op.amountToWithdraw
    claimedThisPeriod :=
      if periods = 0 then p.claimedThisPeriod + op.amountToWithdraw else op.amountToWithdraw } }
  let s₂ ← s₁.adjustBalance op.withdrawFromAccount op.asset (-op.amountToWithdraw)
  s₂.adjustBalance op.withdrawToAccount op.asset op.amountToWithdraw

/-- `asset_reserve_operation` -/
def assetReserve (s : State) (op : AssetReserve) : Except MemberError State := do
  fcAssert op.Valid .invalid
  s.evaluateAssetReserve op
  let s₁ ← s.adjustBalance op.payer op.asset (-op.amountToReserve)
  let a ← orThrow (s₁.assets.lookup op.asset)
  return { s₁ with
    assets := s₁.assets.insert op.asset
      { a with currentSupply := a.currentSupply - op.amountToReserve } }

/-- `init_policy_visitor` -/
def initPolicy (s : State) (amount : ℤ) : VestingPolicyInitializer → VestingPolicy
  | .linear beginTimestamp cliff duration => .linear beginTimestamp cliff duration amount
  | .cdd startClaim seconds => .cdd seconds startClaim 0 s.time

/-- `vesting_balance_create_operation` -/
def vestingBalanceCreate (s : State) (op : VestingBalanceCreate) : Except MemberError State := do
  fcAssert op.Valid .invalid
  s.evaluateVestingBalanceCreate op
  fcAssert (op.amount ≤ s.getBalance op.creator op.asset) .insufficientBalance
  let s₁ ← s.adjustBalance op.creator op.asset (-op.amount)
  return { s₁ with
    vestingBalances := s₁.vestingBalances.insert s₁.nextVesting {
      owner := op.owner
      asset := op.asset
      balance := op.amount
      policy := s₁.initPolicy op.amount op.policy }
    nextVesting := s₁.nextVesting + 1 }

end State

/-- A deposit is checked for its fields and for a lock on the gateway's balance. -/
lemma State.evaluateGatewayDeposit_unlocked {s : State} {op : GatewayDeposit}
    (h : s.evaluateGatewayDeposit op = .ok ()) :
    op.Valid ∧ ∃ f, s.accounts.lookup op.from_ = some f ∧ ¬ f.isLockBalance := by
  simp only [evaluateGatewayDeposit, except_bind_eq_ok, orThrow_eq_ok, fcAssert_eq_ok,
    exists_const] at h
  obtain ⟨t, -, f, hf, a, -, hunlocked, -, -, -, hvalid, -⟩ := h
  exact ⟨hvalid, f, hf, hunlocked⟩

/-! ### Movements -/

/-- An amount that leaves an account, and may come to another one. -/
structure Movement where
  debit : ℕ
  credit : Option ℕ
  asset : ℕ
  amount : ℤ

/-- What a movement changes of a balance. -/
def Movement.delta (m : Movement) (account asset : ℕ) : ℤ :=
  (if m.credit = some account ∧ asset = m.asset then m.amount else 0) -
    if account = m.debit ∧ asset = m.asset then m.amount else 0

/-- The balances are changed by a movement. -/
def State.Moved (s s' : State) (m : Movement) : Prop :=
  ∀ x y, s'.getBalance x y = s.getBalance x y + m.delta x y

/-- The operations that take something out of a balance. -/
inductive DebitOp where
  | transfer (op : Transfer)
  | claim (op : WithdrawPermissionClaim)
  | withdraw (op : GatewayWithdraw)
  | deposit (op : GatewayDeposit)
  | reserve (op : AssetReserve)
  | vest (op : VestingBalanceCreate)

namespace DebitOp

/-- The evaluator. -/
def apply (s : State) : DebitOp → Except MemberError State
  | transfer op => s.transfer op
  | claim op => s.withdrawPermissionClaim op
  | withdraw op => s.gatewayWithdraw op
  | deposit op => s.gatewayDeposit op
  | reserve op => s.assetReserve op
  | vest op => s.vestingBalanceCreate op

/-- What the operation moves. -/
def movement : DebitOp → Movement
  | transfer op => ⟨op.from_, some op.to_, op.asset, op.amount⟩
  | claim op => ⟨op.withdrawFromAccount, some op.withdrawToAccount, op.asset, op.amountToWithdraw⟩
  | withdraw op => ⟨op.from_, some op.to_, op.asset, op.withdraw⟩
  | deposit op => ⟨op.from_, some op.to_, op.asset, op.deposit⟩
  | reserve op => ⟨op.payer, none, op.asset, op.amountToReserve⟩
  | vest op => ⟨op.creator, none, op.asset, op.amount⟩

end DebitOp

section Moves

variable {s s₁ s' : State} {x y asset : ℕ} {amount : ℤ}

/-- An amount is taken from one account. -/
lemma State.moved_debit (h : s.adjustBalance x asset (-amount) = .ok s') :
    s.Moved s' ⟨x, none, asset, amount⟩ := by
  intro u v
  rw [(State.adjusted h).balance]
  simp only [Movement.delta, reduceCtorEq, false_and, if_false]
  split_ifs <;> ring

/-- An amount goes from one account to another, and is taken first. -/
lemma State.moved_debit_credit (h₁ : s.adjustBalance x asset (-amount) = .ok s₁)
    (h₂ : s₁.adjustBalance y asset amount = .ok s') : s.Moved s' ⟨x, some y, asset, amount⟩ := by
  intro u v
  rw [(State.adjusted h₂).balance, (State.adjusted h₁).balance]
  simp only [Movement.delta, Option.some.injEq, eq_comm (a := y)]
  split_ifs <;> ring

/-- An amount goes from one account to another, and is given first. -/
lemma State.moved_credit_debit (h₁ : s.adjustBalance y asset amount = .ok s₁)
    (h₂ : s₁.adjustBalance x asset (-amount) = .ok s') : s.Moved s' ⟨x, some y, asset, amount⟩ := by
  intro u v
  rw [(State.adjusted h₂).balance, (State.adjusted h₁).balance]
  simp only [Movement.delta, Option.some.injEq, eq_comm (a := y)]
  split_ifs <;> ring

end Moves

namespace DebitOp

variable {s s' : State}

/-- Every operation is one movement, of an amount from zero on. -/
lemma moved {op : DebitOp} (h : op.apply s = .ok s') :
    s.Moved s' op.movement ∧ 0 ≤ op.movement.amount := by
  cases op with
  | transfer op =>
      simp only [apply, State.transfer, except_bind_eq_ok, fcAssert_eq_ok, exists_const] at h
      obtain ⟨⟨-, -, hpos, -⟩, -, -, s₁, h₁, h₂⟩ := h
      exact ⟨State.moved_debit_credit h₁ h₂, hpos.le⟩
  | claim op =>
      simp only [apply, State.withdrawPermissionClaim, except_bind_eq_ok, fcAssert_eq_ok,
        orThrow_eq_ok, exists_const] at h
      obtain ⟨⟨-, hpos, -⟩, -, -, p, -, s₁, h₁, h₂⟩ := h
      have hmoved := State.moved_debit_credit h₁ h₂
      exact ⟨hmoved, hpos.le⟩
  | withdraw op =>
      simp only [apply, State.gatewayWithdraw, except_bind_eq_ok, orThrow_eq_ok] at h
      obtain ⟨⟨⟩, heval, id, -, s₁, h₁, s₂, h₂, g, -, h⟩ := h
      obtain ⟨t, f, a, ca, v, hc, -⟩ := State.evaluateGatewayWithdraw_eq_ok.mp heval
      have hmoved := State.moved_credit_debit h₁ h₂
      cases h
      exact ⟨hmoved, hc.valid.2.1⟩
  | deposit op =>
      simp only [apply, State.gatewayDeposit, except_bind_eq_ok, orThrow_eq_ok] at h
      obtain ⟨⟨⟩, heval, id, -, s₁, h₁, s₂, h₂, g, -, h⟩ := h
      have hmoved := State.moved_credit_debit h₁ h₂
      cases h
      exact ⟨hmoved, (State.evaluateGatewayDeposit_unlocked heval).1.2.1⟩
  | reserve op =>
      simp only [apply, State.assetReserve, except_bind_eq_ok, fcAssert_eq_ok, orThrow_eq_ok,
        exists_const] at h
      obtain ⟨⟨-, -, hpos⟩, -, -, s₁, h₁, a, -, h⟩ := h
      have hmoved := State.moved_debit h₁
      cases h
      exact ⟨hmoved, hpos.le⟩
  | vest op =>
      simp only [apply, State.vestingBalanceCreate, except_bind_eq_ok, fcAssert_eq_ok,
        exists_const] at h
      obtain ⟨⟨-, hpos⟩, -, -, -, s₁, h₁, h⟩ := h
      have hmoved := State.moved_debit h₁
      cases h
      exact ⟨hmoved, hpos.le⟩

/-- The operation is a claim on a locked account. -/
def ClaimsLocked (s : State) (op : DebitOp) : Prop :=
  ∃ c f, op = .claim c ∧ s.accounts.lookup c.withdrawFromAccount = some f ∧ f.isLockBalance

/-- The account that an amount leaves has no lock on its balance, unless it is claimed. -/
lemma claimsLocked {op : DebitOp} {f : Account} (h : op.apply s = .ok s')
    (hf : s.accounts.lookup op.movement.debit = some f) (hlock : f.isLockBalance) :
    op.ClaimsLocked s := by
  cases op with
  | transfer op =>
      simp only [apply, State.transfer, except_bind_eq_ok, fcAssert_eq_ok, exists_const] at h
      obtain ⟨-, ⟨⟩, heval, -⟩ := h
      simp only [State.evaluateTransfer, except_bind_eq_ok, fcAssert_eq_ok, orThrow_eq_ok,
        exists_const] at heval
      obtain ⟨f', hf', -, -, -, -, -, -, hunlocked, -⟩ := heval
      cases hf.symm.trans hf'
      exact absurd hlock hunlocked
  | claim op => exact ⟨op, f, rfl, hf, hlock⟩
  | withdraw op =>
      simp only [apply, State.gatewayWithdraw, except_bind_eq_ok] at h
      obtain ⟨⟨⟩, heval, -⟩ := h
      obtain ⟨t, f', a, ca, v, hc, -⟩ := State.evaluateGatewayWithdraw_eq_ok.mp heval
      cases hf.symm.trans hc.from_
      exact absurd hlock hc.unlocked.1
  | deposit op =>
      simp only [apply, State.gatewayDeposit, except_bind_eq_ok] at h
      obtain ⟨⟨⟩, heval, -⟩ := h
      obtain ⟨-, f', hf', hunlocked⟩ := State.evaluateGatewayDeposit_unlocked heval
      cases hf.symm.trans hf'
      exact absurd hlock hunlocked
  | reserve op =>
      simp only [apply, State.assetReserve, except_bind_eq_ok, fcAssert_eq_ok, exists_const] at h
      obtain ⟨-, ⟨⟩, heval, -⟩ := h
      simp only [State.evaluateAssetReserve, except_bind_eq_ok, fcAssert_eq_ok, orThrow_eq_ok,
        exists_const] at heval
      obtain ⟨a, -, -, f', hf', hunlocked, -⟩ := heval
      cases hf.symm.trans hf'
      exact absurd hlock hunlocked
  | vest op =>
      simp only [apply, State.vestingBalanceCreate, except_bind_eq_ok, fcAssert_eq_ok,
        exists_const] at h
      obtain ⟨-, ⟨⟩, heval, -⟩ := h
      simp only [State.evaluateVestingBalanceCreate, except_bind_eq_ok, fcAssert_eq_ok,
        orThrow_eq_ok, exists_const] at heval
      obtain ⟨f', hf', -, -, hunlocked, -⟩ := heval
      cases hf.symm.trans hf'
      exact absurd hlock hunlocked

/-- No account with a lock on its balance has less of anything afterwards. -/
def Spares (s s' : State) : Prop :=
  ∀ id a, s.accounts.lookup id = some a → a.isLockBalance →
    ∀ asset, s.getBalance id asset ≤ s'.getBalance id asset

/-- **A locked account is not drained, unless there is a permission to withdraw from it.** An
operation that is accepted takes nothing from the accounts with a lock on their balances exactly if
it is not a claim on one of them. -/
theorem spares_iff {op : DebitOp} (h : op.apply s = .ok s') :
    Spares s s' ↔ ¬ op.ClaimsLocked s := by
  obtain ⟨hmoved, hamount⟩ := moved h
  constructor
  · rintro hspares ⟨c, f, rfl, hf, hlock⟩
    have hle := hspares _ f hf hlock c.asset
    simp only [apply, State.withdrawPermissionClaim, except_bind_eq_ok, fcAssert_eq_ok,
      exists_const] at h
    obtain ⟨⟨hne, hpos, -⟩, -⟩ := h
    rw [hmoved] at hle
    simp only [movement, Movement.delta, Option.some.injEq, hne, false_and, and_self, if_true,
      if_false] at hle
    omega
  · intro hnot id a ha hlock asset
    have hne : id ≠ op.movement.debit := by
      rintro rfl
      exact hnot (claimsLocked h ha hlock)
    rw [hmoved]
    simp only [Movement.delta, hne, false_and, if_false]
    split_ifs <;> omega

/-- A locked account that has permitted another one to withdraw from it. -/
def lockedGrantor : State where
  time := 100
  accounts := AList.insert 1 { uaccountProperty := accountLockBalance } (AList.insert 2 {} ∅)
  balances := AList.insert (1, 1) 100 ∅
  assets := AList.insert 1 { issuer := 3 } ∅
  permissions := AList.insert 0 { withdrawFromAccount := 1, authorizedAccount := 2,
                                  withdrawalLimit := 70, withdrawalAsset := 1,
                                  withdrawalPeriodSec := 60, periodStartTime := 90,
                                  expiration := 1000 } ∅

/-- A claim of all that may be withdrawn in the period. -/
def claimAll : WithdrawPermissionClaim where
  fee := 0
  withdrawPermission := 0
  withdrawFromAccount := 1
  withdrawToAccount := 2
  amountToWithdraw := 70
  asset := 1

/-- The claim is accepted. -/
lemma exists_claimAll : ∃ s', (claim claimAll).apply lockedGrantor = .ok s' :=
  exists_eq_ok (by decide +kernel)

theorem spares_iff_claimAll : ∃ s', (claim claimAll).apply lockedGrantor = .ok s' ∧
    (Spares lockedGrantor s' ↔ ¬ (claim claimAll).ClaimsLocked lockedGrantor) := by
  obtain ⟨s', h⟩ := exists_claimAll
  exact ⟨s', h, spares_iff h⟩

/-- A locked account is drained. -/
theorem not_spares_claimAll : ∃ s', (claim claimAll).apply lockedGrantor = .ok s' ∧
    ¬ Spares lockedGrantor s' := by
  obtain ⟨s', h⟩ := exists_claimAll
  refine ⟨s', h, fun hspares => ?_⟩
  have hlock : ({ uaccountProperty := accountLockBalance } : Account).isLockBalance := by decide
  have hle := hspares 1 _ (AList.lookup_insert _) hlock 1
  rw [(moved h).1] at hle
  exact absurd hle (by decide +kernel)

end DebitOp

end ZosCore.Member
