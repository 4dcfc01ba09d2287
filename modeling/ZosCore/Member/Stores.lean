import ZosCore.Economy.LinearVesting
import ZosCore.Economy.MedianFeeds
import ZosCore.Member.Identity
import ZosCore.Member.LockBalance

/-!
`asset_evaluator.cpp`, `balance_evaluator.cpp`, `vesting_balance_evaluator.cpp`,
`account_member_evaluator.cpp`, `account_evaluator.cpp`: the operations that move value between the
balances of accounts, vesting balances, the balances of the genesis, the fees of assets, and the
exchange fees of accounts.

What the objects have for these operations only is kept apart, under the numbers of the objects.

* `Stores`: the object database with all that holds value.
* `VestingBalance.isWithdrawAllowed`, `VestingBalance.withdraw`: a vesting balance with either policy.
* `timesPrice`: `operator *` of an amount and a price.
* `State.vestingBalanceWithdraw`, `Stores.balanceClaim`, `Stores.gatewayIssueCurrency`,
  `Stores.assetIssue`, `Stores.assetClaimFees`, `Stores.assetReserveFees`,
  `Stores.withdrawExchangeFee`, `Stores.accountAuthenticate`: the evaluators. The other six are those of
  `LockBalance.lean` and `Authentication.lean`.
* `StoreOp`: the fourteen operations.
-/

namespace ZosCore.Member

open CddVesting (AssetAmount)
open GroupedOrders (Price)

/-! ### Objects -/

/-- `linear_vesting_policy` -/
structure LinearVestingPolicy where
  beginTimestamp : ℕ
  vestingCliffSeconds : ℕ
  vestingDurationSeconds : ℕ
  beginBalance : ℤ

/-- The policy and the balance that it is asked about. -/
def LinearVestingPolicy.of (p : LinearVestingPolicy) (balance : AssetAmount) :
    LinearVesting.VestingBalance where
  beginTimestamp := p.beginTimestamp
  vestingCliffSeconds := p.vestingCliffSeconds
  vestingDurationSeconds := p.vestingDurationSeconds
  beginBalance := p.beginBalance
  balance := balance

/-- `balance_object`; the owner is an address. -/
structure GenesisBalance where
  owner : ℕ
  balance : ℤ
  asset : ℕ
  vestingPolicy : Option LinearVestingPolicy := none
  lastClaimDate : ℕ := 0

/-- Of an `asset_object`: its `max_supply`, `accumulated_fees` of its dynamic data, and
`core_exchange_rate` of its current feed, if that is valid. -/
structure AssetDetail where
  maxSupply : ℤ
  accumulatedFees : ℤ := 0
  coreExchangeRate : Option Price := none

/-- Of an `account_object`: its referrer, and `exchange_fees` of its statistics. -/
structure AccountDetail where
  referrer : ℕ
  exchangeFees : ℤ := 0

/-- Of an `author_object`: what it pays. Both are set from numbers of 32 bits, so that they are not
negative. -/
structure Reward where
  payForAccount : ℕ := 0
  payForReferrer : ℕ := 0

/-- The objects, with all that holds value. -/
structure Stores extends State where
  assetDetails : AList (fun _ : ℕ => AssetDetail) := ∅
  accountDetails : AList (fun _ : ℕ => AccountDetail) := ∅
  rewards : AList (fun _ : ℕ => Reward) := ∅
  /-- `issue_amount` of the dynamic objects of the gateways -/
  issueAmount : AList (fun _ : ℕ × ℕ => ℤ) := ∅
  genesisBalances : AList (fun _ : ℕ => GenesisBalance) := ∅
  budgetSupply : ℤ := 0
  /-- The addresses of a public key, in the five forms that are tried. -/
  addressesOf : ℕ → List ℕ := fun _ => []
  /-- `skip_flags` has neither `skip_authority_check` nor `skip_transaction_signatures`. -/
  checksSignatures : Bool := true

/-- `GRAPHENE_MAX_BITCORE_SUPPLY` -/
def maxBitcoreSupply : ℤ := 10 ^ 18

/-- `GRAPHENE_MAX_SHARE_BUDGET` -/
def maxShareBudget : ℤ := 2800000000 * 100000

/-- `GRAPHENE_PLATFORM_ACCOUNT` -/
def platformAccount : ℕ := 6

/-- `can_auth_mask` -/
def canAuthMask : ℕ := accountAuthenticator ||| accountCarrier ||| accountGateway

/-- `auth_gateway` -/
def authGateway : ℕ := 0x0010000

/-- `auth_carrier` -/
def authCarrier : ℕ := 0x0020000

/-- `auth_author` -/
def authAuthor : ℕ := 0x0040000

/-! ### Vesting balances -/

/-- The result of a function of a vesting balance, whose assertions are not told apart here. -/
def ofVesting {ε α : Type} (x : Except ε α) : Except MemberError α :=
  orThrow x.toOption .insufficientBalance

namespace VestingBalance

variable (v : VestingBalance) (now : ℕ) (amount : AssetAmount)

/-- The balance with a `linear_vesting_policy`. -/
def linear (beginTimestamp cliff duration : ℕ) (beginBalance : ℤ) : LinearVesting.VestingBalance :=
  ⟨beginTimestamp, cliff, duration, beginBalance, ⟨v.balance, v.asset⟩⟩

/-- The balance with a `cdd_vesting_policy`. -/
def cdd (vestingSeconds startClaim earned lastUpdate : ℕ) : CddVesting.VestingBalance :=
  ⟨vestingSeconds, earned, startClaim, lastUpdate, ⟨v.balance, v.asset⟩⟩

/-- `is_withdraw_allowed` -/
def isWithdrawAllowed : Except MemberError Bool :=
  match v.policy with
  | .linear start cliff duration balance =>
      ofVesting ((v.linear start cliff duration balance).isWithdrawAllowed now amount)
  | .cdd seconds startClaim earned lastUpdate =>
      ofVesting ((v.cdd seconds startClaim earned lastUpdate).isWithdrawAllowed now amount)

/-- `withdraw` -/
def withdraw : Except MemberError VestingBalance :=
  match v.policy with
  | .linear start cliff duration balance => do
      let w ← ofVesting ((v.linear start cliff duration balance).withdraw amount)
      return { v with balance := w.balance.amount }
  | .cdd seconds startClaim earned lastUpdate => do
      let w ← ofVesting ((v.cdd seconds startClaim earned lastUpdate).withdraw now amount)
      return { v with
        balance := w.balance.amount
        policy := .cdd seconds startClaim w.coinSecondsEarned.toNat w.coinSecondsEarnedLastUpdate }

end VestingBalance

/-! ### Amounts -/

/-- `operator *` of an amount and a price. -/
def timesPrice (a : AssetAmount) (p : Price) : Except MemberError AssetAmount := do
  if a.assetId = p.baseId then
    fcAssert (a.amount * p.quoteAmount / p.baseAmount ≤ maxBitcoreSupply) .invalid
    return ⟨a.amount * p.quoteAmount / p.baseAmount, p.quoteId⟩
  else if a.assetId = p.quoteId then
    fcAssert (a.amount * p.baseAmount / p.quoteAmount ≤ maxBitcoreSupply) .invalid
    return ⟨a.amount * p.baseAmount / p.quoteAmount, p.baseId⟩
  else .error .assetMismatch

/-! ### Operations -/

/-- `vesting_balance_withdraw_operation` -/
structure VestingBalanceWithdraw where
  fee : ℤ
  vestingBalance : ℕ
  owner : ℕ
  amount : ℤ
  asset : ℕ

/-- `balance_claim_operation`; the public key 0 is the default one. -/
structure BalanceClaim where
  fee : ℤ := 0
  feeAsset : ℕ := 0
  depositToAccount : ℕ
  balanceToClaim : ℕ
  balanceOwnerId : ℕ := 0
  balanceOwnerKey : ℕ
  totalClaimed : ℤ
  asset : ℕ

/-- `gateway_issue_currency_operation`; of the memo, the size of its message. -/
structure GatewayIssueCurrency where
  fee : ℤ
  accountTo : ℕ
  issueCurrency : ℤ
  asset : ℕ
  revoke : Bool := false
  memo : Option ℕ := none

/-- `asset_issue_operation`; of the memo, the size of its message. -/
structure AssetIssue where
  fee : ℤ
  issuer : ℕ
  assetToIssue : ℤ
  asset : ℕ
  issueToAccount : ℕ
  memo : Option ℕ := none

/-- `asset_claim_fees_operation` -/
structure AssetClaimFees where
  fee : ℤ
  issuer : ℕ
  amountToClaim : ℤ
  asset : ℕ

/-- `asset_reserve_fees_operation` -/
structure AssetReserveFees where
  fee : ℤ
  issuer : ℕ
  amountToReserve : ℤ
  asset : ℕ

/-- `withdraw_exchange_fee_operation` -/
structure WithdrawExchangeFee where
  fee : ℤ
  issuer : ℕ
  coreAmount : ℤ
  withdrawAssetId : ℕ

/-- `account_author` -/
structure AccountAuthor where
  state : ℕ
  expiration : ℕ := 365 * 24 * 3600 * 2
  account : ℕ
  hash64 : ℕ

/-- The types 6 and 11 of an `account_authenticate_operation`: an account is authenticated, for which
rewards are paid, and the rewards are set. Nothing of value changes in the others. -/
inductive AuthenticateAction where
  | authenticate (authAccount : AccountAuthor)
  | rewards (flags needAuth : UInt32)

/-- `account_authenticate_operation` -/
structure AccountAuthenticate where
  fee : ℤ
  issuer : ℕ
  action : AuthenticateAction

namespace VestingBalanceWithdraw

/-- `validate` -/
def Valid (op : VestingBalanceWithdraw) : Prop := 0 ≤ op.fee ∧ 0 < op.amount

instance (op : VestingBalanceWithdraw) : Decidable op.Valid := inferInstanceAs (Decidable (_ ∧ _))

end VestingBalanceWithdraw

namespace BalanceClaim

/-- `validate` -/
def Valid (op : BalanceClaim) : Prop :=
  (op.fee = 0 ∧ op.feeAsset = 0) ∧ (op.balanceOwnerKey ≠ 0 ∨ op.balanceOwnerId ≠ 0)

instance (op : BalanceClaim) : Decidable op.Valid := inferInstanceAs (Decidable (_ ∧ _))

end BalanceClaim

namespace GatewayIssueCurrency

/-- `validate` -/
def Valid (op : GatewayIssueCurrency) : Prop :=
  0 ≤ op.fee ∧ 0 ≤ op.issueCurrency ∧ MemoFits op.memo

instance (op : GatewayIssueCurrency) : Decidable op.Valid := inferInstanceAs (Decidable (_ ∧ _))

/-- What is issued; what is revoked is negative. -/
def issued (op : GatewayIssueCurrency) : ℤ := if op.revoke then -op.issueCurrency else op.issueCurrency

end GatewayIssueCurrency

namespace AssetIssue

/-- `validate` -/
def Valid (op : AssetIssue) : Prop :=
  0 ≤ op.fee ∧ op.assetToIssue ≤ maxShareSupply ∧ 0 < op.assetToIssue ∧ op.asset ≠ 0 ∧
    MemoFits op.memo

instance (op : AssetIssue) : Decidable op.Valid := inferInstanceAs (Decidable (_ ∧ _))

end AssetIssue

namespace AssetClaimFees

/-- `validate` -/
def Valid (op : AssetClaimFees) : Prop := 0 ≤ op.fee ∧ 0 < op.amountToClaim

instance (op : AssetClaimFees) : Decidable op.Valid := inferInstanceAs (Decidable (_ ∧ _))

end AssetClaimFees

namespace AssetReserveFees

/-- `validate` -/
def Valid (op : AssetReserveFees) : Prop := 0 ≤ op.fee ∧ 0 < op.amountToReserve

instance (op : AssetReserveFees) : Decidable op.Valid := inferInstanceAs (Decidable (_ ∧ _))

end AssetReserveFees

namespace WithdrawExchangeFee

/-- `validate` -/
def Valid (op : WithdrawExchangeFee) : Prop := 0 ≤ op.fee ∧ 0 < op.coreAmount

instance (op : WithdrawExchangeFee) : Decidable op.Valid := inferInstanceAs (Decidable (_ ∧ _))

end WithdrawExchangeFee

namespace AuthenticateAction

/-- What `validate` checks for the type. -/
def Valid : AuthenticateAction → Prop
  | authenticate a => a.expiration < 365 * 24 * 3600 * 10 ∧ a.state &&& 0xFFFF0000 = 0
  | rewards _ _ => True

instance : DecidablePred Valid
  | authenticate _ => inferInstanceAs (Decidable (_ ∧ _))
  | rewards _ _ => inferInstanceAs (Decidable True)

end AuthenticateAction

namespace AccountAuthenticate

/-- `validate` -/
def Valid (op : AccountAuthenticate) : Prop := 0 ≤ op.fee ∧ op.issuer ≠ 0 ∧ op.action.Valid

instance (op : AccountAuthenticate) : Decidable op.Valid := inferInstanceAs (Decidable (_ ∧ _))

end AccountAuthenticate

/-! ### Evaluators -/

namespace State

/-- `is_gateway_enable`, for no asset in particular. -/
def isGatewayMemberEnable (s : State) (id : ℕ) (a : Account) : Bool :=
  a.uaccountProperty &&& accountGateway ≠ 0 && s.isIdentityEnable .gateway id

/-- `is_author_enable` -/
def isAuthorEnable (s : State) (id : ℕ) (a : Account) : Bool :=
  a.uaccountProperty &&& accountAuthenticator ≠ 0 && s.isIdentityEnable .author id

/-- `do_evaluate` of `vesting_balance_withdraw_operation`. -/
def evaluateVestingBalanceWithdraw (s : State) (op : VestingBalanceWithdraw) :
    Except MemberError Unit := do
  let vbo ← orThrow (s.vestingBalances.lookup op.vestingBalance)
  fcAssert (op.owner = vbo.owner) .wrongIssuer
  let allowed ← vbo.isWithdrawAllowed s.time ⟨op.amount, op.asset⟩
  fcAssert allowed .insufficientBalance
  fcAssert (op.asset = vbo.asset) .assetMismatch
  fcAssert (op.amount ≤ vbo.balance) .insufficientBalance
  let owner ← orThrow (s.accounts.lookup op.owner)
  fcAssert (¬ owner.isLockBalance) .lockBalance

/-- `vesting_balance_withdraw_operation`: a balance that is to be removed goes when there is nothing left
in it. -/
def vestingBalanceWithdraw (s : State) (op : VestingBalanceWithdraw) : Except MemberError State := do
  fcAssert op.Valid .invalid
  s.evaluateVestingBalanceWithdraw op
  let vbo ← orThrow (s.vestingBalances.lookup op.vestingBalance)
  let v ← vbo.withdraw s.time ⟨op.amount, op.asset⟩
  let vestingBalances :=
    if v.bautoremove ∧ v.balance ≤ 0 then s.vestingBalances.erase op.vestingBalance
    else s.vestingBalances.insert op.vestingBalance v
  { s with vestingBalances }.adjustBalance op.owner op.asset op.amount

end State

namespace Stores

variable (s : Stores)

/-- What an evaluator makes of the objects that it sees. -/
def withState (x : Except MemberError State) : Except MemberError Stores := do
  let t ← x
  return { s with toState := t }

/-- `adjust_balance` -/
def adjustBalance (account : ℕ) (delta : AssetAmount) : Except MemberError Stores :=
  s.withState (s.toState.adjustBalance account delta.assetId delta.amount)

/-- `do_evaluate` of `balance_claim_operation`. -/
def evaluateBalanceClaim (op : BalanceClaim) : Except MemberError Unit := do
  let balance ← orThrow (s.genesisBalances.lookup op.balanceToClaim)
  let account ← orThrow (s.accounts.lookup op.depositToAccount)
  fcAssert (¬ account.isLockBalance) .lockBalance
  fcAssert (balance.owner ∈ s.addressesOf op.balanceOwnerKey) .wrongIssuer
  fcAssert (s.checksSignatures → op.asset = balance.asset) .assetMismatch
  match balance.vestingPolicy with
  | some policy => do
      let allowed ← ofVesting ((policy.of ⟨balance.balance, balance.asset⟩).policyAllowsWithdraw s.time
        ⟨op.totalClaimed, op.asset⟩)
      fcAssert allowed .insufficientBalance
      fcAssert (balance.lastClaimDate + 24 * 3600 ≤ s.time) .permission
  | none => fcAssert (op.totalClaimed = balance.balance ∧ op.asset = balance.asset) .assetMismatch

/-- `balance_claim_operation`: a part of a vesting balance, or a whole balance, which goes. -/
def balanceClaim (op : BalanceClaim) : Except MemberError Stores := do
  fcAssert op.Valid .invalid
  s.evaluateBalanceClaim op
  let balance ← orThrow (s.genesisBalances.lookup op.balanceToClaim)
  fcAssert (balance.vestingPolicy.isSome → op.asset = balance.asset) .assetMismatch
  let genesisBalances :=
    if balance.vestingPolicy.isSome ∧ op.totalClaimed < balance.balance then
      s.genesisBalances.insert op.balanceToClaim
        { balance with balance := balance.balance - op.totalClaimed, lastClaimDate := s.time }
    else s.genesisBalances.erase op.balanceToClaim
  { s with genesisBalances }.adjustBalance op.depositToAccount ⟨op.totalClaimed, op.asset⟩

/-- `do_evaluate` of `gateway_issue_currency_operation`. -/
def evaluateGatewayIssueCurrency (op : GatewayIssueCurrency) : Except MemberError Unit := do
  let a ← orThrow (s.assets.lookup op.asset)
  let detail ← orThrow (s.assetDetails.lookup op.asset)
  let c ← orThrow (s.accounts.lookup op.accountTo)
  fcAssert (¬ c.isLockBalance) .lockBalance
  fcAssert op.Valid .invalid
  fcAssert (a.bitassetDataId.isSome ∨ op.asset = 0) .notLoanOrLender
  fcAssert c.isGatewayMember .notGatewayMember
  if op.revoke then
    let id ← orThrow (s.findIdentity .gateway op.accountTo)
    let issued ← orThrow (s.issueAmount.lookup (id, op.asset))
    fcAssert (op.issueCurrency ≤ s.getBalance op.accountTo op.asset) .insufficientBalance
    fcAssert (op.issueCurrency ≤ a.currentSupply) .supply
    fcAssert (op.issueCurrency ≤ issued) .supply
  else
    let enable ← s.isGatewayEnable op.accountTo c op.asset
    fcAssert enable .notEnabled
    fcAssert (a.currentSupply ≤ detail.maxSupply) .supply
    fcAssert (op.issueCurrency ≤ detail.maxSupply - a.currentSupply) .supply
    fcAssert (op.asset = 0 → op.issueCurrency ≤ maxShareBudget - s.budgetSupply) .supply

/-- `gateway_issue_currency_operation`: the gateway gets the currency, or gives it back; what is issued
of the core asset counts for the budget. -/
def gatewayIssueCurrency (op : GatewayIssueCurrency) : Except MemberError Stores := do
  s.evaluateGatewayIssueCurrency op
  let id ← orThrow (s.findIdentity .gateway op.accountTo)
  let s₁ ← s.adjustBalance op.accountTo ⟨op.issued, op.asset⟩
  let a ← orThrow (s₁.assets.lookup op.asset)
  return { s₁ with
    assets := s₁.assets.insert op.asset { a with currentSupply := a.currentSupply + op.issued }
    issueAmount := s₁.issueAmount.insert (id, op.asset)
      ((s₁.issueAmount.lookup (id, op.asset)).getD 0 + op.issued)
    budgetSupply := if op.asset = 0 then s₁.budgetSupply + op.issued else s₁.budgetSupply }

/-- `do_evaluate` of `asset_issue_operation`. -/
def evaluateAssetIssue (op : AssetIssue) : Except MemberError Unit := do
  let a ← orThrow (s.assets.lookup op.asset)
  fcAssert (op.issuer = a.issuer) .wrongIssuer
  fcAssert (¬ a.isMarketIssued op.asset) .marketIssued
  let toAccount ← orThrow (s.accounts.lookup op.issueToAccount)
  fcAssert (¬ toAccount.isLockBalance) .lockBalance
  fcAssert (toAccount.isAuthorizedAsset op.asset a) .notAuthorizedAsset
  let detail ← orThrow (s.assetDetails.lookup op.asset)
  fcAssert (a.currentSupply + op.assetToIssue ≤ detail.maxSupply) .supply

/-- `asset_issue_operation` -/
def assetIssue (op : AssetIssue) : Except MemberError Stores := do
  fcAssert op.Valid .invalid
  s.evaluateAssetIssue op
  let s₁ ← s.adjustBalance op.issueToAccount ⟨op.assetToIssue, op.asset⟩
  let a ← orThrow (s₁.assets.lookup op.asset)
  return { s₁ with
    assets := s₁.assets.insert op.asset { a with currentSupply := a.currentSupply + op.assetToIssue } }

/-- `asset_claim_fees_operation`: the issuer of the asset gets fees that have accumulated. -/
def assetClaimFees (op : AssetClaimFees) : Except MemberError Stores := do
  fcAssert op.Valid .invalid
  let a ← orThrow (s.assets.lookup op.asset)
  fcAssert (a.issuer = op.issuer) .wrongIssuer
  let issuer ← orThrow (s.accounts.lookup op.issuer)
  fcAssert (¬ issuer.isLockBalance) .lockBalance
  let detail ← orThrow (s.assetDetails.lookup op.asset)
  fcAssert (op.amountToClaim ≤ detail.accumulatedFees) .insufficientBalance
  let s₁ := { s with
    assetDetails := s.assetDetails.insert op.asset
      { detail with accumulatedFees := detail.accumulatedFees - op.amountToClaim } }
  s₁.adjustBalance op.issuer ⟨op.amountToClaim, op.asset⟩

/-- `asset_reserve_fees_operation`: the other way, by anyone. -/
def assetReserveFees (op : AssetReserveFees) : Except MemberError Stores := do
  fcAssert op.Valid .invalid
  let issuer ← orThrow (s.accounts.lookup op.issuer)
  fcAssert (¬ issuer.isLockBalance) .lockBalance
  fcAssert (op.amountToReserve ≤ s.getBalance op.issuer op.asset) .insufficientBalance
  let _ ← orThrow (s.assets.lookup op.asset)
  let detail ← orThrow (s.assetDetails.lookup op.asset)
  let s₁ := { s with
    assetDetails := s.assetDetails.insert op.asset
      { detail with accumulatedFees := detail.accumulatedFees + op.amountToReserve } }
  s₁.adjustBalance op.issuer ⟨-op.amountToReserve, op.asset⟩

/-- `core_exchange_rate` of the current feed of an asset; `validate` throws if it is null. -/
def coreExchangeRate (asset : ℕ) : Except MemberError Price := do
  let detail ← orThrow (s.assetDetails.lookup asset)
  orThrow detail.coreExchangeRate .invalid

/-- `do_evaluate` of `withdraw_exchange_fee_operation`. What `is_core` of the rate says is not looked
at. -/
def evaluateWithdrawExchangeFee (op : WithdrawExchangeFee) : Except MemberError Unit := do
  let account ← orThrow (s.accounts.lookup op.issuer)
  let statistics ← orThrow (s.accountDetails.lookup op.issuer)
  let assetFees ← orThrow (s.assets.lookup op.withdrawAssetId)
  fcAssert (¬ account.isLockBalance) .lockBalance
  fcAssert (op.coreAmount ≤ statistics.exchangeFees) .insufficientBalance
  if op.withdrawAssetId ≠ 0 then
    fcAssert assetFees.bitassetDataId.isSome .notLoanOrLender
    let rate ← s.coreExchangeRate op.withdrawAssetId
    let get ← timesPrice ⟨op.coreAmount, 0⟩ rate
    fcAssert (0 < get.amount) .invalid
    fcAssert (get.assetId = op.withdrawAssetId) .assetMismatch
    fcAssert (get.amount ≤ s.getBalance platformAccount op.withdrawAssetId) .insufficientBalance
  else .ok ()

/-- What is paid for the fees. Another asset than the core asset is bought from the platform. -/
def payExchangeFee (op : WithdrawExchangeFee) : Except MemberError Stores :=
  if op.withdrawAssetId ≠ 0 then do
    let rate ← s.coreExchangeRate op.withdrawAssetId
    let get ← timesPrice ⟨op.coreAmount, 0⟩ rate
    let s₁ ← s.adjustBalance platformAccount ⟨-get.amount, get.assetId⟩
    let s₂ ← s₁.adjustBalance platformAccount ⟨op.coreAmount, 0⟩
    s₂.adjustBalance op.issuer get
  else s.adjustBalance op.issuer ⟨op.coreAmount, 0⟩

/-- `withdraw_exchange_fee_operation` -/
def withdrawExchangeFee (op : WithdrawExchangeFee) : Except MemberError Stores := do
  fcAssert op.Valid .invalid
  s.evaluateWithdrawExchangeFee op
  let s₁ ← s.payExchangeFee op
  let statistics ← orThrow (s₁.accountDetails.lookup op.issuer)
  return { s₁ with
    accountDetails := s₁.accountDetails.insert op.issuer
      { statistics with exchangeFees := statistics.exchangeFees - op.coreAmount } }

/-! #### Authentication -/

/-- What `do_evaluate` of `account_authenticate_operation` checks of an authentication. -/
def evaluateAuthenticate (issuer : ℕ) (op : AccountAuthor) : Except MemberError Unit := do
  fcAssert (op.account ≠ issuer) .wrongIssuer
  let auth ← orThrow (s.accounts.lookup op.account)
  let detail ← orThrow (s.accountDetails.lookup op.account)
  let issuerObj ← orThrow (s.accounts.lookup issuer)
  let _ ← orThrow (s.findIdentity .author issuer)
  let _ ← orThrow (s.accounts.lookup detail.referrer)
  fcAssert (0 < issuerObj.uaccountProperty &&& canAuthMask) .notAuthenticated
  fcAssert (if issuerObj.uaccountProperty &&& accountAuthenticator ≠ 0 then
      s.isAuthorEnable issuer issuerObj
    else if issuerObj.uaccountProperty &&& accountCarrier ≠ 0 then s.isCarrierEnable issuer issuerObj
    else if issuerObj.uaccountProperty &&& accountGateway ≠ 0 then
      s.isGatewayMemberEnable issuer issuerObj
    else true) .notEnabled
  fcAssert (op.state = 0 → ∀ data ∈ auth.authData, (data.authState.lookup issuer).isSome)
    .notAuthenticated
  fcAssert (op.state &&& authorMask = 0) .invalid
  fcAssert ((op.state &&& authorMask : ℕ) < authNosetting) .invalid

/-- The state of the record: it says what the account is itself. -/
def recordState (op : AccountAuthor) (a : Account) : Except MemberError ℕ := do
  let author ← if a.uaccountProperty &&& accountAuthenticator ≠ 0 then do
      let id ← orThrow (s.findIdentity .author op.account)
      let author ← orThrow (s.authors.lookup id)
      pure (author.authType ||| authAuthor)
    else pure 0
  return op.state ||| author |||
    (if a.uaccountProperty &&& accountCarrier ≠ 0 then authCarrier else 0) |||
    (if a.uaccountProperty &&& accountGateway ≠ 0 then authGateway else 0)

/-- The records of the account, with that of the issuer made anew or erased, and without those that are
out of date. -/
def authenticated (issuer : ℕ) (op : AccountAuthor) (a : Account) : Except MemberError AuthData := do
  -- a new `account_auth_data` does not set `hash64`
  let data := a.authData.getD { hash64 := 0 }
  let authState ← if op.state ≠ 0 then do
      let state ← s.recordState op a
      pure (data.authState.insert issuer
        { state, expiration := op.expiration, authTime := s.time
          hash64 := if op.hash64 = 0 then data.hash64 else op.hash64 })
    else pure (data.authState.erase issuer)
  let eraseId := authState.entries.filter fun e => e.2.expired s.time
  return { data with authState := eraseId.foldl (fun m e => m.erase e.1) authState }

/-- One of the two rewards, if there is one. -/
def payReward (account amount : ℕ) : Except MemberError Stores :=
  if amount > 0 then s.adjustBalance account ⟨amount, 0⟩ else .ok s

/-- The rewards for an account that has been authenticated. -/
def payRewards (issuer account : ℕ) : Except MemberError Stores := do
  let id ← orThrow (s.findIdentity .author issuer)
  let _ ← orThrow (s.authors.lookup id)
  let reward := (s.rewards.lookup id).getD {}
  let acnt ← orThrow (s.accountDetails.lookup account)
  if reward.payForAccount + reward.payForReferrer > 0 ∧
      ((reward.payForAccount + reward.payForReferrer : ℕ) : ℤ) ≤ s.getBalance issuer 0 then
    let s₁ ← s.adjustBalance issuer ⟨-(reward.payForAccount + reward.payForReferrer : ℕ), 0⟩
    let s₂ ← s₁.payReward account reward.payForAccount
    s₂.payReward acnt.referrer reward.payForReferrer
  else .ok s

/-- `account_authenticate_operation` -/
def accountAuthenticate (op : AccountAuthenticate) : Except MemberError Stores := do
  fcAssert op.Valid .invalid
  match op.action with
  | .authenticate author => do
      s.evaluateAuthenticate op.issuer author
      let acnt ← orThrow (s.accounts.lookup author.account)
      let data ← s.authenticated op.issuer author acnt
      let s₁ : Stores := { s with
        accounts := s.accounts.insert author.account { acnt with authData := some data } }
      s₁.payRewards op.issuer author.account
  | .rewards flags needAuth => do
      let _ ← orThrow (s.accounts.lookup op.issuer)
      let id ← orThrow (s.findIdentity .author op.issuer)
      let _ ← orThrow (s.authors.lookup id)
      return { s with rewards := s.rewards.insert id ⟨flags.toNat, needAuth.toNat⟩ }

end Stores

/-- The operations that move value. -/
inductive StoreOp where
  | transfer (op : Transfer)
  | withdrawPermissionClaim (op : WithdrawPermissionClaim)
  | vestingBalanceCreate (op : VestingBalanceCreate)
  | vestingBalanceWithdraw (op : VestingBalanceWithdraw)
  | balanceClaim (op : BalanceClaim)
  | gatewayWithdraw (op : GatewayWithdraw)
  | gatewayDeposit (op : GatewayDeposit)
  | gatewayIssueCurrency (op : GatewayIssueCurrency)
  | assetIssue (op : AssetIssue)
  | assetReserve (op : AssetReserve)
  | assetClaimFees (op : AssetClaimFees)
  | assetReserveFees (op : AssetReserveFees)
  | withdrawExchangeFee (op : WithdrawExchangeFee)
  | accountAuthenticate (op : AccountAuthenticate)

/-- The evaluator. -/
def StoreOp.apply (s : Stores) : StoreOp → Except MemberError Stores
  | transfer op => s.withState (s.toState.transfer op)
  | withdrawPermissionClaim op => s.withState (s.toState.withdrawPermissionClaim op)
  | vestingBalanceCreate op => s.withState (s.toState.vestingBalanceCreate op)
  | vestingBalanceWithdraw op => s.withState (s.toState.vestingBalanceWithdraw op)
  | balanceClaim op => s.balanceClaim op
  | gatewayWithdraw op => s.withState (s.toState.gatewayWithdraw op)
  | gatewayDeposit op => s.withState (s.toState.gatewayDeposit op)
  | gatewayIssueCurrency op => s.gatewayIssueCurrency op
  | assetIssue op => s.assetIssue op
  | assetReserve op => s.withState (s.toState.assetReserve op)
  | assetClaimFees op => s.assetClaimFees op
  | assetReserveFees op => s.assetReserveFees op
  | withdrawExchangeFee op => s.withdrawExchangeFee op
  | accountAuthenticate op => s.accountAuthenticate op

end ZosCore.Member
