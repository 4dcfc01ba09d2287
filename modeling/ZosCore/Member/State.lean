import Mathlib.Data.Finset.Basic
import Mathlib.Data.List.AList
import Mathlib.Tactic
import ZosCore.Lib.Exec

/-!
`account_object.hpp`, `asset_object.hpp`, `witness_object.hpp`, `committee_member_object.hpp`,
`budget_member_object.hpp`, `carrier_object.hpp`, `gateway_object.hpp`, `author_object.hpp`,
`bitlender_option_object.hpp`, `withdraw_permission_object.hpp`, `vesting_balance_object.hpp`: the
objects of the accounts that are something on the chain, and what they hold.

The objects of the six identities have some fields in common. These are kept in one map, by the
kind and the number of the object; what only a gateway or an authenticator has is kept apart under
the same number. Fields that no evaluator here reads (names, urls, memos, votes, keys) are left out.
An amount is a `share_type`, whose sums throw when they overflow; here it is an integer.

* `Account`, `Asset`, `Identity`, `Gateway`, `Author`, `BitlenderOption`, `WithdrawPermission`.
* `State`: the object database, as the evaluators of this part see it.
* `fcAssert`, `orThrow`: the checks and the lookups, with what they say if they do not throw.
* `State.adjustBalance`: `adjust_balance`.
-/

namespace ZosCore.Member

/-! ### Objects -/

/-- `account_auth_item` -/
structure AuthItem where
  state : ℕ
  expiration : ℕ := 0
  hash64 : ℕ
  authTime : ℕ

/-- `account_auth_data` -/
structure AuthData where
  authState : AList (fun _ : ℕ => AuthItem) := ∅
  hash64 : ℕ

/-- `account_object`, with `lock_asset` of its statistics, an amount of the core asset. -/
structure Account where
  membershipExpirationDate : ℕ := 0
  uaccountProperty : ℕ := 0
  authData : Option AuthData := none
  allowedAssets : Option (List ℕ) := none
  whitelistingAccounts : List ℕ := []
  blacklistingAccounts : List ℕ := []
  lockAsset : ℤ := 0

/-- `asset_object`, with `current_supply` of its dynamic data. -/
structure Asset where
  issuer : ℕ
  bitassetDataId : Option ℕ := none
  uassetProperty : ℕ := 0
  flags : ℕ := 0
  whitelistAuthorities : List ℕ := []
  blacklistAuthorities : List ℕ := []
  whitelistGateways : Finset ℕ := ∅
  currentSupply : ℤ := 0

/-- `identity_type` -/
inductive IdentityType where
  | disable
  | enable
  | enableLost
  deriving DecidableEq

/-- The objects that an account may have. -/
inductive IdentityKind where
  | witness
  | committeeMember
  | budgetMember
  | gateway
  | carrier
  | author
  deriving DecidableEq

/-- What the objects of all kinds have: the account, its deposit in the core asset, and the
state. `recent_missed` is a field of witnesses. -/
structure Identity where
  account : ℕ
  lockAsset : ℤ := 0
  enable : IdentityType := .enable
  recentMissed : ℕ := 0

/-- `gateway_object`, with its dynamic object. -/
structure Gateway where
  needAuth : ℕ := 0
  trustAuth : AList (fun _ : ℕ => ℕ) := ∅
  defAuth : Option ℕ := none
  allowedAssets : Finset ℕ := ∅
  depositAmount : AList (fun _ : ℕ => ℤ) := ∅
  withdrawAmount : AList (fun _ : ℕ => ℤ) := ∅
  depositCount : AList (fun _ : ℕ => ℕ) := ∅
  withdrawCount : AList (fun _ : ℕ => ℕ) := ∅

/-- `author_object` -/
structure Author where
  authType : ℕ := 0
  allowAsset : List ℕ := []

/-- `bitlender_option_object`; `carriers` are those of its items. -/
structure BitlenderOption where
  assetId : ℕ
  sproduct : String
  gateways : Finset ℕ := ∅
  carriers : List (List ℕ) := []

/-- `withdraw_permission_object` -/
structure WithdrawPermission where
  withdrawFromAccount : ℕ
  authorizedAccount : ℕ
  withdrawalLimit : ℤ
  withdrawalAsset : ℕ
  withdrawalPeriodSec : ℕ
  periodStartTime : ℕ
  expiration : ℕ
  authorizedIdentify : ℕ := 0
  claimedThisPeriod : ℤ := 0
  claimedTotal : ℤ := 0

/-- `vesting_policy` -/
inductive VestingPolicy where
  | linear (beginTimestamp vestingCliffSeconds vestingDurationSeconds : ℕ) (beginBalance : ℤ)
  | cdd (vestingSeconds startClaim coinSecondsEarned coinSecondsEarnedLastUpdate : ℕ)

/-- `vesting_balance_object` -/
structure VestingBalance where
  owner : ℕ
  asset : ℕ
  balance : ℤ
  policy : VestingPolicy
  bautoremove : Bool := false

/-- The objects. -/
structure State where
  /-- `head_block_time()` -/
  time : ℕ := 0
  /-- `fee_parameters_type::lock_fee` of the operations that create the objects -/
  lockFee : IdentityKind → ℕ := fun _ => 0
  identifyLockVestingSeconds : ℕ := 86400
  blockInterval : ℕ := 3
  accounts : AList (fun _ : ℕ => Account) := ∅
  balances : AList (fun _ : ℕ × ℕ => ℤ) := ∅
  assets : AList (fun _ : ℕ => Asset) := ∅
  identities : AList (fun _ : IdentityKind × ℕ => Identity) := ∅
  gateways : AList (fun _ : ℕ => Gateway) := ∅
  authors : AList (fun _ : ℕ => Author) := ∅
  options : List BitlenderOption := []
  permissions : AList (fun _ : ℕ => WithdrawPermission) := ∅
  vestingBalances : AList (fun _ : ℕ => VestingBalance) := ∅
  nextIdentity : IdentityKind → ℕ := fun _ => 0
  nextPermission : ℕ := 0
  nextVesting : ℕ := 0

/-! ### Flags -/

/-- `account_gateway` -/
def accountGateway : ℕ := 0x00000001

/-- `account_carrier` -/
def accountCarrier : ℕ := 0x00000002

/-- `account_witness` -/
def accountWitness : ℕ := 0x00000010

/-- `account_committe` -/
def accountCommitte : ℕ := 0x00000020

/-- `account_budget` -/
def accountBudget : ℕ := 0x00000040

/-- `account_lock_balance` -/
def accountLockBalance : ℕ := 0x00000100

/-- `account_authenticator` -/
def accountAuthenticator : ℕ := 0x02000000

/-- `ASSET_CASH` -/
def assetCash : ℕ := 0x00000001

/-- `ASSET_LENDER` -/
def assetLender : ℕ := 0x00000002

/-- `ASSET_LOAN` -/
def assetLoan : ℕ := 0x00000008

/-- `transfer_restricted` -/
def transferRestricted : ℕ := 0x08

/-- `lender_desc` -/
def lenderDesc : String := "LENDER"

namespace Account

/-- `is_lifetime_member`. -/
def isLifetimeMember (a : Account) : Bool := 2 ^ 32 - 1 ≤ a.membershipExpirationDate

/-- `is_lock_balance`. -/
def isLockBalance (a : Account) : Bool :=
  a.uaccountProperty &&& accountLockBalance = accountLockBalance

/-- `is_gateway_member`. -/
def isGatewayMember (a : Account) : Bool := a.uaccountProperty &&& accountGateway = accountGateway

/-- `is_carrier_member`. -/
def isCarrierMember (a : Account) : Bool := a.uaccountProperty &&& accountCarrier = accountCarrier

end Account

namespace Asset

/-- `is_cash_issued`. -/
def isCashIssued (a : Asset) : Bool :=
  a.uassetProperty &&& assetCash = assetCash && a.bitassetDataId.isSome

/-- `is_lender_issued` of the asset with the given id. -/
def isLenderIssued (a : Asset) (id : ℕ) : Bool :=
  a.uassetProperty &&& assetLender = assetLender && (a.bitassetDataId.isSome || id = 0)

/-- `is_loan_issued`. -/
def isLoanIssued (a : Asset) : Bool :=
  0 < a.uassetProperty &&& (assetLoan ||| assetCash) && a.bitassetDataId.isSome

/-- `can_transfer`. -/
def canTransfer (a : Asset) : Bool := !a.isCashIssued

/-- `is_market_issued` of the asset with the given id. -/
def isMarketIssued (a : Asset) (id : ℕ) : Bool := id ≠ 0 && a.bitassetDataId.isSome

/-- `is_transfer_restricted`. -/
def isTransferRestricted (a : Asset) : Bool := a.flags &&& transferRestricted = transferRestricted

end Asset

/-! ### Checks -/

/-- What the evaluators throw, one for each kind of check. -/
inductive MemberError where
  /-- An object is not found. -/
  | notFound
  /-- `validate` of the operation -/
  | invalid
  /-- `!is_lock_balance()` -/
  | lockBalance
  /-- "account '${id1}' must be gateway member" -/
  | notGatewayMember
  /-- "account '${id1}' must be carrier member" -/
  | notCarrierMember
  /-- "gateway '${id1}' is not authority deposit" -/
  | notEnabled
  /-- "asset '${id1}' must be loan or lender" -/
  | notLoanOrLender
  /-- `FC_ASSERT(get_can_withdraw(...))`, `FC_ASSERT(get_can_deposit(...) > 0)` -/
  | notAuthenticated
  /-- "insufficient_balance '${id1}' < '${id2}'" -/
  | insufficientBalance
  /-- Sums and comparisons of amounts of two assets. -/
  | assetMismatch
  /-- `is_authorized_asset` -/
  | notAuthorizedAsset
  /-- "Asset ${asset} is cash mark ,can not transfer" -/
  | cashAsset
  /-- "Asset ${asset} has transfer_restricted flag enabled" -/
  | transferRestricted
  /-- "Cannot reserve ${sym} because it is a market-issued asset" -/
  | marketIssued
  /-- A check of the times, the periods or the parties of a permission. -/
  | permission
  /-- A check of the supply of an asset. -/
  | supply
  /-- `is_lifetime_member()` -/
  | notLifetimeMember
  /-- The account has an object of this kind already. -/
  | duplicate
  /-- "same statue ${enable}" -/
  | sameState
  /-- The issuer of an operation is another account. -/
  | wrongIssuer
  deriving DecidableEq

section Checks

variable {α β : Type}

/-- `FC_ASSERT`. -/
def fcAssert (p : Prop) [Decidable p] (e : MemberError) : Except MemberError Unit :=
  if p then .ok () else .error e

/-- A lookup that throws if there is nothing. -/
def orThrow (o : Option α) (e : MemberError := .notFound) : Except MemberError α :=
  match o with
  | none => .error e
  | some a => .ok a

/-- A computation that does not throw has a result. -/
lemma exists_eq_ok {x : Except MemberError α} (h : x.isOk) : ∃ a, x = .ok a := by
  cases x with
  | error e => simp [Except.isOk, Except.toBool] at h
  | ok a => exact ⟨a, rfl⟩

@[simp] lemma fcAssert_bind_eq_ok {p : Prop} [Decidable p] {e : MemberError}
    {f : Unit → Except MemberError β} {b : β} :
    (fcAssert p e >>= f) = .ok b ↔ p ∧ f () = .ok b := by
  rw [fcAssert]
  split_ifs with h <;> simp [bind, Except.bind, h]

@[simp] lemma fcAssert_eq_ok {p : Prop} [Decidable p] {e : MemberError} {u : Unit} :
    fcAssert p e = .ok u ↔ p := by
  rw [fcAssert]
  split_ifs with h <;> simp [h]

@[simp] lemma orThrow_bind_eq_ok {o : Option α} {e : MemberError} {f : α → Except MemberError β}
    {b : β} : (orThrow o e >>= f) = .ok b ↔ ∃ a, o = some a ∧ f a = .ok b := by
  cases o <;> simp [orThrow, bind, Except.bind]

@[simp] lemma orThrow_eq_ok {o : Option α} {e : MemberError} {a : α} :
    orThrow o e = .ok a ↔ o = some a := by
  cases o <;> simp [orThrow]

end Checks

/-! ### Access -/

namespace State

/-- `get_balance`. -/
def getBalance (s : State) (account asset : ℕ) : ℤ := (s.balances.lookup (account, asset)).getD 0

/-- `adjust_balance`. -/
def adjustBalance (s : State) (account asset : ℕ) (delta : ℤ) : Except MemberError State :=
  if delta = 0 then .ok s
  else match s.balances.lookup (account, asset) with
    | none =>
        if 0 < delta then .ok { s with balances := s.balances.insert (account, asset) delta }
        else .error .insufficientBalance
    | some balance =>
        if delta < 0 ∧ ¬ -delta ≤ balance then .error .insufficientBalance
        else .ok { s with balances := s.balances.insert (account, asset) (balance + delta) }

/-- The number of the object of this kind that the account has, by the index `by_account`. -/
def findIdentity (s : State) (kind : IdentityKind) (account : ℕ) : Option ℕ :=
  (s.identities.entries.find? fun e => e.1.1 = kind ∧ e.2.account = account).map (·.1.2)

/-- A balance is changed by `delta`, and nothing else. -/
structure Adjusted (s s' : State) (account asset : ℕ) (delta : ℤ) : Prop where
  others : ∃ b, s' = { s with balances := b }
  balance : ∀ x y, s'.getBalance x y =
    s.getBalance x y + if x = account ∧ y = asset then delta else 0

/-- `adjust_balance` changes one balance. -/
lemma adjusted {s s' : State} {account asset : ℕ} {delta : ℤ}
    (h : s.adjustBalance account asset delta = .ok s') : Adjusted s s' account asset delta := by
  unfold adjustBalance at h
  by_cases h0 : delta = 0
  · rw [if_pos h0] at h
    cases h
    exact ⟨⟨_, rfl⟩, fun x y => by simp [h0]⟩
  · rw [if_neg h0] at h
    have hinsert : ∀ n, n = s.getBalance account asset + delta →
        Adjusted s { s with balances := s.balances.insert (account, asset) n } account asset delta := by
      refine fun n hn => ⟨⟨_, rfl⟩, fun x y => ?_⟩
      by_cases hxy : x = account ∧ y = asset
      · obtain ⟨rfl, rfl⟩ := hxy
        simp [getBalance, hn]
      · have hne : (x, y) ≠ (account, asset) := fun h => hxy (by simpa using h)
        simp [getBalance, AList.lookup_insert_ne hne, hxy]
    cases hb : s.balances.lookup (account, asset) with
    | none =>
        simp only [hb] at h
        split_ifs at h
        cases h
        exact hinsert delta (by simp [getBalance, hb])
    | some balance =>
        simp only [hb] at h
        split_ifs at h
        cases h
        exact hinsert (balance + delta) (by simp [getBalance, hb])

end State

end ZosCore.Member
