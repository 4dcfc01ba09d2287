import ZosCore.Member.State

/-!
`account_member_evaluator.cpp`, `withdraw_permission_evaluator.cpp`: whom a gateway serves.

A gateway says in `need_auth` for which directions and kinds of assets the other side has to be
authenticated, and in `trust_auth` and `def_auth` by whom. `get_can_withdraw` and `get_can_deposit`
answer with a number: 2000 where no authentication is needed, a negative number where there is no
valid record, and otherwise the state of the record. Three evaluators ask for it.

* `State.getCanAuthor`, `State.getCanWithdraw`, `State.getCanDeposit`: the number.
* `State.gatewayWithdraw`, `State.gatewayDeposit`, `State.withdrawPermissionCreate`: the
  evaluators, which check first and then apply.
* `Gateway.Requires`, `State.Trusted`, `State.Allowed`: what the number is to say.
  `getCan_pos_iff`: it is positive exactly if no authentication is required or if a trusted
  record allows it.
* `GatewayOp.enforced_iff`: the withdrawal alone takes any number but zero, so it is accepted
  with no record at all.
-/

namespace ZosCore.Member

/-! ### The decision -/

/-- `gateway_cash` -/
def gatewayCash : ℕ := 0x00000001

/-- `gateway_bit` -/
def gatewayBit : ℕ := 0x00000002

/-- `gateway_dispost` -/
def gatewayDispost : ℕ := 0x00000004

/-- `gateway_withdray` -/
def gatewayWithdray : ℕ := 0x00000008

/-- `gateway_hash` -/
def gatewayHash : ℕ := 0x00000020

/-- `auth_nosetting` -/
def authNosetting : ℤ := 2000

/-- `author_xor_mask`, which is `~0x70000`. -/
def authorXorMask : ℕ := 0xFFF8FFFF

/-- A `uint32_t` read as an `int32_t`. -/
def toInt32 (n : ℕ) : ℤ := if n % 2 ^ 32 < 2 ^ 31 then n % 2 ^ 32 else n % 2 ^ 32 - 2 ^ 32

/-- What the state of a record allows. -/
def AuthItem.permission (item : AuthItem) : ℤ := toInt32 (item.state &&& authorXorMask)

/-- A record is out of date: the sum of the times is one of 32 bits. -/
def AuthItem.expired (item : AuthItem) (now : ℕ) : Bool :=
  (item.authTime + item.expiration) % 2 ^ 32 < now

/-- The flag of `need_auth` for an asset. -/
def Asset.gatewayFlag (a : Asset) : ℕ := if a.isCashIssued then gatewayCash else gatewayBit

namespace State

/-- `get_auth_asset`, of all three types. -/
def getAuthAsset (s : State) (id : ℕ) (a : Account) : List ℕ :=
  (if a.uaccountProperty &&& accountAuthenticator ≠ 0 then
    (((s.findIdentity .author id).bind s.authors.lookup).map Author.allowAsset).getD [] else []) ++
  (if a.uaccountProperty &&& accountGateway ≠ 0 then
    (((s.findIdentity .gateway id).bind s.gateways.lookup).map
      fun g => g.allowedAssets.sort (· ≤ ·)).getD [] else []) ++
  (if a.uaccountProperty &&& accountCarrier ≠ 0 then
    s.options.flatMap fun option => (option.carriers.filter (id ∈ ·)).map fun _ => option.assetId
   else [])

/-- `is_auth_asset`. -/
def isAuthAsset (s : State) (id : ℕ) (a : Account) (assetId : ℕ) : Bool :=
  assetId ∈ s.getAuthAsset id a

/-- `get_gateway_id` -/
def getGatewayId (s : State) (account : ℕ) : Except MemberError ℕ :=
  orThrow (s.findIdentity .gateway account)

/-- The gateway object with a given number. -/
def getGateway (s : State) (id : ℕ) : Except MemberError (Identity × Gateway) := do
  let identity ← orThrow (s.identities.lookup (.gateway, id))
  let gateway ← orThrow (s.gateways.lookup id)
  return (identity, gateway)

/-- `is_enable` of the object of a kind that the account has. -/
def isIdentityEnable (s : State) (kind : IdentityKind) (account : ℕ) : Bool :=
  (((s.findIdentity kind account).bind fun n => s.identities.lookup (kind, n)).map
    fun i => decide (i.enable = .enable)).getD false

/-- `is_gateway_enable`, for an asset. -/
def isGatewayEnable (s : State) (id : ℕ) (a : Account) (assetId : ℕ) : Except MemberError Bool :=
  if a.uaccountProperty &&& accountGateway = 0 ∨ ¬ s.isIdentityEnable .gateway id then .ok false
  else do
    let asset ← orThrow (s.assets.lookup assetId)
    return decide (id ∈ asset.whitelistGateways)

/-- `is_carrier_enable` -/
def isCarrierEnable (s : State) (id : ℕ) (a : Account) : Bool :=
  a.uaccountProperty &&& accountCarrier ≠ 0 && s.isIdentityEnable .carrier id

/-- The account whose records the gateway takes for an asset: the one trusted for it, the default
author's, or its own. -/
def authorId (s : State) (ca : Identity × Gateway) (assetId : ℕ) : Except MemberError ℕ :=
  match ca.2.trustAuth.lookup assetId, ca.2.defAuth with
  | some account, _ => .ok account
  | none, some author => do
      let ass ← orThrow (s.identities.lookup (.author, author))
      return ass.account
  | none, none => .ok ca.1.account

/-- What `get_can_author` says of the account if the authenticator may authenticate. -/
def checkRecord (s : State) (needAuth authorId : ℕ) (a : Account) : ℤ :=
  match a.authData with
  | none => -1
  | some data =>
      match data.authState.lookup authorId with
      | none => -2
      | some item =>
          if needAuth &&& gatewayHash ≠ 0 ∧ item.hash64 ≠ data.hash64 then -3
          else if item.expired s.time then -4
          else item.permission

/-- `get_can_author`. -/
def getCanAuthor (s : State) (ca : Identity × Gateway) (a : Account) (assetId : ℕ) :
    Except MemberError ℤ := do
  let asset ← orThrow (s.assets.lookup assetId)
  if ca.2.needAuth &&& asset.gatewayFlag = 0 then return authNosetting
  else
    let authorId ← s.authorId ca assetId
    let author ← orThrow (s.accounts.lookup authorId)
    if ¬ s.isAuthAsset authorId author assetId then return -5
    else return s.checkRecord ca.2.needAuth authorId a

/-- `get_can_author`, where the flag of the direction is set. -/
def getCan (s : State) (direction : ℕ) (ca : Identity × Gateway) (a : Account) (assetId : ℕ) :
    Except MemberError ℤ :=
  if ca.2.needAuth &&& direction = 0 then .ok authNosetting else s.getCanAuthor ca a assetId

/-- `get_can_withdraw` -/
def getCanWithdraw (s : State) := s.getCan gatewayWithdray

/-- `get_can_deposit` -/
def getCanDeposit (s : State) := s.getCan gatewayDispost

end State

/-! ### Operations -/

/-- `gateway_withdraw_operation` -/
structure GatewayWithdraw where
  fee : ℤ
  from_ : ℕ
  to_ : ℕ
  withdraw : ℤ
  asset : ℕ

/-- `gateway_deposit_operation` -/
structure GatewayDeposit where
  fee : ℤ
  from_ : ℕ
  to_ : ℕ
  deposit : ℤ
  asset : ℕ

/-- `withdraw_permission_create_operation` -/
structure WithdrawPermissionCreate where
  fee : ℤ
  withdrawFromAccount : ℕ
  authorizedAccount : ℕ
  withdrawalLimit : ℤ
  withdrawalAsset : ℕ
  withdrawalPeriodSec : ℕ
  periodsUntilExpiration : ℕ
  periodStartTime : ℕ
  authorizedIdentify : ℕ := 0

namespace GatewayWithdraw

/-- `validate` -/
def Valid (op : GatewayWithdraw) : Prop := 0 ≤ op.fee ∧ 0 ≤ op.withdraw ∧ op.from_ ≠ op.to_

instance (op : GatewayWithdraw) : Decidable op.Valid := inferInstanceAs (Decidable (_ ∧ _))

end GatewayWithdraw

namespace GatewayDeposit

/-- `validate` -/
def Valid (op : GatewayDeposit) : Prop := 0 ≤ op.fee ∧ 0 ≤ op.deposit ∧ op.from_ ≠ op.to_

instance (op : GatewayDeposit) : Decidable op.Valid := inferInstanceAs (Decidable (_ ∧ _))

end GatewayDeposit

namespace WithdrawPermissionCreate

/-- `validate` -/
def Valid (op : WithdrawPermissionCreate) : Prop :=
  0 ≤ op.fee ∧ op.withdrawFromAccount ≠ op.authorizedAccount ∧ 0 < op.withdrawalLimit ∧
    0 < op.withdrawalPeriodSec ∧ 0 < op.periodsUntilExpiration

instance (op : WithdrawPermissionCreate) : Decidable op.Valid :=
  inferInstanceAs (Decidable (_ ∧ _))

/-- `period_start_time + periods_until_expiration * withdrawal_period_sec`, in 32 bits. -/
def expiration (op : WithdrawPermissionCreate) : ℕ :=
  (op.periodStartTime + op.periodsUntilExpiration * op.withdrawalPeriodSec % 2 ^ 32) % 2 ^ 32

end WithdrawPermissionCreate

namespace State

/-- `do_evaluate` of `gateway_withdraw_operation`. -/
def evaluateGatewayWithdraw (s : State) (op : GatewayWithdraw) : Except MemberError Unit := do
  let t ← orThrow (s.accounts.lookup op.to_)
  let f ← orThrow (s.accounts.lookup op.from_)
  let a ← orThrow (s.assets.lookup op.asset)
  fcAssert (¬ f.isLockBalance) .lockBalance
  fcAssert (¬ t.isLockBalance) .lockBalance
  let _ ← orThrow (s.findIdentity .gateway op.to_)
  fcAssert op.Valid .invalid
  fcAssert (a.isLoanIssued ∨ a.isLenderIssued op.asset) .notLoanOrLender
  fcAssert t.isGatewayMember .notGatewayMember
  let id ← s.getGatewayId op.to_
  let ca ← s.getGateway id
  let can ← s.getCanWithdraw ca f op.asset
  fcAssert (can ≠ 0) .notAuthenticated
  let enable ← s.isGatewayEnable op.to_ t op.asset
  fcAssert enable .notEnabled
  fcAssert (op.withdraw ≤ s.getBalance op.from_ op.asset) .insufficientBalance

/-- `do_evaluate` of `gateway_deposit_operation`. -/
def evaluateGatewayDeposit (s : State) (op : GatewayDeposit) : Except MemberError Unit := do
  let t ← orThrow (s.accounts.lookup op.to_)
  let f ← orThrow (s.accounts.lookup op.from_)
  let a ← orThrow (s.assets.lookup op.asset)
  fcAssert (¬ f.isLockBalance) .lockBalance
  fcAssert (¬ t.isLockBalance) .lockBalance
  let _ ← orThrow (s.findIdentity .gateway op.from_)
  fcAssert op.Valid .invalid
  fcAssert (a.isLoanIssued ∨ a.isLenderIssued op.asset) .notLoanOrLender
  fcAssert f.isGatewayMember .notGatewayMember
  let enable ← s.isGatewayEnable op.from_ f op.asset
  fcAssert enable .notEnabled
  let id ← s.getGatewayId op.from_
  let ca ← s.getGateway id
  let can ← s.getCanDeposit ca t op.asset
  fcAssert (0 < can) .notAuthenticated
  fcAssert (op.deposit ≤ s.getBalance op.from_ op.asset) .insufficientBalance

/-- The checks of `withdraw_permission_create_operation` if the account is to act as a gateway. -/
def evaluateAsGateway (s : State) (op : WithdrawPermissionCreate) (t f : Account) (a : Asset) :
    Except MemberError Unit := do
  let _ ← orThrow (s.findIdentity .gateway op.authorizedAccount)
  fcAssert (a.isLoanIssued ∨ a.isLenderIssued op.withdrawalAsset) .notLoanOrLender
  fcAssert t.isGatewayMember .notGatewayMember
  let id ← s.getGatewayId op.authorizedAccount
  let ca ← s.getGateway id
  let can ← s.getCanWithdraw ca f op.withdrawalAsset
  fcAssert (0 < can) .notAuthenticated
  let enable ← s.isGatewayEnable op.authorizedAccount t op.withdrawalAsset
  fcAssert enable .notEnabled

/-- The checks of `withdraw_permission_create_operation` if the account is to act as a carrier. -/
def evaluateAsCarrier (s : State) (op : WithdrawPermissionCreate) (t : Account) (a : Asset) :
    Except MemberError Unit := do
  let _ ← orThrow (s.findIdentity .carrier op.authorizedAccount)
  fcAssert (a.isLoanIssued ∨ a.isLenderIssued op.withdrawalAsset) .notLoanOrLender
  fcAssert t.isCarrierMember .notCarrierMember
  fcAssert (s.isCarrierEnable op.authorizedAccount t) .notEnabled

/-- `do_evaluate` of `withdraw_permission_create_operation`. -/
def evaluateWithdrawPermissionCreate (s : State) (op : WithdrawPermissionCreate) :
    Except MemberError Unit := do
  let t ← orThrow (s.accounts.lookup op.authorizedAccount)
  let f ← orThrow (s.accounts.lookup op.withdrawFromAccount)
  let a ← orThrow (s.assets.lookup op.withdrawalAsset)
  fcAssert (s.time < op.periodStartTime) .permission
  fcAssert (s.time < op.expiration) .permission
  fcAssert (s.blockInterval ≤ op.withdrawalPeriodSec) .permission
  fcAssert (¬ f.isLockBalance) .lockBalance
  fcAssert op.Valid .invalid
  if op.authorizedIdentify &&& accountGateway ≠ 0 then s.evaluateAsGateway op t f a else .ok ()
  if op.authorizedIdentify &&& accountCarrier ≠ 0 then s.evaluateAsCarrier op t a else .ok ()
  fcAssert (op.withdrawalLimit ≤ s.getBalance op.withdrawFromAccount op.withdrawalAsset)
    .insufficientBalance

/-- `gateway_withdraw_operation`: the amount goes from the account to the gateway, whose dynamic
object counts it. -/
def gatewayWithdraw (s : State) (op : GatewayWithdraw) : Except MemberError State := do
  s.evaluateGatewayWithdraw op
  let id ← orThrow (s.findIdentity .gateway op.to_)
  let s₁ ← s.adjustBalance op.to_ op.asset op.withdraw
  let s₂ ← s₁.adjustBalance op.from_ op.asset (-op.withdraw)
  let g ← orThrow (s₂.gateways.lookup id)
  let amount := (g.withdrawAmount.lookup op.asset).getD 0 + op.withdraw
  let count := ((g.withdrawCount.lookup op.asset).getD 0 + 1) % 2 ^ 64
  return { s₂ with gateways := s₂.gateways.insert id { g with
    withdrawAmount := g.withdrawAmount.insert op.asset amount
    withdrawCount := g.withdrawCount.insert op.asset count } }

/-- `gateway_deposit_operation`: the amount goes from the gateway to the account, and the dynamic
object of the gateway counts it. -/
def gatewayDeposit (s : State) (op : GatewayDeposit) : Except MemberError State := do
  s.evaluateGatewayDeposit op
  let id ← orThrow (s.findIdentity .gateway op.from_)
  let s₁ ← s.adjustBalance op.to_ op.asset op.deposit
  let s₂ ← s₁.adjustBalance op.from_ op.asset (-op.deposit)
  let g ← orThrow (s₂.gateways.lookup id)
  let amount := (g.depositAmount.lookup op.asset).getD 0 + op.deposit
  let count := ((g.depositCount.lookup op.asset).getD 0 + 1) % 2 ^ 64
  return { s₂ with gateways := s₂.gateways.insert id { g with
    depositAmount := g.depositAmount.insert op.asset amount
    depositCount := g.depositCount.insert op.asset count } }

/-- `withdraw_permission_create_operation`. -/
def withdrawPermissionCreate (s : State) (op : WithdrawPermissionCreate) :
    Except MemberError State := do
  s.evaluateWithdrawPermissionCreate op
  return { s with
    permissions := s.permissions.insert s.nextPermission {
      withdrawFromAccount := op.withdrawFromAccount
      authorizedAccount := op.authorizedAccount
      withdrawalLimit := op.withdrawalLimit
      withdrawalAsset := op.withdrawalAsset
      withdrawalPeriodSec := op.withdrawalPeriodSec
      expiration := op.expiration
      periodStartTime := op.periodStartTime
      authorizedIdentify := op.authorizedIdentify }
    nextPermission := s.nextPermission + 1 }

end State

/-! ### What the number is to say -/

/-- The gateway requires authentication for a direction and an asset. -/
def Gateway.Requires (g : Gateway) (direction : ℕ) (a : Asset) : Prop :=
  g.needAuth &&& direction ≠ 0 ∧ g.needAuth &&& a.gatewayFlag ≠ 0

/-- A record of the account by a given authenticator that counts: with the hash of the data, if the
gateway asks for that, and not out of date. -/
structure Account.Record (a : Account) (needAuth authorId now : ℕ) (item : AuthItem) : Prop where
  found : ∃ data, a.authData = some data ∧ data.authState.lookup authorId = some item ∧
    (needAuth &&& gatewayHash ≠ 0 → item.hash64 = data.hash64)
  unexpired : ¬ item.expired now

namespace State

variable {s : State} {direction needAuth authorId : ℕ} {ca : Identity × Gateway} {a : Account}
  {assetId : ℕ} {asset : Asset} {v : ℤ} {x y : AuthItem}

/-- A record of the account that the gateway takes: by the authenticator it trusts, who may
authenticate for the asset. -/
structure Trusted (s : State) (ca : Identity × Gateway) (a : Account) (assetId : ℕ)
    (item : AuthItem) : Prop where
  author : ∃ authorId author, s.authorId ca assetId = .ok authorId ∧
    s.accounts.lookup authorId = some author ∧ s.isAuthAsset authorId author assetId ∧
    a.Record ca.2.needAuth authorId s.time item

/-- There is a trusted record that allows it. -/
def Allowed (s : State) (ca : Identity × Gateway) (a : Account) (assetId : ℕ) : Prop :=
  ∃ item, s.Trusted ca a assetId item ∧ 0 < item.permission

/-- The authenticator whom the gateway trusts is an account. -/
def HasAuthor (s : State) (ca : Identity × Gateway) (assetId : ℕ) : Prop :=
  ∃ authorId author, s.authorId ca assetId = .ok authorId ∧
    s.accounts.lookup authorId = some author

/-- The number is that of the record if there is one that counts, and negative otherwise. -/
lemma checkRecord_cases (s : State) (needAuth authorId : ℕ) (a : Account) :
    (∃ item, a.Record needAuth authorId s.time item ∧
        s.checkRecord needAuth authorId a = item.permission) ∨
      (∀ item, ¬ a.Record needAuth authorId s.time item) ∧ s.checkRecord needAuth authorId a < 0 := by
  cases hdata : a.authData with
  | none =>
      refine .inr ⟨?_, by simp [checkRecord, hdata]⟩
      rintro item ⟨⟨data, hdata', -⟩, -⟩
      simp [hdata] at hdata'
  | some data =>
      cases hitem : data.authState.lookup authorId with
      | none =>
          refine .inr ⟨?_, by simp [checkRecord, hdata, hitem]⟩
          rintro item ⟨⟨data', hdata', hitem', -⟩, -⟩
          cases hdata.symm.trans hdata'
          simp [hitem] at hitem'
      | some item =>
          by_cases hhash : needAuth &&& gatewayHash ≠ 0 → item.hash64 = data.hash64
          · by_cases hexpired : item.expired s.time = true
            · refine .inr ⟨?_, ?_⟩
              · rintro other ⟨⟨data', hdata', hitem', -⟩, hunexpired⟩
                cases hdata.symm.trans hdata'
                cases hitem.symm.trans hitem'
                exact hunexpired hexpired
              · have hne : ¬ (needAuth &&& gatewayHash ≠ 0 ∧ item.hash64 ≠ data.hash64) := by tauto
                simp only [checkRecord, hdata, hitem, if_neg hne, if_pos hexpired]
                decide
            · refine .inl ⟨item, ⟨⟨data, hdata, hitem, hhash⟩, hexpired⟩, ?_⟩
              have hne : ¬ (needAuth &&& gatewayHash ≠ 0 ∧ item.hash64 ≠ data.hash64) := by tauto
              simp only [checkRecord, hdata, hitem, if_neg hne, if_neg hexpired]
          · refine .inr ⟨?_, ?_⟩
            · rintro other ⟨⟨data', hdata', hitem', hhash'⟩, -⟩
              cases hdata.symm.trans hdata'
              cases hitem.symm.trans hitem'
              exact hhash hhash'
            · have hne : needAuth &&& gatewayHash ≠ 0 ∧ item.hash64 ≠ data.hash64 := by tauto
              simp only [checkRecord, hdata, hitem, if_pos hne]
              decide

/-- There is one trusted record at most. -/
lemma Trusted.unique (hx : s.Trusted ca a assetId x) (hy : s.Trusted ca a assetId y) : x = y := by
  obtain ⟨authorId, author, hid, -, -, ⟨data, hdata, hitem, -⟩, -⟩ := hx.author
  obtain ⟨authorId', author', hid', -, -, ⟨data', hdata', hitem', -⟩, -⟩ := hy.author
  cases hid.symm.trans hid'
  cases hdata.symm.trans hdata'
  exact Option.some_inj.mp (hitem.symm.trans hitem')

/-- The number is 2000 where no authentication is required, that of the trusted record if there is
one, and negative otherwise. -/
lemma getCan_cases (hasset : s.assets.lookup assetId = some asset)
    (h : s.getCan direction ca a assetId = .ok v) :
    ¬ ca.2.Requires direction asset ∧ v = authNosetting ∨
      ca.2.Requires direction asset ∧ ((∃ item, s.Trusted ca a assetId item ∧ v = item.permission) ∨
        (∀ item, ¬ s.Trusted ca a assetId item) ∧ v < 0) := by
  by_cases hdirection : ca.2.needAuth &&& direction = 0
  · rw [getCan, if_pos hdirection] at h
    cases h
    exact .inl ⟨fun hr => hr.1 hdirection, rfl⟩
  rw [getCan, if_neg hdirection] at h
  simp only [getCanAuthor, hasset, orThrow_bind_eq_ok, Option.some.injEq, exists_eq_left'] at h
  by_cases hneed : ca.2.needAuth &&& asset.gatewayFlag = 0
  · rw [if_pos hneed] at h
    cases h
    exact .inl ⟨fun hr => hr.2 hneed, rfl⟩
  rw [if_neg hneed] at h
  refine .inr ⟨⟨hdirection, hneed⟩, ?_⟩
  obtain ⟨authorId, hid, h⟩ := except_bind_eq_ok.mp h
  obtain ⟨author, hauthor, h⟩ := orThrow_bind_eq_ok.mp h
  by_cases hauth : s.isAuthAsset authorId author assetId = true
  · rw [if_neg (not_not.mpr hauth)] at h
    cases h
    rcases checkRecord_cases s ca.2.needAuth authorId a with ⟨item, hitem, hv⟩ | ⟨hnone, hv⟩
    · exact .inl ⟨item, ⟨authorId, author, hid, hauthor, hauth, hitem⟩, hv⟩
    · refine .inr ⟨fun item hitem => ?_, hv⟩
      obtain ⟨authorId', -, hid', -, -, hrecord⟩ := hitem.author
      cases hid.symm.trans hid'
      exact hnone item hrecord
  · rw [if_pos hauth] at h
    cases h
    refine .inr ⟨fun item hitem => ?_, by decide⟩
    obtain ⟨authorId', author', hid', hauthor', hauth', -⟩ := hitem.author
    cases hid.symm.trans hid'
    cases hauthor.symm.trans hauthor'
    exact hauth hauth'

/-- The number is positive exactly if no authentication is required or if a trusted record allows
it. -/
lemma getCan_pos_iff (hasset : s.assets.lookup assetId = some asset)
    (h : s.getCan direction ca a assetId = .ok v) :
    0 < v ↔ ¬ ca.2.Requires direction asset ∨ s.Allowed ca a assetId := by
  rcases getCan_cases hasset h with ⟨hr, rfl⟩ | ⟨hr, ⟨item, hitem, rfl⟩ | ⟨hnone, hv⟩⟩
  · simp [hr, authNosetting]
  · simp only [hr, not_true_eq_false, false_or]
    constructor
    · exact fun hpos => ⟨item, hitem, hpos⟩
    · rintro ⟨other, hother, hpos⟩
      rwa [hitem.unique hother]
  · simp only [hr, not_true_eq_false, false_or]
    constructor
    · intro hpos
      omega
    · rintro ⟨other, hother, -⟩
      exact absurd hother (hnone other)

/-- The number is negative exactly if authentication is required and no trusted record has a state
from zero on. -/
lemma getCan_neg_iff (hasset : s.assets.lookup assetId = some asset)
    (h : s.getCan direction ca a assetId = .ok v) :
    v < 0 ↔ ca.2.Requires direction asset ∧
      ∀ item, s.Trusted ca a assetId item → item.permission < 0 := by
  rcases getCan_cases hasset h with ⟨hr, rfl⟩ | ⟨hr, ⟨item, hitem, rfl⟩ | ⟨hnone, hv⟩⟩
  · simp [hr, authNosetting]
  · simp only [hr, true_and]
    constructor
    · intro hneg other hother
      rwa [← hitem.unique hother]
    · exact fun hall => hall item hitem
  · simp only [hr, hv, true_and, true_iff]
    exact fun other hother => absurd hother (hnone other)

/-- There is a number if the objects are there. -/
lemma getCan_isOk (direction : ℕ) (a : Account) (hasset : s.assets.lookup assetId = some asset)
    (hauthor : s.HasAuthor ca assetId) : ∃ v, s.getCan direction ca a assetId = .ok v := by
  obtain ⟨authorId, author, hid, hauthor⟩ := hauthor
  by_cases hdirection : ca.2.needAuth &&& direction = 0
  · exact ⟨_, if_pos hdirection⟩
  rw [getCan, if_neg hdirection]
  simp only [getCanAuthor, hasset, orThrow_bind_eq_ok, Option.some.injEq, exists_eq_left']
  by_cases hneed : ca.2.needAuth &&& asset.gatewayFlag = 0
  · exact ⟨_, if_pos hneed⟩
  rw [if_neg hneed, hid]
  by_cases hauth : s.isAuthAsset authorId author assetId = true
  · refine ⟨s.checkRecord ca.2.needAuth authorId a, ?_⟩
    exact orThrow_bind_eq_ok.mpr ⟨author, hauthor, if_neg (not_not.mpr hauth)⟩
  · exact ⟨-5, orThrow_bind_eq_ok.mpr ⟨author, hauthor, if_pos hauth⟩⟩

/-- Where authentication is required, there is no number without the authenticator. -/
lemma hasAuthor_of_getCan (hasset : s.assets.lookup assetId = some asset)
    (hr : ca.2.Requires direction asset) (h : s.getCan direction ca a assetId = .ok v) :
    s.HasAuthor ca assetId := by
  rw [getCan, if_neg hr.1] at h
  simp only [getCanAuthor, hasset, orThrow_bind_eq_ok, Option.some.injEq, exists_eq_left',
    if_neg hr.2] at h
  obtain ⟨authorId, hid, h⟩ := except_bind_eq_ok.mp h
  obtain ⟨author, hauthor, -⟩ := orThrow_bind_eq_ok.mp h
  exact ⟨authorId, author, hid, hauthor⟩

end State

/-! ### What the evaluators take -/

/-- What a gateway is asked for: the direction, the gateway, the account it deals with and the
asset. -/
structure Request where
  direction : ℕ
  gateway : ℕ
  account : ℕ
  asset : ℕ

namespace State

variable {s s' : State} {r : Request} {v : ℤ}

/-- The number for a request, by `get_can_withdraw` or `get_can_deposit`. -/
def answer (s : State) (r : Request) : Except MemberError ℤ := do
  let a ← orThrow (s.accounts.lookup r.account)
  let id ← s.getGatewayId r.gateway
  let ca ← s.getGateway id
  s.getCan r.direction ca a r.asset

/-- The gateway requires no authentication for the request, or a trusted record allows it. -/
def Admits (s : State) (r : Request) : Prop :=
  ∃ a id ca asset, s.accounts.lookup r.account = some a ∧ s.getGatewayId r.gateway = .ok id ∧
    s.getGateway id = .ok ca ∧ s.assets.lookup r.asset = some asset ∧
    (¬ ca.2.Requires r.direction asset ∨ s.Allowed ca a r.asset)

/-- The objects that the number is about. -/
lemma answer_eq_ok : s.answer r = .ok v ↔ ∃ a, s.accounts.lookup r.account = some a ∧
    ∃ id, s.getGatewayId r.gateway = .ok id ∧ ∃ ca, s.getGateway id = .ok ca ∧
      s.getCan r.direction ca a r.asset = .ok v := by
  simp only [answer, except_bind_eq_ok, orThrow_eq_ok]

/-- A positive number admits the request. -/
lemma admits_of_answer {asset : Asset} (h : s.answer r = .ok v)
    (hasset : s.assets.lookup r.asset = some asset) (hv : 0 < v) : s.Admits r := by
  obtain ⟨a, ha, id, hid, ca, hca, h⟩ := answer_eq_ok.mp h
  exact ⟨a, id, ca, asset, ha, hid, hca, hasset, (getCan_pos_iff hasset h).mp hv⟩

end State

/-- The operations for which a gateway may require authentication. -/
inductive GatewayOp where
  | withdraw (op : GatewayWithdraw)
  | deposit (op : GatewayDeposit)
  | permit (op : WithdrawPermissionCreate)

namespace GatewayOp

/-- The evaluator. -/
def apply (s : State) : GatewayOp → Except MemberError State
  | withdraw op => s.gatewayWithdraw op
  | deposit op => s.gatewayDeposit op
  | permit op => s.withdrawPermissionCreate op

/-- What a gateway is asked for, if anything. -/
def request : GatewayOp → Option Request
  | withdraw op => some ⟨gatewayWithdray, op.to_, op.from_, op.asset⟩
  | deposit op => some ⟨gatewayDispost, op.from_, op.to_, op.asset⟩
  | permit op =>
      if op.authorizedIdentify &&& accountGateway ≠ 0 then
        some ⟨gatewayWithdray, op.authorizedAccount, op.withdrawFromAccount, op.withdrawalAsset⟩
      else none

/-- The operation is accepted only if the number is positive: the gateway requires no
authentication, or a trusted record allows it. -/
def Enforced (s : State) (op : GatewayOp) : Prop :=
  (∃ s', op.apply s = .ok s') → ∀ r, op.request = some r →
    (∃ v, s.answer r = .ok v ∧ 0 < v) ∧ s.Admits r

end GatewayOp

/-- What `gateway_withdraw_operation` is checked for besides the number. -/
structure GatewayWithdraw.Checked (s : State) (op : GatewayWithdraw) (t f : Account) (a : Asset)
    (ca : Identity × Gateway) : Prop where
  to_ : s.accounts.lookup op.to_ = some t
  from_ : s.accounts.lookup op.from_ = some f
  asset : s.assets.lookup op.asset = some a
  unlocked : ¬ f.isLockBalance ∧ ¬ t.isLockBalance
  valid : op.Valid
  issued : a.isLoanIssued ∨ a.isLenderIssued op.asset
  member : t.isGatewayMember
  gateway : ∃ id, s.getGatewayId op.to_ = .ok id ∧ s.getGateway id = .ok ca
  enabled : s.isGatewayEnable op.to_ t op.asset = .ok true
  balance : op.withdraw ≤ s.getBalance op.from_ op.asset

/-- A withdrawal that meets the other checks, where authentication is required and no trusted
record has a state from zero on. -/
def GatewayOp.Unauthenticated (s : State) : GatewayOp → Prop
  | .withdraw op => ∃ t f a ca, op.Checked s t f a ca ∧ s.HasAuthor ca op.asset ∧
      ca.2.Requires gatewayWithdray a ∧
      ∀ item, s.Trusted ca f op.asset item → item.permission < 0
  | _ => False

namespace State

variable {s s' : State}

/-- The withdrawal is checked for the number to be any but zero. -/
lemma evaluateGatewayWithdraw_eq_ok {op : GatewayWithdraw} :
    s.evaluateGatewayWithdraw op = .ok () ↔ ∃ t f a ca v, op.Checked s t f a ca ∧
      s.getCanWithdraw ca f op.asset = .ok v ∧ v ≠ 0 := by
  constructor
  · intro h
    simp only [evaluateGatewayWithdraw, except_bind_eq_ok, orThrow_eq_ok, fcAssert_eq_ok,
      exists_const] at h
    obtain ⟨t, ht, f, hf, a, ha, hfl, htl, -, -, hvalid, hissued, hmember, id, hid, ca, hca, v, hv,
      hne, enable, henable, rfl, hbalance⟩ := h
    exact ⟨t, f, a, ca, v,
      ⟨ht, hf, ha, ⟨hfl, htl⟩, hvalid, hissued, hmember, ⟨id, hid, hca⟩, henable, hbalance⟩, hv, hne⟩
  · rintro ⟨t, f, a, ca, v, h, hv, hne⟩
    obtain ⟨id, hid, hca⟩ := h.gateway
    simp only [evaluateGatewayWithdraw, except_bind_eq_ok, orThrow_eq_ok, fcAssert_eq_ok,
      exists_const]
    exact ⟨t, h.to_, f, h.from_, a, h.asset, h.unlocked.1, h.unlocked.2, id, orThrow_eq_ok.mp hid,
      h.valid, h.issued, h.member, id, hid, ca, hca, v, hv, hne, true, h.enabled, rfl, h.balance⟩

/-- A deposit is checked for the number to be positive. -/
lemma answer_of_evaluateGatewayDeposit {op : GatewayDeposit}
    (h : s.evaluateGatewayDeposit op = .ok ()) :
    ∃ v asset, s.answer ⟨gatewayDispost, op.from_, op.to_, op.asset⟩ = .ok v ∧
      s.assets.lookup op.asset = some asset ∧ 0 < v := by
  simp only [evaluateGatewayDeposit, except_bind_eq_ok, orThrow_eq_ok, fcAssert_eq_ok,
    exists_const] at h
  obtain ⟨t, ht, f, -, a, ha, -, -, -, -, -, -, -, enable, -, -, id, hid, ca, hca, v, hv, hpos, -⟩ := h
  exact ⟨v, a, answer_eq_ok.mpr ⟨t, ht, id, hid, ca, hca, hv⟩, ha, hpos⟩

/-- A permission for a gateway is checked for the number to be positive. -/
lemma answer_of_evaluateAsGateway {op : WithdrawPermissionCreate} {t f : Account} {a : Asset}
    (hf : s.accounts.lookup op.withdrawFromAccount = some f)
    (h : s.evaluateAsGateway op t f a = .ok ()) :
    ∃ v, s.answer ⟨gatewayWithdray, op.authorizedAccount, op.withdrawFromAccount,
      op.withdrawalAsset⟩ = .ok v ∧ 0 < v := by
  simp only [evaluateAsGateway, except_bind_eq_ok, orThrow_eq_ok, fcAssert_eq_ok,
    exists_const] at h
  obtain ⟨-, -, -, -, id, hid, ca, hca, v, hv, hpos, -⟩ := h
  exact ⟨v, answer_eq_ok.mpr ⟨f, hf, id, hid, ca, hca, hv⟩, hpos⟩

/-- The number of a withdrawal that is checked. -/
lemma answer_of_checked {op : GatewayWithdraw} {t f : Account} {a : Asset}
    {ca : Identity × Gateway} {v : ℤ} (hc : op.Checked s t f a ca)
    (hv : s.getCanWithdraw ca f op.asset = .ok v) :
    s.answer ⟨gatewayWithdray, op.to_, op.from_, op.asset⟩ = .ok v := by
  obtain ⟨id, hid, hca⟩ := hc.gateway
  exact answer_eq_ok.mpr ⟨f, hc.from_, id, hid, ca, hca, hv⟩

/-- A gateway is looked up in two places. -/
lemma getGateway_eq_ok {id : ℕ} {ca : Identity × Gateway} : s.getGateway id = .ok ca ↔
    s.identities.lookup (.gateway, id) = some ca.1 ∧ s.gateways.lookup id = some ca.2 := by
  simp only [getGateway, except_bind_eq_ok, orThrow_eq_ok]
  constructor
  · rintro ⟨i, hi, g, hg, h⟩
    cases h
    exact ⟨hi, hg⟩
  · rintro ⟨hi, hg⟩
    exact ⟨ca.1, hi, ca.2, hg, rfl⟩

/-- What is added to a balance is added. -/
lemma adjustBalance_isOk_of_nonneg (s : State) (account asset : ℕ) {delta : ℤ} (h : 0 ≤ delta) :
    ∃ s', s.adjustBalance account asset delta = .ok s' := by
  by_cases h0 : delta = 0
  · exact ⟨s, if_pos h0⟩
  rw [adjustBalance, if_neg h0]
  cases s.balances.lookup (account, asset) with
  | none => exact ⟨_, if_pos (by omega)⟩
  | some balance => exact ⟨_, if_neg (by omega)⟩

/-- What is taken from a balance is taken if it is there. -/
lemma adjustBalance_isOk_of_le {s : State} {account asset : ℕ} {amount : ℤ} (h : 0 ≤ amount)
    (hb : amount ≤ s.getBalance account asset) :
    ∃ s', s.adjustBalance account asset (-amount) = .ok s' := by
  by_cases h0 : -amount = 0
  · exact ⟨s, if_pos h0⟩
  rw [adjustBalance, if_neg h0]
  cases hl : s.balances.lookup (account, asset) with
  | none =>
      simp only [getBalance, hl, Option.getD_none] at hb
      omega
  | some balance =>
      simp only [getBalance, hl, Option.getD_some] at hb
      exact ⟨_, if_neg (by omega)⟩

/-- A withdrawal that passes its checks is accepted. -/
lemma gatewayWithdraw_isOk {op : GatewayWithdraw} (h : s.evaluateGatewayWithdraw op = .ok ()) :
    ∃ s', s.gatewayWithdraw op = .ok s' := by
  obtain ⟨t, f, a, ca, v, hc, -⟩ := evaluateGatewayWithdraw_eq_ok.mp h
  obtain ⟨id, hid, hca⟩ := hc.gateway
  obtain ⟨hfee, hamount, hne⟩ := hc.valid
  obtain ⟨s₁, h₁⟩ := s.adjustBalance_isOk_of_nonneg op.to_ op.asset hamount
  have hbalance : op.withdraw ≤ s₁.getBalance op.from_ op.asset := by
    simpa [(adjusted h₁).balance, hne] using hc.balance
  obtain ⟨s₂, h₂⟩ := adjustBalance_isOk_of_le hamount hbalance
  have hgateways : s₂.gateways = s.gateways := by
    obtain ⟨b₁, rfl⟩ := (adjusted h₁).others
    obtain ⟨b₂, rfl⟩ := (adjusted h₂).others
    rfl
  have hg := (getGateway_eq_ok.mp hca).2
  simp only [gatewayWithdraw, h, orThrow_eq_ok.mp hid, h₁, h₂, hgateways, hg, orThrow, bind,
    Except.bind]
  exact ⟨_, rfl⟩

end State

namespace GatewayOp

/-- **A gateway's policy is enforced, except on a withdrawal without a record.** Every operation
that is accepted has a positive number exactly if it is not a withdrawal that meets all other
checks while no trusted record has a state from zero on. -/
theorem enforced_iff (s : State) (op : GatewayOp) : op.Enforced s ↔ ¬ op.Unauthenticated s := by
  cases op with
  | withdraw op =>
      constructor
      · rintro henforced ⟨t, f, a, ca, hc, hauthor, hrequires, hall⟩
        obtain ⟨v, hv⟩ := State.getCan_isOk gatewayWithdray f hc.asset hauthor
        have hneg : v < 0 := (State.getCan_neg_iff hc.asset hv).mpr ⟨hrequires, hall⟩
        have heval : s.evaluateGatewayWithdraw op = .ok () :=
          State.evaluateGatewayWithdraw_eq_ok.mpr ⟨t, f, a, ca, v, hc, hv, by omega⟩
        obtain ⟨⟨w, hw, hpos⟩, -⟩ := henforced (State.gatewayWithdraw_isOk heval) _ rfl
        cases (State.answer_of_checked hc hv).symm.trans hw
        omega
      · rintro hnot ⟨s', hs'⟩ r hr
        cases hr
        obtain ⟨u, heval, -⟩ := except_bind_eq_ok.mp hs'
        obtain ⟨t, f, a, ca, v, hc, hv, hne⟩ := State.evaluateGatewayWithdraw_eq_ok.mp heval
        have hanswer := State.answer_of_checked hc hv
        have hpos : 0 < v := by
          by_contra hle
          have hneg : v < 0 := by omega
          obtain ⟨hrequires, hall⟩ := (State.getCan_neg_iff hc.asset hv).mp hneg
          exact hnot ⟨t, f, a, ca, hc, State.hasAuthor_of_getCan hc.asset hrequires hv, hrequires,
            hall⟩
        exact ⟨⟨v, hanswer, hpos⟩, State.admits_of_answer hanswer hc.asset hpos⟩
  | deposit op =>
      refine iff_of_true ?_ id
      rintro ⟨s', hs'⟩ r hr
      cases hr
      obtain ⟨u, heval, -⟩ := except_bind_eq_ok.mp hs'
      obtain ⟨v, asset, hanswer, hasset, hpos⟩ := State.answer_of_evaluateGatewayDeposit heval
      exact ⟨⟨v, hanswer, hpos⟩, State.admits_of_answer hanswer hasset hpos⟩
  | permit op =>
      refine iff_of_true ?_ id
      rintro ⟨s', hs'⟩ r hr
      obtain ⟨u, heval, -⟩ := except_bind_eq_ok.mp hs'
      by_cases hgateway : op.authorizedIdentify &&& accountGateway ≠ 0
      · rw [request, if_pos hgateway] at hr
        cases hr
        simp only [State.evaluateWithdrawPermissionCreate, except_bind_eq_ok, orThrow_eq_ok,
          fcAssert_eq_ok, exists_const, if_pos hgateway] at heval
        obtain ⟨t, -, f, hf, a, ha, -, -, -, -, -, ⟨⟩, hgw, -⟩ := heval
        obtain ⟨v, hanswer, hpos⟩ := State.answer_of_evaluateAsGateway hf hgw
        exact ⟨⟨v, hanswer, hpos⟩, State.admits_of_answer hanswer ha hpos⟩
      · rw [request, if_neg hgateway] at hr
        cases hr

/-- An account without data, a gateway that asks for authentication on withdrawals of the asset,
and has it done by its own account. -/
def noRecord : State where
  accounts := AList.insert 1 {} (AList.insert 2 { uaccountProperty := accountGateway } ∅)
  balances := AList.insert (1, 1) 100 ∅
  assets := AList.insert 1 { issuer := 3, bitassetDataId := some 0, uassetProperty := assetLoan,
                             whitelistGateways := {2} } ∅
  identities := AList.insert (.gateway, 0) { account := 2 } ∅
  gateways := AList.insert 0 { needAuth := gatewayBit ||| gatewayWithdray,
                               allowedAssets := {1} } ∅

/-- The withdrawal of the whole balance. -/
def withdrawAll : GatewayWithdraw where
  fee := 0
  from_ := 1
  to_ := 2
  withdraw := 100
  asset := 1

/-- The withdrawal is accepted, and the number is -1. -/
theorem not_enforced_withdrawAll : ¬ (GatewayOp.withdraw withdrawAll).Enforced noRecord := by
  intro h
  have heval : noRecord.evaluateGatewayWithdraw withdrawAll = .ok () := by decide +kernel
  have hanswer : noRecord.answer ⟨gatewayWithdray, 2, 1, 1⟩ = .ok (-1) := by decide +kernel
  obtain ⟨⟨v, hv, hpos⟩, -⟩ := h (State.gatewayWithdraw_isOk heval) _ rfl
  cases hanswer.symm.trans hv
  exact absurd hpos (by decide)

end GatewayOp

end ZosCore.Member
