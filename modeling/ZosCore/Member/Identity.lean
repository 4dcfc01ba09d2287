import Mathlib.Data.Finset.Sort
import ZosCore.Member.State

/-!
`witness_evaluator.cpp`, `committee_member_evaluator.cpp`, `budget_member_evaluator.cpp`,
`gateway_evaluator.cpp`, `carrier_evaluator.cpp`, `author_evaluator.cpp`: how an account becomes
something on the chain, gives it up and takes it up again.

The six operations that create an object check the same things and take a deposit, which
`change_identity` returns and takes again. Two of the six bring something else with them: a gateway
its assets, an authenticator his. The checks of urls, memos and configurations are left out.

* `State.evaluateCreate`, `State.createIdentity`, `State.takeDeposit`: the common parts.
* `State.doAllowedAsset`: `do_allowed_asset`, which writes the account of a gateway into its assets.
* `State.witnessCreate` and the other five.
* `State.changeIdentity`, `State.databaseCheckWitness`.
-/

namespace ZosCore.Member

/-- A `uint64_t` read as an `int64_t`. -/
def toInt64 (n : ℕ) : ℤ := if n % 2 ^ 64 < 2 ^ 63 then n % 2 ^ 64 else n % 2 ^ 64 - 2 ^ 64

/-- The flag of the account that has an object. -/
def IdentityKind.flag : IdentityKind → ℕ
  | .witness => accountWitness
  | .committeeMember => accountCommitte
  | .budgetMember => accountBudget
  | .gateway => accountGateway
  | .carrier => accountCarrier
  | .author => accountAuthenticator

/-- `gateway_mask` -/
def gatewayMask : ℕ := 0x000000EF

/-- `author_mask` -/
def authorMask : ℕ := 0x00070000

/-- What the operations that create an object have in common. -/
structure IdentityCreate where
  fee : ℤ
  feeAsset : ℕ := 0
  account : ℕ

/-- `gateway_create_operation` -/
structure GatewayCreate extends IdentityCreate where
  needAuth : ℕ := 0
  allowedAsset : Finset ℕ := ∅

/-- `author_create_operation` -/
structure AuthorCreate extends IdentityCreate where
  authType : ℕ := 0
  allowAsset : List ℕ := []

/-- `change_identity_operation` -/
structure ChangeIdentity where
  issuer : ℕ
  kind : IdentityKind
  objectId : ℕ
  enable : Bool

namespace State

/-- `get_fee(op, 1)` -/
def getFee (s : State) (kind : IdentityKind) : ℤ := toInt64 (s.lockFee kind)

/-- An account object is modified. -/
def modifyAccount (s : State) (id : ℕ) (f : Account → Account) : Except MemberError State := do
  let a ← orThrow (s.accounts.lookup id)
  return { s with accounts := s.accounts.insert id (f a) }

/-- An asset object is modified. -/
def modifyAsset (s : State) (id : ℕ) (f : Asset → Asset) : Except MemberError State := do
  let a ← orThrow (s.assets.lookup id)
  return { s with assets := s.assets.insert id (f a) }

/-- The statistics object is modified: the amount that the account has in deposits. -/
def adjustLockAsset (s : State) (account : ℕ) (delta : ℤ) : Except MemberError State :=
  s.modifyAccount account fun a => { a with lockAsset := a.lockAsset + delta }

/-- An amount goes from the core balance of an account to its deposits. -/
def payDeposit (s : State) (account : ℕ) (lockFees : ℤ) : Except MemberError State := do
  let s₁ ← s.adjustBalance account 0 (-lockFees)
  s₁.adjustLockAsset account lockFees

/-! ### Creation -/

/-- The deposit, which is taken only if the operation pays a fee of more than one; the account must
have it, in some evaluators together with the fee. -/
def lockFees (s : State) (kind : IdentityKind) (withFee : Bool) (op : IdentityCreate) :
    Except MemberError ℤ :=
  if 1 < op.fee then do
    fcAssert (op.feeAsset = 0) .assetMismatch
    fcAssert ((if withFee then s.getFee kind + op.fee else s.getFee kind) ≤
      s.getBalance op.account op.feeAsset) .insufficientBalance
    return s.getFee kind
  else return 0

/-- The checks that the six evaluators have in common, and the deposit. -/
def evaluateCreate (s : State) (kind : IdentityKind) (withFee : Bool) (op : IdentityCreate) :
    Except MemberError ℤ := do
  fcAssert (0 ≤ op.fee) .invalid
  let account ← orThrow (s.accounts.lookup op.account)
  fcAssert account.isLifetimeMember .notLifetimeMember
  fcAssert (account.uaccountProperty &&& kind.flag = 0) .duplicate
  let lockFees ← s.lockFees kind withFee op
  fcAssert (¬ account.isLockBalance) .lockBalance
  return lockFees

/-- The object is created. -/
def createIdentity (s : State) (kind : IdentityKind) (account : ℕ) (lockFees : ℤ) : State :=
  { s with
    identities := s.identities.insert (kind, s.nextIdentity kind)
      { account := account, lockAsset := lockFees }
    nextIdentity := Function.update s.nextIdentity kind (s.nextIdentity kind + 1) }

/-- The flag of the account is set, and the deposit taken if there is one. -/
def takeDeposit (s : State) (kind : IdentityKind) (account : ℕ) (lockFees : ℤ) :
    Except MemberError State := do
  let s₁ ← s.modifyAccount account fun a =>
    { a with uaccountProperty := a.uaccountProperty ||| kind.flag }
  if 0 < lockFees then s₁.payDeposit account lockFees else return s₁

/-- The evaluators whose objects have nothing else. -/
def create (s : State) (kind : IdentityKind) (withFee : Bool) (op : IdentityCreate) :
    Except MemberError State := do
  let lockFees ← s.evaluateCreate kind withFee op
  (s.createIdentity kind op.account lockFees).takeDeposit kind op.account lockFees

/-- `witness_create_operation` -/
def witnessCreate (s : State) (op : IdentityCreate) := s.create .witness false op

/-- `committee_member_create_operation` -/
def committeeMemberCreate (s : State) (op : IdentityCreate) := s.create .committeeMember false op

/-- `budget_member_create_operation` -/
def budgetMemberCreate (s : State) (op : IdentityCreate) := s.create .budgetMember false op

/-- `carrier_create_operation` -/
def carrierCreate (s : State) (op : IdentityCreate) := s.create .carrier true op

/-- `author_create_operation` -/
def authorCreate (s : State) (op : AuthorCreate) : Except MemberError State := do
  let lockFees ← s.evaluateCreate .author true op.toIdentityCreate
  let s₁ := s.createIdentity .author op.account lockFees
  let s₂ := { s₁ with
    authors := s₁.authors.insert (s.nextIdentity .author)
      { authType := op.authType &&& authorMask, allowAsset := op.allowAsset } }
  s₂.takeDeposit .author op.account lockFees

/-- An option gets the gateways of its asset. -/
def refreshOption (s : State) (option : BitlenderOption) : BitlenderOption :=
  match s.assets.lookup option.assetId with
  | some ass => { option with gateways := ass.whitelistGateways }
  | none => option

/-- The options of some assets get the gateways of their assets. -/
def refreshOptions (s : State) (p : BitlenderOption → Prop) [DecidablePred p] : State :=
  { s with options := s.options.map fun option => if p option then s.refreshOption option else option }

/-- `do_allowed_asset`, for the gateway of an account that has had the assets `allowed`. -/
def doAllowedAsset (s : State) (gatewayAccount : ℕ) (allowed allowedNew : Finset ℕ) :
    Except MemberError State := do
  let s₁ ← (allowed.sort (· ≤ ·)).foldlM (fun s a => s.modifyAsset a fun p =>
    { p with whitelistGateways := p.whitelistGateways.erase gatewayAccount }) s
  let s₂ ← (allowedNew.sort (· ≤ ·)).foldlM (fun s a => s.modifyAsset a fun p =>
    { p with whitelistGateways := insert gatewayAccount p.whitelistGateways }) s₁
  return s₂.refreshOptions fun option => option.assetId ∈ allowed ∪ allowedNew

/-- `gateway_create_operation`; `do_allowed_asset` runs on the object under construction. -/
def gatewayCreate (s : State) (op : GatewayCreate) : Except MemberError State := do
  fcAssert (op.needAuth &&& gatewayMask = op.needAuth) .invalid
  let lockFees ← s.evaluateCreate .gateway true op.toIdentityCreate
  fcAssert (∀ a ∈ op.allowedAsset, (s.assets.lookup a).isSome) .notFound
  let s₁ ← s.doAllowedAsset op.account ∅ op.allowedAsset
  let s₂ := s₁.createIdentity .gateway op.account lockFees
  let s₃ := { s₂ with
    gateways := s₂.gateways.insert (s.nextIdentity .gateway)
      { needAuth := op.needAuth, allowedAssets := op.allowedAsset } }
  s₃.takeDeposit .gateway op.account lockFees

/-! ### What an operation does to the account -/

section Accounts

variable {s s' : State} {x : ℕ} {delta : ℤ}

/-- One account is changed by a function, and nothing else. -/
structure Modified (s s' : State) (x : ℕ) (f : Account → Account) : Prop where
  others : s' = { s with accounts := s'.accounts }
  found : (s.accounts.lookup x).isSome
  accounts : ∀ y, s'.accounts.lookup y = (s.accounts.lookup y).map fun a => if y = x then f a else a

/-- `modify` of an account. -/
lemma modified {f : Account → Account} (h : s.modifyAccount x f = .ok s') : Modified s s' x f := by
  simp only [modifyAccount, except_bind_eq_ok, orThrow_eq_ok] at h
  obtain ⟨a, ha, h⟩ := h
  cases h
  refine ⟨rfl, by simp [ha], fun y => ?_⟩
  by_cases hyx : y = x
  · subst hyx
    simp [ha]
  · simp [hyx, AList.lookup_insert_ne hyx]

/-- The account and its core balance are changed, and nothing else: the first by a function, the
other by an amount that is added to what the account has in deposits. -/
structure Deposited (s s' : State) (x : ℕ) (f : Account → Account) (delta : ℤ) : Prop where
  others : s' = { s with accounts := s'.accounts, balances := s'.balances }
  found : (s.accounts.lookup x).isSome
  accounts : ∀ y, s'.accounts.lookup y = (s.accounts.lookup y).map fun a =>
    if y = x then { f a with lockAsset := (f a).lockAsset + delta } else a
  balance : ∀ y z, s'.getBalance y z = s.getBalance y z - if y = x ∧ z = 0 then delta else 0

/-- What an account pays is in its deposits. -/
lemma deposited {s₁ : State} {f : Account → Account} (h₁ : Modified s s₁ x f)
    (h : s₁.payDeposit x delta = .ok s') : Deposited s s' x f delta := by
  obtain ⟨s₂, h₂, h₃⟩ := except_bind_eq_ok.mp h
  obtain ⟨⟨b, hb⟩, hbalance⟩ := adjusted h₂
  have h₃ := modified h₃
  have haccounts₂ : s₂.accounts = s₁.accounts := by rw [hb]
  have hbalances₁ : ∀ y z, s₁.getBalance y z = s.getBalance y z := by
    intro y z
    rw [h₁.others]
    rfl
  refine ⟨?_, h₁.found, fun y => ?_, fun y z => ?_⟩
  · rw [h₃.others, hb, h₁.others]
  · rw [h₃.accounts, haccounts₂, h₁.accounts]
    cases s.accounts.lookup y with
    | none => rfl
    | some a => by_cases hyx : y = x <;> simp [hyx]
  · have hbalances₃ : s'.getBalance y z = s₂.getBalance y z := by
      rw [h₃.others]
      rfl
    rw [hbalances₃, hbalance, hbalances₁]
    split_ifs <;> ring

/-- The deposit of a new object. -/
lemma takeDeposit_spec {kind : IdentityKind} {fees : ℤ}
    (h : s.takeDeposit kind x fees = .ok s') :
    Deposited s s' x (fun a => { a with uaccountProperty := a.uaccountProperty ||| kind.flag })
      (if 0 < fees then fees else 0) := by
  obtain ⟨s₁, h₁, h⟩ := except_bind_eq_ok.mp h
  have h₁ := modified h₁
  by_cases hfees : 0 < fees
  · rw [if_pos hfees] at h ⊢
    exact deposited h₁ h
  · rw [if_neg hfees] at h ⊢
    cases h
    refine ⟨?_, h₁.found, fun y => ?_, fun y z => ?_⟩
    · rw [h₁.others]
    · rw [h₁.accounts]
      simp
    · rw [h₁.others]
      simp [getBalance]

end Accounts

/-! ### Changes -/

/-- `do_evaluate` of `change_identity_operation`: the object and the deposit of today. -/
def evaluateChangeIdentity (s : State) (op : ChangeIdentity) : Except MemberError Identity := do
  let mem ← orThrow (s.identities.lookup (op.kind, op.objectId))
  fcAssert (mem.account = op.issuer) .wrongIssuer
  fcAssert (if op.enable then mem.enable ≠ .enable else mem.enable ≠ .disable) .sameState
  fcAssert (op.enable ∧ mem.enable = .disable → s.getFee op.kind ≤ s.getBalance mem.account 0)
    .insufficientBalance
  return mem

/-- The object is enabled. If it was disabled, the deposit of today is taken. -/
def enableIdentity (s : State) (op : ChangeIdentity) (mem : Identity) :
    Except MemberError State := do
  let takes := mem.enable = .disable ∧ 0 < s.getFee op.kind
  let s₁ ← (if takes then s.payDeposit mem.account (s.getFee op.kind) else .ok s)
  return { s₁ with
    identities := s₁.identities.insert (op.kind, op.objectId) { mem with
      lockAsset := if takes then s.getFee op.kind else mem.lockAsset
      enable := .enable } }

/-- The deposit is given back: as a vesting balance, or at once if its time is an hour at most. -/
def returnDeposit (s : State) (account : ℕ) (lockFees : ℤ) : Except MemberError State :=
  if 3600 < s.identifyLockVestingSeconds then
    return { s with
      vestingBalances := s.vestingBalances.insert s.nextVesting {
        owner := account
        asset := 0
        balance := lockFees
        policy := .linear s.time s.identifyLockVestingSeconds 1 lockFees
        bautoremove := true }
      nextVesting := s.nextVesting + 1 }
  else s.adjustBalance account 0 lockFees

/-- The object is disabled, and its deposit given back if there is one. -/
def disableIdentity (s : State) (op : ChangeIdentity) (mem : Identity) :
    Except MemberError State := do
  let s₁ := { s with
    identities := s.identities.insert (op.kind, op.objectId)
      { mem with lockAsset := 0, enable := .disable } }
  if 0 < mem.lockAsset then
    let s₂ ← s₁.adjustLockAsset mem.account (-mem.lockAsset)
    s₂.returnDeposit mem.account mem.lockAsset
  else return s₁

/-- `change_identity_operation` -/
def changeIdentity (s : State) (op : ChangeIdentity) : Except MemberError State := do
  let mem ← s.evaluateChangeIdentity op
  if op.enable then s.enableIdentity op mem else s.disableIdentity op mem

/-- What `database_check_witness` makes of one witness. -/
def checkWitness (lostNum : ℤ) (id : ℕ) (witness : Identity) : Identity :=
  if witness.enable ≠ .enable ∨ id ≤ 11 then witness
  else { witness with
    enable := if lostNum.tdiv 2 < witness.recentMissed then .enableLost else witness.enable
    recentMissed := 0 }

end State

end ZosCore.Member
