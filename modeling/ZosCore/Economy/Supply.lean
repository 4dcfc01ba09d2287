import ZosCore.Economy.Budget
import ZosCore.Economy.FeeRuns

/-!
`asset_evaluator.cpp`, `account_member_evaluator.cpp`: the operations that change the supply of an
asset, and the caps on it, in runs of blocks.

* `assetIssue`, `assetReserve`, `assetUpdate`, `gatewayIssueCurrency`: the operations.
* `SupplyCaps`: the caps hold, and what the gateways have issued of the core asset is in the budget.
* `SupplyStep`: the steps of a run, and `KeepsCaps`: an `asset_update` does not go below the supply,
  and no more is burned than there is.
* `supplyCaps_of_run`: then the caps hold for ever.
-/

namespace ZosCore

/-- `GRAPHENE_MAX_BITCORE_SUPPLY` -/
def maxBitcoreSupply : ℤ := 1000000000000000000

/-- `asset_issue_operation` and `asset_reserve_operation`, with the account that gets or gives the
amount. The checks that do not concern the supply are `allowed`. -/
structure AssetAmountOperation where
  issuer : ℕ
  account : ℕ
  asset : ℕ
  amount : ℤ
  allowed : Bool := true

/-- `asset_update_operation`, as far as it concerns the supply. -/
structure AssetUpdateOperation where
  issuer : ℕ
  assetToUpdate : ℕ
  newIssuer : Option ℕ := none
  newMaxSupply : ℤ
  allowed : Bool := true

/-- `gateway_issue_currency_operation`. -/
structure GatewayIssueOperation where
  accountTo : ℕ
  asset : ℕ
  amount : ℤ
  revoke : Bool
  allowed : Bool := true

/-- The supply of an asset is within its cap. -/
def Asset.Capped (a : Asset) : Prop := 0 ≤ a.currentSupply ∧ a.currentSupply ≤ a.maxSupply

namespace Economy

/-! ### Operations -/

/-- `d.get` of an asset. -/
def getAsset (e : Economy) (id : ℕ) : Except EconomyError Asset :=
  if id = coreAsset then .ok e.core
  else match e.assets.lookup id with
    | some a => .ok a
    | none => .error .notFound

/-- `modify` of an asset. -/
def setAsset (e : Economy) (id : ℕ) (a : Asset) : Economy :=
  if id = coreAsset then { e with core := a } else { e with assets := e.assets.insert id a }

/-- A check of an evaluator. -/
def require (p : Prop) [Decidable p] : Except EconomyError Unit :=
  if p then .ok () else .error .supply

/-- `asset_issue_evaluator`, after `validate`. -/
def assetIssue (op : AssetAmountOperation) (e : Economy) : Except EconomyError Economy := do
  require (0 < op.amount ∧ op.amount ≤ maxShareSupply ∧ op.asset ≠ coreAsset)
  let a ← e.getAsset op.asset
  require (op.issuer = a.issuer ∧ a.isMarketIssued = false ∧ op.allowed = true)
  require (a.currentSupply + op.amount ≤ a.maxSupply)
  let e' ← e.adjustBalance op.account op.asset op.amount
  return e'.setAsset op.asset { a with currentSupply := a.currentSupply + op.amount }

/-- `asset_reserve_evaluator`, after `validate`. -/
def assetReserve (op : AssetAmountOperation) (e : Economy) : Except EconomyError Economy := do
  require (0 < op.amount ∧ op.amount ≤ maxShareSupply)
  let a ← e.getAsset op.asset
  require (a.isMarketIssued = false ∧ op.allowed = true)
  require (0 ≤ a.currentSupply - op.amount)
  let e' ← e.adjustBalance op.account op.asset (-op.amount)
  return e'.setAsset op.asset { a with currentSupply := a.currentSupply - op.amount }

/-- `asset_update_evaluator`, after `validate`. The supply that there is plays no role. -/
def assetUpdate (op : AssetUpdateOperation) (e : Economy) : Except EconomyError Economy := do
  require (0 < op.newMaxSupply ∧ op.newMaxSupply ≤ maxBitcoreSupply)
  let a ← e.getAsset op.assetToUpdate
  require (op.assetToUpdate = coreAsset → op.newMaxSupply ≤ maxShareSupply)
  require (op.issuer = a.issuer ∧ op.allowed = true)
  return e.setAsset op.assetToUpdate
    { a with issuer := op.newIssuer.getD a.issuer, maxSupply := op.newMaxSupply }

/-- What a gateway has issued of an asset. -/
def issueAmount (e : Economy) (account asset : ℕ) : ℤ := (e.issueAmounts.lookup (account, asset)).getD 0

/-- The end of `gateway_issue_currency_evaluator::do_apply`: `amount` is negative if it is revoked. -/
def noteIssue (e : Economy) (account asset : ℕ) (amount : ℤ) : Economy :=
  { e with
    issueAmounts := e.issueAmounts.insert (account, asset) (e.issueAmount account asset + amount)
    properties := if asset = coreAsset then { e.properties with
      budgetSupply := e.properties.budgetSupply + amount } else e.properties }

/-- `gateway_issue_currency_evaluator`, after `validate`. -/
def gatewayIssueCurrency (op : GatewayIssueOperation) (e : Economy) : Except EconomyError Economy := do
  require (0 ≤ op.amount)
  let a ← e.getAsset op.asset
  require (op.allowed = true)
  if op.revoke then
    require ((e.issueAmounts.lookup (op.accountTo, op.asset)).isSome = true)
    require (op.amount ≤ e.getBalance op.accountTo op.asset)
    require (op.amount ≤ a.currentSupply)
    require (op.amount ≤ e.issueAmount op.accountTo op.asset)
    let e' ← e.adjustBalance op.accountTo op.asset (-op.amount)
    return (e'.setAsset op.asset { a with currentSupply := a.currentSupply - op.amount }).noteIssue
      op.accountTo op.asset (-op.amount)
  else
    require (a.currentSupply ≤ a.maxSupply)
    require (op.amount ≤ a.maxSupply - a.currentSupply)
    require (op.asset = coreAsset → op.amount ≤ maxShareBudget - e.properties.budgetSupply)
    let e' ← e.adjustBalance op.accountTo op.asset op.amount
    return (e'.setAsset op.asset { a with currentSupply := a.currentSupply + op.amount }).noteIssue
      op.accountTo op.asset op.amount

/-! ### The caps -/

/-- What the gateways have issued of the core asset. -/
def issuedCore (e : Economy) : ℤ :=
  total (fun k amount => if k.2 = coreAsset then amount else 0) e.issueAmounts

/-- The caps, and the invariant that keeps them: what the gateways have issued is in the budget. -/
structure SupplyCaps (e : Economy) : Prop where
  minerSupply : e.properties.minerSupply ≤ maxShareMiner
  budgetSupply : e.properties.budgetSupply ≤ maxShareBudget
  issued : e.issuedCore ≤ e.properties.budgetSupply
  issueAmounts : ∀ k amount, e.issueAmounts.lookup k = some amount → 0 ≤ amount
  core : e.core.Capped
  assets : ∀ id a, e.assets.lookup id = some a → a.Capped

variable {e e' : Economy} {id : ℕ} {a a' : Asset} {amount : ℤ}

lemma require_eq_ok {p : Prop} [Decidable p] {u : Unit} : require p = .ok u ↔ p := by
  rw [require]
  split_ifs with hp <;> simp [hp]

lemma issuedCore_nonneg (h : ∀ k amount, e.issueAmounts.lookup k = some amount → 0 ≤ amount) :
    0 ≤ e.issuedCore := by
  refine List.sum_nonneg fun x hx => ?_
  obtain ⟨⟨k, amount⟩, hmem, rfl⟩ := List.mem_map.mp hx
  show 0 ≤ if k.2 = coreAsset then amount else 0
  split_ifs
  · exact h k amount (AList.mem_lookup_iff.mpr hmem)
  · exact le_rfl

/-- An asset that is found is within its cap. -/
lemma SupplyCaps.getAsset (h : e.SupplyCaps) (ha : e.getAsset id = .ok a) : a.Capped := by
  unfold Economy.getAsset at ha
  by_cases hid : id = coreAsset
  · rw [if_pos hid] at ha
    cases ha
    exact h.core
  · rw [if_neg hid] at ha
    cases hlook : e.assets.lookup id with
    | none => simp [hlook] at ha
    | some b =>
        simp only [hlook] at ha
        cases ha
        exact h.assets id _ hlook

/-- Everything that the caps are about is kept. -/
structure SameSupply (e e' : Economy) : Prop where
  minerSupply : e'.properties.minerSupply = e.properties.minerSupply
  budgetSupply : e'.properties.budgetSupply = e.properties.budgetSupply
  issueAmounts : e'.issueAmounts = e.issueAmounts
  maxSupply : e'.core.maxSupply = e.core.maxSupply
  assets : e'.assets = e.assets

/-- The core asset has another supply. -/
lemma SameSupply.caps (hs : SameSupply e e') (h : e.SupplyCaps) (h0 : 0 ≤ e'.core.currentSupply)
    (hmax : e'.core.currentSupply ≤ e.core.maxSupply) : e'.SupplyCaps := by
  refine ⟨?_, ?_, ?_, ?_, ⟨h0, ?_⟩, ?_⟩
  · rw [hs.minerSupply]
    exact h.minerSupply
  · rw [hs.budgetSupply]
    exact h.budgetSupply
  · rw [issuedCore]
    rw [hs.issueAmounts, hs.budgetSupply]
    exact h.issued
  · rw [hs.issueAmounts]
    exact h.issueAmounts
  · rw [hs.maxSupply]
    exact hmax
  · rw [hs.assets]
    exact h.assets

/-- Balances do not matter. -/
lemma SupplyCaps.balances (h : e.SupplyCaps) (b : AList fun _ : ℕ × ℕ => ℤ) :
    ({ e with balances := b } : Economy).SupplyCaps :=
  ⟨h.minerSupply, h.budgetSupply, h.issued, h.issueAmounts, h.core, h.assets⟩

/-- An asset within its cap is put in the place of another. -/
lemma SupplyCaps.setAsset (h : e.SupplyCaps) (ha : a.Capped) : (e.setAsset id a).SupplyCaps := by
  rw [Economy.setAsset]
  split_ifs with hid
  · exact ⟨h.minerSupply, h.budgetSupply, h.issued, h.issueAmounts, ha, h.assets⟩
  · refine ⟨h.minerSupply, h.budgetSupply, h.issued, h.issueAmounts, h.core, fun i b hb => ?_⟩
    by_cases hi : i = id
    · subst hi
      rw [AList.lookup_insert] at hb
      cases hb
      exact ha
    · rw [AList.lookup_insert_ne hi] at hb
      exact h.assets i b hb

/-! ### Operations on one asset -/

lemma assetIssue_caps {op : AssetAmountOperation} (h : e.SupplyCaps) (hop : assetIssue op e = .ok e') :
    e'.SupplyCaps := by
  obtain ⟨_, hvalid, hop⟩ := except_bind_eq_ok.mp hop
  obtain ⟨a, ha, hop⟩ := except_bind_eq_ok.mp hop
  obtain ⟨_, -, hop⟩ := except_bind_eq_ok.mp hop
  obtain ⟨_, hmax, hop⟩ := except_bind_eq_ok.mp hop
  obtain ⟨e₁, hadj, hop⟩ := except_bind_eq_ok.mp hop
  cases hop
  obtain ⟨-, b, rfl⟩ := getBalance_adjustBalance hadj
  have hpos := (require_eq_ok.mp hvalid).1
  have hcap := h.getAsset ha
  refine (h.balances b).setAsset ⟨?_, require_eq_ok.mp hmax⟩
  show 0 ≤ a.currentSupply + op.amount
  have := hcap.1
  omega

lemma assetReserve_caps {op : AssetAmountOperation} (h : e.SupplyCaps)
    (hop : assetReserve op e = .ok e') : e'.SupplyCaps := by
  obtain ⟨_, hvalid, hop⟩ := except_bind_eq_ok.mp hop
  obtain ⟨a, ha, hop⟩ := except_bind_eq_ok.mp hop
  obtain ⟨_, -, hop⟩ := except_bind_eq_ok.mp hop
  obtain ⟨_, hmin, hop⟩ := except_bind_eq_ok.mp hop
  obtain ⟨e₁, hadj, hop⟩ := except_bind_eq_ok.mp hop
  cases hop
  obtain ⟨-, b, rfl⟩ := getBalance_adjustBalance hadj
  have hpos := (require_eq_ok.mp hvalid).1
  have hcap := h.getAsset ha
  refine (h.balances b).setAsset ⟨require_eq_ok.mp hmin, ?_⟩
  show a.currentSupply - op.amount ≤ a.maxSupply
  have := hcap.2
  omega

lemma assetUpdate_caps {op : AssetUpdateOperation} (h : e.SupplyCaps)
    (hop : assetUpdate op e = .ok e')
    (hkeep : ∀ a, e.getAsset op.assetToUpdate = .ok a → a.currentSupply ≤ op.newMaxSupply) :
    e'.SupplyCaps := by
  obtain ⟨_, -, hop⟩ := except_bind_eq_ok.mp hop
  obtain ⟨a, ha, hop⟩ := except_bind_eq_ok.mp hop
  obtain ⟨_, -, hop⟩ := except_bind_eq_ok.mp hop
  obtain ⟨_, -, hop⟩ := except_bind_eq_ok.mp hop
  cases hop
  exact h.setAsset ⟨(h.getAsset ha).1, hkeep a ha⟩

/-- What a gateway has issued changes, and so does the budget if it is the core asset. -/
lemma SupplyCaps.noteIssue (h : e.SupplyCaps) {account asset : ℕ}
    (h0 : 0 ≤ e.issueAmount account asset + amount)
    (hbudget : asset = coreAsset → e.properties.budgetSupply + amount ≤ maxShareBudget) :
    (e.noteIssue account asset amount).SupplyCaps := by
  have hissued : (e.noteIssue account asset amount).issuedCore =
      e.issuedCore + if asset = coreAsset then amount else 0 := by
    unfold issuedCore
    show total _ (e.issueAmounts.insert (account, asset) _) = _
    unfold issueAmount
    cases hlook : e.issueAmounts.lookup (account, asset) with
    | none =>
        rw [total_insert_of_none hlook]
        simp
    | some x =>
        rw [total_insert_of_lookup hlook]
        simp only [Option.getD_some]
        split_ifs <;> ring
  have hlookup : ∀ k x, (e.noteIssue account asset amount).issueAmounts.lookup k = some x → 0 ≤ x := by
    intro k x hx
    change (e.issueAmounts.insert (account, asset) _).lookup k = some x at hx
    by_cases hk : k = (account, asset)
    · subst hk
      rw [AList.lookup_insert] at hx
      cases hx
      exact h0
    · rw [AList.lookup_insert_ne hk] at hx
      exact h.issueAmounts k x hx
  have hold := h.issued
  have hcap := h.budgetSupply
  rw [Economy.noteIssue] at hissued hlookup ⊢
  by_cases hcore : asset = coreAsset
  · rw [if_pos hcore] at hissued
    rw [if_pos hcore] at hissued hlookup ⊢
    refine ⟨h.minerSupply, hbudget hcore, ?_, hlookup, h.core, h.assets⟩
    rw [hissued]
    show _ ≤ e.properties.budgetSupply + amount
    omega
  · rw [if_neg hcore] at hissued
    rw [if_neg hcore] at hissued hlookup ⊢
    refine ⟨h.minerSupply, hcap, ?_, hlookup, h.core, h.assets⟩
    rw [hissued]
    show _ ≤ e.properties.budgetSupply
    omega

lemma issueAmount_setAsset (account asset : ℕ) :
    (e.setAsset id a).issueAmount account asset = e.issueAmount account asset ∧
      (e.setAsset id a).properties = e.properties := by
  rw [Economy.setAsset]
  split_ifs <;> exact ⟨rfl, rfl⟩

lemma gatewayIssueCurrency_caps {op : GatewayIssueOperation} (h : e.SupplyCaps)
    (hop : gatewayIssueCurrency op e = .ok e') : e'.SupplyCaps := by
  obtain ⟨_, hvalid, hop⟩ := except_bind_eq_ok.mp hop
  obtain ⟨a, ha, hop⟩ := except_bind_eq_ok.mp hop
  obtain ⟨_, -, hop⟩ := except_bind_eq_ok.mp hop
  have h0 := require_eq_ok.mp hvalid
  obtain ⟨hmin, hmax⟩ := h.getAsset ha
  by_cases hrevoke : op.revoke = true
  · rw [if_pos hrevoke] at hop
    obtain ⟨_, -, hop⟩ := except_bind_eq_ok.mp hop
    obtain ⟨_, -, hop⟩ := except_bind_eq_ok.mp hop
    obtain ⟨_, hsupply, hop⟩ := except_bind_eq_ok.mp hop
    obtain ⟨_, hissued, hop⟩ := except_bind_eq_ok.mp hop
    obtain ⟨e₁, hadj, hop⟩ := except_bind_eq_ok.mp hop
    cases hop
    obtain ⟨-, b, rfl⟩ := getBalance_adjustBalance hadj
    replace hsupply := require_eq_ok.mp hsupply
    replace hissued := require_eq_ok.mp hissued
    refine ((h.balances b).setAsset ⟨?_, ?_⟩).noteIssue ?_ fun _ => ?_
    · show 0 ≤ a.currentSupply - op.amount
      omega
    · show a.currentSupply - op.amount ≤ a.maxSupply
      omega
    · rw [(issueAmount_setAsset op.accountTo op.asset).1]
      show 0 ≤ e.issueAmount op.accountTo op.asset + -op.amount
      omega
    · rw [(issueAmount_setAsset op.accountTo op.asset).2]
      show e.properties.budgetSupply + -op.amount ≤ maxShareBudget
      have := h.budgetSupply
      omega
  · rw [if_neg hrevoke] at hop
    obtain ⟨_, -, hop⟩ := except_bind_eq_ok.mp hop
    obtain ⟨_, hroom, hop⟩ := except_bind_eq_ok.mp hop
    obtain ⟨_, hbudget, hop⟩ := except_bind_eq_ok.mp hop
    obtain ⟨e₁, hadj, hop⟩ := except_bind_eq_ok.mp hop
    cases hop
    obtain ⟨-, b, rfl⟩ := getBalance_adjustBalance hadj
    replace hroom := require_eq_ok.mp hroom
    replace hbudget := require_eq_ok.mp hbudget
    refine ((h.balances b).setAsset ⟨?_, ?_⟩).noteIssue ?_ fun hcore => ?_
    · show 0 ≤ a.currentSupply + op.amount
      omega
    · show a.currentSupply + op.amount ≤ a.maxSupply
      omega
    · rw [(issueAmount_setAsset op.accountTo op.asset).1]
      show 0 ≤ e.issueAmount op.accountTo op.asset + op.amount
      have hissue : 0 ≤ e.issueAmount op.accountTo op.asset := by
        rw [issueAmount]
        cases hlook : e.issueAmounts.lookup (op.accountTo, op.asset) with
        | none => exact le_rfl
        | some x => exact h.issueAmounts _ x hlook
      omega
    · rw [(issueAmount_setAsset op.accountTo op.asset).2]
      show e.properties.budgetSupply + op.amount ≤ maxShareBudget
      have := hbudget hcore
      omega

/-! ### The maintenance -/

lemma budgetMiners_caps (h : e.SupplyCaps) : e.budgetMiners.1.SupplyCaps ∧
    e.core.currentSupply ≤ e.budgetMiners.1.core.currentSupply ∧
    e.budgetMiners.1.balances = e.balances := by
  obtain ⟨h0, hmax⟩ := h.core
  rw [budgetMiners]
  split_ifs with hno hneed hissue
  · exact ⟨h, le_rfl, rfl⟩
  · exact ⟨⟨h.minerSupply, h.budgetSupply, h.issued, h.issueAmounts, h.core, h.assets⟩, le_rfl, rfl⟩
  · have hclamp : e.minerIssue ≤ maxShareMiner - e.properties.minerSupply ∧
        e.minerIssue ≤ e.core.maxSupply - e.core.currentSupply := by
      rw [minerIssue, clampSupply, reserved]
      omega
    refine ⟨⟨?_, h.budgetSupply, h.issued, h.issueAmounts, ⟨?_, ?_⟩, h.assets⟩, ?_, rfl⟩
    · show e.properties.minerSupply + e.minerIssue ≤ maxShareMiner
      omega
    · show 0 ≤ e.core.currentSupply + e.minerIssue
      omega
    · show e.core.currentSupply + e.minerIssue ≤ e.core.maxSupply
      omega
    · show e.core.currentSupply ≤ e.core.currentSupply + e.minerIssue
      omega
  · exact ⟨h, le_rfl, rfl⟩

/-- The payroll keeps the caps: what is burned has been issued, or was in the platform account. -/
lemma payWorkers_caps {record : BudgetRecord} {p : Payroll} (h : e.SupplyCaps)
    (hplat : e.getBalance platformAccount coreAsset ≤ e.core.currentSupply)
    (hpay : e.payWorkers record = .ok p) : p.after.SupplyCaps := by
  obtain ⟨amount, -, hpay⟩ := except_bind_eq_ok.mp hpay
  obtain ⟨⟨budget, e₁⟩, hfund, hpay⟩ := except_bind_eq_ok.mp hpay
  obtain ⟨⟨pay, e₂⟩, hspend, hpay⟩ := except_bind_eq_ok.mp hpay
  cases hpay
  obtain ⟨⟨supply, hcore⟩, hminer, -, hassets, hissue, hdelta, hcases⟩ := fundWorkers_cases hfund
  obtain ⟨hle, h0, hspent⟩ := spendBudget_spec hspend
  obtain ⟨hmin, hmax⟩ := h.core
  have hmaxsame : e₁.core.maxSupply = e.core.maxSupply := by rw [hcore]
  -- what is issued is within both caps, and what is paid is this and the platform account's
  have hbounds : e.core.currentSupply ≤ e₁.core.currentSupply ∧
      e₁.core.currentSupply ≤ e.core.maxSupply ∧
      e₁.properties.budgetSupply ≤ maxShareBudget ∧ pay ≤ e₁.core.currentSupply := by
    have hbudget := h.budgetSupply
    have hclamp : e.workerIssue amount ≤ maxShareBudget - e.properties.budgetSupply ∧
        e.workerIssue amount ≤ e.core.maxSupply - e.core.currentSupply := by
      unfold workerIssue clampSupply reserved
      omega
    by_cases hamount : amount ≤ e.getBalance platformAccount coreAsset
    · rw [if_pos hamount] at hcases
      obtain ⟨rfl, hsup, -⟩ := hcases
      split_ifs at hle <;> omega
    · rw [if_neg hamount] at hcases
      obtain ⟨rfl, hcases⟩ := hcases
      by_cases hpos : 0 < e.workerIssue amount
      · rw [if_pos hpos] at hcases
        obtain ⟨hsup, -⟩ := hcases
        split_ifs at hle <;> omega
      · rw [if_neg hpos] at hcases
        subst hcases
        split_ifs at hle <;> omega
  have hfunded : (e₁.noteWorkers budget).SupplyCaps := by
    refine ⟨?_, hbounds.2.2.1, ?_, ?_, ⟨?_, ?_⟩, ?_⟩
    · show e₁.properties.minerSupply ≤ _
      rw [hminer]
      exact h.minerSupply
    · show total _ e₁.issueAmounts ≤ e₁.properties.budgetSupply
      rw [hissue]
      have hold := h.issued
      unfold issuedCore at hold
      omega
    · show ∀ k x, e₁.issueAmounts.lookup k = some x → _
      rw [hissue]
      exact h.issueAmounts
    · show 0 ≤ e₁.core.currentSupply
      omega
    · show e₁.core.currentSupply ≤ e₁.core.maxSupply
      rw [hmaxsame]
      exact hbounds.2.1
    · show ∀ i b, e₁.assets.lookup i = some b → _
      rw [hassets]
      exact h.assets
  have hsame : SameSupply (e₁.noteWorkers budget) e₂ :=
    ⟨by rw [hspent.properties], by rw [hspent.properties], hspent.issueAmounts, hspent.maxSupply,
      hspent.assets⟩
  have hburned : e₁.core.currentSupply - pay ≤ e₂.core.currentSupply := hspent.burned
  exact hsame.caps hfunded (by omega) (hspent.supply.trans hfunded.core.2)

lemma processBudget_caps (h : e.SupplyCaps)
    (hplat : e.getBalance platformAccount coreAsset ≤ e.core.currentSupply)
    (hproc : e.processBudget = .ok e') : e'.SupplyCaps := by
  obtain ⟨p, hpay, hproc⟩ := except_bind_eq_ok.mp hproc
  cases hproc
  obtain ⟨hcaps, hgrow, hbal⟩ := budgetMiners_caps h
  have hplat' : e.budgetMiners.1.getBalance platformAccount coreAsset ≤
      e.budgetMiners.1.core.currentSupply := by
    have hsame : e.budgetMiners.1.getBalance platformAccount coreAsset =
        e.getBalance platformAccount coreAsset := by
      unfold getBalance
      rw [hbal]
    omega
  have hafter := payWorkers_caps hcaps hplat' hpay
  exact ⟨hafter.minerSupply, hafter.budgetSupply, hafter.issued, hafter.issueAmounts, hafter.core,
    hafter.assets⟩

/-- So much of the core asset is burned, and nothing else that the caps are about changes. -/
structure Burned (e e' : Economy) (x : ℤ) : Prop extends SameSupply e e' where
  supply : e'.core.currentSupply = e.core.currentSupply - x

lemma SameSupply.trans {e'' : Economy} (h : SameSupply e e') (h' : SameSupply e' e'') : SameSupply e e'' :=
  ⟨h'.minerSupply.trans h.minerSupply, h'.budgetSupply.trans h.budgetSupply,
    h'.issueAmounts.trans h.issueAmounts, h'.maxSupply.trans h.maxSupply, h'.assets.trans h.assets⟩

lemma Burned.trans {e'' : Economy} {x y : ℤ} (h : Burned e e' x) (h' : Burned e' e'' y) :
    Burned e e'' (x + y) := by
  refine ⟨h.toSameSupply.trans h'.toSameSupply, ?_⟩
  rw [h'.supply, h.supply]
  ring

lemma depositCashback_burned {x : ℤ} {rv : Bool} (h : e.depositCashback id x rv = .ok e') :
    Burned e e' (burnedCashback id x) := by
  obtain ⟨acct, -, h⟩ := except_bind_eq_ok.mp h
  rw [burnedCashback]
  by_cases h0 : x = 0
  · rw [if_pos h0] at h
    cases h
    rw [h0, ite_self]
    exact ⟨⟨rfl, rfl, rfl, rfl, rfl⟩, (sub_zero _).symm⟩
  rw [if_neg h0] at h
  by_cases hown : isBlockchainAccount id = true
  · simp only [if_pos hown] at h ⊢
    cases h
    exact ⟨⟨rfl, rfl, rfl, rfl, rfl⟩, rfl⟩
  simp only [if_neg hown] at h ⊢
  obtain ⟨⟨r, e₁⟩, hdep, h⟩ := except_bind_eq_ok.mp h
  obtain ⟨vb, n, rfl⟩ := depositLazyVesting_rest hdep
  have hsame : Burned e { e with vestingBalances := vb, nextVestingId := n } 0 :=
    ⟨⟨rfl, rfl, rfl, rfl, rfl⟩, (sub_zero _).symm⟩
  cases r with
  | none =>
      cases h
      exact hsame
  | some vbid =>
      simp only at h
      split_ifs at h
      · cases h
        exact hsame
      · cases h
        exact ⟨⟨rfl, rfl, rfl, rfl, rfl⟩, (sub_zero _).symm⟩

lemma payOutFees_burned {b : Account} {fee : ℤ} {rv : Bool} (h : e.payOutFees b fee rv = .ok e') :
    ∃ s, splitFee b fee = .ok s ∧ Burned e e' (burnedOf b s) := by
  obtain ⟨s, hs, h⟩ := except_bind_eq_ok.mp h
  obtain ⟨e₁, h₁, h⟩ := except_bind_eq_ok.mp h
  obtain ⟨e₂, h₂, h₃⟩ := except_bind_eq_ok.mp h
  refine ⟨s, hs, ?_⟩
  have hall := ((depositCashback_burned h₁).trans (depositCashback_burned h₂)).trans
    (depositCashback_burned h₃)
  exact ⟨⟨hall.minerSupply, hall.budgetSupply, hall.issueAmounts, hall.maxSupply, hall.assets⟩,
    hall.supply⟩

/-- What is burned of the cuts of a fee is between nothing and the fee. -/
lemma burnedOf_bounds {s : FeeSplit} {fee : ℤ} (h : s.Exact fee) (b : Account) :
    0 ≤ burnedOf b s ∧ burnedOf b s ≤ fee := by
  obtain ⟨hn, hl, hr, hg, hsum⟩ := h
  unfold burnedOf burnedCashback
  split_ifs <;> omega

/-- The fees of an account can be processed: they are not negative, and no more than the supply. -/
structure FeesInSupply (e : Economy) (b : Account) : Prop where
  percentages : b.Percentages
  share : Share b.statistics.pendingFees
  shareVested : Share b.statistics.pendingVestedFees
  nonneg : 0 ≤ b.statistics.pendingFees
  nonnegVested : 0 ≤ b.statistics.pendingVestedFees
  supply : b.statistics.pendingFees + b.statistics.pendingVestedFees ≤ e.core.currentSupply

lemma processPending_burned (hfees : ∀ b, e.accounts.lookup id = some b → e.FeesInSupply b)
    (h : e.processPending id = .ok e') :
    ∃ x, 0 ≤ x ∧ x ≤ e.core.currentSupply ∧ Burned e e' x := by
  obtain ⟨b, hb, h⟩ := except_bind_eq_ok.mp h
  obtain ⟨hperc, hs, hsv, h0, h0v, hsum⟩ := hfees b (getAccount_eq_ok.mp hb)
  by_cases hpos : 0 < b.statistics.pendingFees ∨ 0 < b.statistics.pendingVestedFees
  · rw [if_pos hpos] at h
    obtain ⟨e₁, h₁, h⟩ := except_bind_eq_ok.mp h
    obtain ⟨e₂, h₂, h⟩ := except_bind_eq_ok.mp h
    obtain ⟨b', -, h⟩ := except_bind_eq_ok.mp h
    cases h
    obtain ⟨s, hsplit, hburn⟩ := payOutFees_burned h₁
    obtain ⟨s', hsplit', hburn'⟩ := payOutFees_burned h₂
    obtain ⟨t, ht, hexact⟩ := splitFee_spec hperc h0 hs.2
    obtain ⟨t', ht', hexact'⟩ := splitFee_spec hperc h0v hsv.2
    obtain rfl : s = t := Except.ok.inj (hsplit.symm.trans ht)
    obtain rfl : s' = t' := Except.ok.inj (hsplit'.symm.trans ht')
    have hx := burnedOf_bounds hexact b
    have hx' := burnedOf_bounds hexact' b
    have hall := hburn.trans hburn'
    exact ⟨burnedOf b s + burnedOf b s', by omega, by omega, ⟨hall.minerSupply, hall.budgetSupply,
      hall.issueAmounts, hall.maxSupply, hall.assets⟩, hall.supply⟩
  · rw [if_neg hpos] at h
    cases h
    exact ⟨0, le_rfl, by omega, ⟨rfl, rfl, rfl, rfl, rfl⟩, (sub_zero _).symm⟩

lemma processCouponFees_burned (h : e.processCouponFees id = .ok e') : Burned e e' 0 := by
  obtain ⟨b, -, h⟩ := except_bind_eq_ok.mp h
  split_ifs at h <;> cases h <;> exact ⟨⟨rfl, rfl, rfl, rfl, rfl⟩, (sub_zero _).symm⟩

lemma processCoupons_burned (h : e.processCoupons id = .ok e') : Burned e e' 0 := by
  obtain ⟨b, -, h⟩ := except_bind_eq_ok.mp h
  have hset : (e.setCoupon id b.statistics 0 false).2.minerSupply = e.properties.minerSupply ∧
      (e.setCoupon id b.statistics 0 false).2.budgetSupply = e.properties.budgetSupply := by
    simp only [setCoupon]
    split_ifs <;> exact ⟨rfl, rfl⟩
  split_ifs at h <;> cases h
  · exact ⟨⟨hset.1, hset.2, rfl, rfl, rfl⟩, (sub_zero _).symm⟩
  · exact ⟨⟨rfl, rfl, rfl, rfl, rfl⟩, (sub_zero _).symm⟩

lemma processFees_caps (h : e.SupplyCaps)
    (hfees : ∀ b, e.accounts.lookup id = some b → e.FeesInSupply b)
    (hproc : e.processFees id = .ok e') : e'.SupplyCaps := by
  obtain ⟨e₁, h₁, hproc⟩ := except_bind_eq_ok.mp hproc
  obtain ⟨e₂, h₂, h₃⟩ := except_bind_eq_ok.mp hproc
  obtain ⟨x, h0, hle, hburn⟩ := processPending_burned hfees h₁
  have hall := (hburn.trans (processCouponFees_burned h₂)).trans (processCoupons_burned h₃)
  have hsupply := hall.supply
  have hmax := h.core.2
  exact hall.toSameSupply.caps h (by omega) (by omega)

/-! ### Runs -/

end Economy

/-- The steps that change a supply or a cap, and everything else. -/
inductive SupplyEvent where
  | assetCreate (asset : Asset) (feePool : ℤ)
  | assetIssue (op : AssetAmountOperation)
  | assetReserve (op : AssetAmountOperation)
  | assetUpdate (op : AssetUpdateOperation)
  | gatewayIssueCurrency (op : GatewayIssueOperation)
  | processFees (id : ℕ)
  | processBudget
  | other

/-- One step of a run. -/
inductive SupplyStep : Economy → SupplyEvent → Economy → Prop
  | assetCreate {e : Economy} {asset : Asset} {feePool : ℤ} (hmax : 0 < asset.maxSupply) :
      SupplyStep e (.assetCreate asset feePool) (e.createAsset asset feePool)
  | assetIssue {e e' : Economy} {op : AssetAmountOperation} (h : e.assetIssue op = .ok e') :
      SupplyStep e (.assetIssue op) e'
  | assetReserve {e e' : Economy} {op : AssetAmountOperation} (h : e.assetReserve op = .ok e') :
      SupplyStep e (.assetReserve op) e'
  | assetUpdate {e e' : Economy} {op : AssetUpdateOperation} (h : e.assetUpdate op = .ok e') :
      SupplyStep e (.assetUpdate op) e'
  | gatewayIssueCurrency {e e' : Economy} {op : GatewayIssueOperation}
      (h : e.gatewayIssueCurrency op = .ok e') : SupplyStep e (.gatewayIssueCurrency op) e'
  | processFees {e e' : Economy} {id : ℕ} (h : e.processFees id = .ok e') :
      SupplyStep e (.processFees id) e'
  | processBudget {e e' : Economy} (h : e.processBudget = .ok e') : SupplyStep e .processBudget e'
  | other {e e' : Economy} (h : Economy.SameSupply e e')
      (hs : e'.core.currentSupply = e.core.currentSupply) : SupplyStep e .other e'

/-- What the steps have to meet: no new maximum is below the supply, and no more is burned than there is. -/
def KeepsCaps (e : Economy) : SupplyEvent → Prop
  | .assetUpdate op => ∀ a, e.getAsset op.assetToUpdate = .ok a → a.currentSupply ≤ op.newMaxSupply
  | .processFees id => ∀ b, e.accounts.lookup id = some b → e.FeesInSupply b
  | .processBudget => e.getBalance platformAccount coreAsset ≤ e.core.currentSupply
  | _ => True

/-- Steps that all meet this. -/
def SupplyRun : Economy → Economy → Prop :=
  Relation.ReflTransGen fun e e' => ∃ x, SupplyStep e x e' ∧ KeepsCaps e x

lemma SupplyStep.caps {e e' : Economy} {x : SupplyEvent} (hstep : SupplyStep e x e')
    (hkeep : KeepsCaps e x) (h : e.SupplyCaps) : e'.SupplyCaps := by
  cases hstep with
  | @assetCreate asset feePool hmax =>
      refine ⟨h.minerSupply, h.budgetSupply, h.issued, h.issueAmounts, h.core, fun i b hb => ?_⟩
      change (e.assets.insert e.nextAssetId _).lookup i = some b at hb
      by_cases hi : i = e.nextAssetId
      · subst hi
        rw [AList.lookup_insert] at hb
        cases hb
        exact ⟨le_rfl, hmax.le⟩
      · rw [AList.lookup_insert_ne hi] at hb
        exact h.assets i b hb
  | assetIssue hop => exact Economy.assetIssue_caps h hop
  | assetReserve hop => exact Economy.assetReserve_caps h hop
  | assetUpdate hop => exact Economy.assetUpdate_caps h hop hkeep
  | gatewayIssueCurrency hop => exact Economy.gatewayIssueCurrency_caps h hop
  | processFees hproc => exact Economy.processFees_caps h hkeep hproc
  | processBudget hproc => exact Economy.processBudget_caps h hkeep hproc
  | other hsame hs =>
      obtain ⟨h0, hmax⟩ := h.core
      exact hsame.caps h (by omega) (by omega)

/-- **The caps hold for ever**, in runs whose updates of assets do not go below the supply and that
do not burn more than there is. -/
theorem supplyCaps_of_run {e e' : Economy} (hrun : SupplyRun e e') (h : e.SupplyCaps) :
    e'.properties.minerSupply ≤ maxShareMiner ∧
      0 ≤ e'.properties.budgetSupply ∧ e'.properties.budgetSupply ≤ maxShareBudget ∧
      e'.core.Capped ∧ ∀ id a, e'.assets.lookup id = some a → a.Capped := by
  have hend : e'.SupplyCaps := by
    induction hrun with
    | refl => exact h
    | tail _ hstep ih =>
        obtain ⟨x, hstep, hkeep⟩ := hstep
        exact hstep.caps hkeep ih
  have hissued := Economy.issuedCore_nonneg hend.issueAmounts
  exact ⟨hend.minerSupply, hissued.trans hend.issued, hend.budgetSupply, hend.core, hend.assets⟩

/-- An asset with a supply of 1000, of 2000 at most. -/
def assetEconomy : Economy :=
  { Economy.budgetEconomy 0 0 with
    assets := (∅ : AList fun _ : ℕ => Asset).insert 20
      { issuer := 200, maxSupply := 2000, currentSupply := 1000 } }

lemma assetEconomy_caps : assetEconomy.SupplyCaps := by
  refine ⟨by decide, by decide, by decide,
    fun k x hx => absurd hx (by simp [assetEconomy, Economy.budgetEconomy]),
    ⟨by decide, by decide⟩, fun i b hb => ?_⟩
  by_cases hi : i = 20
  · subst hi
    change ((∅ : AList fun _ : ℕ => Asset).insert 20 _).lookup 20 = some b at hb
    rw [AList.lookup_insert] at hb
    cases hb
    exact ⟨by decide, by decide⟩
  · change ((∅ : AList fun _ : ℕ => Asset).insert 20 _).lookup i = some b at hb
    rw [AList.lookup_insert_ne hi] at hb
    cases hb

/-- The maximum is lowered to 1500, and there is a maintenance. -/
theorem supplyCaps_of_run_assetEconomy : ∃ e', SupplyRun assetEconomy e' ∧ e'.core.Capped ∧
    ∀ id a, e'.assets.lookup id = some a → a.Capped := by
  have hupdate : SupplyStep assetEconomy (.assetUpdate ⟨200, 20, none, 1500, true⟩) _ :=
    .assetUpdate rfl
  have hkeep : KeepsCaps assetEconomy (.assetUpdate ⟨200, 20, none, 1500, true⟩) := by
    intro a ha
    have hfound : assetEconomy.getAsset 20 = .ok ⟨200, false, 2000, 1000, 0, 0⟩ := rfl
    obtain rfl := Except.ok.inj (hfound.symm.trans ha)
    decide
  have hrun : SupplyRun assetEconomy _ :=
    Relation.ReflTransGen.tail (Relation.ReflTransGen.single ⟨_, hupdate, hkeep⟩)
      ⟨.processBudget, .processBudget rfl, by show (_ : ℤ) ≤ _; decide⟩
  exact ⟨_, hrun, (supplyCaps_of_run hrun assetEconomy_caps).2.2.2⟩

/-- The maximum is lowered to 500, and the supply stays above it. -/
theorem not_supplyCaps_assetEconomy : ∃ e' a,
    assetEconomy.assetUpdate ⟨200, 20, none, 500, true⟩ = .ok e' ∧ e'.assets.lookup 20 = some a ∧
      a.currentSupply = 1000 ∧ a.maxSupply = 500 ∧ assetEconomy.SupplyCaps :=
  ⟨_, _, rfl, rfl, rfl, rfl, assetEconomy_caps⟩

end ZosCore
