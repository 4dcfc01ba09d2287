import Mathlib.Algebra.Group.Pi.Basic
import ZosCore.Lib.Total
import ZosCore.Member.Stores

/-!
The operations of users create and destroy no asset, except that they issue and reserve it.

* `Stores.net`: what there is of an asset in all stores, without what has been issued of it.
* `Stores.Sound`: no balance of an account or of the genesis is negative.
* `State.Shifted`, `Stores.Shifted`: an evaluator, or a step of one, changes the sums by so much. The steps
  add up: `Shifted.trans`.
* **`net_of_storeOp`**: the fourteen operations change nothing, and leave no account a negative balance.
-/

namespace ZosCore.Member

open CddVesting (AssetAmount)

/-! ### Sums -/

namespace State

/-- The balances of all accounts in an asset. -/
def balanceSum (s : State) (x : ℕ) : ℤ := total (fun k b => if k.2 = x then b else 0) s.balances

/-- All vesting balances in an asset. -/
def vestingSum (s : State) (x : ℕ) : ℤ :=
  total (fun _ v => if v.asset = x then v.balance else 0) s.vestingBalances

/-- `current_supply` -/
def supplyOf (s : State) (x : ℕ) : ℤ := ((s.assets.lookup x).map Asset.currentSupply).getD 0

/-- The sums that the objects of `State` have a part in. -/
def circulating (s : State) (x : ℕ) : ℤ := s.balanceSum x + s.vestingSum x - s.supplyOf x

/-- No account has a negative balance, and a new vesting balance is a new object. -/
structure Funded (s : State) : Prop where
  nonneg : ∀ a x, 0 ≤ s.getBalance a x
  fresh : ∀ n, n ∈ s.vestingBalances → n < s.nextVesting

end State

namespace Stores

/-- All balances of the genesis in an asset. -/
def genesisSum (s : Stores) (x : ℕ) : ℤ :=
  total (fun _ g => if g.asset = x then g.balance else 0) s.genesisBalances

/-- `accumulated_fees` -/
def accumulatedFeesOf (s : Stores) (x : ℕ) : ℤ :=
  ((s.assetDetails.lookup x).map AssetDetail.accumulatedFees).getD 0

/-- `exchange_fees` of all accounts -/
def exchangeFeesSum (s : Stores) : ℤ := total (fun _ d => d.exchangeFees) s.accountDetails

/-- What there is of an asset in all stores, without what has been issued. The exchange fees are in the
core asset. -/
def net (s : Stores) (x : ℕ) : ℤ :=
  s.balanceSum x + s.vestingSum x + s.genesisSum x + s.accumulatedFeesOf x +
    (if x = 0 then s.exchangeFeesSum else 0) - s.supplyOf x

/-- No balance is negative. -/
structure Sound (s : Stores) : Prop where
  funded : s.Funded
  genesis : ∀ n g, s.genesisBalances.lookup n = some g → 0 ≤ g.balance

end Stores

/-! ### Steps -/

/-- The sums change by so much. -/
def State.Shifted (s s' : State) (d : ℕ → ℤ) : Prop :=
  s.Funded → s'.Funded ∧ ∀ x, s'.circulating x = s.circulating x + d x

namespace State

variable {s s₁ s' : State} {account asset n : ℕ} {delta : ℤ} {d d' : ℕ → ℤ}

lemma Shifted.trans (h : s.Shifted s₁ d) (h' : s₁.Shifted s' d') : s.Shifted s' (d + d') := by
  intro hs
  obtain ⟨hs₁, hd⟩ := h hs
  obtain ⟨hs', hd'⟩ := h' hs₁
  refine ⟨hs', fun x => ?_⟩
  rw [hd', hd, Pi.add_apply, add_assoc]

/-- A step of which the sums see nothing. -/
lemma Shifted.of_same (hbalances : s'.balances = s.balances)
    (hvestings : s'.vestingBalances = s.vestingBalances) (hnext : s'.nextVesting = s.nextVesting)
    (hassets : s'.assets = s.assets) : s.Shifted s' 0 := by
  refine fun hs => ⟨⟨fun a x => ?_, ?_⟩, fun x => ?_⟩
  · rw [getBalance, hbalances]
    exact hs.nonneg a x
  · rw [hvestings, hnext]
    exact hs.fresh
  · rw [circulating, balanceSum, vestingSum, supplyOf, hbalances, hvestings, hassets]
    exact (add_zero _).symm

/-- A debit is covered. -/
lemma adjustBalance_covered (h : s.adjustBalance account asset delta = .ok s')
    (hs : 0 ≤ s.getBalance account asset) : 0 ≤ s.getBalance account asset + delta := by
  rw [getBalance] at hs ⊢
  rw [adjustBalance] at h
  cases hb : s.balances.lookup (account, asset) with
  | none =>
      simp only [hb] at h
      split_ifs at h with hzero hpos
      · simp [hzero]
      · simpa using hpos.le
  | some balance =>
      simp only [hb] at h
      rw [hb] at hs
      simp only [Option.getD_some] at hs ⊢
      split_ifs at h with hzero hlow
      · omega
      · omega

lemma balanceSum_adjustBalance (h : s.adjustBalance account asset delta = .ok s') (x : ℕ) :
    s'.balanceSum x = s.balanceSum x + if asset = x then delta else 0 := by
  rw [adjustBalance] at h
  cases hb : s.balances.lookup (account, asset) with
  | none =>
      simp only [hb] at h
      split_ifs at h with hzero hpos
      · cases h
        simp [hzero]
      · cases h
        exact total_insert_of_none hb
  | some balance =>
      simp only [hb] at h
      split_ifs at h with hzero hlow
      · cases h
        simp [hzero]
      · cases h
        rw [balanceSum, total_insert_of_lookup hb, balanceSum]
        split_ifs <;> ring

/-- `adjust_balance` adds to the sum of the asset. -/
lemma shifted_adjust (h : s.adjustBalance account asset delta = .ok s') :
    s.Shifted s' (Pi.single asset delta) := by
  obtain ⟨⟨b, hb⟩, hbalance⟩ := adjusted h
  refine fun hs => ⟨⟨fun a x => ?_, by rw [hb]; exact hs.fresh⟩, fun x => ?_⟩
  · rw [hbalance]
    split_ifs with hax
    · obtain ⟨rfl, rfl⟩ := hax
      exact adjustBalance_covered h (hs.nonneg a x)
    · rw [add_zero]
      exact hs.nonneg a x
  · have hrest : s'.vestingSum x = s.vestingSum x ∧ s'.supplyOf x = s.supplyOf x := by
      rw [hb]
      exact ⟨rfl, rfl⟩
    rw [circulating, hrest.1, hrest.2, balanceSum_adjustBalance h, circulating, Pi.single_comm, Pi.single_apply]
    ring

/-- What is issued counts against the sum. -/
lemma shifted_supply {a : Asset} (ha : s.assets.lookup asset = some a) (delta : ℤ) :
    s.Shifted { s with
      assets := s.assets.insert asset { a with currentSupply := a.currentSupply + delta } }
      (Pi.single asset (-delta)) := by
  refine fun hs => ⟨⟨hs.nonneg, hs.fresh⟩, fun x => ?_⟩
  rw [circulating, supplyOf, circulating, supplyOf, Pi.single_apply]
  by_cases hx : x = asset
  · subst hx
    simp only [AList.lookup_insert, ha, Option.map_some, Option.getD_some, if_true]
    show s.balanceSum x + s.vestingSum x - _ = _
    ring
  · rw [AList.lookup_insert_ne hx, if_neg hx, add_zero]
    rfl

/-- A vesting balance takes the place of another one in the same asset. -/
lemma shifted_vesting {v w : VestingBalance} (hv : s.vestingBalances.lookup n = some v)
    (hasset : w.asset = v.asset) :
    s.Shifted { s with vestingBalances := s.vestingBalances.insert n w }
      (Pi.single v.asset (w.balance - v.balance)) := by
  have hmem : n ∈ s.vestingBalances := AList.lookup_isSome.mp (by rw [hv]; rfl)
  refine fun hs => ⟨⟨hs.nonneg, fun i hi => ?_⟩, fun x => ?_⟩
  · rcases (AList.mem_insert s.vestingBalances).mp hi with rfl | hi
    · exact hs.fresh i hmem
    · exact hs.fresh i hi
  · show s.balanceSum x + total _ (s.vestingBalances.insert n w) - s.supplyOf x = _
    rw [total_insert_of_lookup hv, circulating, vestingSum, Pi.single_comm, Pi.single_apply, hasset]
    split_ifs <;> ring

/-- A vesting balance is removed. -/
lemma shifted_removeVesting {v : VestingBalance} (hv : s.vestingBalances.lookup n = some v) :
    s.Shifted { s with vestingBalances := s.vestingBalances.erase n }
      (Pi.single v.asset (-v.balance)) := by
  refine fun hs => ⟨⟨hs.nonneg, fun i hi => hs.fresh i (AList.mem_erase.mp hi).2⟩, fun x => ?_⟩
  show s.balanceSum x + total _ (s.vestingBalances.erase n) - s.supplyOf x = _
  rw [circulating, vestingSum, total_eq_erase hv, Pi.single_comm, Pi.single_apply]
  split_ifs <;> ring

/-- A new vesting balance. -/
lemma shifted_newVesting (v : VestingBalance) :
    s.Shifted { s with
      vestingBalances := s.vestingBalances.insert s.nextVesting v
      nextVesting := s.nextVesting + 1 } (Pi.single v.asset v.balance) := by
  refine fun hs => ⟨⟨hs.nonneg, fun i hi => ?_⟩, fun x => ?_⟩
  · rcases (AList.mem_insert s.vestingBalances).mp hi with rfl | hi
    · exact Nat.lt_succ_self _
    · exact Nat.lt_succ_of_lt (hs.fresh i hi)
  · have hnone : s.vestingBalances.lookup s.nextVesting = none :=
      AList.lookup_eq_none.mpr fun hm => (hs.fresh _ hm).false
    show s.balanceSum x + total _ (s.vestingBalances.insert s.nextVesting v) - s.supplyOf x = _
    rw [total_insert_of_none hnone, circulating, vestingSum, Pi.single_comm, Pi.single_apply]
    ring

lemma Shifted.after (h : s.Shifted s₁ 0) (h' : s₁.Shifted s' d) : s.Shifted s' d := by
  have hboth := h.trans h'
  rwa [zero_add] at hboth

/-- What goes from one place to another is not lost. -/
lemma Shifted.cancel {y : ℕ} {a b : ℤ} (h : s.Shifted s' (Pi.single y a + Pi.single y b))
    (hab : a + b = 0) : s.Shifted s' 0 := by
  rwa [← Pi.single_add, hab, Pi.single_zero] at h

end State

/-! ### Withdrawals -/

lemma ofVesting_eq_ok {ε α : Type} {x : Except ε α} {a : α} :
    ofVesting x = .ok a ↔ x = .ok a := by
  rw [ofVesting, orThrow_eq_ok]
  cases x <;> simp [Except.toOption]

/-- `withdraw`, with either policy, takes an amount of the asset that is there. -/
lemma VestingBalance.withdraw_eq_ok {v w : VestingBalance} {now : ℕ} {amount : AssetAmount}
    (h : v.withdraw now amount = .ok w) :
    amount.assetId = v.asset ∧ amount.amount ≤ v.balance ∧ w.asset = v.asset ∧
      w.balance = v.balance - amount.amount := by
  rw [withdraw] at h
  cases hpolicy : v.policy with
  | linear start cliff duration balance =>
      simp only [hpolicy, except_bind_eq_ok, ofVesting_eq_ok] at h
      obtain ⟨x, hx, h⟩ := h
      cases h
      obtain ⟨hasset, hle, hbalance⟩ := LinearVesting.VestingBalance.withdraw_eq_ok hx
      exact ⟨hasset, hle, rfl, hbalance⟩
  | cdd seconds startClaim earned lastUpdate =>
      simp only [hpolicy, except_bind_eq_ok, ofVesting_eq_ok] at h
      obtain ⟨x, hx, h⟩ := h
      cases h
      obtain ⟨hasset, hle, hbalance⟩ := CddVesting.VestingBalance.withdraw_eq_ok hx
      exact ⟨hasset, hle, rfl, hbalance⟩

/-! ### Operations on accounts and vesting balances -/

namespace State

variable {s s' : State}

lemma shifted_transfer {op : Transfer} (h : s.transfer op = .ok s') : s.Shifted s' 0 := by
  simp only [transfer, except_bind_eq_ok, fcAssert_eq_ok, exists_const] at h
  obtain ⟨-, -, -, s₁, h₁, h₂⟩ := h
  exact ((shifted_adjust h₁).trans (shifted_adjust h₂)).cancel (by ring)

lemma shifted_withdrawPermissionClaim {op : WithdrawPermissionClaim}
    (h : s.withdrawPermissionClaim op = .ok s') : s.Shifted s' 0 := by
  simp only [withdrawPermissionClaim, except_bind_eq_ok, fcAssert_eq_ok, orThrow_eq_ok,
    exists_const] at h
  obtain ⟨-, -, -, p, -, s₁, h₁, h₂⟩ := h
  have hmoved := ((shifted_adjust h₁).trans (shifted_adjust h₂)).cancel (by ring)
  -- the permission only counts the amount
  refine Shifted.after (.of_same ?_ ?_ ?_ ?_) hmoved <;> rfl

lemma shifted_gatewayWithdraw {op : GatewayWithdraw} (h : s.gatewayWithdraw op = .ok s') :
    s.Shifted s' 0 := by
  simp only [gatewayWithdraw, except_bind_eq_ok, orThrow_eq_ok] at h
  obtain ⟨⟨⟩, -, id, -, s₁, h₁, s₂, h₂, g, -, h⟩ := h
  have hmoved := ((shifted_adjust h₁).trans (shifted_adjust h₂)).cancel (by ring)
  cases h
  exact hmoved.after (.of_same rfl rfl rfl rfl)

lemma shifted_gatewayDeposit {op : GatewayDeposit} (h : s.gatewayDeposit op = .ok s') :
    s.Shifted s' 0 := by
  simp only [gatewayDeposit, except_bind_eq_ok, orThrow_eq_ok] at h
  obtain ⟨⟨⟩, -, id, -, s₁, h₁, s₂, h₂, g, -, h⟩ := h
  have hmoved := ((shifted_adjust h₁).trans (shifted_adjust h₂)).cancel (by ring)
  cases h
  exact hmoved.after (.of_same rfl rfl rfl rfl)

/-- What is reserved leaves the balance and the supply. -/
lemma shifted_assetReserve {op : AssetReserve} (h : s.assetReserve op = .ok s') :
    s.Shifted s' 0 := by
  simp only [assetReserve, except_bind_eq_ok, fcAssert_eq_ok, orThrow_eq_ok, exists_const] at h
  obtain ⟨-, -, -, s₁, h₁, a, ha, h⟩ := h
  cases h
  exact ((shifted_adjust h₁).trans (shifted_supply ha (-op.amountToReserve))).cancel (by ring)

lemma shifted_vestingBalanceCreate {op : VestingBalanceCreate}
    (h : s.vestingBalanceCreate op = .ok s') : s.Shifted s' 0 := by
  simp only [vestingBalanceCreate, except_bind_eq_ok, fcAssert_eq_ok, exists_const] at h
  obtain ⟨-, -, -, -, s₁, h₁, h⟩ := h
  cases h
  exact ((shifted_adjust h₁).trans (shifted_newVesting _)).cancel (by ring)

/-- A vesting balance is removed only if there is nothing left in it. -/
lemma shifted_vestingBalanceWithdraw {op : VestingBalanceWithdraw}
    (h : s.vestingBalanceWithdraw op = .ok s') : s.Shifted s' 0 := by
  simp only [vestingBalanceWithdraw, except_bind_eq_ok, fcAssert_eq_ok, orThrow_eq_ok,
    exists_const] at h
  obtain ⟨-, -, -, vbo, hvbo, v, hv, h⟩ := h
  obtain ⟨hasset, hle, hsame, hbalance⟩ := VestingBalance.withdraw_eq_ok hv
  have hasset : op.asset = vbo.asset := hasset
  have hle : op.amount ≤ vbo.balance := hle
  have hbalance : v.balance = vbo.balance - op.amount := hbalance
  have hcredit := shifted_adjust h
  rw [hasset] at hcredit
  split_ifs at hcredit with hempty
  · refine ((shifted_removeVesting hvbo).trans hcredit).cancel ?_
    omega
  · refine ((shifted_vesting hvbo hsame).trans hcredit).cancel ?_
    omega

end State

/-! ### Operations on the other stores -/

/-- The sums change by so much. -/
def Stores.Shifted (s s' : Stores) (d : ℕ → ℤ) : Prop :=
  s.Sound → s'.Sound ∧ ∀ x, s'.net x = s.net x + d x

namespace Stores

variable {s s₁ s' : Stores} {account n : ℕ} {delta : AssetAmount} {d d' : ℕ → ℤ}

/-- The sums of the stores that `State` does not have. -/
def others (s : Stores) (x : ℕ) : ℤ :=
  s.genesisSum x + s.accumulatedFeesOf x + if x = 0 then s.exchangeFeesSum else 0

lemma net_eq (s : Stores) (x : ℕ) : s.net x = s.toState.circulating x + s.others x := by
  rw [net, State.circulating, others]
  ring

lemma Shifted.trans (h : s.Shifted s₁ d) (h' : s₁.Shifted s' d') : s.Shifted s' (d + d') := by
  intro hs
  obtain ⟨hs₁, hd⟩ := h hs
  obtain ⟨hs', hd'⟩ := h' hs₁
  refine ⟨hs', fun x => ?_⟩
  rw [hd', hd, Pi.add_apply, add_assoc]

lemma Shifted.cancel {y : ℕ} {a b : ℤ} (h : s.Shifted s' (Pi.single y a + Pi.single y b))
    (hab : a + b = 0) : s.Shifted s' 0 := by
  rwa [← Pi.single_add, hab, Pi.single_zero] at h

lemma Shifted.after (h : s.Shifted s₁ 0) (h' : s₁.Shifted s' d) : s.Shifted s' d := by
  have hboth := h.trans h'
  rwa [zero_add] at hboth

/-- A step of the objects of `State`. -/
lemma Shifted.of_state {t : State} (h : s.toState.Shifted t d) :
    s.Shifted { s with toState := t } d := by
  intro hs
  obtain ⟨ht, hd⟩ := h hs.funded
  refine ⟨⟨ht, hs.genesis⟩, fun x => ?_⟩
  rw [net_eq, net_eq, hd]
  show _ + s.others x = _
  ring

/-- A step that the sums do not see in the other stores. -/
lemma Shifted.of_same (hstate : s.toState.Shifted s'.toState d)
    (hgenesis : s'.genesisBalances = s.genesisBalances) (hassets : s'.assetDetails = s.assetDetails)
    (haccounts : s'.accountDetails = s.accountDetails) : s.Shifted s' d := by
  intro hs
  obtain ⟨hfunded, hd⟩ := hstate hs.funded
  refine ⟨⟨hfunded, by rw [hgenesis]; exact hs.genesis⟩, fun x => ?_⟩
  have hothers : s'.others x = s.others x := by
    rw [others, genesisSum, accumulatedFeesOf, exchangeFeesSum, hgenesis, hassets, haccounts]
    rfl
  rw [net_eq, net_eq, hd, hothers]
  ring

lemma shifted_withState {x : Except MemberError State} (h : s.withState x = .ok s')
    (hx : ∀ t, x = .ok t → s.toState.Shifted t d) : s.Shifted s' d := by
  rw [withState] at h
  obtain ⟨t, ht, h⟩ := except_bind_eq_ok.mp h
  cases h
  exact .of_state (hx t ht)

lemma shifted_adjust (h : s.adjustBalance account delta = .ok s') :
    s.Shifted s' (Pi.single delta.assetId delta.amount) :=
  shifted_withState h fun _ => State.shifted_adjust

/-- A balance of the genesis gets less or more. -/
lemma shifted_genesis {g : GenesisBalance} (hg : s.genesisBalances.lookup n = some g)
    (g' : GenesisBalance) (hasset : g'.asset = g.asset) (hnonneg : 0 ≤ g'.balance) :
    s.Shifted { s with genesisBalances := s.genesisBalances.insert n g' }
      (Pi.single g.asset (g'.balance - g.balance)) := by
  refine fun hs => ⟨⟨⟨hs.funded.nonneg, hs.funded.fresh⟩, fun i x hx => ?_⟩, fun x => ?_⟩
  · by_cases hi : i = n
    · subst hi
      rw [AList.lookup_insert] at hx
      cases hx
      exact hnonneg
    · rw [AList.lookup_insert_ne hi] at hx
      exact hs.genesis i x hx
  · have hgenesis : total (fun _ g => if g.asset = x then g.balance else 0)
        (s.genesisBalances.insert n g') =
          s.genesisSum x + if g.asset = x then g'.balance - g.balance else 0 := by
      rw [total_insert_of_lookup hg, genesisSum, hasset]
      split_ifs <;> ring
    rw [net_eq, others, genesisSum, hgenesis, net_eq, others, Pi.single_comm, Pi.single_apply]
    show s.circulating x + (_ + s.accumulatedFeesOf x + if x = 0 then s.exchangeFeesSum else 0) = _
    ring

/-- A balance of the genesis is removed. -/
lemma shifted_removeGenesis {g : GenesisBalance} (hg : s.genesisBalances.lookup n = some g) :
    s.Shifted { s with genesisBalances := s.genesisBalances.erase n }
      (Pi.single g.asset (-g.balance)) := by
  refine fun hs => ⟨⟨⟨hs.funded.nonneg, hs.funded.fresh⟩, fun i x hx => ?_⟩, fun x => ?_⟩
  · by_cases hi : i = n
    · subst hi
      rw [AList.lookup_erase] at hx
      cases hx
    · rw [AList.lookup_erase_ne hi] at hx
      exact hs.genesis i x hx
  · have hgenesis : total (fun _ g => if g.asset = x then g.balance else 0)
        (s.genesisBalances.erase n) =
          s.genesisSum x + if g.asset = x then -g.balance else 0 := by
      rw [genesisSum, total_eq_erase hg]
      split_ifs <;> ring
    rw [net_eq, others, genesisSum, hgenesis, net_eq, others, Pi.single_comm, Pi.single_apply]
    show s.circulating x + (_ + s.accumulatedFeesOf x + if x = 0 then s.exchangeFeesSum else 0) = _
    ring

/-- The accumulated fees of an asset change. -/
lemma shifted_accumulatedFees {asset : ℕ} {detail : AssetDetail}
    (hdetail : s.assetDetails.lookup asset = some detail) (c : ℤ) :
    s.Shifted { s with
      assetDetails := s.assetDetails.insert asset { detail with accumulatedFees := c } }
      (Pi.single asset (c - detail.accumulatedFees)) := by
  refine fun hs => ⟨⟨⟨hs.funded.nonneg, hs.funded.fresh⟩, hs.genesis⟩, fun x => ?_⟩
  have hfees : accumulatedFeesOf { s with
      assetDetails := s.assetDetails.insert asset { detail with accumulatedFees := c } } x =
      s.accumulatedFeesOf x + if x = asset then c - detail.accumulatedFees else 0 := by
    rw [accumulatedFeesOf, accumulatedFeesOf]
    by_cases hx : x = asset
    · subst hx
      rw [AList.lookup_insert, hdetail, if_pos rfl]
      show c = detail.accumulatedFees + _
      ring
    · rw [AList.lookup_insert_ne hx, if_neg hx, add_zero]
  rw [net_eq, others, hfees, net_eq, others, Pi.single_apply]
  show s.circulating x + (s.genesisSum x + _ + if x = 0 then s.exchangeFeesSum else 0) = _
  ring

/-- The exchange fees of an account change. -/
lemma shifted_exchangeFees {detail : AccountDetail}
    (hdetail : s.accountDetails.lookup n = some detail) (c : ℤ) :
    s.Shifted { s with
      accountDetails := s.accountDetails.insert n { detail with exchangeFees := c } }
      (Pi.single 0 (c - detail.exchangeFees)) := by
  refine fun hs => ⟨⟨⟨hs.funded.nonneg, hs.funded.fresh⟩, hs.genesis⟩, fun x => ?_⟩
  have hfees : exchangeFeesSum { s with
      accountDetails := s.accountDetails.insert n { detail with exchangeFees := c } } =
      s.exchangeFeesSum + (c - detail.exchangeFees) := by
    rw [exchangeFeesSum, total_insert_of_lookup hdetail, exchangeFeesSum]
    ring
  rw [net_eq, others, hfees, net_eq, others, Pi.single_apply]
  show s.circulating x + (s.genesisSum x + s.accumulatedFeesOf x + _) = _
  split_ifs <;> ring

/-! ### The evaluators -/

/-- A whole balance is claimed where it is removed. -/
lemma shifted_balanceClaim {op : BalanceClaim} (hs : s.Sound) (h : s.balanceClaim op = .ok s') :
    s.Shifted s' 0 := by
  simp only [balanceClaim, except_bind_eq_ok, fcAssert_eq_ok, orThrow_eq_ok, exists_const] at h
  obtain ⟨-, ⟨⟩, heval, g, hg, hpolicy, h⟩ := h
  have hcredit := shifted_adjust h
  have hclaim : op.asset = g.asset ∧ op.totalClaimed ≤ g.balance ∧
      (¬ g.vestingPolicy.isSome → op.totalClaimed = g.balance) := by
    simp only [evaluateBalanceClaim, except_bind_eq_ok, fcAssert_eq_ok, orThrow_eq_ok,
      exists_const] at heval
    obtain ⟨g', hg', account, -, -, -, -, heval⟩ := heval
    cases hg.symm.trans hg'
    cases hvesting : g.vestingPolicy with
    | none =>
        simp only [hvesting, fcAssert_eq_ok] at heval
        exact ⟨heval.2, heval.1.le, fun _ => heval.1⟩
    | some policy =>
        simp only [hvesting, except_bind_eq_ok, ofVesting_eq_ok, fcAssert_eq_ok] at heval
        obtain ⟨allowed, hallowed, ⟨⟩, rfl, -⟩ := heval
        obtain ⟨hasset, hle⟩ := LinearVesting.VestingBalance.le_of_policyAllowsWithdraw
          (hs.genesis _ g hg) hallowed
        exact ⟨hasset, hle, fun hnone => absurd rfl hnone⟩
  obtain ⟨hasset, hle, hwhole⟩ := hclaim
  rw [show (⟨op.totalClaimed, op.asset⟩ : AssetAmount).assetId = g.asset from hasset] at hcredit
  split_ifs at hcredit with hpart
  · have hrest := shifted_genesis hg
      { g with balance := g.balance - op.totalClaimed, lastClaimDate := s.time } rfl (by simpa using hle)
    refine (hrest.trans hcredit).cancel ?_
    show g.balance - op.totalClaimed - g.balance + op.totalClaimed = 0
    ring
  · refine ((shifted_removeGenesis hg).trans hcredit).cancel ?_
    have hall : op.totalClaimed = g.balance := by
      by_cases hvesting : g.vestingPolicy.isSome
      · have hge : ¬ op.totalClaimed < g.balance := fun hlt => hpart ⟨hvesting, hlt⟩
        omega
      · exact hwhole hvesting
    show -g.balance + op.totalClaimed = 0
    omega

lemma shifted_gatewayIssueCurrency {op : GatewayIssueCurrency}
    (h : s.gatewayIssueCurrency op = .ok s') : s.Shifted s' 0 := by
  simp only [gatewayIssueCurrency, except_bind_eq_ok, orThrow_eq_ok] at h
  obtain ⟨⟨⟩, -, id, -, s₁, h₁, a, ha, h⟩ := h
  have hsupply : s₁.Shifted s' (Pi.single op.asset (-op.issued)) := by
    cases h
    exact .of_same (State.shifted_supply ha op.issued) rfl rfl rfl
  exact ((shifted_adjust h₁).trans hsupply).cancel (by ring)

lemma shifted_assetIssue {op : AssetIssue} (h : s.assetIssue op = .ok s') : s.Shifted s' 0 := by
  simp only [assetIssue, except_bind_eq_ok, fcAssert_eq_ok, orThrow_eq_ok, exists_const] at h
  obtain ⟨-, -, -, s₁, h₁, a, ha, h⟩ := h
  have hsupply : s₁.Shifted s' (Pi.single op.asset (-op.assetToIssue)) := by
    cases h
    exact .of_same (State.shifted_supply ha op.assetToIssue) rfl rfl rfl
  exact ((shifted_adjust h₁).trans hsupply).cancel (by ring)

lemma shifted_assetClaimFees {op : AssetClaimFees} (h : s.assetClaimFees op = .ok s') :
    s.Shifted s' 0 := by
  simp only [assetClaimFees, except_bind_eq_ok, fcAssert_eq_ok, orThrow_eq_ok, exists_const] at h
  obtain ⟨-, a, -, -, issuer, -, -, detail, hdetail, -, h⟩ := h
  refine ((shifted_accumulatedFees hdetail _).trans (shifted_adjust h)).cancel ?_
  show detail.accumulatedFees - op.amountToClaim - detail.accumulatedFees + op.amountToClaim = 0
  ring

lemma shifted_assetReserveFees {op : AssetReserveFees} (h : s.assetReserveFees op = .ok s') :
    s.Shifted s' 0 := by
  simp only [assetReserveFees, except_bind_eq_ok, fcAssert_eq_ok, orThrow_eq_ok, exists_const] at h
  obtain ⟨-, issuer, -, -, -, a, -, detail, hdetail, h⟩ := h
  refine ((shifted_accumulatedFees hdetail _).trans (shifted_adjust h)).cancel ?_
  show detail.accumulatedFees + op.amountToReserve - detail.accumulatedFees + -op.amountToReserve = 0
  ring

/-- What the platform sells for the core asset. -/
lemma shifted_payExchangeFee {op : WithdrawExchangeFee} (h : s.payExchangeFee op = .ok s') :
    s.Shifted s' (Pi.single 0 op.coreAmount) := by
  rw [payExchangeFee] at h
  split_ifs at h with hasset
  · simp only [except_bind_eq_ok] at h
    obtain ⟨rate, -, get, -, s₁, h₁, s₂, h₂, h₃⟩ := h
    have hpaid := ((shifted_adjust h₁).trans (shifted_adjust h₂)).trans (shifted_adjust h₃)
    rwa [add_right_comm, ← Pi.single_add, neg_add_cancel, Pi.single_zero, zero_add] at hpaid
  · exact shifted_adjust h

lemma shifted_withdrawExchangeFee {op : WithdrawExchangeFee}
    (h : s.withdrawExchangeFee op = .ok s') : s.Shifted s' 0 := by
  simp only [withdrawExchangeFee, except_bind_eq_ok, fcAssert_eq_ok, orThrow_eq_ok, exists_const] at h
  obtain ⟨-, ⟨⟩, -, s₁, h₁, detail, hdetail, h⟩ := h
  cases h
  exact ((shifted_payExchangeFee h₁).trans (shifted_exchangeFees hdetail _)).cancel (by ring)

lemma shifted_payReward {amount : ℕ} (h : s.payReward account amount = .ok s') :
    s.Shifted s' (Pi.single 0 (amount : ℤ)) := by
  rw [payReward] at h
  split_ifs at h with hpos
  · exact shifted_adjust h
  · cases h
    rw [Nat.eq_zero_of_not_pos hpos, Nat.cast_zero, Pi.single_zero]
    exact .of_same (.of_same rfl rfl rfl rfl) rfl rfl rfl

/-- The issuer pays what the account and its referrer get. -/
lemma shifted_payRewards {issuer : ℕ} (h : s.payRewards issuer account = .ok s') :
    s.Shifted s' 0 := by
  simp only [payRewards, except_bind_eq_ok, orThrow_eq_ok] at h
  obtain ⟨id, -, author, -, acnt, -, h⟩ := h
  generalize (s.rewards.lookup id).getD {} = reward at h
  split_ifs at h with hpays
  · simp only [except_bind_eq_ok] at h
    obtain ⟨s₁, h₁, s₂, h₂, h₃⟩ := h
    have hgiven := (shifted_payReward h₂).trans (shifted_payReward h₃)
    rw [← Pi.single_add] at hgiven
    refine ((shifted_adjust h₁).trans hgiven).cancel ?_
    show -((reward.payForAccount + reward.payForReferrer : ℕ) : ℤ) + _ = 0
    push_cast
    ring
  · cases h
    exact .of_same (.of_same rfl rfl rfl rfl) rfl rfl rfl

lemma shifted_accountAuthenticate {op : AccountAuthenticate}
    (h : s.accountAuthenticate op = .ok s') : s.Shifted s' 0 := by
  simp only [accountAuthenticate, except_bind_eq_ok, fcAssert_eq_ok, exists_const] at h
  obtain ⟨-, h⟩ := h
  cases haction : op.action with
  | authenticate author =>
      simp only [haction, except_bind_eq_ok, orThrow_eq_ok] at h
      obtain ⟨⟨⟩, -, acnt, -, data, -, h⟩ := h
      -- the records are not in the sums
      refine Shifted.after (.of_same (.of_same ?_ ?_ ?_ ?_) ?_ ?_ ?_) (shifted_payRewards h) <;> rfl
  | rewards flags needAuth =>
      simp only [haction, except_bind_eq_ok, orThrow_eq_ok] at h
      obtain ⟨acnt, -, id, -, author, -, h⟩ := h
      cases h
      exact .of_same (.of_same rfl rfl rfl rfl) rfl rfl rfl

end Stores

/-! ### Runs -/

namespace StoreOp

variable {s s' : Stores}

/-- **A step** changes no sum, and leaves no balance negative. -/
theorem shifted (hs : s.Sound) {op : StoreOp} (h : op.apply s = .ok s') : s.Shifted s' 0 := by
  cases op with
  | transfer op => exact Stores.shifted_withState h fun _ => State.shifted_transfer
  | withdrawPermissionClaim op =>
      exact Stores.shifted_withState h fun _ => State.shifted_withdrawPermissionClaim
  | vestingBalanceCreate op =>
      exact Stores.shifted_withState h fun _ => State.shifted_vestingBalanceCreate
  | vestingBalanceWithdraw op =>
      exact Stores.shifted_withState h fun _ => State.shifted_vestingBalanceWithdraw
  | balanceClaim op => exact Stores.shifted_balanceClaim hs h
  | gatewayWithdraw op => exact Stores.shifted_withState h fun _ => State.shifted_gatewayWithdraw
  | gatewayDeposit op => exact Stores.shifted_withState h fun _ => State.shifted_gatewayDeposit
  | gatewayIssueCurrency op => exact Stores.shifted_gatewayIssueCurrency h
  | assetIssue op => exact Stores.shifted_assetIssue h
  | assetReserve op => exact Stores.shifted_withState h fun _ => State.shifted_assetReserve
  | assetClaimFees op => exact Stores.shifted_assetClaimFees h
  | assetReserveFees op => exact Stores.shifted_assetReserveFees h
  | withdrawExchangeFee op => exact Stores.shifted_withdrawExchangeFee h
  | accountAuthenticate op => exact Stores.shifted_accountAuthenticate h

/-- **Operations of users create and destroy no asset**, except by issue and reserve. -/
theorem net_of_storeOp (hs : s.Sound) (op : StoreOp) (h : op.apply s = .ok s') :
    (∀ x, s'.net x = s.net x) ∧ ∀ account x, 0 ≤ s'.getBalance account x := by
  obtain ⟨hs', hnet⟩ := shifted hs h hs
  exact ⟨fun x => (hnet x).trans (add_zero _), hs'.funded.nonneg⟩

/-- Where no entry is negative, no account has a negative balance. -/
lemma getBalance_nonneg_of_entries {t : State} (h : ∀ e ∈ t.balances.entries, 0 ≤ e.2)
    (account x : ℕ) : 0 ≤ t.getBalance account x := by
  rw [State.getBalance]
  cases hb : t.balances.lookup (account, x) with
  | none => exact le_rfl
  | some b => exact h _ (AList.mem_lookup_iff.mp hb)

/-- The account 7 has exchange fees, and the platform has 40 of the asset 5, of which one is worth one of
the core asset. -/
def exchangeStores : Stores where
  accounts := AList.insert 7 {} ∅
  balances := AList.insert (platformAccount, 5) 40 ∅
  assets := AList.insert 5 { issuer := 3, bitassetDataId := some 0, currentSupply := 40 } ∅
  assetDetails := AList.insert 5
    { maxSupply := 1000, coreExchangeRate := some (corePrice 1 Nat.one_pos) } ∅
  accountDetails := AList.insert 7 { referrer := 7, exchangeFees := 100 } ∅

lemma exchangeStores_sound : exchangeStores.Sound where
  funded :=
    { nonneg := getBalance_nonneg_of_entries (by decide)
      fresh := fun n hn => absurd hn (AList.notMem_empty n) }
  genesis n g hg := by simp [exchangeStores] at hg

/-- 20 of the asset for 20 of the fees. -/
def sellFees : StoreOp :=
  .withdrawExchangeFee { fee := 0, issuer := 7, coreAmount := 20, withdrawAssetId := 5 }

theorem net_of_storeOp_sellFees : ∃ s', sellFees.apply exchangeStores = .ok s' ∧
    (∀ x, s'.net x = exchangeStores.net x) ∧ ∀ account x, 0 ≤ s'.getBalance account x := by
  obtain ⟨s', h⟩ := exists_eq_ok (x := sellFees.apply exchangeStores) (by decide +kernel)
  exact ⟨s', h, net_of_storeOp exchangeStores_sound sellFees h⟩

end StoreOp

end ZosCore.Member
