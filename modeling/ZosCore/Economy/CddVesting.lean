import Mathlib.Tactic
import ZosCore.Lib.Exec

/-!
`vesting_balance_object.cpp`: a vesting balance with a `cdd_vesting_policy`, in exact arithmetic.

The balance earns coin-seconds, as many in a second as it has coins, up to a cap; a withdrawal
uses up as many of them as the coins that are withdrawn would have earned in the whole period.

* `VestingBalance`: the balance and its policy, with the functions of both.
* `Created`, `Run`: how a balance comes to be, and what may happen to it.
* `Solvent`: what holds in between.
* `accrued`: the coin-seconds of the coins that there have been.
* **`run_neverOverReleases`**: any allowed operations leave the balance solvent, and no more is
  withdrawn than the coin-seconds that have accrued are good for.
-/

namespace ZosCore.CddVesting

/-! ### Amounts -/

/-- `asset` -/
structure AssetAmount where
  amount : ℤ
  assetId : ℕ
  deriving DecidableEq

/-- The assertions. -/
inductive VestingError where
  /-- `ctx.now >= coin_seconds_earned_last_update` -/
  | timeBackwards
  /-- `withdraw_available <= ctx.balance.amount.value`, in `get_allowed_withdraw` -/
  | availableAboveBalance
  /-- `(amount <= balance) || (!result)`, in `is_withdraw_allowed` -/
  | allowedAboveBalance
  /-- `amount <= balance`, in `withdraw` -/
  | amountAboveBalance
  /-- `coin_seconds_needed <= coin_seconds_earned`, in `on_withdraw` -/
  | coinSecondsNeeded
  /-- An operation on amounts of two assets. -/
  | otherAsset
  deriving DecidableEq

/-- `operator <=` -/
def AssetAmount.le (a b : AssetAmount) : Except VestingError Bool :=
  if a.assetId ≠ b.assetId then throw .otherAsset else return a.amount ≤ b.amount

/-- `operator +=` -/
def AssetAmount.add (a b : AssetAmount) : Except VestingError AssetAmount :=
  if a.assetId ≠ b.assetId then throw .otherAsset else return ⟨a.amount + b.amount, a.assetId⟩

/-- `operator -=` -/
def AssetAmount.sub (a b : AssetAmount) : Except VestingError AssetAmount :=
  if a.assetId ≠ b.assetId then throw .otherAsset else return ⟨a.amount - b.amount, a.assetId⟩

/-- `GRAPHENE_MAX_SHARE_SUPPLY` -/
def maxShareSupply : ℤ := 7000000000 * 100000

/-- `sum_below_max_shares` -/
def sumBelowMaxShares (a b : AssetAmount) : Bool :=
  a.amount ≤ maxShareSupply ∧ b.amount ≤ maxShareSupply ∧ a.amount + b.amount ≤ maxShareSupply

/-! ### The vesting balance -/

/-- `vesting_balance_object` with a `cdd_vesting_policy`. -/
structure VestingBalance where
  vestingSeconds : ℕ
  coinSecondsEarned : ℤ
  startClaim : ℕ
  coinSecondsEarnedLastUpdate : ℕ
  balance : AssetAmount
  deriving DecidableEq

namespace VestingBalance

variable (v : VestingBalance) (now : ℕ) (amount : AssetAmount)

/-- `std::max(vesting_seconds, 1u)` -/
def period : ℤ := max v.vestingSeconds 1

/-- `compute_coin_seconds_earned` -/
def computeCoinSecondsEarned : Except VestingError ℤ :=
  if now < v.coinSecondsEarnedLastUpdate then throw .timeBackwards
  else
    let deltaCoinSeconds := v.balance.amount * (now - v.coinSecondsEarnedLastUpdate)
    let coinSecondsEarnedCap := v.balance.amount * v.period
    return min (v.coinSecondsEarned + deltaCoinSeconds) coinSecondsEarnedCap

/-- `update_coin_seconds_earned` -/
def updateCoinSecondsEarned : Except VestingError VestingBalance := do
  let earned ← v.computeCoinSecondsEarned now
  return { v with coinSecondsEarned := earned, coinSecondsEarnedLastUpdate := now }

/-- `get_allowed_withdraw` -/
def getAllowedWithdraw : Except VestingError AssetAmount := do
  if now ≤ v.startClaim then return ⟨0, v.balance.assetId⟩
  let csEarned ← v.computeCoinSecondsEarned now
  let withdrawAvailable := csEarned / v.period
  if ¬ withdrawAvailable ≤ v.balance.amount then throw .availableAboveBalance
  return ⟨withdrawAvailable, v.balance.assetId⟩

/-- `is_withdraw_allowed`, of the policy and then of the balance. -/
def isWithdrawAllowed : Except VestingError Bool := do
  let allowed ← v.getAllowedWithdraw now
  let result ← amount.le allowed
  let within ← amount.le v.balance
  if ¬ (within ∨ ¬ result) then throw .allowedAboveBalance
  return result

/-- `is_deposit_allowed` -/
def isDepositAllowed : Bool :=
  amount.assetId = v.balance.assetId ∧ sumBelowMaxShares amount v.balance

/-- `is_deposit_vested_allowed` -/
def isDepositVestedAllowed : Bool := v.isDepositAllowed amount

/-- `deposit` -/
def deposit : Except VestingError VestingBalance := do
  let v' ← v.updateCoinSecondsEarned now
  let balance ← v'.balance.add amount
  return { v' with balance }

/-- `deposit_vested` -/
def depositVested : Except VestingError VestingBalance := do
  let v' ← v.updateCoinSecondsEarned now
  let balance ← v'.balance.add amount
  return { v' with coinSecondsEarned := v'.coinSecondsEarned + amount.amount * v.period, balance }

/-- `withdraw` -/
def withdraw : Except VestingError VestingBalance := do
  if ¬ (← amount.le v.balance) then throw .amountAboveBalance
  let v' ← v.updateCoinSecondsEarned now
  let coinSecondsNeeded := amount.amount * v.period
  if ¬ coinSecondsNeeded ≤ v'.coinSecondsEarned then throw .coinSecondsNeeded
  let balance ← v'.balance.sub amount
  return { v' with coinSecondsEarned := v'.coinSecondsEarned - coinSecondsNeeded, balance }

end VestingBalance

/-- What is withdrawn is of the asset, and was there. -/
lemma VestingBalance.withdraw_eq_ok {v w : VestingBalance} {now : ℕ} {amount : AssetAmount}
    (h : v.withdraw now amount = .ok w) :
    amount.assetId = v.balance.assetId ∧ amount.amount ≤ v.balance.amount ∧
      w.balance.amount = v.balance.amount - amount.amount := by
  simp only [withdraw, except_bind_eq_ok, AssetAmount.le, AssetAmount.sub, updateCoinSecondsEarned] at h
  obtain ⟨within, hwithin, h⟩ := h
  split_ifs at hwithin with hasset
  cases hwithin
  by_cases hle : amount.amount ≤ v.balance.amount
  · rw [if_neg (by simpa using hle)] at h
    simp only [except_bind_eq_ok] at h
    obtain ⟨v', ⟨earned, -, hv'⟩, h⟩ := h
    cases hv'
    by_cases hneeded : amount.amount * v.period ≤ earned
    · rw [if_neg (not_not.mpr hneeded), except_bind_eq_ok] at h
      obtain ⟨b, hb, h⟩ := h
      rw [if_neg (not_not.mpr (not_not.mp hasset).symm)] at hb
      cases hb
      cases h
      exact ⟨not_not.mp hasset, hle, rfl⟩
    · rw [if_pos hneeded] at h
      cases h
  · rw [if_pos (by simpa using hle)] at h
    cases h

/-! ### Runs -/

/-- The vesting balance of `vesting_balance_create`. -/
def create (vestingSeconds startClaim now amount assetId : ℕ) : VestingBalance where
  vestingSeconds := vestingSeconds
  coinSecondsEarned := 0
  startClaim := startClaim
  coinSecondsEarnedLastUpdate := now
  balance := ⟨amount, assetId⟩

/-- The vesting balance that `deposit_lazy_vesting` makes. -/
def createLazy (requireVesting : Bool) (vestingSeconds now amount assetId : ℕ) :
    VestingBalance where
  vestingSeconds := vestingSeconds
  coinSecondsEarned := if requireVesting then 0 else amount * vestingSeconds
  startClaim := 0
  coinSecondsEarnedLastUpdate := now
  balance := ⟨amount, assetId⟩

/-- A vesting balance as it comes to be. -/
inductive Created : VestingBalance → Prop where
  | create (vestingSeconds startClaim now amount assetId : ℕ) :
      Created (create vestingSeconds startClaim now amount assetId)
  | createLazy (requireVesting : Bool) (vestingSeconds now amount assetId : ℕ) :
      Created (createLazy requireVesting vestingSeconds now amount assetId)

/-- What is done to a vesting balance. Who calls `deposit` does so with fees, cashback or pay, which
are not negative. -/
inductive Operation where
  | deposit (amount assetId : ℕ)
  | depositVested (amount assetId : ℕ)
  | withdraw (amount : AssetAmount)
  deriving DecidableEq

/-- The balance allows it. -/
def Operation.Allowed (v : VestingBalance) (now : ℕ) : Operation → Prop
  | .deposit amount assetId => v.isDepositAllowed ⟨amount, assetId⟩ = true
  | .depositVested amount assetId => v.isDepositVestedAllowed ⟨amount, assetId⟩ = true
  | .withdraw amount => v.isWithdrawAllowed now amount = .ok true

/-- It is done. -/
def Operation.apply (v : VestingBalance) (now : ℕ) :
    Operation → Except VestingError VestingBalance
  | .deposit amount assetId => v.deposit now ⟨amount, assetId⟩
  | .depositVested amount assetId => v.depositVested now ⟨amount, assetId⟩
  | .withdraw amount => v.withdraw now amount

/-- Allowed operations one after the other, each with its time. The last time is the one of the
update, so that they do not decrease. -/
inductive Run (v₀ : VestingBalance) : List (ℕ × Operation) → VestingBalance → Prop where
  | nil : Run v₀ [] v₀
  | snoc {es : List (ℕ × Operation)} {v v' : VestingBalance} {now : ℕ} {op : Operation} :
      Run v₀ es v → v.coinSecondsEarnedLastUpdate ≤ now → op.Allowed v now →
      op.apply v now = .ok v' → Run v₀ (es ++ [(now, op)]) v'

/-- What has been withdrawn. -/
def withdrawn (es : List (ℕ × Operation)) : ℤ :=
  (es.map fun e => match e.2 with
    | .withdraw amount => amount.amount
    | _ => 0).sum

/-- What an operation adds to the coin-seconds up to the time `t`: a deposit earns from its time on, and
a vested one has earned a whole period at once; what has been withdrawn earns no more. -/
def Operation.coinSeconds (period : ℤ) (t : ℕ) : ℕ × Operation → ℤ
  | (now, .deposit amount _) => amount * ((t : ℤ) - now)
  | (now, .depositVested amount _) => amount * ((t : ℤ) - now) + amount * period
  | (now, .withdraw amount) => -(amount.amount * ((t : ℤ) - now))

/-- The coin-seconds that have accrued up to the time `t`. -/
def accrued (v₀ : VestingBalance) (es : List (ℕ × Operation)) (t : ℕ) : ℤ :=
  v₀.coinSecondsEarned + v₀.balance.amount * ((t : ℤ) - v₀.coinSecondsEarnedLastUpdate) +
    (es.map (Operation.coinSeconds v₀.period t)).sum

/-! ### What holds in between -/

/-- No coin-seconds are missing, no more have been earned than the cap, and there is a balance. -/
structure Solvent (v : VestingBalance) : Prop where
  earned_nonneg : 0 ≤ v.coinSecondsEarned
  earned_le : v.coinSecondsEarned ≤ v.balance.amount * v.period
  balance_nonneg : 0 ≤ v.balance.amount

variable {v v₀ v' : VestingBalance} {now t : ℕ} {earned : ℤ} {amount : AssetAmount} {es : List (ℕ × Operation)}

lemma period_pos (v : VestingBalance) : 0 < v.period := by
  rw [VestingBalance.period]
  omega

/-- The coin-seconds at a later time. -/
lemma Solvent.computeCoinSecondsEarned (h : Solvent v) (hnow : v.coinSecondsEarnedLastUpdate ≤ now) :
    ∃ earned, v.computeCoinSecondsEarned now = .ok earned ∧ 0 ≤ earned ∧
      earned ≤ v.balance.amount * v.period ∧
      earned ≤ v.coinSecondsEarned +
        v.balance.amount * ((now : ℤ) - v.coinSecondsEarnedLastUpdate) := by
  have hdelta : 0 ≤ v.balance.amount * ((now : ℤ) - v.coinSecondsEarnedLastUpdate) :=
    mul_nonneg h.balance_nonneg (by omega)
  have hcap : 0 ≤ v.balance.amount * v.period := mul_nonneg h.balance_nonneg (period_pos v).le
  refine ⟨_, if_neg hnow.not_gt, ?_, min_le_right _ _, min_le_left _ _⟩
  exact le_min (add_nonneg h.earned_nonneg hdelta) hcap

/-- **`get_allowed_withdraw`** is within the balance and the coin-seconds. -/
lemma Solvent.getAllowedWithdraw (h : Solvent v) (hnow : v.coinSecondsEarnedLastUpdate ≤ now) :
    ∃ a earned, v.getAllowedWithdraw now = .ok ⟨a, v.balance.assetId⟩ ∧
      v.computeCoinSecondsEarned now = .ok earned ∧ a ≤ v.balance.amount ∧
      a * v.period ≤ earned := by
  obtain ⟨earned, hearned, h0, hcap, -⟩ := h.computeCoinSecondsEarned hnow
  by_cases hclaim : now ≤ v.startClaim
  · exact ⟨0, earned, by rw [VestingBalance.getAllowedWithdraw, if_pos hclaim]; rfl, hearned,
      h.balance_nonneg, by simpa using h0⟩
  · have havailable : earned / v.period ≤ v.balance.amount := by
      refine Int.ediv_le_of_le_mul (period_pos v) hcap
    refine ⟨earned / v.period, earned, ?_, hearned, havailable,
      Int.ediv_mul_le earned (period_pos v).ne'⟩
    rw [VestingBalance.getAllowedWithdraw, if_neg hclaim, hearned]
    exact if_neg (not_not.mpr havailable)

/-- **`is_withdraw_allowed`** meets none of its assertions. -/
lemma Solvent.isWithdrawAllowed (h : Solvent v) (hnow : v.coinSecondsEarnedLastUpdate ≤ now)
    (hasset : amount.assetId = v.balance.assetId) :
    ∃ a earned, v.isWithdrawAllowed now amount = .ok (decide (amount.amount ≤ a)) ∧
      v.computeCoinSecondsEarned now = .ok earned ∧ a ≤ v.balance.amount ∧
      a * v.period ≤ earned := by
  obtain ⟨a, earned, hallowed, hearned, ha, hcs⟩ := h.getAllowedWithdraw hnow
  refine ⟨a, earned, ?_, hearned, ha, hcs⟩
  have hle : ∀ b : AssetAmount, b.assetId = v.balance.assetId →
      amount.le b = .ok (decide (amount.amount ≤ b.amount)) := fun b hb =>
    if_neg (not_not.mpr (hasset.trans hb.symm))
  rw [VestingBalance.isWithdrawAllowed, hallowed]
  simp only [bind, Except.bind, hle ⟨a, v.balance.assetId⟩ rfl, hle v.balance rfl]
  rw [if_neg]
  · rfl
  · simp only [decide_eq_true_eq, not_or, not_not, not_and]
    intro hlt hle
    exact hlt (hle.trans ha)

/-- Amounts of another asset are not compared. -/
lemma Solvent.isWithdrawAllowed_other (h : Solvent v)
    (hnow : v.coinSecondsEarnedLastUpdate ≤ now) (hasset : amount.assetId ≠ v.balance.assetId) :
    v.isWithdrawAllowed now amount = .error .otherAsset := by
  obtain ⟨a, earned, hallowed, -⟩ := h.getAllowedWithdraw hnow
  have hle : amount.le ⟨a, v.balance.assetId⟩ = .error .otherAsset := if_pos hasset
  rw [VestingBalance.isWithdrawAllowed, hallowed]
  simp only [bind, Except.bind, hle]

/-- **A withdrawal that is allowed** goes through, and takes what it costs. -/
lemma Solvent.withdraw (h : Solvent v) (hnow : v.coinSecondsEarnedLastUpdate ≤ now)
    (hallowed : v.isWithdrawAllowed now amount = .ok true) :
    ∃ earned, v.computeCoinSecondsEarned now = .ok earned ∧
      amount.assetId = v.balance.assetId ∧ amount.amount * v.period ≤ earned ∧
      amount.amount ≤ v.balance.amount ∧
      v.withdraw now amount = .ok
        { v with
          coinSecondsEarned := earned - amount.amount * v.period
          coinSecondsEarnedLastUpdate := now
          balance := ⟨v.balance.amount - amount.amount, v.balance.assetId⟩ } := by
  have hasset : amount.assetId = v.balance.assetId := by
    by_contra hne
    rw [h.isWithdrawAllowed_other hnow hne] at hallowed
    cases hallowed
  obtain ⟨a, earned, hresult, hearned, ha, hcs⟩ := h.isWithdrawAllowed hnow hasset
  rw [hresult] at hallowed
  have hle : amount.amount ≤ a := of_decide_eq_true (Except.ok.inj hallowed)
  have hneeded : amount.amount * v.period ≤ earned :=
    (mul_le_mul_of_nonneg_right hle (period_pos v).le).trans hcs
  refine ⟨earned, hearned, hasset, hneeded, hle.trans ha, ?_⟩
  have hbalance : amount.le v.balance = .ok true := by
    rw [AssetAmount.le, if_neg (not_not.mpr hasset), decide_eq_true (hle.trans ha)]
    rfl
  have hsub : v.balance.sub amount = .ok ⟨v.balance.amount - amount.amount, v.balance.assetId⟩ :=
    if_neg (not_not.mpr hasset.symm)
  simp only [VestingBalance.withdraw, VestingBalance.updateCoinSecondsEarned, hbalance, hearned,
    bind, Except.bind, pure, Except.pure, hsub, hneeded, not_true_eq_false, if_false]

/-- A deposit adds the amount to the balance. -/
lemma Solvent.deposit (hearned : v.computeCoinSecondsEarned now = .ok earned)
    (hasset : amount.assetId = v.balance.assetId) :
    v.deposit now amount = .ok
      { v with
        coinSecondsEarned := earned
        coinSecondsEarnedLastUpdate := now
        balance := ⟨v.balance.amount + amount.amount, v.balance.assetId⟩ } := by
  have hadd : v.balance.add amount = .ok ⟨v.balance.amount + amount.amount, v.balance.assetId⟩ :=
    if_neg (not_not.mpr hasset.symm)
  simp only [VestingBalance.deposit, VestingBalance.updateCoinSecondsEarned, hearned, hadd, bind,
    Except.bind, pure, Except.pure]

/-- A vested deposit adds the coin-seconds of a whole period too. -/
lemma Solvent.depositVested (hearned : v.computeCoinSecondsEarned now = .ok earned)
    (hasset : amount.assetId = v.balance.assetId) :
    v.depositVested now amount = .ok
      { v with
        coinSecondsEarned := earned + amount.amount * v.period
        coinSecondsEarnedLastUpdate := now
        balance := ⟨v.balance.amount + amount.amount, v.balance.assetId⟩ } := by
  have hadd : v.balance.add amount = .ok ⟨v.balance.amount + amount.amount, v.balance.assetId⟩ :=
    if_neg (not_not.mpr hasset.symm)
  simp only [VestingBalance.depositVested, VestingBalance.updateCoinSecondsEarned, hearned, hadd,
    bind, Except.bind, pure, Except.pure]

/-- **An allowed operation** goes through, and leaves the balance solvent. What it takes or gives in
coin-seconds and in coins is what the entry says. -/
theorem Solvent.apply {op : Operation} (h : Solvent v)
    (hnow : v.coinSecondsEarnedLastUpdate ≤ now) (hop : op.Allowed v now) :
    ∃ v' earned, op.apply v now = .ok v' ∧ Solvent v' ∧
      v'.period = v.period ∧ v'.coinSecondsEarnedLastUpdate = now ∧
      v.computeCoinSecondsEarned now = .ok earned ∧
      v'.coinSecondsEarned + withdrawn [(now, op)] * v.period =
        earned + Operation.coinSeconds v.period now (now, op) ∧
      ∀ t : ℕ, Operation.coinSeconds v.period t (now, op) =
        (v'.balance.amount - v.balance.amount) * ((t : ℤ) - now) +
          Operation.coinSeconds v.period now (now, op) := by
  obtain ⟨earned, hearned, h0, hcap, -⟩ := h.computeCoinSecondsEarned hnow
  have hpos := (period_pos v).le
  cases op with
  | deposit amount assetId =>
      have hallowed : v.isDepositAllowed ⟨amount, assetId⟩ = true := hop
      have hasset := (of_decide_eq_true hallowed).1
      have hcap' : earned ≤ (v.balance.amount + amount) * v.period := by
        have : (0 : ℤ) ≤ amount * v.period := mul_nonneg (Int.natCast_nonneg amount) hpos
        rw [add_mul]
        omega
      refine ⟨_, earned, Solvent.deposit hearned hasset,
        ⟨h0, hcap', add_nonneg h.balance_nonneg (Int.natCast_nonneg amount)⟩, rfl, rfl, hearned,
        ?_, fun t => ?_⟩
      · simp [withdrawn, Operation.coinSeconds]
      · simp [Operation.coinSeconds]
  | depositVested amount assetId =>
      have hallowed : v.isDepositAllowed ⟨amount, assetId⟩ = true := hop
      have hasset := (of_decide_eq_true hallowed).1
      have hamount : (0 : ℤ) ≤ amount * v.period := mul_nonneg (Int.natCast_nonneg amount) hpos
      have hcap' : earned + amount * v.period ≤ (v.balance.amount + amount) * v.period := by
        rw [add_mul]
        omega
      refine ⟨_, earned, Solvent.depositVested hearned hasset,
        ⟨add_nonneg h0 hamount, hcap', add_nonneg h.balance_nonneg (Int.natCast_nonneg amount)⟩,
        rfl, rfl, hearned, ?_, fun t => ?_⟩
      · simp [withdrawn, Operation.coinSeconds]
      · simp [Operation.coinSeconds]
  | withdraw amount =>
      obtain ⟨earned', hearned', hasset, hneeded, hle, hwithdraw⟩ := h.withdraw hnow hop
      obtain rfl : earned' = earned := Except.ok.inj (hearned'.symm.trans hearned)
      have hcap' : earned' - amount.amount * v.period ≤
          (v.balance.amount - amount.amount) * v.period := by
        rw [sub_mul]
        omega
      refine ⟨_, earned', hwithdraw, ⟨by show 0 ≤ _ - _; omega, hcap', by show 0 ≤ _ - _; omega⟩,
        rfl, rfl, hearned, ?_, fun t => ?_⟩
      · simp [withdrawn, Operation.coinSeconds]
      · simp [Operation.coinSeconds]

/-! ### Runs -/

lemma Created.solvent (h : Created v) : Solvent v := by
  cases h with
  | create vestingSeconds startClaim now amount assetId =>
      refine ⟨le_rfl, ?_, Int.natCast_nonneg amount⟩
      exact mul_nonneg (Int.natCast_nonneg amount) (period_pos _).le
  | createLazy requireVesting vestingSeconds now amount assetId =>
      have hseconds : (vestingSeconds : ℤ) ≤ max (vestingSeconds : ℤ) 1 := le_max_left _ _
      have hcap : (amount : ℤ) * vestingSeconds ≤ amount * max (vestingSeconds : ℤ) 1 :=
        mul_le_mul_of_nonneg_left hseconds (Int.natCast_nonneg amount)
      have h0 : (0 : ℤ) ≤ amount * vestingSeconds := by positivity
      refine ⟨?_, ?_, Int.natCast_nonneg amount⟩
      · cases requireVesting with
        | true => exact le_rfl
        | false => exact h0
      · cases requireVesting with
        | true => exact h0.trans hcap
        | false => exact hcap

/-- What is known of a balance after a run. -/
structure Ledger (v₀ : VestingBalance) (es : List (ℕ × Operation)) (v : VestingBalance) : Prop where
  solvent : Solvent v
  period_eq : v.period = v₀.period
  withdrawn_le : withdrawn es * v.period + v.coinSecondsEarned ≤
    accrued v₀ es v.coinSecondsEarnedLastUpdate
  accrued_eq : ∀ t, accrued v₀ es t = accrued v₀ es v.coinSecondsEarnedLastUpdate +
    v.balance.amount * ((t : ℤ) - v.coinSecondsEarnedLastUpdate)

lemma withdrawn_append (es : List (ℕ × Operation)) (e : ℕ × Operation) :
    withdrawn (es ++ [e]) = withdrawn es + withdrawn [e] := by
  simp [withdrawn]

lemma accrued_append (v₀ : VestingBalance) (es : List (ℕ × Operation)) (e : ℕ × Operation) (t : ℕ) :
    accrued v₀ (es ++ [e]) t = accrued v₀ es t + Operation.coinSeconds v₀.period t e := by
  simp only [accrued, List.map_append, List.map_cons, List.map_nil, List.sum_append,
    List.sum_singleton]
  ring

/-- Allowed operations, one after the other. -/
theorem Run.ledger (hcreated : Created v₀) (h : Run v₀ es v) : Ledger v₀ es v := by
  induction h with
  | nil =>
      refine ⟨hcreated.solvent, rfl, ?_, fun t => ?_⟩
      · simp [withdrawn, accrued]
      · simp [accrued]
  | @snoc es v v' now op _ hnow hop happly ih =>
      obtain ⟨v'', earned, happly', hsolvent, hperiod, hlast, hearned, hcost, hlater⟩ :=
        ih.solvent.apply hnow hop
      obtain rfl : v'' = v' := Except.ok.inj (happly'.symm.trans happly)
      obtain ⟨_, hearned', -, -, hdelta⟩ := ih.solvent.computeCoinSecondsEarned hnow
      obtain rfl := Except.ok.inj (hearned'.symm.trans hearned)
      have hnowacc := ih.accrued_eq now
      have hwithdrawn := ih.withdrawn_le
      refine ⟨hsolvent, hperiod.trans ih.period_eq, ?_, fun t => ?_⟩
      · rw [hlast, withdrawn_append, accrued_append, hnowacc, hperiod, add_mul, ← ih.period_eq]
        omega
      · have hacc := ih.accrued_eq t
        have hop := hlater t
        rw [hlast, accrued_append, accrued_append, ← ih.period_eq, hacc, hnowacc, hop]
        ring

/-- The vesting balance does not release too much: it stays solvent, what it allows to withdraw can be
withdrawn, no assertion fails on the way, and what has been withdrawn is paid for in coin-seconds. -/
structure NeverOverReleases (v₀ : VestingBalance) (es : List (ℕ × Operation))
    (v : VestingBalance) : Prop where
  earned_le : v.coinSecondsEarned ≤ v.balance.amount * v.period
  balance_nonneg : 0 ≤ v.balance.amount
  withdraws : ∀ now amount, v.coinSecondsEarnedLastUpdate ≤ now →
    v.isWithdrawAllowed now amount = .ok true → ∃ v', v.withdraw now amount = .ok v'
  allowed : ∀ now, v.coinSecondsEarnedLastUpdate ≤ now → ∃ a, v.getAllowedWithdraw now = .ok a
  asserts : ∀ now amount e, v.coinSecondsEarnedLastUpdate ≤ now →
    v.isWithdrawAllowed now amount = .error e →
      e = .otherAsset ∧ amount.assetId ≠ v.balance.assetId
  released : ∀ t : ℕ, v.coinSecondsEarnedLastUpdate ≤ t →
    withdrawn es * v.period ≤ accrued v₀ es t

/-- **A `cdd` vesting balance never releases too much.** -/
theorem run_neverOverReleases (v₀ v : VestingBalance) (es : List (ℕ × Operation))
    (hcreated : Created v₀) (h : Run v₀ es v) : NeverOverReleases v₀ es v := by
  have hledger := h.ledger hcreated
  have hsolvent := hledger.solvent
  refine ⟨hsolvent.earned_le, hsolvent.balance_nonneg, fun now amount hnow hallowed => ?_,
    fun now hnow => ?_, fun now amount e hnow herror => ?_, fun t ht => ?_⟩
  · obtain ⟨_, -, -, -, -, hwithdraw⟩ := hsolvent.withdraw hnow hallowed
    exact ⟨_, hwithdraw⟩
  · obtain ⟨a, _, hallowed, -⟩ := hsolvent.getAllowedWithdraw hnow
    exact ⟨_, hallowed⟩
  · by_cases hasset : amount.assetId = v.balance.assetId
    · obtain ⟨_, _, hresult, -⟩ := hsolvent.isWithdrawAllowed hnow hasset
      rw [hresult] at herror
      cases herror
    · rw [hsolvent.isWithdrawAllowed_other hnow hasset] at herror
      exact ⟨(Except.error.inj herror).symm, hasset⟩
  · have hlater : 0 ≤ v.balance.amount * ((t : ℤ) - v.coinSecondsEarnedLastUpdate) :=
      mul_nonneg hsolvent.balance_nonneg (by omega)
    have hearned := hsolvent.earned_nonneg
    have hwithdrawn := hledger.withdrawn_le
    have haccrued := hledger.accrued_eq t
    omega

/-! ### Vested deposits among others -/

/-- The coin-seconds that a deposit has earned itself up to the time `t`, where a vested one has earned
those of a whole period and earns no more. -/
def Operation.ownCoinSeconds (period : ℤ) (t : ℕ) : ℕ × Operation → ℤ
  | (now, .deposit amount _) => amount * ((t : ℤ) - now)
  | (_, .depositVested amount _) => amount * period
  | (_, .withdraw _) => 0

/-- A coin at first, then a vested deposit, another deposit, and a withdrawal of it all after one
period. -/
def mixedOperations : List (ℕ × Operation) :=
  [(0, .depositVested 100 0), (5, .deposit 100 0), (10, .withdraw ⟨201, 0⟩)]

lemma run_mixedOperations : Run (create 10 0 0 1 0) mixedOperations ⟨10, 0, 0, 10, ⟨0, 0⟩⟩ := by
  have hfirst : Run (create 10 0 0 1 0) [(0, .depositVested 100 0)] ⟨10, 1000, 0, 0, ⟨101, 0⟩⟩ :=
    Run.snoc Run.nil (by decide) rfl rfl
  have hsecond : Run (create 10 0 0 1 0) [(0, .depositVested 100 0), (5, .deposit 100 0)]
      ⟨10, 1010, 0, 5, ⟨201, 0⟩⟩ := Run.snoc hfirst (by decide) rfl rfl
  exact Run.snoc hsecond (by decide) rfl rfl

/-- The balance of the mixed operations is solvent, and so on. -/
theorem run_neverOverReleases_mixed :
    NeverOverReleases (create 10 0 0 1 0) mixedOperations ⟨10, 0, 0, 10, ⟨0, 0⟩⟩ :=
  run_neverOverReleases (create 10 0 0 1 0) ⟨10, 0, 0, 10, ⟨0, 0⟩⟩ mixedOperations
    (Created.create 10 0 0 1 0) run_mixedOperations

/-- A vested deposit goes on to earn coin-seconds, which pay for the withdrawal of other deposits: the
withdrawal costs 2010 of them, and the deposits have earned 10 and 1000 and 500. -/
theorem not_released_own :
    ¬ ∀ (vestingSeconds startClaim now amount assetId : ℕ) (v : VestingBalance)
      (es : List (ℕ × Operation)), Run (create vestingSeconds startClaim now amount assetId) es v →
      ∀ t : ℕ, v.coinSecondsEarnedLastUpdate ≤ t → withdrawn es * v.period ≤
        amount * ((t : ℤ) - now) + (es.map (Operation.ownCoinSeconds v.period t)).sum := by
  intro h
  have hown := h 10 0 0 1 0 _ _ run_mixedOperations 10 le_rfl
  revert hown
  decide

end ZosCore.CddVesting
