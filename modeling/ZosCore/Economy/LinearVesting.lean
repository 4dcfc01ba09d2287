import ZosCore.Economy.CddVesting

/-!
`vesting_balance_object.cpp`: a vesting balance with a `linear_vesting_policy`.

The policy does not store what has been withdrawn. It infers it, as what the balance is short of the
balance that it began with. `is_deposit_allowed` allows deposits all the same, against the note in the
header that no new funds may be added, and they corrupt it.

* `VestingBalance`: the balance and its policy, with the functions of both.
* `VestingBalance.vested`: the schedule, that is how much has vested at a time.
* `OnSchedule`: after a run, the schedule has been followed and will be.
* `Undisturbed`: the balance is short of exactly what was withdrawn.
* **`onSchedule_iff`**: the schedule is followed throughout a run iff nothing is deposited in it.
-/

namespace ZosCore.LinearVesting

open CddVesting (AssetAmount sumBelowMaxShares)

/-! ### The vesting balance -/

/-- The assertions. -/
inductive VestingError where
  /-- `elapsed_seconds > 0` -/
  | elapsedSeconds
  /-- `total_vested >= 0` -/
  | totalVested
  /-- `withdrawn_already >= 0` -/
  | withdrawnAlready
  /-- `allowed_withdraw >= 0` -/
  | allowedWithdraw
  /-- `(amount <= balance) || (!result)`, in `is_withdraw_allowed` -/
  | allowedAboveBalance
  /-- `amount <= balance`, in `withdraw` -/
  | amountAboveBalance
  /-- An operation on amounts of two assets. -/
  | otherAsset
  deriving DecidableEq

/-- `vesting_balance_object` with a `linear_vesting_policy`. -/
structure VestingBalance where
  beginTimestamp : ℕ
  vestingCliffSeconds : ℕ
  vestingDurationSeconds : ℕ
  beginBalance : ℤ
  balance : AssetAmount
  deriving DecidableEq

namespace VestingBalance

variable (v : VestingBalance) (now : ℕ) (amount : AssetAmount)

/-- `total_vested`. The division is the one of `fc::uint128_t`, and what comes of it is below
`begin_balance`. -/
def totalVested (elapsedSeconds : ℤ) : ℤ :=
  if elapsedSeconds < v.vestingDurationSeconds then
    v.beginBalance * elapsedSeconds / v.vestingDurationSeconds
  else v.beginBalance

/-- `linear_vesting_policy::get_allowed_withdraw` -/
def getAllowedWithdraw : Except VestingError AssetAmount :=
  if now > v.beginTimestamp then
    let elapsedSeconds : ℤ := now - v.beginTimestamp
    if ¬ elapsedSeconds > 0 then throw .elapsedSeconds
    else if elapsedSeconds ≥ v.vestingCliffSeconds then
      let totalVested := v.totalVested elapsedSeconds
      let withdrawnAlready := v.beginBalance - v.balance.amount
      let allowedWithdraw := totalVested - withdrawnAlready
      if ¬ totalVested ≥ 0 then throw .totalVested
      else if ¬ withdrawnAlready ≥ 0 then throw .withdrawnAlready
      else if ¬ allowedWithdraw ≥ 0 then throw .allowedWithdraw
      else return ⟨allowedWithdraw, v.balance.assetId⟩
    else return ⟨0, v.balance.assetId⟩
  else return ⟨0, v.balance.assetId⟩

/-- `linear_vesting_policy::is_withdraw_allowed` -/
def policyAllowsWithdraw : Except VestingError Bool :=
  if amount.assetId = v.balance.assetId then do
    let allowed ← v.getAllowedWithdraw now
    return amount.amount ≤ allowed.amount
  else return false

/-- `vesting_balance_object::is_withdraw_allowed` -/
def isWithdrawAllowed : Except VestingError Bool := do
  let result ← v.policyAllowsWithdraw now amount
  if amount.assetId ≠ v.balance.assetId then throw .otherAsset
  else if ¬ (amount.amount ≤ v.balance.amount ∨ ¬ result) then throw .allowedAboveBalance
  else return result

/-- `is_deposit_allowed` -/
def isDepositAllowed : Bool :=
  amount.assetId = v.balance.assetId ∧ sumBelowMaxShares amount v.balance

/-- `deposit`; `on_deposit` does nothing. -/
def deposit : Except VestingError VestingBalance :=
  if amount.assetId ≠ v.balance.assetId then throw .otherAsset
  else return { v with balance := ⟨v.balance.amount + amount.amount, v.balance.assetId⟩ }

/-- `withdraw`; `on_withdraw` does nothing. -/
def withdraw : Except VestingError VestingBalance :=
  if amount.assetId ≠ v.balance.assetId then throw .otherAsset
  else if ¬ amount.amount ≤ v.balance.amount then throw .amountAboveBalance
  else return { v with balance := ⟨v.balance.amount - amount.amount, v.balance.assetId⟩ }

/-- The schedule: nothing until the beginning and the cliff, then in proportion to the time that has
elapsed, and everything after the duration. -/
def vested : ℤ :=
  if now ≤ v.beginTimestamp ∨ now < v.beginTimestamp + v.vestingCliffSeconds then 0
  else if now < v.beginTimestamp + v.vestingDurationSeconds then
    v.beginBalance * (now - v.beginTimestamp) / v.vestingDurationSeconds
  else v.beginBalance

end VestingBalance

/-- What is withdrawn is of the asset, and was there. -/
lemma VestingBalance.withdraw_eq_ok {v w : VestingBalance} {amount : AssetAmount}
    (h : v.withdraw amount = .ok w) :
    amount.assetId = v.balance.assetId ∧ amount.amount ≤ v.balance.amount ∧
      w.balance.amount = v.balance.amount - amount.amount := by
  rw [withdraw] at h
  split_ifs at h with hasset hle
  cases h
  exact ⟨not_not.mp hasset, hle, rfl⟩

/-! ### Runs -/

/-- The vesting balance of `vesting_balance_create`, and the one that `adjust_identify` makes: the policy
begins with the balance. -/
def create (beginTimestamp cliff duration amount assetId : ℕ) : VestingBalance where
  beginTimestamp := beginTimestamp
  vestingCliffSeconds := cliff
  vestingDurationSeconds := duration
  beginBalance := amount
  balance := ⟨amount, assetId⟩

/-- What is done to a vesting balance. Who calls `deposit` does so with fees, cashback or pay, which
are not negative. -/
inductive Operation where
  | deposit (amount assetId : ℕ)
  | withdraw (amount : AssetAmount)
  deriving DecidableEq

/-- The balance allows it. -/
def Operation.Allowed (v : VestingBalance) (now : ℕ) : Operation → Prop
  | .deposit amount assetId => v.isDepositAllowed ⟨amount, assetId⟩ = true
  | .withdraw amount => 0 < amount.amount ∧ v.isWithdrawAllowed now amount = .ok true

/-- It is done. -/
def Operation.apply (v : VestingBalance) : Operation → Except VestingError VestingBalance
  | .deposit amount assetId => v.deposit ⟨amount, assetId⟩
  | .withdraw amount => v.withdraw amount

/-- What it deposits. -/
def Operation.deposited : Operation → ℕ
  | .deposit amount _ => amount
  | .withdraw _ => 0

/-- What it withdraws. -/
def Operation.withdrawn : Operation → ℤ
  | .deposit _ _ => 0
  | .withdraw amount => amount.amount

/-- No operation is after the time `t`. -/
def Before (es : List (ℕ × Operation)) (t : ℕ) : Prop := ∀ e ∈ es, e.1 ≤ t

/-- Allowed operations one after the other, at times that do not decrease. -/
inductive Run (v₀ : VestingBalance) : List (ℕ × Operation) → VestingBalance → Prop where
  | nil : Run v₀ [] v₀
  | snoc {es : List (ℕ × Operation)} {v v' : VestingBalance} {now : ℕ} {op : Operation} :
      Run v₀ es v → Before es now → op.Allowed v now → op.apply v = .ok v' →
      Run v₀ (es ++ [(now, op)]) v'

/-- What has been withdrawn. -/
def withdrawn (es : List (ℕ × Operation)) : ℤ := (es.map fun e => e.2.withdrawn).sum

/-- What had been withdrawn at the time `t`. -/
def withdrawnUntil (es : List (ℕ × Operation)) (t : ℕ) : ℤ := withdrawn (es.filter (·.1 ≤ t))

/-- The schedule has been followed in a run that led to the balance `v`, and is followed by what `v`
allows from then on. -/
structure OnSchedule (v₀ : VestingBalance) (es : List (ℕ × Operation)) (v : VestingBalance) :
    Prop where
  /-- At every time no more had been withdrawn than had vested. -/
  released : ∀ t, withdrawnUntil es t ≤ v₀.vested t
  /-- A withdrawal that is allowed next keeps to it, and goes through. -/
  releases : ∀ t amount, Before es t → v.isWithdrawAllowed t amount = .ok true →
    withdrawn es + amount.amount ≤ v₀.vested t ∧ ∃ v', v.withdraw amount = .ok v'
  /-- No assertion fails, and what is allowed is not negative. -/
  allowed : ∀ t, Before es t → ∃ a, v.getAllowedWithdraw t = .ok a ∧ 0 ≤ a.amount
  /-- What is allowed does not decrease in time. -/
  monotone : ∀ t t' a a', Before es t → t ≤ t' → v.getAllowedWithdraw t = .ok a →
    v.getAllowedWithdraw t' = .ok a' → a.amount ≤ a'.amount
  /-- The whole balance is allowed in the end. -/
  whole : ∀ t, Before es t → v₀.beginTimestamp < t →
    v₀.beginTimestamp + v₀.vestingCliffSeconds ≤ t →
    v₀.beginTimestamp + v₀.vestingDurationSeconds ≤ t → v.getAllowedWithdraw t = .ok v.balance

/-! ### The schedule -/

section

variable {v v₀ v' : VestingBalance} {es : List (ℕ × Operation)} {now t t' : ℕ} {amount : AssetAmount}

lemma VestingBalance.vested_of_late (hbegin : v.beginTimestamp < t)
    (hcliff : v.beginTimestamp + v.vestingCliffSeconds ≤ t)
    (hduration : v.beginTimestamp + v.vestingDurationSeconds ≤ t) : v.vested t = v.beginBalance := by
  rw [VestingBalance.vested, if_neg (by omega), if_neg (by omega)]

/-- A part of a balance that has elapsed in proportion. -/
lemma part_nonneg {balance elapsed duration : ℤ} (h : 0 ≤ balance) (helapsed : 0 ≤ elapsed)
    (hduration : 0 ≤ duration) : 0 ≤ balance * elapsed / duration :=
  Int.ediv_nonneg (mul_nonneg h helapsed) hduration

lemma part_le {balance elapsed duration : ℤ} (h : 0 ≤ balance) (helapsed : elapsed ≤ duration)
    (hduration : 0 < duration) : balance * elapsed / duration ≤ balance := by
  have hle : balance * elapsed ≤ balance * duration := mul_le_mul_of_nonneg_left helapsed h
  calc balance * elapsed / duration
      ≤ balance * duration / duration := Int.ediv_le_ediv hduration hle
    _ = balance := Int.mul_ediv_cancel _ hduration.ne'

lemma VestingBalance.vested_nonneg (h : 0 ≤ v.beginBalance) (t : ℕ) : 0 ≤ v.vested t := by
  rw [VestingBalance.vested]
  split_ifs with hbefore hduring
  · exact le_rfl
  · exact part_nonneg h (by omega) (by omega)
  · exact h

lemma VestingBalance.vested_le (h : 0 ≤ v.beginBalance) (t : ℕ) : v.vested t ≤ v.beginBalance := by
  rw [VestingBalance.vested]
  split_ifs with hbefore hduring
  · exact h
  · exact part_le h (by omega) (by omega)
  · exact le_rfl

/-- What has vested does not decrease. -/
lemma VestingBalance.vested_mono (h : 0 ≤ v.beginBalance) (ht : t ≤ t') :
    v.vested t ≤ v.vested t' := by
  by_cases hbefore : t ≤ v.beginTimestamp ∨ t < v.beginTimestamp + v.vestingCliffSeconds
  · rw [VestingBalance.vested, if_pos hbefore]
    exact VestingBalance.vested_nonneg h t'
  · by_cases hduring : t' < v.beginTimestamp + v.vestingDurationSeconds
    · have hle : v.beginBalance * ((t : ℤ) - v.beginTimestamp) ≤
          v.beginBalance * ((t' : ℤ) - v.beginTimestamp) :=
        mul_le_mul_of_nonneg_left (by omega) h
      rw [VestingBalance.vested, if_neg hbefore, if_pos (by omega), VestingBalance.vested,
        if_neg (by omega), if_pos hduring]
      exact Int.ediv_le_ediv (by omega) hle
    · calc v.vested t
          ≤ v.beginBalance := VestingBalance.vested_le h t
        _ = v.vested t' := (VestingBalance.vested_of_late (by omega) (by omega) (by omega)).symm

/-- **`get_allowed_withdraw`**, when the balance is short of no more than has vested. -/
lemma VestingBalance.getAllowedWithdraw_eq (h : 0 ≤ v.beginBalance)
    (hshort : 0 ≤ v.beginBalance - v.balance.amount)
    (hvested : v.beginBalance - v.balance.amount ≤ v.vested t) :
    v.getAllowedWithdraw t =
      .ok ⟨v.vested t - (v.beginBalance - v.balance.amount), v.balance.assetId⟩ := by
  by_cases hbefore : t ≤ v.beginTimestamp ∨ t < v.beginTimestamp + v.vestingCliffSeconds
  · have hzero : v.vested t = 0 := if_pos hbefore
    have hnone : v.vested t - (v.beginBalance - v.balance.amount) = 0 := by omega
    rw [hnone, VestingBalance.getAllowedWithdraw]
    by_cases hbegin : t > v.beginTimestamp
    · rw [if_pos hbegin, if_neg (by omega), if_neg (by omega)]
      rfl
    · rw [if_neg hbegin]
      rfl
  · have htotal : v.totalVested ((t : ℤ) - v.beginTimestamp) = v.vested t := by
      rw [VestingBalance.totalVested, VestingBalance.vested, if_neg hbefore]
      by_cases hduring : t < v.beginTimestamp + v.vestingDurationSeconds
      · rw [if_pos hduring, if_pos (by omega)]
      · rw [if_neg hduring, if_neg (by omega)]
    have hnonneg := VestingBalance.vested_nonneg h t
    rw [VestingBalance.getAllowedWithdraw, if_pos (by omega), if_neg (by omega), if_pos (by omega),
      htotal, if_neg (by omega), if_neg (by omega), if_neg (by omega)]
    rfl

/-- What has vested is no more than the balance at the beginning, if it is not negative. -/
lemma VestingBalance.totalVested_le {elapsed : ℤ} (helapsed : 0 < elapsed)
    (h : 0 ≤ v.totalVested elapsed) : v.totalVested elapsed ≤ v.beginBalance := by
  rw [VestingBalance.totalVested] at h ⊢
  split_ifs at h ⊢ with hduring
  · have hduration : (0 : ℤ) < v.vestingDurationSeconds := helapsed.trans hduring
    rcases le_or_gt 0 v.beginBalance with hbegin | hbegin
    · exact part_le hbegin hduring.le hduration
    · exact absurd h (Int.ediv_neg_of_neg_of_pos (mul_neg_of_neg_of_pos hbegin helapsed) hduration).not_ge
  · exact le_rfl

/-- No more is allowed than there is. -/
lemma VestingBalance.getAllowedWithdraw_le {a : AssetAmount} (hv : 0 ≤ v.balance.amount)
    (h : v.getAllowedWithdraw now = .ok a) : a.amount ≤ v.balance.amount := by
  simp only [VestingBalance.getAllowedWithdraw] at h
  split_ifs at h with hbegin helapsed hcliff htotal hshort hallowed
  · cases h
    have hle := VestingBalance.totalVested_le helapsed htotal
    show _ - (v.beginBalance - v.balance.amount) ≤ _
    omega
  · cases h
    exact hv
  · cases h
    exact hv

lemma VestingBalance.le_of_policyAllowsWithdraw (hv : 0 ≤ v.balance.amount)
    (h : v.policyAllowsWithdraw now amount = .ok true) :
    amount.assetId = v.balance.assetId ∧ amount.amount ≤ v.balance.amount := by
  rw [VestingBalance.policyAllowsWithdraw] at h
  split_ifs at h with hasset
  · obtain ⟨a, ha, hle⟩ := except_bind_eq_ok.mp h
    have hle : amount.amount ≤ a.amount := of_decide_eq_true (Except.ok.inj hle)
    exact ⟨hasset, hle.trans (VestingBalance.getAllowedWithdraw_le hv ha)⟩
  · cases h

/-! ### What holds in between -/

/-- The policy is that of the first balance, and the balance is short of what was withdrawn. -/
structure Undisturbed (v₀ : VestingBalance) (es : List (ℕ × Operation)) (v : VestingBalance) :
    Prop where
  policy : v = { v₀ with balance := ⟨v₀.beginBalance - withdrawn es, v.balance.assetId⟩ }
  withdrawn_nonneg : 0 ≤ withdrawn es
  withdrawn_le : ∀ t, Before es t → withdrawn es ≤ v₀.vested t
  released : ∀ t, withdrawnUntil es t ≤ v₀.vested t

lemma Undisturbed.getAllowedWithdraw (h : Undisturbed v₀ es v) (hbalance : 0 ≤ v₀.beginBalance)
    (ht : Before es t) :
    v.getAllowedWithdraw t = .ok ⟨v₀.vested t - withdrawn es, v.balance.assetId⟩ := by
  have hshort : v.beginBalance - v.balance.amount = withdrawn es := by
    rw [h.policy]
    exact sub_sub_cancel _ _
  have hbegin : v.beginBalance = v₀.beginBalance := by rw [h.policy]
  have hvested : v.vested t = v₀.vested t := by rw [h.policy]; rfl
  have hle := h.withdrawn_le t ht
  have hnonneg := h.withdrawn_nonneg
  rw [VestingBalance.getAllowedWithdraw_eq (by omega) (by omega) (by omega), hshort, hvested]

/-- A withdrawal is allowed if it is of the asset and of no more than has vested and is there. -/
lemma Undisturbed.of_isWithdrawAllowed (h : Undisturbed v₀ es v) (hbalance : 0 ≤ v₀.beginBalance)
    (ht : Before es t) (hallowed : v.isWithdrawAllowed t amount = .ok true) :
    withdrawn es + amount.amount ≤ v₀.vested t ∧ v.withdraw amount =
      .ok { v with balance := ⟨v.balance.amount - amount.amount, v.balance.assetId⟩ } := by
  by_cases hasset : amount.assetId = v.balance.assetId
  · rw [VestingBalance.isWithdrawAllowed, VestingBalance.policyAllowsWithdraw, if_pos hasset,
      h.getAllowedWithdraw hbalance ht] at hallowed
    simp only [bind, Except.bind, pure, Except.pure, if_neg (not_not.mpr hasset)] at hallowed
    split_ifs at hallowed with habove
    have hle : amount.amount ≤ v₀.vested t - withdrawn es :=
      of_decide_eq_true (Except.ok.inj hallowed)
    have hwithin : amount.amount ≤ v.balance.amount :=
      habove.resolve_right (not_not.mpr (decide_eq_true hle))
    refine ⟨by omega, ?_⟩
    rw [VestingBalance.withdraw, if_neg (not_not.mpr hasset), if_neg (not_not.mpr hwithin)]
    rfl
  · rw [VestingBalance.isWithdrawAllowed, VestingBalance.policyAllowsWithdraw,
      if_neg hasset] at hallowed
    simp only [bind, Except.bind, pure, Except.pure, if_pos hasset] at hallowed
    cases hallowed

/-- An undisturbed balance is on schedule. -/
lemma Undisturbed.onSchedule (h : Undisturbed v₀ es v) (hbalance : 0 ≤ v₀.beginBalance) :
    OnSchedule v₀ es v where
  released := h.released
  releases t amount ht hallowed := by
    obtain ⟨hle, hwithdraw⟩ := h.of_isWithdrawAllowed hbalance ht hallowed
    exact ⟨hle, _, hwithdraw⟩
  allowed t ht := by
    have hle := h.withdrawn_le t ht
    exact ⟨_, h.getAllowedWithdraw hbalance ht, by show 0 ≤ _ - _; omega⟩
  monotone t t' a a' ht htt' ha ha' := by
    have ht' : Before es t' := fun e he => (ht e he).trans htt'
    rw [h.getAllowedWithdraw hbalance ht] at ha
    rw [h.getAllowedWithdraw hbalance ht'] at ha'
    have hmono := VestingBalance.vested_mono hbalance htt'
    cases ha
    cases ha'
    show _ - _ ≤ _ - _
    omega
  whole t ht hbegin hcliff hduration := by
    rw [h.getAllowedWithdraw hbalance ht, VestingBalance.vested_of_late hbegin hcliff hduration]
    congr 1
    rw [h.policy]

/-! ### Runs -/

lemma withdrawn_append (es : List (ℕ × Operation)) (e : ℕ × Operation) :
    withdrawn (es ++ [e]) = withdrawn es + e.2.withdrawn := by
  simp [withdrawn]

lemma Before.of_append {e : ℕ × Operation} (h : Before (es ++ [e]) t) : Before es t ∧ e.1 ≤ t :=
  ⟨fun e' he' => h e' (List.mem_append_left _ he'), h e (List.mem_append_right _ List.mem_cons_self)⟩

/-- After the last operation, all that has been withdrawn had been. -/
lemma withdrawnUntil_of_before (h : Before es t) : withdrawnUntil es t = withdrawn es := by
  rw [withdrawnUntil, List.filter_eq_self.mpr fun e he => decide_eq_true (h e he)]

/-- Before an operation, what had been withdrawn does not count it. -/
lemma withdrawnUntil_append_of_lt {op : Operation} (h : t < now) :
    withdrawnUntil (es ++ [(now, op)]) t = withdrawnUntil es t := by
  rw [withdrawnUntil, List.filter_append]
  simp [withdrawnUntil, h]

lemma Undisturbed.nil (hpolicy : v.beginBalance = v.balance.amount) (h : 0 ≤ v.beginBalance) :
    Undisturbed v [] v where
  policy := by
    have hshort : v.beginBalance - withdrawn [] = v.balance.amount := by
      rw [hpolicy]
      exact sub_zero _
    rw [hshort]
  withdrawn_nonneg := le_rfl
  withdrawn_le t _ := VestingBalance.vested_nonneg h t
  released t := VestingBalance.vested_nonneg h t

/-- What an operation withdraws leaves the balance undisturbed if it is no more than has vested. -/
lemma Undisturbed.snoc (h : Undisturbed v₀ es v) {op : Operation} (hbalance : 0 ≤ v₀.beginBalance)
    (hnow : Before es now) (hnonneg : 0 ≤ op.withdrawn)
    (hvested : withdrawn es + op.withdrawn ≤ v₀.vested now) :
    Undisturbed v₀ (es ++ [(now, op)])
      { v with balance := ⟨v.balance.amount - op.withdrawn, v.balance.assetId⟩ } where
  policy := by
    rw [withdrawn_append, ← sub_sub, h.policy]
  withdrawn_nonneg := by
    have := h.withdrawn_nonneg
    rw [withdrawn_append]
    exact add_nonneg this hnonneg
  withdrawn_le t ht := by
    rw [withdrawn_append]
    exact hvested.trans (VestingBalance.vested_mono hbalance ht.of_append.2)
  released t := by
    by_cases ht : t < now
    · rw [withdrawnUntil_append_of_lt ht]
      exact h.released t
    · have hbefore : Before (es ++ [(now, op)]) t := by
        intro e he
        rcases List.mem_append.mp he with he | he
        · exact (hnow e he).trans (not_lt.mp ht)
        · rw [List.mem_singleton.mp he]
          exact not_lt.mp ht
      rw [withdrawnUntil_of_before hbefore, withdrawn_append]
      exact hvested.trans (VestingBalance.vested_mono hbalance (not_lt.mp ht))

/-- An allowed operation that deposits nothing leaves the balance undisturbed. -/
theorem Undisturbed.apply {op : Operation} (h : Undisturbed v₀ es v)
    (hbalance : 0 ≤ v₀.beginBalance) (hnow : Before es now) (hop : op.Allowed v now)
    (happly : op.apply v = .ok v') (hdeposit : op.deposited = 0) :
    Undisturbed v₀ (es ++ [(now, op)]) v' := by
  cases op with
  | deposit amount assetId =>
      obtain rfl : amount = 0 := hdeposit
      have hsame : v' = { v with balance := ⟨v.balance.amount - 0, v.balance.assetId⟩ } := by
        rw [Operation.apply, VestingBalance.deposit] at happly
        split_ifs at happly with hasset
        cases happly
        rw [sub_zero]
        congr 2
        exact add_zero _
      rw [hsame]
      refine h.snoc hbalance hnow le_rfl ?_
      calc withdrawn es + 0
          = withdrawn es := add_zero _
        _ ≤ v₀.vested now := h.withdrawn_le now hnow
  | withdraw amount =>
      obtain ⟨hpos, hallowed⟩ := hop
      obtain ⟨hle, hwithdraw⟩ := h.of_isWithdrawAllowed hbalance hnow hallowed
      obtain rfl := Except.ok.inj (hwithdraw.symm.trans happly)
      exact h.snoc hbalance hnow hpos.le hle

/-- A run that deposits nothing leaves the balance undisturbed. -/
theorem Run.undisturbed (h : Run v₀ es v) (hpolicy : v₀.beginBalance = v₀.balance.amount)
    (hbalance : 0 ≤ v₀.beginBalance) (hdeposits : ∀ e ∈ es, e.2.deposited = 0) :
    Undisturbed v₀ es v := by
  induction h with
  | nil => exact .nil hpolicy hbalance
  | @snoc es v v' now op _ hnow hop happly ih =>
      have hbefore := ih fun e he => hdeposits e (List.mem_append_left _ he)
      exact hbefore.apply hbalance hnow hop happly
        (hdeposits (now, op) (List.mem_append_right _ List.mem_cons_self))

end

/-! ### Deposits -/

section

variable {v v₀ v' : VestingBalance} {es : List (ℕ × Operation)} {now : ℕ}

/-- Some time is after everything. -/
lemma exists_before (es : List (ℕ × Operation)) (n : ℕ) : ∃ t, n ≤ t ∧ Before es t := by
  refine ⟨n + (es.map (·.1)).sum, Nat.le_add_right _ _, fun e he => ?_⟩
  calc e.1
      ≤ (es.map (·.1)).sum := List.le_sum_of_mem (List.mem_map_of_mem he)
    _ ≤ n + (es.map (·.1)).sum := Nat.le_add_left _ _

/-- What was withdrawn and the balance, which will be, come to no more than the first balance. -/
lemma OnSchedule.withdrawn_add_le (h : OnSchedule v₀ es v) :
    withdrawn es + v.balance.amount ≤ v₀.beginBalance := by
  obtain ⟨t, hlate, ht⟩ := exists_before es
    (v₀.beginTimestamp + v₀.vestingCliffSeconds + v₀.vestingDurationSeconds + 1)
  have hwhole := h.whole t ht (by omega) (by omega) (by omega)
  have hallowed : v.isWithdrawAllowed t v.balance = .ok true := by
    rw [VestingBalance.isWithdrawAllowed, VestingBalance.policyAllowsWithdraw, if_pos rfl, hwhole]
    simp [bind, Except.bind, pure, Except.pure]
  calc withdrawn es + v.balance.amount
      ≤ v₀.vested t := (h.releases t v.balance ht hallowed).1
    _ = v₀.beginBalance := VestingBalance.vested_of_late (by omega) (by omega) (by omega)

/-- A deposit into an undisturbed balance takes it off its schedule. -/
lemma Undisturbed.deposit_eq_zero {amount assetId : ℕ} (h : Undisturbed v₀ es v)
    (happly : v.deposit ⟨amount, assetId⟩ = .ok v')
    (hafter : OnSchedule v₀ (es ++ [(now, .deposit amount assetId)]) v') : amount = 0 := by
  have hbalance : v'.balance.amount = v.balance.amount + amount := by
    rw [VestingBalance.deposit] at happly
    split_ifs at happly
    cases happly
    rfl
  have hshort : v.balance.amount = v₀.beginBalance - withdrawn es := by rw [h.policy]
  have hle := hafter.withdrawn_add_le
  rw [withdrawn_append, hbalance, hshort] at hle
  change withdrawn es + 0 + _ ≤ _ at hle
  omega

/-- If the schedule is followed all along a run, nothing is deposited in it. -/
lemma Run.deposits_eq_zero (h : Run v₀ es v) (hpolicy : v₀.beginBalance = v₀.balance.amount)
    (hbalance : 0 ≤ v₀.beginBalance)
    (hfollowed : ∀ es₁ es₂ v₁, es₁ ++ es₂ = es → Run v₀ es₁ v₁ → OnSchedule v₀ es₁ v₁) :
    ∀ e ∈ es, e.2.deposited = 0 := by
  induction h with
  | nil => simp
  | @snoc es v v' now op hrun hnow hop happly ih =>
      have hbefore := ih fun es₁ es₂ v₁ hes => hfollowed es₁ (es₂ ++ [(now, op)]) v₁ (by
        rw [← hes, List.append_assoc])
      have hafter := hfollowed (es ++ [(now, op)]) [] v' (List.append_nil _)
        (.snoc hrun hnow hop happly)
      intro e he
      rcases List.mem_append.mp he with he | he
      · exact hbefore e he
      · rw [List.mem_singleton.mp he]
        cases op with
        | deposit amount assetId =>
            exact (hrun.undisturbed hpolicy hbalance hbefore).deposit_eq_zero happly hafter
        | withdraw amount => rfl

/-- **A linear vesting balance follows its schedule all along a run iff nothing is deposited.** -/
theorem onSchedule_iff (beginTimestamp cliff duration amount assetId : ℕ) (v : VestingBalance)
    (es : List (ℕ × Operation))
    (h : Run (create beginTimestamp cliff duration amount assetId) es v) :
    (∀ es₁ es₂ v₁, es₁ ++ es₂ = es →
        Run (create beginTimestamp cliff duration amount assetId) es₁ v₁ →
        OnSchedule (create beginTimestamp cliff duration amount assetId) es₁ v₁) ↔
      ∀ e ∈ es, e.2.deposited = 0 := by
  have hbalance : (0 : ℤ) ≤ amount := Int.natCast_nonneg amount
  constructor
  · exact h.deposits_eq_zero rfl hbalance
  · rintro hdeposits es₁ es₂ v₁ rfl hrun
    have hnone : ∀ e ∈ es₁, e.2.deposited = 0 := fun e he =>
      hdeposits e (List.mem_append_left _ he)
    exact (hrun.undisturbed rfl hbalance hnone).onSchedule hbalance

/-- Half of the duration has passed, and half is withdrawn. -/
theorem onSchedule_iff_half :
    (∀ es₁ es₂ v₁, es₁ ++ es₂ = [(5, .withdraw ⟨50, 0⟩)] → Run (create 0 2 10 100 0) es₁ v₁ →
        OnSchedule (create 0 2 10 100 0) es₁ v₁) ↔
      ∀ e ∈ [((5 : ℕ), Operation.withdraw ⟨50, 0⟩)], e.2.deposited = 0 :=
  onSchedule_iff 0 2 10 100 0 ⟨0, 2, 10, 100, ⟨50, 0⟩⟩ [(5, .withdraw ⟨50, 0⟩)]
    (.snoc .nil (by simp [Before]) ⟨by decide, rfl⟩ rfl)

/-- A balance of 100 that is withdrawn, deposited again and withdrawn again. -/
def refilled : List (ℕ × Operation) :=
  [(10, .withdraw ⟨100, 0⟩), (10, .deposit 100 0), (10, .withdraw ⟨100, 0⟩)]

/-- What is deposited after a withdrawal passes for not withdrawn: 200 are withdrawn of 100. -/
theorem not_onSchedule :
    ¬ ∀ (beginTimestamp cliff duration amount assetId : ℕ) (v : VestingBalance)
      (es : List (ℕ × Operation)),
      Run (create beginTimestamp cliff duration amount assetId) es v →
      OnSchedule (create beginTimestamp cliff duration amount assetId) es v := by
  intro h
  have hfirst : Run (create 0 0 10 100 0) [(10, .withdraw ⟨100, 0⟩)] ⟨0, 0, 10, 100, ⟨0, 0⟩⟩ :=
    .snoc .nil (by simp [Before]) ⟨by decide, rfl⟩ rfl
  have hsecond : Run (create 0 0 10 100 0) [(10, .withdraw ⟨100, 0⟩), (10, .deposit 100 0)]
      ⟨0, 0, 10, 100, ⟨100, 0⟩⟩ := .snoc hfirst (by simp [Before]) rfl rfl
  have hthird : Run (create 0 0 10 100 0) refilled ⟨0, 0, 10, 100, ⟨0, 0⟩⟩ :=
    .snoc hsecond (by simp [Before]) ⟨by decide, rfl⟩ rfl
  have hreleased := (h 0 0 10 100 0 _ _ hthird).released 10
  revert hreleased
  decide

end

end ZosCore.LinearVesting
