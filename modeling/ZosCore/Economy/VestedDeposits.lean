import ZosCore.Economy.Budget

/-!
Vested deposits: how many coin-seconds they come with.

`on_deposit_vested` and `deposit_lazy_vesting` multiply the amount by the period in 64 bits, before
the product becomes a number of 128 bits; and a period of zero seconds counts as one second in the first
and as none in the second.

* `CddVestingPolicy.getAllowedWithdraw`: `get_allowed_withdraw`.
* `VestsExactly`: the coin-seconds are the product, and what is deposited may be withdrawn at once.
* **`vestsExactly_iff`**: this is so exactly if the period is not zero and the product has 63 bits, or
  nothing is deposited.
-/

namespace ZosCore

/-- `get_allowed_withdraw`, none where an assertion fails; `start_claim` comes apart, and is 0 in the
balances of `deposit_lazy_vesting`. -/
def CddVestingPolicy.getAllowedWithdraw (p : CddVestingPolicy) (startClaim : ℕ) (balance : ℤ)
    (now : ℕ) : Option ℤ :=
  if now ≤ startClaim then some 0
  else match p.computeCoinSecondsEarned balance now with
    | .error _ => none
    | .ok csEarned =>
        let withdrawAvailable := csEarned / max p.vestingSeconds 1
        if withdrawAvailable ≤ uint128 balance ∧ withdrawAvailable < 2 ^ 64 then
          some (int64 withdrawAvailable)
        else none

/-- The coin-seconds that a vested deposit is to come with. -/
def fullCoinSeconds (amount : ℤ) (vestingSeconds : ℕ) : ℤ := amount * max vestingSeconds 1

/-- A vested deposit comes with all its coin-seconds, into a balance that is there, and into one that is made
for it; and in both as much may be withdrawn at once. -/
structure VestsExactly (e : Economy) (amount : ℤ) (vestingSeconds : ℕ) : Prop where
  deposited : ∀ (v : VestingBalance) (p : CddVestingPolicy), v.policy = .cdd p →
    p.vestingSeconds = vestingSeconds → 0 ≤ v.balance → v.balance + amount ≤ maxShareSupply →
    p.coinSecondsEarnedLastUpdate ≤ e.time →
    ∃ earned v' q, p.computeCoinSecondsEarned v.balance e.time = .ok earned ∧
      v.depositVested e.time amount = .ok v' ∧ v'.policy = .cdd q ∧
      (q.coinSecondsEarned : ℤ) = earned + fullCoinSeconds amount vestingSeconds ∧
      ∀ startClaim now, e.time ≤ now → startClaim < now → now < 2 ^ 32 →
        ∃ w, q.getAllowedWithdraw startClaim v'.balance now = some w ∧ amount ≤ w
  created : ∀ ovbid asset owner vb e',
    e.depositLazyVesting ovbid asset amount vestingSeconds owner false = .ok (some vb, e') →
    ∃ v p, e'.vestingBalances.lookup vb = some v ∧ v.policy = .cdd p ∧
      (p.coinSecondsEarned : ℤ) = fullCoinSeconds amount vestingSeconds ∧
      ∀ startClaim now, e.time ≤ now → startClaim < now → now < 2 ^ 32 →
        p.getAllowedWithdraw startClaim v.balance now = some amount

variable {e e' : Economy} {amount : ℤ} {vestingSeconds : ℕ}

/-- Amounts and periods in their bounds leave room in 128 bits. -/
lemma mul_seconds_lt (h0 : 0 ≤ amount) (hmax : amount ≤ maxShareSupply)
    (hseconds : vestingSeconds < 2 ^ 32) :
    0 ≤ fullCoinSeconds amount vestingSeconds ∧
      fullCoinSeconds amount vestingSeconds < 2 ^ 96 := by
  have hperiod : ((max vestingSeconds 1 : ℕ) : ℤ) ≤ 2 ^ 32 := by omega
  have hshares : amount ≤ 700000000000000 := hmax
  rw [fullCoinSeconds]
  refine ⟨mul_nonneg h0 (by omega), ?_⟩
  calc amount * ((max vestingSeconds 1 : ℕ) : ℤ)
      ≤ 700000000000000 * 2 ^ 32 := mul_le_mul hshares hperiod (by omega) (by norm_num)
    _ < 2 ^ 96 := by norm_num

/-- The product of 64 bits is exact exactly if it has 63. -/
lemma uint128_int64_eq_iff {x : ℤ} (h0 : 0 ≤ x) (h1 : x < 2 ^ 96) :
    (uint128 (int64 x) : ℤ) = x ↔ x < 2 ^ 63 := by
  rw [uint128, int64, Int.bmod_def]
  split_ifs <;> omega

/-- A balance that is made for a deposit. -/
lemma lookup_depositLazyVesting {ovbid : Option ℕ} {asset owner vb : ℕ} {requireVesting : Bool}
    (h : e.depositLazyVesting ovbid asset amount vestingSeconds owner requireVesting =
      .ok (some vb, e')) :
    amount ≠ 0 ∧ e'.vestingBalances.lookup vb =
      some (e.newVesting asset amount vestingSeconds owner requireVesting) := by
  have hcreate : (Except.ok (e.createVesting asset amount vestingSeconds owner requireVesting) :
        Except EconomyError _) = .ok (some vb, e') →
      e'.vestingBalances.lookup vb =
        some (e.newVesting asset amount vestingSeconds owner requireVesting) := by
    intro h
    cases h
    exact AList.lookup_insert _
  rw [Economy.depositLazyVesting.eq_def] at h
  split_ifs at h with hzero
  · cases h
  refine ⟨hzero, ?_⟩
  cases ovbid with
  | none => exact hcreate h
  | some vbid =>
      simp only at h
      cases hv : e.vestingBalances.lookup vbid with
      | none =>
          rw [hv] at h
          cases h
      | some v =>
          rw [hv] at h
          simp only at h
          split_ifs at h
          · cases hput : v.put requireVesting e.time amount with
            | error _ =>
                rw [hput] at h
                cases h
            | ok v' =>
                rw [hput] at h
                cases h
          · exact hcreate h

/-- The coin-seconds of a new balance. -/
lemma newVesting_exact_iff (h0 : 0 ≤ amount) (hmax : amount ≤ maxShareSupply)
    (hseconds : vestingSeconds < 2 ^ 32) :
    (uint128 (int64 (amount * vestingSeconds)) : ℤ) = fullCoinSeconds amount vestingSeconds ↔
      amount = 0 ∨ vestingSeconds ≠ 0 ∧ amount * vestingSeconds < 2 ^ 63 := by
  have hbound := mul_seconds_lt h0 hmax hseconds
  by_cases hzero : vestingSeconds = 0
  · subst hzero
    simp [fullCoinSeconds, int64, uint128, eq_comm]
  · have hmaximum : max vestingSeconds 1 = vestingSeconds := by omega
    rw [fullCoinSeconds, hmaximum] at hbound ⊢
    rw [uint128_int64_eq_iff hbound.1 hbound.2]
    constructor
    · exact fun h => .inr ⟨hzero, h⟩
    · rintro (rfl | ⟨-, h⟩)
      · simp
      · exact h

/-- An amount whose coin-seconds have been earned may be withdrawn, and no more than there is. -/
lemma exists_getAllowedWithdraw {balance : ℤ} (h0 : 0 ≤ amount) (hle : amount ≤ balance)
    (hmax : balance ≤ maxShareSupply) {p : CddVestingPolicy} (hseconds : p.vestingSeconds < 2 ^ 32)
    (hearned : fullCoinSeconds amount p.vestingSeconds ≤ p.coinSecondsEarned)
    (hfull : (p.coinSecondsEarned : ℤ) ≤ fullCoinSeconds balance p.vestingSeconds)
    {startClaim now : ℕ} (hnow : p.coinSecondsEarnedLastUpdate ≤ now) (hclaim : startClaim < now)
    (hclock : now < 2 ^ 32) :
    ∃ w, p.getAllowedWithdraw startClaim balance now = some w ∧ amount ≤ w ∧ w ≤ balance := by
  have hb0 : 0 ≤ balance := h0.trans hle
  have hbound := mul_seconds_lt hb0 hmax hseconds
  have hshares : balance ≤ 700000000000000 := hmax
  have hbal : (uint128 balance : ℤ) = balance := uint128_of_nonneg hb0 (by omega)
  have hpos : (0 : ℤ) < (max p.vestingSeconds 1 : ℕ) := by omega
  have hcap : (uint128 (uint128 balance * (max p.vestingSeconds 1 : ℕ)) : ℤ) =
      fullCoinSeconds balance p.vestingSeconds := by
    rw [hbal]
    exact uint128_of_nonneg hbound.1 (hbound.2.trans (by norm_num))
  -- what has been earned meanwhile does not make it less
  have hdelta : 0 ≤ balance * ((now : ℤ) - p.coinSecondsEarnedLastUpdate) ∧
      balance * ((now : ℤ) - p.coinSecondsEarnedLastUpdate) < 2 ^ 96 := by
    refine ⟨mul_nonneg hb0 (by omega), ?_⟩
    calc balance * ((now : ℤ) - p.coinSecondsEarnedLastUpdate)
        ≤ 700000000000000 * 2 ^ 32 := mul_le_mul hshares (by omega) (by omega) (by norm_num)
      _ < 2 ^ 96 := by norm_num
  have hsum : (uint128 (p.coinSecondsEarned + uint128 (uint128 balance *
      ((now : ℤ) - p.coinSecondsEarnedLastUpdate))) : ℤ) = p.coinSecondsEarned +
        balance * ((now : ℤ) - p.coinSecondsEarnedLastUpdate) := by
    have hexact : (uint128 (uint128 balance * ((now : ℤ) - p.coinSecondsEarnedLastUpdate)) : ℤ) =
        balance * ((now : ℤ) - p.coinSecondsEarnedLastUpdate) := by
      rw [hbal]
      exact uint128_of_nonneg hdelta.1 (hdelta.2.trans (by norm_num))
    rw [hexact]
    exact uint128_of_nonneg (by omega) (by omega)
  obtain ⟨c, hc, hlow, hhigh⟩ : ∃ c : ℕ, p.computeCoinSecondsEarned balance now = .ok c ∧
      fullCoinSeconds amount p.vestingSeconds ≤ c ∧ (c : ℤ) ≤ fullCoinSeconds balance p.vestingSeconds := by
    have hmono : fullCoinSeconds amount p.vestingSeconds ≤ fullCoinSeconds balance p.vestingSeconds :=
      hearned.trans hfull
    refine ⟨_, by rw [CddVestingPolicy.computeCoinSecondsEarned, if_neg hnow.not_gt], ?_, ?_⟩
    · rw [Nat.cast_min, hsum, hcap]
      exact le_min (by omega) hmono
    · rw [Nat.cast_min, hsum, hcap]
      exact min_le_right _ _
  rw [fullCoinSeconds] at hlow hhigh
  have hw : amount ≤ (c / max p.vestingSeconds 1 : ℕ) ∧
      ((c / max p.vestingSeconds 1 : ℕ) : ℤ) ≤ balance := by
    rw [Int.natCast_div]
    exact ⟨(Int.le_ediv_iff_mul_le hpos).mpr hlow, Int.ediv_le_of_le_mul hpos hhigh⟩
  generalize hd : c / max p.vestingSeconds 1 = d at hw
  refine ⟨d, ?_, hw⟩
  have hsmall : (d : ℤ) ≤ 700000000000000 := hw.2.trans hshares
  have hint : int64 d = d := int64_of_share ⟨by omega, by omega⟩
  have hlt : d < 2 ^ 64 := by
    have hcast : (d : ℤ) < 2 ^ 64 := hsmall.trans_lt (by norm_num)
    exact_mod_cast hcast
  have havailable : d ≤ uint128 balance := by
    rw [← hbal] at hw
    exact_mod_cast hw.2
  rw [CddVestingPolicy.getAllowedWithdraw, if_neg hclaim.not_ge, hc]
  simp only [hd]
  rw [if_pos ⟨havailable, hlt⟩, hint]

/-- **A vested deposit into a balance that is there.** -/
lemma depositVested_exact (h0 : 0 ≤ amount) (hmax : amount ≤ maxShareSupply)
    (hseconds : vestingSeconds < 2 ^ 32)
    (hexact : (uint128 (int64 (fullCoinSeconds amount vestingSeconds)) : ℤ) =
      fullCoinSeconds amount vestingSeconds)
    {v : VestingBalance} {p : CddVestingPolicy} {now : ℕ} (hp : v.policy = .cdd p)
    (hperiod : p.vestingSeconds = vestingSeconds) (hbalance : 0 ≤ v.balance)
    (hsum : v.balance + amount ≤ maxShareSupply) (hnow : p.coinSecondsEarnedLastUpdate ≤ now) :
    ∃ earned v' q, p.computeCoinSecondsEarned v.balance now = .ok earned ∧
      v.depositVested now amount = .ok v' ∧ v'.policy = .cdd q ∧
      (q.coinSecondsEarned : ℤ) = earned + fullCoinSeconds amount vestingSeconds ∧
      ∀ startClaim later, now ≤ later → startClaim < later → later < 2 ^ 32 →
        ∃ w, q.getAllowedWithdraw startClaim v'.balance later = some w ∧ amount ≤ w := by
  subst hperiod
  -- the cap keeps what has been earned small
  have hcap := mul_seconds_lt hbalance (by omega) hseconds
  have hnew := mul_seconds_lt h0 hmax hseconds
  have hearned : ∃ earned, p.computeCoinSecondsEarned v.balance now = .ok earned ∧
      (earned : ℤ) ≤ fullCoinSeconds v.balance p.vestingSeconds := by
    rw [CddVestingPolicy.computeCoinSecondsEarned, if_neg hnow.not_gt]
    refine ⟨_, rfl, ?_⟩
    have hbal : (uint128 v.balance : ℤ) = v.balance := by
      have : maxShareSupply = 700000000000000 := rfl
      exact uint128_of_nonneg hbalance (by omega)
    refine (Int.ofNat_le.mpr (min_le_right _ _)).trans ?_
    rw [hbal]
    exact (uint128_of_nonneg hcap.1 (by omega)).le
  obtain ⟨earned, hearned, hle⟩ := hearned
  have hdeposit : v.depositVested now amount = .ok { v with
      balance := v.balance + amount
      policy := .cdd { p with
        coinSecondsEarned :=
          uint128 (earned + uint128 (int64 (amount * (max p.vestingSeconds 1 : ℕ))))
        coinSecondsEarnedLastUpdate := now } } := by
    rw [VestingBalance.depositVested, hp]
    simp only [hearned, bind, Except.bind]
    rfl
  have hsame : fullCoinSeconds (v.balance + amount) p.vestingSeconds =
      fullCoinSeconds v.balance p.vestingSeconds + fullCoinSeconds amount p.vestingSeconds := add_mul ..
  have htotal : (uint128 (earned + uint128 (int64 (amount * (max p.vestingSeconds 1 : ℕ)))) : ℤ) =
      earned + fullCoinSeconds amount p.vestingSeconds := by
    rw [fullCoinSeconds] at hexact hnew ⊢
    rw [hexact]
    exact uint128_of_nonneg (by omega) (by omega)
  have hwithdraw : ∀ q : CddVestingPolicy, q.vestingSeconds = p.vestingSeconds →
      q.coinSecondsEarnedLastUpdate = now →
      (q.coinSecondsEarned : ℤ) = earned + fullCoinSeconds amount p.vestingSeconds →
      ∀ startClaim later, now ≤ later → startClaim < later → later < 2 ^ 32 →
        ∃ w, q.getAllowedWithdraw startClaim (v.balance + amount) later = some w ∧ amount ≤ w := by
    intro q hq hlast hqearned startClaim later hlater hclaim hclock
    rw [← hq] at hseconds hqearned hsame hle
    obtain ⟨w, hw, hwle, -⟩ := exists_getAllowedWithdraw h0 (le_add_of_nonneg_left hbalance) hsum hseconds
      (by omega) (by omega) (hlast.trans_le hlater) hclaim hclock
    exact ⟨w, hw, hwle⟩
  exact ⟨earned, _, _, hearned, hdeposit, rfl, htotal, hwithdraw _ rfl rfl htotal⟩

/-- **Vested deposits** of amounts and periods in their bounds. -/
theorem vestsExactly_iff (e : Economy) (amount : ℤ) (vestingSeconds : ℕ) (h0 : 0 ≤ amount)
    (hmax : amount ≤ maxShareSupply) (hseconds : vestingSeconds < 2 ^ 32) :
    VestsExactly e amount vestingSeconds ↔
      amount = 0 ∨ vestingSeconds ≠ 0 ∧ amount * vestingSeconds < 2 ^ 63 := by
  rw [← newVesting_exact_iff h0 hmax hseconds]
  constructor
  · intro h
    by_cases hzero : amount = 0
    · exact (newVesting_exact_iff h0 hmax hseconds).mpr (.inl hzero)
    · have hcreate : e.depositLazyVesting none 0 amount vestingSeconds 0 false =
          .ok (e.createVesting 0 amount vestingSeconds 0 false) := if_neg hzero
      obtain ⟨v, p, hv, hp, hexact, -⟩ := h.created none 0 0 _ _ hcreate
      rw [(lookup_depositLazyVesting hcreate).2] at hv
      cases hv
      cases hp
      exact hexact
  · intro hexact
    have hcases := (newVesting_exact_iff h0 hmax hseconds).mp hexact
    refine ⟨fun v p hp hperiod hbalance hsum hnow => ?_, fun ovbid asset owner vb e' h => ?_⟩
    · refine depositVested_exact h0 hmax hseconds ?_ hp hperiod hbalance hsum hnow
      rcases hcases with rfl | ⟨hne, -⟩
      · simp [fullCoinSeconds, int64, uint128]
      · have hmaximum : max vestingSeconds 1 = vestingSeconds := by omega
        rw [fullCoinSeconds, hmaximum] at hexact ⊢
        exact hexact
    · obtain ⟨-, hv⟩ := lookup_depositLazyVesting h
      refine ⟨_, _, hv, rfl, hexact, fun startClaim now hnow hclaim hclock => ?_⟩
      obtain ⟨w, hw, hle, hge⟩ := exists_getAllowedWithdraw (p := ⟨vestingSeconds, _, e.time⟩) h0 le_rfl hmax
        hseconds hexact.ge hexact.le hnow hclaim hclock
      exact hw.trans (congrArg some (hge.antisymm hle))

/-- A thousand units of the core asset that vest in a year. -/
theorem vestsExactly_iff_year :
    VestsExactly (Economy.budgetEconomy 0 0) 100000000 31536000 :=
  (vestsExactly_iff (Economy.budgetEconomy 0 0) 100000000 31536000 (by decide) (by decide) (by decide)).mpr
    (by decide)

/-- The whole supply that vests in ten years comes with a wrong number of coin-seconds, and so does a
unit that vests in no time. -/
theorem not_vestsExactly :
    ¬ ∀ (e : Economy) (amount : ℤ) (vestingSeconds : ℕ), 0 ≤ amount → amount ≤ maxShareSupply →
      vestingSeconds < 2 ^ 32 → VestsExactly e amount vestingSeconds := by
  intro h
  have hcreate : (Economy.budgetEconomy 0 0).depositLazyVesting none 0 maxShareSupply 315360000 0 false =
      .ok ((Economy.budgetEconomy 0 0).createVesting 0 maxShareSupply 315360000 0 false) :=
    if_neg (by decide)
  obtain ⟨v, p, hv, hp, hexact, -⟩ :=
    (h (Economy.budgetEconomy 0 0) maxShareSupply 315360000 (by decide) le_rfl (by decide)).created none 0 0
      _ _ hcreate
  rw [(lookup_depositLazyVesting hcreate).2] at hv
  cases hv
  cases hp
  revert hexact
  decide +kernel

end ZosCore
