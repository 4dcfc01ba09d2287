import ZosCore.Economy.Vesting

/-!
`account_object.cpp`: `cut_fee`, `set_coupon` and `process_fees`, by which the maintenance
pays out the fees that an account has paid.

A fee is cut into the part of the network, that of the lifetime referrer, and what is left,
which the referrer and the registrar share. The cuts round down, except for the last.

* `FeesFit`: the sums and differences that `process_fees` makes are of 64 bits, so that none of them
  throws `overflow_exception`.
* `splitFee_spec`: the four cuts are not negative and add up to the fee.
* `processFees_exact`: all pending fees are paid out, once; the core asset in fees and vesting
  balances less the supply stays what it was, and all sums fit.
-/

namespace ZosCore

/-! ### Cuts -/

/-- `cut_fee`. A negative amount becomes a large `uint128`. -/
def cutFee (a : ℤ) (p : ℕ) : Except EconomyError ℤ :=
  if a = 0 ∨ p = 0 then .ok 0
  else if p = hundredPercent then .ok a
  else
    let r := uint128 (uint128 a * p) / hundredPercent
    if r < 2 ^ 64 then .ok (int64 r) else .error .tooLarge

/-- The cuts of a fee. -/
structure FeeSplit where
  network : ℤ
  lifetime : ℤ
  referrer : ℤ
  registrar : ℤ

/-- The cuts that `pay_out_fees` makes. -/
def splitFee (a : Account) (coreFeeTotal : ℤ) : Except EconomyError FeeSplit := do
  let networkCut ← cutFee coreFeeTotal a.networkFeePercentage
  let lifetimeCut ← cutFee coreFeeTotal a.lifetimeReferrerFeePercentage
  let referral := coreFeeTotal - networkCut - lifetimeCut
  let referrerCut ← cutFee referral a.referrerRewardsPercentage
  return ⟨networkCut, lifetimeCut, referrerCut, referral - referrerCut⟩

/-! ### Coupons -/

/-- `get_month_flag`: the month and a hundred times the year, in the calendar of `gmtime`. -/
def monthFlag (t : ℕ) : ℕ :=
  -- the years are counted from March, so that the leap day comes last
  let z := t / 86400 + 719468
  let doe := z % 146097
  let yoe := (doe - doe / 1460 + doe / 36524 - doe / 146096) / 365
  let doy := doe - (365 * yoe + yoe / 4 - yoe / 100)
  let mp := (5 * doy + 2) / 153
  let m := if mp < 10 then mp + 3 else mp - 9
  let y := yoe + z / 146097 * 400
  m + (if m ≤ 2 then y + 1 else y) * 100

/-- Accounts with greater ids have their coupons from `set_coupon`. -/
def lastGenesisAccount : ℕ := 100

namespace Economy

/-- `head_block_time() >= initial_time + coupon_expire_time` -/
def couponsExpired (e : Economy) : Prop :=
  e.properties.initialTime + e.parameters.couponExpireTime ≤ e.time

instance (e : Economy) : Decidable e.couponsExpired := inferInstanceAs (Decidable (_ ≤ _))

/-- `set_coupon`, on the statistics of the account `id`: it grants the coupons of a month, with `fee`
on top, or takes them back. -/
def setCoupon (e : Economy) (id : ℕ) (s : AccountStatistics) (fee : ℤ) (bset : Bool) :
    AccountStatistics × DynamicProperties :=
  let p := e.properties
  if bset then
    if ¬ e.couponsExpired ∧ s.couponMonth ≠ monthFlag e.time ∧
        s.amountCoupon < e.parameters.couponPerMonth then
      let coreAdd := e.parameters.couponPerMonth - s.amountCoupon + fee
      if 0 < coreAdd then
        ({ s with amountCoupon := s.amountCoupon + coreAdd, couponMonth := monthFlag e.time },
          { p with couponSupply := p.couponSupply + coreAdd })
      else (s, p)
    else (s, p)
  else if 0 < s.amountCoupon then
    ({ s with amountCoupon := 0, couponMonth := 0 },
      if lastGenesisAccount < id then { p with couponSupply := p.couponSupply - s.amountCoupon }
      else p)
  else (s, p)

/-- `set_coupon` of an account. -/
def modifyCoupon (e : Economy) (id : ℕ) (a : Account) (fee : ℤ) (bset : Bool) : Economy :=
  { e with properties := (e.setCoupon id a.statistics fee bset).2 }.setStatistics id a
    (e.setCoupon id a.statistics fee bset).1

/-! ### `process_fees` -/

/-- `pay_out_fees`. -/
def payOutFees (e : Economy) (a : Account) (coreFeeTotal : ℤ) (requireVesting : Bool) :
    Except EconomyError Economy := do
  let s ← splitFee a coreFeeTotal
  let e₀ := { e with core := { e.core with
    accumulatedFees := e.core.accumulatedFees + s.network } }
  let e₁ ← e₀.depositCashback a.lifetimeReferrer s.lifetime requireVesting
  let e₂ ← e₁.depositCashback a.referrer s.referrer requireVesting
  e₂.depositCashback a.registrar s.registrar requireVesting

/-- `process_fees`, the pending fees. -/
def processPending (e : Economy) (id : ℕ) : Except EconomyError Economy := do
  let a ← e.getAccount id
  let s := a.statistics
  if 0 < s.pendingFees ∨ 0 < s.pendingVestedFees then
    let e₁ ← e.payOutFees a s.pendingFees true
    let e₂ ← e₁.payOutFees a s.pendingVestedFees false
    let a' ← e₂.getAccount id
    return e₂.setStatistics id a'
      { a'.statistics with
        lifetimeFeesPaid := a'.statistics.lifetimeFeesPaid + (s.pendingFees + s.pendingVestedFees)
        pendingFees := 0
        pendingVestedFees := 0 }
  else return e

/-- `process_fees`, the fees paid in coupons: they are burned. -/
def processCouponFees (e : Economy) (id : ℕ) : Except EconomyError Economy := do
  let a ← e.getAccount id
  if 0 < a.statistics.couponFees then
    return { e with properties := { e.properties with
        couponSupply := e.properties.couponSupply - a.statistics.couponFees } }.setStatistics id a
      { a.statistics with couponFees := 0 }
  else return e

/-- `process_fees`, coupons that expire. -/
def processCoupons (e : Economy) (id : ℕ) : Except EconomyError Economy := do
  let a ← e.getAccount id
  if 0 < a.statistics.amountCoupon ∧ e.couponsExpired then
    return e.modifyCoupon id a 0 false
  else return e

/-- `process_fees`. -/
def processFees (e : Economy) (id : ℕ) : Except EconomyError Economy := do
  let e₁ ← e.processPending id
  let e₂ ← e₁.processCouponFees id
  e₂.processCoupons id

end Economy

/-! ### What may overflow -/

namespace Economy

/-- The network takes its cut. -/
def accumulate (e : Economy) (amount : ℤ) : Economy :=
  { e with core := { e.core with accumulatedFees := e.core.accumulatedFees + amount } }

/-- What `deposit_cashback` may add to or take from is of 64 bits afterwards. -/
def CashbackFits (e : Economy) (amount : ℤ) : Prop :=
  Share (e.core.currentSupply - amount) ∧
    ∀ vb v, e.vestingBalances.lookup vb = some v → Share (coreBalance v + amount)

/-- The sums and differences of `pay_out_fees`. -/
def PayOutFits (e : Economy) (a : Account) (fee : ℤ) (rv : Bool) : Prop :=
  ∀ s, splitFee a fee = .ok s →
    Share (fee - s.network) ∧ Share (fee - s.network - s.lifetime) ∧ Share s.registrar ∧
    Share (e.core.accumulatedFees + s.network) ∧ (e.accumulate s.network).CashbackFits s.lifetime ∧
    ∀ e₁, (e.accumulate s.network).depositCashback a.lifetimeReferrer s.lifetime rv = .ok e₁ →
      e₁.CashbackFits s.referrer ∧
      ∀ e₂, e₁.depositCashback a.referrer s.referrer rv = .ok e₂ → e₂.CashbackFits s.registrar

/-- The sums and differences of `process_fees`. -/
structure FeesFit (e : Economy) (a : Account) : Prop where
  payOut : e.PayOutFits a a.statistics.pendingFees true
  payOutVested : ∀ e₁, e.payOutFees a a.statistics.pendingFees true = .ok e₁ →
    e₁.PayOutFits a a.statistics.pendingVestedFees false
  pending : Share (a.statistics.pendingFees + a.statistics.pendingVestedFees)
  lifetime : Share (a.statistics.lifetimeFeesPaid +
    (a.statistics.pendingFees + a.statistics.pendingVestedFees))
  couponFees : Share (e.properties.couponSupply - a.statistics.couponFees)
  coupons : Share (e.properties.couponSupply - a.statistics.couponFees - a.statistics.amountCoupon)

/-- So much of the core asset is due, and it is in the supply: with the fees and the vesting balances
that there are it is an amount of 64 bits. -/
structure Backed (e : Economy) (due : ℤ) : Prop where
  accumulated : 0 ≤ e.core.accumulatedFees
  balances : e.NonnegBalances
  total : e.core.accumulatedFees + e.vestingTotal + due < 2 ^ 63
  due_le : due ≤ e.core.currentSupply
  supply : e.core.currentSupply < 2 ^ 63

/-- The fees and the coupons of an account are not negative, its fees are in the supply, and what it
has paid ever is an amount of 64 bits, as the coupons are. -/
structure FeesBacked (e : Economy) (a : Account) : Prop where
  backed : e.Backed (a.statistics.pendingFees + a.statistics.pendingVestedFees)
  pendingFees : 0 ≤ a.statistics.pendingFees
  pendingVestedFees : 0 ≤ a.statistics.pendingVestedFees
  lifetimeFeesPaid : 0 ≤ a.statistics.lifetimeFeesPaid
  lifetime : a.statistics.lifetimeFeesPaid +
    (a.statistics.pendingFees + a.statistics.pendingVestedFees) < 2 ^ 63
  couponFees : 0 ≤ a.statistics.couponFees
  amountCoupon : 0 ≤ a.statistics.amountCoupon
  coupons : a.statistics.couponFees + a.statistics.amountCoupon < 2 ^ 63
  couponSupply : 0 ≤ e.properties.couponSupply ∧ e.properties.couponSupply < 2 ^ 63

end Economy

/-! ### The cuts of a fee -/

/-- The cut of an amount that is not negative rounds down. -/
lemma cutFee_eq {a : ℤ} {p : ℕ} (h0 : 0 ≤ a) (h : a < 2 ^ 63) (hp : p ≤ hundredPercent) :
    cutFee a p = .ok (a * p / hundredPercent) := by
  have hp' : (p : ℤ) ≤ 10000 := by exact_mod_cast hp
  have hprod : 0 ≤ a * p := mul_nonneg h0 (Int.natCast_nonneg p)
  have hle : a * p ≤ a * 10000 := mul_le_mul_of_nonneg_left hp' h0
  have hua : (uint128 a : ℤ) = a := uint128_of_nonneg h0 (by omega)
  have hup : (uint128 (uint128 a * p) : ℤ) = a * p := by
    rw [hua]
    exact uint128_of_nonneg hprod (by omega)
  have hr : ((uint128 (uint128 a * p) / hundredPercent : ℕ) : ℤ) = a * p / hundredPercent := by
    rw [Int.natCast_div, hup]
  have hbound : a * p / (hundredPercent : ℤ) < 2 ^ 63 := by
    rw [hundredPercent]
    omega
  have hnonneg : 0 ≤ a * p / (hundredPercent : ℤ) := by
    rw [hundredPercent]
    omega
  rw [cutFee]
  split_ifs with hz hfull
  · rcases hz with rfl | rfl <;> simp
  · subst hfull
    simp [hundredPercent]
  · show (if uint128 (uint128 a * p) / hundredPercent < 2 ^ 64 then _ else _) = _
    rw [if_pos (by omega), hr, int64_of_share ⟨by omega, hbound⟩]

/-- Percentages that together are at most a hundred leave something of an amount. -/
lemma cut_add_cut_le {a : ℤ} {p q : ℕ} (h0 : 0 ≤ a) (h : p + q ≤ hundredPercent) :
    a * p / hundredPercent + a * q / hundredPercent ≤ a := by
  have hpq : (p : ℤ) + q ≤ 10000 := by exact_mod_cast h
  have hle : a * p + a * q ≤ a * 10000 := by
    rw [← mul_add]
    exact mul_le_mul_of_nonneg_left hpq h0
  rw [hundredPercent]
  omega

lemma cut_nonneg {a : ℤ} (h0 : 0 ≤ a) (p : ℕ) : 0 ≤ a * p / (hundredPercent : ℤ) := by
  have hprod : 0 ≤ a * p := mul_nonneg h0 (Int.natCast_nonneg p)
  rw [hundredPercent]
  omega

/-- The cuts are not negative and add up to the fee. -/
structure FeeSplit.Exact (s : FeeSplit) (fee : ℤ) : Prop where
  network : 0 ≤ s.network
  lifetime : 0 ≤ s.lifetime
  referrer : 0 ≤ s.referrer
  registrar : 0 ≤ s.registrar
  sum : s.network + s.lifetime + s.referrer + s.registrar = fee

/-- The percentages of an account that the chain admits. -/
structure Account.Percentages (a : Account) : Prop where
  network : a.networkFeePercentage + a.lifetimeReferrerFeePercentage ≤ hundredPercent
  rewards : a.referrerRewardsPercentage ≤ hundredPercent

/-- **The cuts of a fee** are made, are not negative and add up to it. -/
lemma splitFee_spec {a : Account} (ha : a.Percentages) {fee : ℤ} (h0 : 0 ≤ fee) (h : fee < 2 ^ 63) :
    ∃ s, splitFee a fee = .ok s ∧ s.Exact fee := by
  have hnet := ha.network
  have hnetwork : cutFee fee a.networkFeePercentage = .ok (fee * a.networkFeePercentage / hundredPercent) :=
    cutFee_eq h0 h (by omega)
  have hlifetime : cutFee fee a.lifetimeReferrerFeePercentage =
      .ok (fee * a.lifetimeReferrerFeePercentage / hundredPercent) := cutFee_eq h0 h (by omega)
  have hn0 := cut_nonneg h0 a.networkFeePercentage
  have hl0 := cut_nonneg h0 a.lifetimeReferrerFeePercentage
  have hsum := cut_add_cut_le h0 hnet
  generalize fee * (a.networkFeePercentage : ℤ) / (hundredPercent : ℤ) = network at *
  generalize fee * (a.lifetimeReferrerFeePercentage : ℤ) / (hundredPercent : ℤ) = lifetime at *
  have hreferral : 0 ≤ fee - network - lifetime := by omega
  have hreferrer := cutFee_eq hreferral (show _ < (2 : ℤ) ^ 63 by omega) ha.rewards
  have hr0 := cut_nonneg hreferral a.referrerRewardsPercentage
  have hrle := cut_add_cut_le (q := 0) hreferral ha.rewards
  generalize (fee - network - lifetime) * (a.referrerRewardsPercentage : ℤ) / (hundredPercent : ℤ) =
    referrer at *
  refine ⟨⟨network, lifetime, referrer, fee - network - lifetime - referrer⟩, ?_, hn0, hl0, hr0, ?_, ?_⟩
  · rw [splitFee]
    rw [hnetwork, hlifetime]
    show (cutFee (fee - network - lifetime) _ >>= _) = _
    rw [hreferrer]
    rfl
  · simp only [Nat.cast_zero, mul_zero, EuclideanDomain.zero_div, add_zero] at hrle
    show 0 ≤ fee - network - lifetime - referrer
    omega
  · show network + lifetime + referrer + (fee - network - lifetime - referrer) = fee
    ring

/-! ### Paying out -/

namespace Economy

variable {e e' : Economy} {id : ℕ} {a : Account}

/-- What is burned of the cuts, for the chain's own accounts. -/
def burnedOf (a : Account) (s : FeeSplit) : ℤ :=
  burnedCashback a.lifetimeReferrer s.lifetime + burnedCashback a.referrer s.referrer +
    burnedCashback a.registrar s.registrar

/-- The referrers and the registrar of an account are there. -/
def HasReferrers (e : Economy) (a : Account) : Prop :=
  (e.accounts.lookup a.lifetimeReferrer).isSome ∧ (e.accounts.lookup a.referrer).isSome ∧
    (e.accounts.lookup a.registrar).isSome

lemma HasReferrers.of_same (h : e.HasReferrers a) (hs : SameAccounts e e') : e'.HasReferrers a := by
  rw [HasReferrers]
  rw [hs.isSome, hs.isSome, hs.isSome]
  exact h

lemma Consistent.accumulate (h : e.Consistent) (amount : ℤ) : (e.accumulate amount).Consistent :=
  ⟨⟨h.fresh, h.inTime⟩, h.referrer, h.cashback⟩

namespace Backed

variable {due amount : ℤ}

lemma vestingTotal_nonneg (h : e.Backed due) : 0 ≤ e.vestingTotal := total_nonneg h.balances

lemma accumulate (h : e.Backed due) (h0 : 0 ≤ amount) : (e.accumulate amount).Backed (due - amount) where
  accumulated := Int.add_nonneg h.accumulated h0
  balances := h.balances
  total := by
    have htotal := h.total
    show e.core.accumulatedFees + amount + e.vestingTotal + (due - amount) < 2 ^ 63
    omega
  due_le := by
    have hdue := h.due_le
    show due - amount ≤ e.core.currentSupply
    omega
  supply := h.supply

/-- What is due can be deposited. -/
lemma cashbackFits (h : e.Backed due) (h0 : 0 ≤ amount) (hle : amount ≤ due) :
    e.CashbackFits amount := by
  obtain ⟨hacc, hbalances, htotal, hdue, hsupply⟩ := h
  refine ⟨⟨by omega, by omega⟩, fun vb v hv => ?_⟩
  have hnonneg := hbalances vb v hv
  have hv : coreBalance v ≤ e.vestingTotal := term_le_total (f := fun _ v => coreBalance v) hbalances hv
  exact ⟨by omega, by omega⟩

/-- Cashback that is paid is not due any more. -/
lemma paidBack (h : e.Backed due) {id : ℕ} (h0 : 0 ≤ amount)
    (hp : PaidBack e e' (amount - burnedCashback id amount) (burnedCashback id amount)) :
    e'.Backed (due - amount) := by
  have hacc : e'.core.accumulatedFees = e.core.accumulatedFees := by
    obtain ⟨_, _, _, _, rfl⟩ := hp.rest
    rfl
  have hburn : 0 ≤ burnedCashback id amount ∧ burnedCashback id amount ≤ amount := by
    rw [burnedCashback]
    split_ifs <;> omega
  obtain ⟨hacc₀, hbalances, htotal, hdue, hsupply⟩ := h
  have htotal' := hp.total
  have hsupply' := hp.supply
  exact ⟨by omega, hp.nonneg hbalances, by omega, by omega, by omega⟩

end Backed

/-- The cuts of a fee that is due are paid out, and no sum overflows. -/
lemma payOutFees_spec (h : e.Consistent) (href : e.HasReferrers a) {fee due : ℤ} {s : FeeSplit}
    (hs : splitFee a fee = .ok s) (hx : s.Exact fee) (hfee : Share fee) (hdue : e.Backed due)
    (hle : fee ≤ due) (rv : Bool) :
    ∃ e', e.payOutFees a fee rv = .ok e' ∧ PaidBack (e.accumulate s.network) e'
      (s.lifetime + s.referrer + s.registrar - burnedOf a s) (burnedOf a s) ∧
      e.PayOutFits a fee rv ∧ e'.Backed (due - fee) := by
  obtain ⟨hn, hl, hr, hg, hsum⟩ := hx
  have hb := hdue.accumulate hn
  obtain ⟨e₁, h₁, hp₁⟩ := depositCashback_spec (h.accumulate s.network) href.1 hl rv
  have href₁ : e₁.HasReferrers a := HasReferrers.of_same href hp₁.accounts
  have hb₁ := hb.paidBack hl hp₁
  obtain ⟨e₂, h₂, hp₂⟩ := depositCashback_spec hp₁.consistent href₁.2.1 hr rv
  have href₂ : e₂.HasReferrers a := HasReferrers.of_same href₁ hp₂.accounts
  have hb₂ := hb₁.paidBack hr hp₂
  obtain ⟨e₃, h₃, hp₃⟩ := depositCashback_spec hp₂.consistent href₂.2.2 hg rv
  have hb₃ := hb₂.paidBack hg hp₃
  refine ⟨e₃, ?_, ?_, fun t ht => ?_, ?_⟩
  · rw [payOutFees]
    rw [hs]
    show ((e.accumulate s.network).depositCashback a.lifetimeReferrer s.lifetime rv >>= _) = _
    rw [h₁]
    show (e₁.depositCashback a.referrer s.referrer rv >>= _) = _
    rw [h₂]
    exact h₃
  · have hall := (hp₁.trans hp₂).trans hp₃
    rw [burnedOf]
    convert hall using 1
    ring
  · cases hs.symm.trans ht
    have hnonneg := hdue.vestingTotal_nonneg
    obtain ⟨hacc, -, htotal, -, -⟩ := hdue
    obtain ⟨hlow, hhigh⟩ := hfee
    refine ⟨⟨by omega, by omega⟩, ⟨by omega, by omega⟩, ⟨by omega, by omega⟩, ⟨by omega, by omega⟩,
      hb.cashbackFits hl (by omega), fun e₁' h₁' => ?_⟩
    cases h₁.symm.trans h₁'
    refine ⟨hb₁.cashbackFits hr (by omega), fun e₂' h₂' => ?_⟩
    cases h₂.symm.trans h₂'
    exact hb₂.cashbackFits hg (by omega)
  · convert hb₃ using 1
    omega

/-- New statistics for an account, and new properties. -/
lemma Consistent.setStatistics (h : e.Consistent) (ha : e.accounts.lookup id = some a)
    (p : DynamicProperties) (s : AccountStatistics) :
    ({ e with properties := p }.setStatistics id a s).Consistent := by
  have hp : ({ e with properties := p } : Economy).Consistent :=
    ⟨⟨h.fresh, h.inTime⟩, h.referrer, h.cashback⟩
  exact hp.setAccount ha rfl rfl rfl fun vb hvb => h.cashback id a vb ha hvb

/-- Only coupons change: the core asset stays where it is. -/
structure CouponsOnly (e e' : Economy) (id : ℕ) : Prop where
  consistent : e'.Consistent
  total : e'.coreTotal = e.coreTotal
  core : e'.core = e.core
  account : ∃ a a', e.accounts.lookup id = some a ∧ e'.accounts.lookup id = some a' ∧
    a'.statistics.pendingFees = a.statistics.pendingFees ∧
    a'.statistics.pendingVestedFees = a.statistics.pendingVestedFees

lemma CouponsOnly.refl (h : e.Consistent) (ha : e.accounts.lookup id = some a) : CouponsOnly e e id :=
  ⟨h, rfl, rfl, a, a, ha, ha, rfl, rfl⟩

/-- Statistics with the same pending fees. -/
lemma CouponsOnly.setStatistics (h : e.Consistent) (ha : e.accounts.lookup id = some a)
    (p : DynamicProperties) {s : AccountStatistics} (hf : s.pendingFees = a.statistics.pendingFees)
    (hv : s.pendingVestedFees = a.statistics.pendingVestedFees) :
    CouponsOnly e ({ e with properties := p }.setStatistics id a s) id := by
  refine ⟨h.setStatistics ha p s, ?_, rfl, a, { a with statistics := s }, ha, ?_, hf, hv⟩
  · have hpending : ({ e with properties := p }.setStatistics id a s).pendingTotal =
        e.pendingTotal := by
      show ZosCore.total _ (e.accounts.insert id _) = _
      rw [total_insert_of_lookup ha, hf, hv]
      rw [pendingTotal]
      ring
    show e.core.accumulatedFees + e.vestingTotal + _ - e.core.currentSupply = _
    rw [hpending]
    rfl
  · rw [Economy.setStatistics, lookup_setAccount, if_pos rfl]

lemma CouponsOnly.trans {e'' : Economy} (h : CouponsOnly e e' id) (h' : CouponsOnly e' e'' id) :
    CouponsOnly e e'' id := by
  obtain ⟨a, b, ha, hb, hf, hv⟩ := h.account
  obtain ⟨b', c, hb', hc, hf', hv'⟩ := h'.account
  obtain rfl : b = b' := Option.some.inj (hb.symm.trans hb')
  exact ⟨h'.consistent, h'.total.trans h.total, h'.core.trans h.core, a, c, ha, hc, hf'.trans hf,
    hv'.trans hv⟩

lemma processCouponFees_spec (h : e.Consistent) (ha : e.accounts.lookup id = some a) :
    ∃ e', e.processCouponFees id = .ok e' ∧ CouponsOnly e e' id := by
  rw [processCouponFees]
  rw [getAccount_eq_ok.mpr ha]
  show ∃ e', (if 0 < a.statistics.couponFees then _ else _) = _ ∧ _
  split_ifs with hpos
  · exact ⟨_, rfl, CouponsOnly.setStatistics h ha _ rfl rfl⟩
  · exact ⟨e, rfl, CouponsOnly.refl h ha⟩

/-- `set_coupon` does not touch the pending fees. -/
lemma setCoupon_pending (e : Economy) (id : ℕ) (s : AccountStatistics) (fee : ℤ) (bset : Bool) :
    (e.setCoupon id s fee bset).1.pendingFees = s.pendingFees ∧
      (e.setCoupon id s fee bset).1.pendingVestedFees = s.pendingVestedFees := by
  simp only [setCoupon]
  split_ifs <;> exact ⟨rfl, rfl⟩

lemma processCoupons_spec (h : e.Consistent) (ha : e.accounts.lookup id = some a) :
    ∃ e', e.processCoupons id = .ok e' ∧ CouponsOnly e e' id := by
  rw [processCoupons]
  rw [getAccount_eq_ok.mpr ha]
  show ∃ e', (if 0 < a.statistics.amountCoupon ∧ e.couponsExpired then _ else _) = _ ∧ _
  obtain ⟨hf, hv⟩ := setCoupon_pending e id a.statistics 0 false
  split_ifs with hpos
  · exact ⟨_, rfl, CouponsOnly.setStatistics h ha _ hf hv⟩
  · exact ⟨e, rfl, CouponsOnly.refl h ha⟩

/-! ### All that is pending -/

/-- The pending fees of the account `id` have been paid out, in the cuts `s` and `s'`. -/
structure PaidOut (e e' : Economy) (id : ℕ) (a : Account) (s s' : FeeSplit) : Prop where
  consistent : e'.Consistent
  /-- The core asset stays where it is, but for what is burned. -/
  total : e'.coreTotal = e.coreTotal
  network : e'.core.accumulatedFees = e.core.accumulatedFees + s.network + s'.network
  burned : e'.core.currentSupply = e.core.currentSupply - (burnedOf a s + burnedOf a s')
  pending : ∃ a', e'.accounts.lookup id = some a' ∧ a'.statistics.pendingFees = 0 ∧
    a'.statistics.pendingVestedFees = 0

/-- Cuts of nothing are nothing. -/
lemma burnedOf_zero {s : FeeSplit} (h : s.Exact 0) (a : Account) :
    s.network = 0 ∧ burnedOf a s = 0 := by
  obtain ⟨hn, hl, hr, hg, hsum⟩ := h
  have hl0 : s.lifetime = 0 := by omega
  have hr0 : s.referrer = 0 := by omega
  have hg0 : s.registrar = 0 := by omega
  refine ⟨by omega, ?_⟩
  simp [burnedOf, burnedCashback, hl0, hr0, hg0]

/-- Two payments from one account, and then its fees are no longer pending. -/
lemma paidOut_setStatistics {e₁ e₂ : Economy} {s s' : FeeSplit} {st : AccountStatistics}
    (hs : s.Exact a.statistics.pendingFees) (hs' : s'.Exact a.statistics.pendingVestedFees)
    (h₁ : PaidBack (e.accumulate s.network) e₁
      (s.lifetime + s.referrer + s.registrar - burnedOf a s) (burnedOf a s))
    (h₂ : PaidBack (e₁.accumulate s'.network) e₂
      (s'.lifetime + s'.referrer + s'.registrar - burnedOf a s') (burnedOf a s'))
    {a' : Account} (ha' : e₂.accounts.lookup id = some a')
    (hstat : a'.statistics = a.statistics) (hf : st.pendingFees = 0) (hv : st.pendingVestedFees = 0) :
    PaidOut e (e₂.setStatistics id a' st) id a s s' := by
  have hacc : e₂.core.accumulatedFees = e.core.accumulatedFees + s.network + s'.network := by
    obtain ⟨_, _, _, _, rfl⟩ := h₁.rest
    obtain ⟨_, _, _, _, rfl⟩ := h₂.rest
    rfl
  have hsup : e₂.core.currentSupply = e.core.currentSupply - (burnedOf a s + burnedOf a s') := by
    have hsup₁ : e₁.core.currentSupply = e.core.currentSupply - burnedOf a s := h₁.supply
    have hsup₂ : e₂.core.currentSupply = e₁.core.currentSupply - burnedOf a s' := h₂.supply
    omega
  have hpend : (e₂.setStatistics id a' st).pendingTotal =
      e.pendingTotal - a.statistics.pendingFees - a.statistics.pendingVestedFees := by
    have hpend₁ : e₁.pendingTotal = e.pendingTotal := h₁.pending
    have hpend₂ : e₂.pendingTotal = e₁.pendingTotal := h₂.pending
    show ZosCore.total _ (e₂.accounts.insert id _) = _
    rw [total_insert_of_lookup ha', hf, hv, hstat]
    unfold pendingTotal at hpend₁ hpend₂ ⊢
    omega
  have hvest : e₂.vestingTotal = e.vestingTotal +
      (s.lifetime + s.referrer + s.registrar - burnedOf a s) +
      (s'.lifetime + s'.referrer + s'.registrar - burnedOf a s') := by
    have hvest₁ : e₁.vestingTotal = e.vestingTotal + _ := h₁.total
    have hvest₂ : e₂.vestingTotal = e₁.vestingTotal + _ := h₂.total
    omega
  have hcons : (e₂.setStatistics id a' st).Consistent :=
    h₂.consistent.setStatistics ha' e₂.properties st
  refine ⟨hcons, ?_, hacc, hsup, { a' with statistics := st }, ?_, hf, hv⟩
  · have hsum := hs.sum
    have hsum' := hs'.sum
    show e₂.core.accumulatedFees + e₂.vestingTotal + _ - e₂.core.currentSupply = _
    rw [coreTotal]
    omega
  · rw [Economy.setStatistics, lookup_setAccount, if_pos rfl]

lemma processPending_spec (h : e.Consistent) (ha : e.accounts.lookup id = some a)
    {s s' : FeeSplit} (hs : splitFee a a.statistics.pendingFees = .ok s)
    (hs' : splitFee a a.statistics.pendingVestedFees = .ok s') (hx : s.Exact a.statistics.pendingFees)
    (hx' : s'.Exact a.statistics.pendingVestedFees) (hf : e.FeesBacked a) :
    ∃ e', e.processPending id = .ok e' ∧ PaidOut e e' id a s s' ∧ e.FeesFit a := by
  obtain ⟨hbacked, h0, h0', hpaid, hlifetime, hcoupon, hamount, hcoupons, hsupply⟩ := hf
  have href : e.HasReferrers a := h.referrer id a ha
  obtain ⟨e₁, hpay₁, h₁, hfits₁, hb₁⟩ := payOutFees_spec h href hs hx ⟨by omega, by omega⟩ hbacked
    (by omega) true
  have href₁ : e₁.HasReferrers a := HasReferrers.of_same href h₁.accounts
  obtain ⟨e₂, hpay₂, h₂, hfits₂, -⟩ := payOutFees_spec h₁.consistent href₁ hs' hx'
    ⟨by omega, by omega⟩ hb₁ (by omega) false
  obtain ⟨vb₁, hvb₁⟩ := h₁.accounts.lookup ha
  obtain ⟨vb₂, hvb₂⟩ := h₂.accounts.lookup hvb₁
  have hfit : e.FeesFit a := by
    refine ⟨hfits₁, fun e₁' h₁' => ?_, ⟨by omega, by omega⟩, ⟨by omega, hlifetime⟩,
      ⟨by omega, by omega⟩, ⟨by omega, by omega⟩⟩
    cases hpay₁.symm.trans h₁'
    exact hfits₂
  rw [processPending]
  rw [getAccount_eq_ok.mpr ha]
  show ∃ e', (if 0 < a.statistics.pendingFees ∨ 0 < a.statistics.pendingVestedFees then _ else _) = _ ∧ _
  split_ifs with hpos
  · rw [hpay₁]
    show ∃ e', (e₁.payOutFees a a.statistics.pendingVestedFees false >>= _) = _ ∧ _
    rw [hpay₂]
    show ∃ e', (e₂.getAccount id >>= _) = _ ∧ _
    rw [getAccount_eq_ok.mpr hvb₂]
    exact ⟨_, rfl, paidOut_setStatistics hx hx' h₁ h₂ hvb₂ rfl rfl rfl, hfit⟩
  · -- nothing is pending, and so there are no cuts
    have hf : a.statistics.pendingFees = 0 := by omega
    have hv : a.statistics.pendingVestedFees = 0 := by omega
    rw [hf] at hx
    rw [hv] at hx'
    obtain ⟨hn, hb⟩ := burnedOf_zero hx a
    obtain ⟨hn', hb'⟩ := burnedOf_zero hx' a
    exact ⟨e, rfl, ⟨h, rfl, by omega, by omega, a, ha, hf, hv⟩, hfit⟩

/-- Coupons are no part of the core asset. -/
lemma PaidOut.coupons {e₁ : Economy} {s s' : FeeSplit} (h : PaidOut e e₁ id a s s')
    (hc : CouponsOnly e₁ e' id) : PaidOut e e' id a s s' := by
  obtain ⟨a₁, ha₁, hf, hv⟩ := h.pending
  obtain ⟨b, b', hb, hb', hf', hv'⟩ := hc.account
  obtain rfl : a₁ = b := Option.some.inj (ha₁.symm.trans hb)
  refine ⟨hc.consistent, hc.total.trans h.total, ?_, ?_, b', hb', hf'.trans hf, hv'.trans hv⟩
  · rw [hc.core, h.network]
  · rw [hc.core, h.burned]

/-- **`process_fees` pays out every fee exactly once.** Both kinds of pending fees are cut into
amounts that are not negative and add up to them; the core asset stays what it was, with an equal
reduction of the supply for what the chain's own accounts would get; and nothing is pending
afterwards. As the fees are in the supply, no sum on the way overflows. -/
theorem processFees_exact (h : e.Consistent) (ha : e.accounts.lookup id = some a)
    (hp : a.Percentages) (hf : e.FeesBacked a) :
    ∃ s s' e', splitFee a a.statistics.pendingFees = .ok s ∧ s.Exact a.statistics.pendingFees ∧
      splitFee a a.statistics.pendingVestedFees = .ok s' ∧ s'.Exact a.statistics.pendingVestedFees ∧
      e.processFees id = .ok e' ∧ PaidOut e e' id a s s' ∧ e.FeesFit a := by
  have h0 := hf.pendingFees
  have h0' := hf.pendingVestedFees
  have hpaid := hf.lifetimeFeesPaid
  have hlifetime := hf.lifetime
  obtain ⟨s, hs, hx⟩ := splitFee_spec hp h0 (by omega)
  obtain ⟨s', hs', hx'⟩ := splitFee_spec hp h0' (by omega)
  obtain ⟨e₁, h₁, hout₁, hfit⟩ := processPending_spec h ha hs hs' hx hx' hf
  obtain ⟨a₁, ha₁, -, -⟩ := hout₁.pending
  obtain ⟨e₂, h₂, hc₂⟩ := processCouponFees_spec hout₁.consistent ha₁
  obtain ⟨-, a₂, -, ha₂, -, -⟩ := hc₂.account
  obtain ⟨e₃, h₃, hc₃⟩ := processCoupons_spec hc₂.consistent ha₂
  refine ⟨s, s', e₃, hs, hx, hs', hx', ?_, hout₁.coupons (hc₂.trans hc₃), hfit⟩
  rw [processFees]
  rw [h₁]
  show (e₁.processCouponFees id >>= _) = _
  rw [h₂]
  exact h₃

/-- One account, which is its own registrar and its own referrer. -/
def feeEconomy : Economy where
  parameters :=
    { blockInterval := 5, witnessPayPerBlock := 0, witnessPayVestingSeconds := 86400
      cashbackVestingPeriodSeconds := 86400, cashbackVestingThreshold := 100
      maxWorkerBudgetPerDay := 0, couponExpireTime := 0, couponPerMonth := 0 }
  core := { issuer := 3, maxSupply := 10000, currentSupply := 5000 }
  accounts := (∅ : AList fun _ : ℕ => Account).insert 200
    { networkFeePercentage := 2000, lifetimeReferrerFeePercentage := 3000
      referrerRewardsPercentage := 5000, lifetimeReferrer := 200, referrer := 200, registrar := 200
      statistics := { pendingFees := 999, pendingVestedFees := 101 } }

theorem feeEconomy_consistent : feeEconomy.Consistent := by
  have hlook : ∀ id a, feeEconomy.accounts.lookup id = some a → id = 200 ∧
      a.lifetimeReferrer = 200 ∧ a.referrer = 200 ∧ a.registrar = 200 ∧ a.cashbackVb = none := by
    intro id a ha
    by_cases hid : id = 200
    · subst hid
      change ((∅ : AList fun _ : ℕ => Account).insert 200 _).lookup 200 = some a at ha
      rw [AList.lookup_insert] at ha
      cases ha
      exact ⟨rfl, rfl, rfl, rfl, rfl⟩
    · change ((∅ : AList fun _ : ℕ => Account).insert 200 _).lookup id = some a at ha
      rw [AList.lookup_insert_ne hid] at ha
      cases ha
  refine ⟨⟨fun _ _ => rfl, fun _ _ hv => by cases hv⟩, fun id a ha => ?_, fun id a vb ha hvb => ?_⟩
  · obtain ⟨rfl, hl, hr, hg, -⟩ := hlook id a ha
    rw [hl, hr, hg, ha]
    exact ⟨rfl, rfl, rfl⟩
  · obtain ⟨-, -, -, -, hnone⟩ := hlook id a ha
    rw [hnone] at hvb
    cases hvb

/-- The fees 999 and 101 are paid out. -/
theorem processFees_feeEconomy : ∃ a s s' e', feeEconomy.accounts.lookup 200 = some a ∧
    s.Exact 999 ∧ s'.Exact 101 ∧ feeEconomy.processFees 200 = .ok e' ∧
    PaidOut feeEconomy e' 200 a s s' ∧ feeEconomy.FeesFit a := by
  have hbacked : feeEconomy.Backed (999 + 101) := by
    refine ⟨le_rfl, fun _ _ hv => ?_, ?_, ?_, ?_⟩
    · cases hv
    all_goals decide
  obtain ⟨s, s', e', -, hx, -, hx', he, hout, hfit⟩ := @processFees_exact feeEconomy 200 _
    feeEconomy_consistent rfl ⟨by decide, by decide⟩
    ⟨hbacked, by decide, by decide, by decide, by decide, by decide, by decide, by decide, by decide⟩
  exact ⟨_, s, s', e', rfl, hx, hx', he, hout, hfit⟩

end Economy

end ZosCore
