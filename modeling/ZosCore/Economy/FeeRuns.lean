import ZosCore.Economy.Evaluator
import Mathlib.Logic.Relation

/-!
Runs of operations, as far as fees and coupons go.

An operation pays its fee when it starts and is debited when it ends. Between the two it may do
anything: a proposal that is executed at once runs other operations, with fees of their own, and
`account_upgrade` calls `process_fees`. A run is therefore any sequence of the elementary steps,
with the payments that are still open kept beside the objects.

* `rollbackFee_restores_iff`: when `rollback_fee` undoes `pay_fee`.
* `FeeStep`: the steps, and `FeeState`: the objects and the open payments.
* `Covered`: every counter holds the open payments that were credited to it.
* `feeCounters_sound`: runs whose rollbacks find the fee keep all counters from being negative.
-/

namespace ZosCore

/-! ### The counters -/

/-- The counters that a fee can be credited to. -/
inductive FeeField where
  | pendingFees
  | pendingVestedFees
  | couponFees
  deriving DecidableEq

/-- A counter of an account. -/
def AccountStatistics.fee (s : AccountStatistics) : FeeField → ℤ
  | .pendingFees => s.pendingFees
  | .pendingVestedFees => s.pendingVestedFees
  | .couponFees => s.couponFees

/-- The counter that takes an amount. -/
def FeeField.of (coupon : Bool) (amount threshold : ℤ) : FeeField :=
  if coupon then .couponFees
  else if threshold < amount then .pendingFees
  else .pendingVestedFees

lemma FeeField.of_eq_iff {coupon : Bool} {x y threshold : ℤ} :
    FeeField.of coupon x threshold = FeeField.of coupon y threshold ↔
      coupon = true ∨ (threshold < x ↔ threshold < y) := by
  cases coupon with
  | true => simp [FeeField.of]
  | false => by_cases hx : threshold < x <;> by_cases hy : threshold < y <;> simp [FeeField.of, hx, hy]

/-- An amount that is put to one counter and taken from another. -/
lemma moved_iff {g g' : FeeField} (x : FeeField → ℤ) (c : ℤ) :
    (∀ f, x f + (if f = g then c else 0) - (if f = g' then c else 0) = x f) ↔ c = 0 ∨ g = g' := by
  constructor
  · intro h
    have hg := h g
    rw [if_pos rfl] at hg
    split_ifs at hg with heq
    · exact .inr heq
    · exact .inl (by omega)
  · rintro (rfl | rfl) f
    · simp
    · ring

namespace Evaluator

variable (ev : Evaluator) (sc : Bool) (now : ℕ) (threshold : ℤ) (s : AccountStatistics)

lemma statistics_payFee_fee (amount : ℤ) (f : FeeField) :
    (s.payFee amount threshold).fee f =
      s.fee f + if f = FeeField.of false amount threshold then amount else 0 := by
  rw [AccountStatistics.payFee, FeeField.of]
  split_ifs with hthr <;> cases f <;> simp_all [AccountStatistics.fee]

/-- `pay_fee` credits one counter. -/
lemma payFee_fee (f : FeeField) : (ev.payFee sc now threshold s).2.fee f = s.fee f +
    if f = FeeField.of (decide (ev.paysCoupon sc s)) ev.coreFeePaid threshold then ev.coreFeePaid
    else 0 := by
  rw [payFee]
  split_ifs with hcoupon hf hf
  · subst hf
    simp [FeeField.of, hcoupon, AccountStatistics.fee]
  · cases f <;> simp_all [FeeField.of, AccountStatistics.fee, AccountStatistics.activate]
  · rw [statistics_payFee_fee, hf]
    simp only [hcoupon, decide_false, if_true]
    cases FeeField.of false ev.coreFeePaid threshold <;> rfl
  · simp only [hcoupon, decide_false] at hf
    rw [statistics_payFee_fee, if_neg hf]
    cases f <;> rfl

/-- `rollback_fee` debits one counter, which may be another one. -/
lemma rollbackFee_fee (f : FeeField) : (ev.rollbackFee threshold s).2.fee f = s.fee f -
    if f = FeeField.of ev.isCouponFee (-ev.coreFeePaid) threshold then ev.coreFeePaid else 0 := by
  rw [rollbackFee]
  cases hc : ev.isCouponFee with
  | true =>
      simp only [if_true]
      cases f <;> simp [FeeField.of, AccountStatistics.fee]
  | false =>
      simp only [Bool.false_eq_true, if_false]
      rw [statistics_payFee_fee]
      split_ifs <;> ring

/-- What `rollback_fee` leaves after `pay_fee`. -/
def paidAndRolledBack : AccountStatistics :=
  ((ev.payFee sc now threshold s).1.rollbackFee threshold (ev.payFee sc now threshold s).2).2

/-- **`rollback_fee` undoes `pay_fee`** exactly if the fee is paid in coupons, or nothing, or the fee and
its negative are on the same side of the threshold. -/
theorem rollbackFee_restores_iff :
    (∀ f, (ev.paidAndRolledBack sc now threshold s).fee f = s.fee f) ↔
      ev.paysCoupon sc s ∨ ev.coreFeePaid = 0 ∨
        (threshold < ev.coreFeePaid ↔ threshold < -ev.coreFeePaid) := by
  have hroll : ∀ f, (ev.paidAndRolledBack sc now threshold s).fee f = s.fee f +
      (if f = FeeField.of (decide (ev.paysCoupon sc s)) ev.coreFeePaid threshold then ev.coreFeePaid
        else 0) -
      if f = FeeField.of (decide (ev.paysCoupon sc s)) (-ev.coreFeePaid) threshold then ev.coreFeePaid
        else 0 := by
    intro f
    rw [paidAndRolledBack]
    rw [rollbackFee_fee, payFee_fee]
    rw [payFee]
    by_cases hc : ev.paysCoupon sc s <;> simp [hc]
  simp only [hroll, moved_iff, FeeField.of_eq_iff, decide_eq_true_eq]
  tauto

end Evaluator

namespace Economy

variable {e e' : Economy} {id : ℕ} {a : Account} {ev ev' : Evaluator}

/-- The statistics of an account; an account that is not there has paid nothing. -/
def statisticsOf (e : Economy) (id : ℕ) : AccountStatistics :=
  ((e.accounts.lookup id).map (·.statistics)).getD {}

/-- A sum over the statistics of all accounts. -/
def statisticsTotal (e : Economy) (g : ℕ → AccountStatistics → ℤ) : ℤ :=
  total (fun i a => g i a.statistics) e.accounts

lemma statisticsOf_of_lookup (h : e.accounts.lookup id = some a) : e.statisticsOf id = a.statistics := by
  rw [statisticsOf]
  rw [h]
  rfl

lemma statisticsOf_setAccount (e : Economy) (id : ℕ) (a : Account) (i : ℕ) :
    (e.setAccount id a).statisticsOf i = if i = id then a.statistics else e.statisticsOf i := by
  rw [statisticsOf]
  rw [lookup_setAccount]
  split_ifs <;> rfl

lemma statisticsTotal_setAccount (h : e.accounts.lookup id = some a) (a' : Account)
    (g : ℕ → AccountStatistics → ℤ) :
    (e.setAccount id a').statisticsTotal g =
      e.statisticsTotal g - g id a.statistics + g id a'.statistics :=
  total_insert_of_lookup h

/-! ### What `process_fees` leaves alone -/

/-- The statistics of all accounts are kept, and so is everything that is not an account, a vesting
balance or the core asset. -/
structure StatisticsKept (e e' : Economy) : Prop where
  statistics : ∀ i, e'.statisticsOf i = e.statisticsOf i
  total : ∀ g, e'.statisticsTotal g = e.statisticsTotal g
  isSome : ∀ i, (e'.accounts.lookup i).isSome = (e.accounts.lookup i).isSome
  properties : e'.properties = e.properties
  parameters : e'.parameters = e.parameters
  time : e'.time = e.time

lemma StatisticsKept.of_accounts (h : e'.accounts = e.accounts) (hp : e'.properties = e.properties)
    (hq : e'.parameters = e.parameters) (ht : e'.time = e.time) : StatisticsKept e e' := by
  refine ⟨fun i => ?_, fun g => ?_, fun i => ?_, hp, hq, ht⟩
  · unfold statisticsOf
    rw [h]
  · unfold statisticsTotal
    rw [h]
  · rw [h]

lemma StatisticsKept.trans {e'' : Economy} (h : StatisticsKept e e') (h' : StatisticsKept e' e'') :
    StatisticsKept e e'' where
  statistics i := (h'.statistics i).trans (h.statistics i)
  total g := (h'.total g).trans (h.total g)
  isSome i := (h'.isSome i).trans (h.isSome i)
  properties := h'.properties.trans h.properties
  parameters := h'.parameters.trans h.parameters
  time := h'.time.trans h.time

lemma StatisticsKept.setAccount (h : e.accounts.lookup id = some a) {a' : Account}
    (ha : a'.statistics = a.statistics) : StatisticsKept e (e.setAccount id a') := by
  refine ⟨fun i => ?_, fun g => ?_, fun i => ?_, rfl, rfl, rfl⟩
  · rw [statisticsOf_setAccount]
    split_ifs with hi
    · rw [hi, statisticsOf_of_lookup h, ha]
    · rfl
  · rw [statisticsTotal_setAccount h, ha]
    ring
  · rw [lookup_setAccount]
    split_ifs with hi
    · rw [hi, h]
      rfl
    · rfl

lemma depositLazyVesting_rest {ovbid r : Option ℕ} {asset seconds owner : ℕ} {amount : ℤ} {rv : Bool}
    (h : e.depositLazyVesting ovbid asset amount seconds owner rv = .ok (r, e')) :
    ∃ vb n, e' = { e with vestingBalances := vb, nextVestingId := n } := by
  unfold depositLazyVesting at h
  by_cases h0 : amount = 0
  · rw [if_pos h0] at h
    cases h
    exact ⟨_, _, rfl⟩
  rw [if_neg h0] at h
  cases ovbid with
  | none =>
      cases h
      exact ⟨_, _, rfl⟩
  | some vb =>
      cases hv : e.vestingBalances.lookup vb with
      | none =>
          simp only [hv] at h
          cases h
      | some v =>
          simp only [hv] at h
          by_cases ht : v.takes owner asset seconds = true
          · rw [if_pos ht] at h
            obtain ⟨v', -, h⟩ := except_bind_eq_ok.mp h
            cases h
            exact ⟨_, _, rfl⟩
          · rw [if_neg ht] at h
            cases h
            exact ⟨_, _, rfl⟩

lemma depositCashback_kept {amount : ℤ} {rv : Bool} (h : e.depositCashback id amount rv = .ok e') :
    StatisticsKept e e' := by
  obtain ⟨acct, hacct, h⟩ := except_bind_eq_ok.mp h
  have hlook := getAccount_eq_ok.mp hacct
  by_cases h0 : amount = 0
  · rw [if_pos h0] at h
    cases h
    exact .of_accounts rfl rfl rfl rfl
  rw [if_neg h0] at h
  by_cases hown : isBlockchainAccount id = true
  · simp only [if_pos hown] at h
    cases h
    exact .of_accounts rfl rfl rfl rfl
  simp only [if_neg hown] at h
  obtain ⟨⟨r, e₁⟩, hdep, h⟩ := except_bind_eq_ok.mp h
  have hkept : StatisticsKept e e₁ := by
    obtain ⟨vb, n, rfl⟩ := depositLazyVesting_rest hdep
    exact .of_accounts rfl rfl rfl rfl
  have hlook₁ : e₁.accounts.lookup id = some acct := by
    obtain ⟨vb, n, rfl⟩ := depositLazyVesting_rest hdep
    exact hlook
  cases r with
  | none =>
      cases h
      exact hkept
  | some vbid =>
      simp only at h
      split_ifs at h
      · cases h
        exact hkept
      · cases h
        exact hkept.trans (.setAccount hlook₁ rfl)

lemma payOutFees_kept {fee : ℤ} {rv : Bool} (h : e.payOutFees a fee rv = .ok e') :
    StatisticsKept e e' := by
  obtain ⟨s, -, h⟩ := except_bind_eq_ok.mp h
  obtain ⟨e₁, h₁, h⟩ := except_bind_eq_ok.mp h
  obtain ⟨e₂, h₂, h₃⟩ := except_bind_eq_ok.mp h
  have hkept : StatisticsKept e (e.accumulate s.network) := .of_accounts rfl rfl rfl rfl
  exact ((hkept.trans (depositCashback_kept h₁)).trans (depositCashback_kept h₂)).trans
    (depositCashback_kept h₃)

/-! ### What `process_fees` does -/

/-- The statistics of one account change to `s`, and the supply of coupons by so much. -/
structure OneAccount (e e' : Economy) (id : ℕ) (s : AccountStatistics) (supply : ℤ) : Prop where
  isSome : (e.accounts.lookup id).isSome ∧ (e'.accounts.lookup id).isSome
  statistics : ∀ i, e'.statisticsOf i = if i = id then s else e.statisticsOf i
  total : ∀ g, e'.statisticsTotal g = e.statisticsTotal g - g id (e.statisticsOf id) + g id s
  supply : e'.properties.couponSupply = e.properties.couponSupply + supply
  expired : e'.couponsExpired ↔ e.couponsExpired

lemma StatisticsKept.oneAccount {e'' : Economy} {s : AccountStatistics} {supply : ℤ}
    (h : StatisticsKept e e') (h' : OneAccount e' e'' id s supply) : OneAccount e e'' id s supply := by
  refine ⟨⟨?_, h'.isSome.2⟩, fun i => ?_, fun g => ?_, ?_, ?_⟩
  · rw [← h.isSome]
    exact h'.isSome.1
  · rw [h'.statistics, h.statistics]
  · rw [h'.total, h.total, h.statistics]
  · rw [h'.supply, h.properties]
  · rw [h'.expired]
    unfold couponsExpired
    rw [h.properties, h.parameters, h.time]

lemma OneAccount.trans {e'' : Economy} {s s' : AccountStatistics} {x y : ℤ}
    (h : OneAccount e e' id s x) (h' : OneAccount e' e'' id s' y) : OneAccount e e'' id s' (x + y) := by
  have hs : e'.statisticsOf id = s := by rw [h.statistics, if_pos rfl]
  refine ⟨⟨h.isSome.1, h'.isSome.2⟩, fun i => ?_, fun g => ?_, ?_, h'.expired.trans h.expired⟩
  · rw [h'.statistics, h.statistics]
    split_ifs <;> rfl
  · rw [h'.total, h.total, hs]
    ring
  · rw [h'.supply, h.supply]
    ring

/-- New statistics, and properties with another supply of coupons. -/
lemma OneAccount.setStatistics (h : e.accounts.lookup id = some a) (s : AccountStatistics)
    (supply : ℤ) {p : DynamicProperties} (hp : p.couponSupply = e.properties.couponSupply + supply)
    (ht : p.initialTime = e.properties.initialTime) :
    OneAccount e ({ e with properties := p }.setStatistics id a s) id s supply := by
  refine ⟨⟨?_, ?_⟩, fun i => ?_, fun g => ?_, hp, ?_⟩
  · rw [h]
    rfl
  · rw [Economy.setStatistics, lookup_setAccount, if_pos rfl]
    rfl
  · rw [Economy.setStatistics, statisticsOf_setAccount]
    rfl
  · rw [statisticsOf_of_lookup h]
    exact statisticsTotal_setAccount (e := { e with properties := p }) h _ g
  · rw [couponsExpired]
    show p.initialTime + _ ≤ _ ↔ _
    rw [ht]
    rfl

lemma OneAccount.refl (h : e.accounts.lookup id = some a) : OneAccount e e id (e.statisticsOf id) 0 := by
  refine ⟨⟨?_, ?_⟩, fun i => ?_, fun g => ?_, (add_zero _).symm, Iff.rfl⟩
  · rw [h]
    rfl
  · rw [h]
    rfl
  · split_ifs with hi
    · rw [hi]
    · rfl
  · ring

/-- The statistics that `process_fees` leaves. -/
structure Processed (s s' : AccountStatistics) (expired : Prop) : Prop where
  pendingFees : s'.pendingFees = if 0 < s.pendingFees ∨ 0 < s.pendingVestedFees then 0 else s.pendingFees
  pendingVestedFees : s'.pendingVestedFees =
    if 0 < s.pendingFees ∨ 0 < s.pendingVestedFees then 0 else s.pendingVestedFees
  couponFees : s'.couponFees = min s.couponFees 0
  amountCoupon : (0 < s.amountCoupon ∧ expired ∧ s'.amountCoupon = 0) ∨
    ((s.amountCoupon ≤ 0 ∨ ¬ expired) ∧ s'.amountCoupon = s.amountCoupon)

/-- What `process_fees` takes from the supply of coupons. -/
def processedSupply (id : ℕ) (s s' : AccountStatistics) : ℤ :=
  s'.couponFees - s.couponFees + if lastGenesisAccount < id then s'.amountCoupon - s.amountCoupon else 0

lemma processPending_one (h : e.processPending id = .ok e') :
    ∃ s', OneAccount e e' id s' 0 ∧ s'.couponFees = (e.statisticsOf id).couponFees ∧
      s'.amountCoupon = (e.statisticsOf id).amountCoupon ∧
      Processed { e.statisticsOf id with couponFees := 0, amountCoupon := 0 }
        { s' with couponFees := 0, amountCoupon := 0 } True := by
  obtain ⟨a, ha, h⟩ := except_bind_eq_ok.mp h
  have hlook := getAccount_eq_ok.mp ha
  have hstat := statisticsOf_of_lookup hlook
  by_cases hpos : 0 < a.statistics.pendingFees ∨ 0 < a.statistics.pendingVestedFees
  · rw [if_pos hpos] at h
    obtain ⟨e₁, h₁, h⟩ := except_bind_eq_ok.mp h
    obtain ⟨e₂, h₂, h⟩ := except_bind_eq_ok.mp h
    obtain ⟨a', ha', h⟩ := except_bind_eq_ok.mp h
    cases h
    have hkept := (payOutFees_kept h₁).trans (payOutFees_kept h₂)
    have hlook' := getAccount_eq_ok.mp ha'
    have hsame : a'.statistics = a.statistics := by
      rw [← statisticsOf_of_lookup hlook', hkept.statistics, hstat]
    refine ⟨_, hkept.oneAccount (.setStatistics hlook' _ 0 (add_zero _).symm rfl), ?_, ?_, ?_⟩
    · rw [hstat, ← hsame]
    · rw [hstat, ← hsame]
    · rw [hstat]
      exact ⟨(if_pos hpos).symm, (if_pos hpos).symm, rfl, .inr ⟨.inl le_rfl, rfl⟩⟩
  · rw [if_neg hpos] at h
    cases h
    refine ⟨_, .refl hlook, rfl, rfl, ?_⟩
    rw [hstat]
    exact ⟨(if_neg hpos).symm, (if_neg hpos).symm, rfl, .inr ⟨.inl le_rfl, rfl⟩⟩

lemma processCouponFees_one (h : e.processCouponFees id = .ok e') :
    OneAccount e e' id
      { e.statisticsOf id with couponFees := min (e.statisticsOf id).couponFees 0 }
      (min (e.statisticsOf id).couponFees 0 - (e.statisticsOf id).couponFees) := by
  obtain ⟨a, ha, h⟩ := except_bind_eq_ok.mp h
  have hlook := getAccount_eq_ok.mp ha
  rw [statisticsOf_of_lookup hlook]
  by_cases hpos : 0 < a.statistics.couponFees
  · rw [if_pos hpos] at h
    cases h
    rw [min_eq_right hpos.le]
    exact .setStatistics hlook _ _ (by rw [zero_sub]; rfl) rfl
  · rw [if_neg hpos] at h
    cases h
    rw [min_eq_left (not_lt.mp hpos), sub_self]
    have hrefl := OneAccount.refl hlook
    rw [statisticsOf_of_lookup hlook] at hrefl
    exact hrefl

lemma processCoupons_one (h : e.processCoupons id = .ok e') :
    ∃ s', OneAccount e e' id s' (if lastGenesisAccount < id then
        s'.amountCoupon - (e.statisticsOf id).amountCoupon else 0) ∧
      (∀ f, s'.fee f = (e.statisticsOf id).fee f) ∧
      ((0 < (e.statisticsOf id).amountCoupon ∧ e.couponsExpired ∧ s'.amountCoupon = 0) ∨
        (((e.statisticsOf id).amountCoupon ≤ 0 ∨ ¬ e.couponsExpired) ∧
          s'.amountCoupon = (e.statisticsOf id).amountCoupon)) := by
  obtain ⟨a, ha, h⟩ := except_bind_eq_ok.mp h
  have hlook := getAccount_eq_ok.mp ha
  rw [statisticsOf_of_lookup hlook]
  by_cases hpos : 0 < a.statistics.amountCoupon ∧ e.couponsExpired
  · rw [if_pos hpos] at h
    cases h
    have hset : e.setCoupon id a.statistics 0 false =
        ({ a.statistics with amountCoupon := 0, couponMonth := 0 },
          if lastGenesisAccount < id then { e.properties with
            couponSupply := e.properties.couponSupply - a.statistics.amountCoupon }
          else e.properties) := if_pos hpos.1
    rw [modifyCoupon]
    rw [hset]
    refine ⟨_, .setStatistics hlook _ _ ?_ ?_, fun f => by cases f <;> rfl, .inl ⟨hpos.1, hpos.2, rfl⟩⟩
    · show (if lastGenesisAccount < id then _ else _ : DynamicProperties).couponSupply = _
      split_ifs
      · show _ - _ = _ + ((0 : ℤ) - _)
        ring
      · ring
    · show (if lastGenesisAccount < id then _ else _ : DynamicProperties).initialTime = _
      split_ifs <;> rfl
  · rw [if_neg hpos] at h
    cases h
    have hrefl := OneAccount.refl hlook
    rw [statisticsOf_of_lookup hlook] at hrefl
    refine ⟨_, ?_, fun f => rfl, .inr ⟨?_, rfl⟩⟩
    · rw [sub_self, ite_self]
      exact hrefl
    · rcases not_and_or.mp hpos with h0 | hexp
      · exact .inl (not_lt.mp h0)
      · exact .inr hexp

/-- **`process_fees`** changes the statistics of its account only, and takes from the supply of
coupons what the account loses of them; but not if the account is one of the first. -/
lemma processFees_one (h : e.processFees id = .ok e') :
    ∃ s', OneAccount e e' id s' (processedSupply id (e.statisticsOf id) s') ∧
      Processed (e.statisticsOf id) s' e.couponsExpired := by
  obtain ⟨e₁, h₁, h⟩ := except_bind_eq_ok.mp h
  obtain ⟨e₂, h₂, h₃⟩ := except_bind_eq_ok.mp h
  obtain ⟨s₁, hone₁, hc₁, ha₁, hproc⟩ := processPending_one h₁
  have hone₂ := processCouponFees_one h₂
  obtain ⟨s₃, hone₃, hfees, hamount⟩ := processCoupons_one h₃
  have hs₁ : e₁.statisticsOf id = s₁ := by rw [hone₁.statistics, if_pos rfl]
  rw [hs₁] at hone₂
  have hs₂ : e₂.statisticsOf id = { s₁ with couponFees := min s₁.couponFees 0 } := by
    rw [hone₂.statistics, if_pos rfl]
  rw [hs₂] at hone₃ hfees hamount
  have hcoupon : s₃.couponFees = min s₁.couponFees 0 := hfees .couponFees
  refine ⟨s₃, ?_, ?_, ?_, ?_, ?_⟩
  · have hall := (hone₁.trans hone₂).trans hone₃
    rw [processedSupply]
    convert hall using 1
    rw [hcoupon, hc₁, ← ha₁]
    ring
  · exact (hfees .pendingFees).trans hproc.pendingFees
  · exact (hfees .pendingVestedFees).trans hproc.pendingVestedFees
  · rw [hcoupon, hc₁]
  · have hexp : e₂.couponsExpired ↔ e.couponsExpired := hone₂.expired.trans hone₁.expired
    rw [hexp] at hamount
    simp only at hamount
    rwa [ha₁] at hamount

/-! ### The other steps -/

lemma payFee_one {sc : Bool} (h : e.payFee {} ev sc = .ok (ev', e')) :
    ev' = (ev.payFee sc e.time e.parameters.cashbackVestingThreshold (e.statisticsOf ev.feePayer)).1 ∧
    OneAccount e e' ev.feePayer
      (ev.payFee sc e.time e.parameters.cashbackVestingThreshold (e.statisticsOf ev.feePayer)).2 0 := by
  obtain ⟨a, ha, h⟩ := except_bind_eq_ok.mp h
  have hlook := getAccount_eq_ok.mp ha
  cases h
  rw [statisticsOf_of_lookup hlook]
  exact ⟨rfl, .setStatistics hlook _ 0 (add_zero _).symm rfl⟩

lemma rollbackFee_one (h : e.rollbackFee {} ev = .ok (ev', e')) :
    OneAccount e e' ev.feePayer
      (ev.rollbackFee e.parameters.cashbackVestingThreshold (e.statisticsOf ev.feePayer)).2 0 := by
  obtain ⟨a, ha, h⟩ := except_bind_eq_ok.mp h
  have hlook := getAccount_eq_ok.mp ha
  cases h
  rw [statisticsOf_of_lookup hlook]
  exact .setStatistics hlook _ 0 (add_zero _).symm rfl

/-- The payer is debited of coupons, or something else than coupons. -/
lemma takeFee_cases (h : e.takeFee ev = .ok e') :
    (ev.isPayFee = true ∧ ev.isCouponFee = true ∧ OneAccount e e' ev.feePayer
      { e.statisticsOf ev.feePayer with
        amountCoupon := (e.statisticsOf ev.feePayer).amountCoupon - ev.feeFromAccount } 0) ∨
    (¬ (ev.isPayFee = true ∧ ev.isCouponFee = true) ∧ StatisticsKept e e') := by
  unfold takeFee at h
  split_ifs at h with hpay hcoupon
  · obtain ⟨a, ha, h⟩ := except_bind_eq_ok.mp h
    have hlook := getAccount_eq_ok.mp ha
    cases h
    rw [statisticsOf_of_lookup hlook]
    exact .inl ⟨hpay, hcoupon, .setStatistics hlook _ 0 (add_zero _).symm rfl⟩
  · obtain ⟨-, b, rfl⟩ := getBalance_adjustBalance h
    exact .inr ⟨fun hboth => hcoupon hboth.2, .of_accounts rfl rfl rfl rfl⟩
  · cases h
    exact .inr ⟨fun hboth => hpay hboth.1, .of_accounts rfl rfl rfl rfl⟩

/-- `set_coupon` grants what it adds to the supply, which is not negative. -/
lemma setCoupon_grant (e : Economy) (id : ℕ) (s : AccountStatistics) (fee : ℤ) :
    s.amountCoupon ≤ (e.setCoupon id s fee true).1.amountCoupon ∧
      (∀ f, (e.setCoupon id s fee true).1.fee f = s.fee f) ∧
      (e.setCoupon id s fee true).2.couponSupply = e.properties.couponSupply +
        ((e.setCoupon id s fee true).1.amountCoupon - s.amountCoupon) ∧
      (e.setCoupon id s fee true).2.initialTime = e.properties.initialTime := by
  simp only [setCoupon, if_true]
  split_ifs with hgrant hpos
  · refine ⟨?_, fun f => by cases f <;> rfl, ?_, rfl⟩
    · show s.amountCoupon ≤ s.amountCoupon + _
      omega
    · show _ = _ + (s.amountCoupon + _ - s.amountCoupon)
      ring
  · exact ⟨le_rfl, fun f => rfl, by simp, rfl⟩
  · exact ⟨le_rfl, fun f => rfl, by simp, rfl⟩

lemma modifyCoupon_one (h : e.accounts.lookup id = some a) (fee : ℤ) :
    ∃ s', OneAccount e (e.modifyCoupon id a fee true) id s'
        (s'.amountCoupon - (e.statisticsOf id).amountCoupon) ∧
      (∀ f, s'.fee f = (e.statisticsOf id).fee f) ∧
      (e.statisticsOf id).amountCoupon ≤ s'.amountCoupon := by
  obtain ⟨hle, hfee, hsupply, htime⟩ := setCoupon_grant e id a.statistics fee
  rw [statisticsOf_of_lookup h]
  exact ⟨_, .setStatistics h _ _ hsupply htime, hfee, hle⟩

end Economy

/-! ### Runs -/

/-- A payment that is open: the evaluator between `pay_fee` and the end of `apply`, where the fee has
been credited, and whether it is still there. -/
structure Payment where
  evaluator : Evaluator
  field : FeeField
  live : Bool

/-- The objects and the open payments, with the coupons of the first accounts that have expired, which
remain in the supply. -/
structure FeeState where
  economy : Economy
  payments : List Payment := []
  lapsed : ℤ := 0

/-- The steps. -/
inductive FeeEvent where
  /-- `pay_fee` -/
  | pay (ev : Evaluator) (setCoupon : Bool)
  /-- `rollback_fee` -/
  | rollback (p : Payment)
  /-- `db_adjust_balance` -/
  | settle (p : Payment)
  /-- `account_coupon_evaluator::do_apply` -/
  | accountCoupon (id : ℕ) (fee : ℤ)
  /-- `account_create_evaluator::do_apply` -/
  | accountCreate (id : ℕ) (a : Account)
  /-- `process_fees`, in the maintenance or in `account_upgrade` -/
  | processFees (id : ℕ)
  /-- An account changes otherwise. -/
  | modifyAccount (id : ℕ) (a : Account)
  /-- Anything that has nothing to do with accounts and coupons. -/
  | other (e : Economy)

/-- What `evaluate` and `asset_create_evaluator::pay_fee` prepare. -/
structure Evaluator.Prepared (ev : Evaluator) : Prop where
  core : ev.feeAsset = coreAsset
  fee : 0 ≤ ev.feeFromAccount
  corePaid : 0 ≤ ev.coreFeePaid

/-- The payment that `pay_fee` opens. -/
def Payment.opened (e : Economy) (ev : Evaluator) : Payment where
  evaluator := ev
  field := FeeField.of ev.isCouponFee ev.coreFeePaid e.parameters.cashbackVestingThreshold
  live := true

/-- What was credited to an account is paid out. -/
def Payment.paidOut (id : ℕ) (p : Payment) : Payment :=
  if p.evaluator.feePayer = id then { p with live := false } else p

/-- The coupons of one of the first `special` accounts that expire when its fees are processed. -/
def lapsing (special : ℕ) (e : Economy) (id : ℕ) : ℤ :=
  if id < special ∧ id ≤ lastGenesisAccount ∧ e.couponsExpired then
    max (e.statisticsOf id).amountCoupon 0
  else 0

variable (special : ℕ)

/-- One step. The accounts below `special` are there from the beginning. -/
inductive FeeStep : FeeState → FeeEvent → FeeState → Prop
  | pay {s : FeeState} {ev ev' : Evaluator} {sc : Bool} {e' : Economy} (hp : ev.Prepared)
      (h : s.economy.payFee {} ev sc = .ok (ev', e')) :
      FeeStep s (.pay ev sc)
        { s with economy := e', payments := Payment.opened s.economy ev' :: s.payments }
  | rollback {s : FeeState} {l l' : List Payment} {p : Payment} {ev' : Evaluator} {e' : Economy}
      (hl : s.payments = l ++ p :: l') (h : s.economy.rollbackFee {} p.evaluator = .ok (ev', e')) :
      FeeStep s (.rollback p) { s with economy := e', payments := l ++ l' }
  | settle {s : FeeState} {l l' : List Payment} {p : Payment} {e' : Economy}
      (hl : s.payments = l ++ p :: l') (h : s.economy.takeFee p.evaluator = .ok e') :
      FeeStep s (.settle p) { s with economy := e', payments := l ++ l' }
  | accountCoupon {s : FeeState} {id : ℕ} {fee : ℤ} {a : Account}
      (h : s.economy.accounts.lookup id = some a) :
      FeeStep s (.accountCoupon id fee) { s with economy := s.economy.modifyCoupon id a fee true }
  | accountCreate {s : FeeState} {id : ℕ} {a : Account} (hid : special ≤ id)
      (h : s.economy.accounts.lookup id = none) (ha : a.statistics = {}) :
      FeeStep s (.accountCreate id a)
        { s with economy := (s.economy.setAccount id a).modifyCoupon id a 0 true }
  | processFees {s : FeeState} {id : ℕ} {e' : Economy} (h : s.economy.processFees id = .ok e') :
      FeeStep s (.processFees id)
        { economy := e', payments := s.payments.map (Payment.paidOut id)
          lapsed := s.lapsed + lapsing special s.economy id }
  | modifyAccount {s : FeeState} {id : ℕ} {a a' : Account}
      (h : s.economy.accounts.lookup id = some a) (hf : a'.statistics.fee = a.statistics.fee)
      (hc : a'.statistics.amountCoupon = a.statistics.amountCoupon) :
      FeeStep s (.modifyAccount id a') { s with economy := s.economy.setAccount id a' }
  | other {s : FeeState} {e' : Economy} (h : e'.accounts = s.economy.accounts)
      (hs : e'.properties.couponSupply = s.economy.properties.couponSupply) :
      FeeStep s (.other e') { s with economy := e' }

/-! ### The counters hold what is open -/

/-- What an open payment has credited to a counter. -/
def Payment.dues (p : Payment) (id : ℕ) (f : FeeField) : ℤ :=
  if p.live ∧ p.evaluator.feePayer = id ∧ p.field = f then p.evaluator.coreFeePaid else 0

/-- What the open payments have credited to a counter. -/
def dues (ps : List Payment) (id : ℕ) (f : FeeField) : ℤ := (ps.map fun p => p.dues id f).sum

lemma dues_cons (p : Payment) (ps : List Payment) (id : ℕ) (f : FeeField) :
    dues (p :: ps) id f = p.dues id f + dues ps id f := by
  simp [dues]

lemma dues_remove (l : List Payment) (p : Payment) (l' : List Payment) (id : ℕ) (f : FeeField) :
    dues (l ++ p :: l') id f = dues (l ++ l') id f + p.dues id f := by
  simp only [dues, List.map_append, List.map_cons, List.sum_append, List.sum_cons]
  ring

lemma Payment.dues_paidOut (p : Payment) (id i : ℕ) (f : FeeField) :
    (p.paidOut id).dues i f = if i = id then 0 else p.dues i f := by
  unfold Payment.dues Payment.paidOut
  by_cases hp : p.evaluator.feePayer = id
  · rw [if_pos hp, if_neg (by simp)]
    split_ifs with hi hdue
    · rfl
    · exact absurd (hdue.2.1.symm.trans hp) hi
    · rfl
  · rw [if_neg hp]
    split_ifs with hdue hi <;> first | rfl | exact absurd (hdue.2.1.trans hi) hp

/-- The payments of an account whose fees are paid out credit nothing any more. -/
lemma dues_paidOut (ps : List Payment) (id i : ℕ) (f : FeeField) :
    dues (ps.map (Payment.paidOut id)) i f = if i = id then 0 else dues ps i f := by
  induction ps with
  | nil => simp [dues]
  | cons p ps ih =>
      rw [List.map_cons, dues_cons, dues_cons, ih, Payment.dues_paidOut]
      split_ifs <;> ring

/-- The fees of the open payments are not negative, and a counter holds those that were credited to it. -/
structure Covered (f : FeeField) (s : FeeState) : Prop where
  nonneg : ∀ p ∈ s.payments, 0 ≤ p.evaluator.coreFeePaid
  covers : ∀ id, dues s.payments id f ≤ (s.economy.statisticsOf id).fee f

lemma dues_nonneg {ps : List Payment} (h : ∀ p ∈ ps, 0 ≤ p.evaluator.coreFeePaid) (id : ℕ) (f : FeeField) :
    0 ≤ dues ps id f := by
  refine List.sum_nonneg fun x hx => ?_
  obtain ⟨p, hp, rfl⟩ := List.mem_map.mp hx
  rw [Payment.dues]
  split_ifs
  · exact h p hp
  · exact le_rfl

variable {special} {f : FeeField}

/-- The counter is not negative. -/
lemma Covered.fee_nonneg {s : FeeState} (h : Covered f s) (id : ℕ) :
    0 ≤ (s.economy.statisticsOf id).fee f :=
  (dues_nonneg h.nonneg id f).trans (h.covers id)

/-- The counter that `rollback_fee` debits. -/
def Payment.debited (e : Economy) (p : Payment) : FeeField :=
  FeeField.of p.evaluator.isCouponFee (-p.evaluator.coreFeePaid) e.parameters.cashbackVestingThreshold

/-- A rollback that looks for its fee in a counter finds it there: it was credited to this counter, and has
not been paid out yet. -/
def FindsFee (f : FeeField) (s : FeeState) : FeeEvent → Prop
  | .rollback p => p.evaluator.coreFeePaid = 0 ∨
      (p.debited s.economy = f → p.live = true ∧ p.field = f)
  | _ => True

lemma Covered.congr {s : FeeState} (h : Covered f s) {e' : Economy} {lapsed : ℤ}
    (hf : ∀ id, (e'.statisticsOf id).fee f = (s.economy.statisticsOf id).fee f) :
    Covered f ⟨e', s.payments, lapsed⟩ := by
  refine ⟨h.nonneg, fun id => ?_⟩
  rw [hf]
  exact h.covers id

/-- The payments that remain when one is closed. -/
lemma Covered.remaining {s : FeeState} (h : Covered f s) {l l' : List Payment} {p : Payment}
    (hl : s.payments = l ++ p :: l') : ∀ q ∈ l ++ l', 0 ≤ q.evaluator.coreFeePaid := by
  intro q hq
  refine h.nonneg q ?_
  rw [hl]
  rcases List.mem_append.mp hq with hq | hq
  · exact List.mem_append_left _ hq
  · exact List.mem_append_right _ (List.mem_cons_of_mem _ hq)

lemma Covered.pay {s : FeeState} (h : Covered f s) {ev ev' : Evaluator} {sc : Bool} {e' : Economy}
    (hp : ev.Prepared) (hpay : s.economy.payFee {} ev sc = .ok (ev', e')) :
    Covered f { s with economy := e', payments := Payment.opened s.economy ev' :: s.payments } := by
  obtain ⟨hev, hone⟩ := Economy.payFee_one hpay
  have hcore : ev'.coreFeePaid = ev.coreFeePaid ∧ ev'.feePayer = ev.feePayer ∧
      ev'.isCouponFee = decide (ev.paysCoupon sc (s.economy.statisticsOf ev.feePayer)) := by
    rw [hev]
    rw [Evaluator.payFee]
    split_ifs with hc <;> simp [hc]
  refine ⟨?_, fun id => ?_⟩
  · intro q hq
    rcases List.mem_cons.mp hq with rfl | hq
    · show 0 ≤ ev'.coreFeePaid
      rw [hcore.1]
      exact hp.corePaid
    · exact h.nonneg q hq
  · have hold := h.covers id
    rw [dues_cons]
    show _ ≤ (e'.statisticsOf id).fee f
    rw [hone.statistics]
    rw [Payment.dues, Payment.opened]
    simp only [true_and, hcore.1, hcore.2.1, hcore.2.2]
    by_cases hid : id = ev.feePayer
    · subst hid
      rw [if_pos rfl, Evaluator.payFee_fee]
      split_ifs with h1 h2 h2
      · omega
      · exact absurd h1.2.symm h2
      · exact absurd ⟨rfl, h2.symm⟩ h1
      · omega
    · rw [if_neg hid, if_neg fun hboth => hid hboth.1.symm]
      omega

lemma Covered.rollback {s : FeeState} (h : Covered f s) {l l' : List Payment} {p : Payment}
    {ev' : Evaluator} {e' : Economy} (hl : s.payments = l ++ p :: l')
    (hroll : s.economy.rollbackFee {} p.evaluator = .ok (ev', e')) (hfind : FindsFee f s (.rollback p)) :
    Covered f { s with economy := e', payments := l ++ l' } := by
  have hone := Economy.rollbackFee_one hroll
  refine ⟨h.remaining hl, fun id => ?_⟩
  have hold := h.covers id
  rw [hl, dues_remove] at hold
  show dues (l ++ l') id f ≤ (e'.statisticsOf id).fee f
  rw [hone.statistics]
  -- what is taken from the counter is taken from what is open
  have hdue : (if id = p.evaluator.feePayer ∧ f = p.debited s.economy then p.evaluator.coreFeePaid
      else 0) ≤ p.dues id f := by
    have hp := h.nonneg p (by rw [hl]; simp)
    unfold Payment.dues
    split_ifs with hdeb hopen
    · exact le_rfl
    · rcases hfind with h0 | hfield
      · exact h0.le
      · exact absurd ⟨(hfield hdeb.2.symm).1, hdeb.1.symm, (hfield hdeb.2.symm).2⟩ hopen
    · exact hp
    · exact le_rfl
  by_cases hid : id = p.evaluator.feePayer
  · subst hid
    rw [if_pos rfl, Evaluator.rollbackFee_fee]
    simp only [true_and] at hdue
    unfold Payment.debited at hdue
    omega
  · rw [if_neg hid]
    simp only [hid, false_and, if_false] at hdue
    omega

lemma Covered.settle {s : FeeState} (h : Covered f s) {l l' : List Payment} {p : Payment} {e' : Economy}
    (hl : s.payments = l ++ p :: l') (htake : s.economy.takeFee p.evaluator = .ok e') :
    Covered f { s with economy := e', payments := l ++ l' } := by
  have hfee : ∀ id, (e'.statisticsOf id).fee f = (s.economy.statisticsOf id).fee f := by
    intro id
    rcases Economy.takeFee_cases htake with ⟨-, -, hone⟩ | ⟨-, hkept⟩
    · rw [hone.statistics]
      split_ifs with hid
      · subst hid
        cases f <;> rfl
      · rfl
    · rw [hkept.statistics]
  refine ⟨h.remaining hl, fun id => ?_⟩
  have hold := h.covers id
  have hp : 0 ≤ p.dues id f := by
    rw [Payment.dues]
    split_ifs
    · exact h.nonneg p (by rw [hl]; simp)
    · exact le_rfl
  rw [hl, dues_remove] at hold
  show dues (l ++ l') id f ≤ (e'.statisticsOf id).fee f
  rw [hfee]
  omega

lemma Covered.processFees {s : FeeState} (h : Covered f s) {id : ℕ} {e' : Economy} {lapsed : ℤ}
    (hproc : s.economy.processFees id = .ok e') :
    Covered f ⟨e', s.payments.map (Payment.paidOut id), lapsed⟩ := by
  obtain ⟨s', hone, hp⟩ := Economy.processFees_one hproc
  refine ⟨?_, fun i => ?_⟩
  · intro q hq
    obtain ⟨p, hmem, rfl⟩ := List.mem_map.mp hq
    have hcore : (p.paidOut id).evaluator = p.evaluator := by
      rw [Payment.paidOut]
      split_ifs <;> rfl
    rw [hcore]
    exact h.nonneg p hmem
  · rw [dues_paidOut]
    show _ ≤ (e'.statisticsOf i).fee f
    rw [hone.statistics]
    split_ifs with hi
    · have h0 := h.fee_nonneg id
      cases f with
      | pendingFees =>
          change 0 ≤ (s.economy.statisticsOf id).pendingFees at h0
          show 0 ≤ s'.pendingFees
          rw [hp.pendingFees]
          split_ifs <;> omega
      | pendingVestedFees =>
          change 0 ≤ (s.economy.statisticsOf id).pendingVestedFees at h0
          show 0 ≤ s'.pendingVestedFees
          rw [hp.pendingVestedFees]
          split_ifs <;> omega
      | couponFees =>
          change 0 ≤ (s.economy.statisticsOf id).couponFees at h0
          show 0 ≤ s'.couponFees
          rw [hp.couponFees]
          omega
    · exact h.covers i

/-- A step keeps a counter covered, if a rollback finds the fee there. -/
lemma FeeStep.covered {s s' : FeeState} {x : FeeEvent} (hstep : FeeStep special s x s')
    (hfind : FindsFee f s x) (h : Covered f s) : Covered f s' := by
  cases hstep with
  | pay hp hpay => exact h.pay hp hpay
  | rollback hl hroll => exact h.rollback hl hroll hfind
  | settle hl htake => exact h.settle hl htake
  | @accountCoupon id fee a hlook =>
      obtain ⟨st, hone, hfee, -⟩ := Economy.modifyCoupon_one hlook fee
      refine h.congr fun i => ?_
      rw [hone.statistics]
      split_ifs with hi
      · rw [hi, hfee]
      · rfl
  | @accountCreate id a hid hlook ha =>
      have hnew : (s.economy.setAccount id a).accounts.lookup id = some a := by
        rw [Economy.lookup_setAccount, if_pos rfl]
      have hzero : s.economy.statisticsOf id = {} := by
        unfold Economy.statisticsOf
        rw [hlook]
        rfl
      obtain ⟨st, hone, hfee, -⟩ := Economy.modifyCoupon_one hnew 0
      refine h.congr fun i => ?_
      rw [hone.statistics, Economy.statisticsOf_setAccount]
      split_ifs with hi
      · rw [hi, hfee, Economy.statisticsOf_of_lookup hnew, ha, hzero]
      · rfl
  | processFees hproc => exact h.processFees hproc
  | @modifyAccount id a a' hlook hf hc =>
      refine h.congr fun i => ?_
      rw [Economy.statisticsOf_setAccount]
      split_ifs with hi
      · rw [hi, Economy.statisticsOf_of_lookup hlook, hf]
      · rfl
  | other hacc hs =>
      refine h.congr fun i => ?_
      unfold Economy.statisticsOf
      rw [hacc]

/-- Steps that all meet a condition. -/
def FeeRun (special : ℕ) (meets : FeeState → FeeEvent → Prop) : FeeState → FeeState → Prop :=
  Relation.ReflTransGen fun s s' => ∃ x, FeeStep special s x s' ∧ meets s x

lemma FeeRun.covered {s s' : FeeState} (hrun : FeeRun special (FindsFee f) s s') (h : Covered f s) :
    Covered f s' := by
  induction hrun with
  | refl => exact h
  | tail _ hstep ih =>
      obtain ⟨x, hstep, hfind⟩ := hstep
      exact hstep.covered hfind ih

/-- A run meets every weaker condition. -/
lemma FeeRun.weaken {meets meets' : FeeState → FeeEvent → Prop} {s s' : FeeState}
    (hrun : FeeRun special meets s s') (h : ∀ s x, meets s x → meets' s x) :
    FeeRun special meets' s s' := by
  induction hrun with
  | refl => exact .refl
  | tail _ hstep ih =>
      obtain ⟨x, hstep, hx⟩ := hstep
      exact .tail ih ⟨x, hstep, h _ x hx⟩

/-- With no open payments, a counter is covered that is not negative. -/
lemma Covered.start {s : FeeState} (hnone : s.payments = [])
    (h0 : ∀ id, 0 ≤ (s.economy.statisticsOf id).fee f) : Covered f s := by
  refine ⟨fun p hp => ?_, fun id => ?_⟩
  · rw [hnone] at hp
    cases hp
  · rw [hnone]
    exact h0 id

/-- No cut of a negative amount is computed for a fee of the account. -/
def CutsNonneg (a : Account) (fee : ℤ) : Prop :=
  0 ≤ fee ∧ ∀ network lifetime, cutFee fee a.networkFeePercentage = .ok network →
    cutFee fee a.lifetimeReferrerFeePercentage = .ok lifetime → 0 ≤ fee - network - lifetime

lemma cutsNonneg {a : Account} (ha : a.Percentages) {fee : ℤ} (h0 : 0 ≤ fee) (h : Share fee) :
    CutsNonneg a fee := by
  have hnet := ha.network
  refine ⟨h0, fun network lifetime hn hl => ?_⟩
  rw [cutFee_eq h0 h.2 (by omega)] at hn hl
  cases hn
  cases hl
  have hle := cut_add_cut_le h0 hnet
  omega

/-- **Rolling back a fee.** `rollback_fee` undoes `pay_fee`, and then nothing is debited, exactly if the
fee is paid in coupons, is nothing, or is on the same side of the threshold as its negative; and in
a run whose rollbacks all find the fee, no counter is ever negative, and no cut of a negative
amount is computed. -/
theorem feeCounters_sound (special : ℕ) :
    (∀ (ev : Evaluator) (sc : Bool) (now : ℕ) (threshold : ℤ) (s : AccountStatistics),
      ((∀ f, (ev.paidAndRolledBack sc now threshold s).fee f = s.fee f) ↔
        ev.paysCoupon sc s ∨ ev.coreFeePaid = 0 ∨
          (threshold < ev.coreFeePaid ↔ threshold < -ev.coreFeePaid)) ∧
      ∀ e : Economy, e.takeFee ((ev.payFee sc now threshold s).1.rollbackFee threshold s).1 = .ok e) ∧
    ∀ s s', FeeRun special (fun s x => ∀ f, FindsFee f s x) s s' → s.payments = [] →
      (∀ id f, 0 ≤ (s.economy.statisticsOf id).fee f) →
      (∀ id f, 0 ≤ (s'.economy.statisticsOf id).fee f) ∧
      ∀ id a, s'.economy.accounts.lookup id = some a → a.Percentages →
        Share a.statistics.pendingFees → Share a.statistics.pendingVestedFees →
        CutsNonneg a a.statistics.pendingFees ∧ CutsNonneg a a.statistics.pendingVestedFees := by
  refine ⟨fun ev sc now threshold s => ⟨ev.rollbackFee_restores_iff sc now threshold s, fun e => rfl⟩,
    fun s s' hrun hnone h0 => ?_⟩
  have hend : ∀ id f, 0 ≤ (s'.economy.statisticsOf id).fee f := fun id f =>
    ((hrun.weaken fun _ _ h => h f).covered (.start hnone fun i => h0 i f)).fee_nonneg id
  refine ⟨hend, fun id a ha hperc hpend hvest => ⟨?_, ?_⟩⟩
  · have h := hend id .pendingFees
    rw [Economy.statisticsOf_of_lookup ha] at h
    exact cutsNonneg hperc h hpend
  · have h := hend id .pendingVestedFees
    rw [Economy.statisticsOf_of_lookup ha] at h
    exact cutsNonneg hperc h hvest

/-- The creation of a proposal that is executed at once, and does nothing. -/
def proposal (fee : ℤ) : FeeOperation where
  feePayer := 200
  fee := fee
  requiredFee := fee
  action := .proposalCreate .ok true

/-- A fee of 50, below the threshold, is paid and rolled back. -/
theorem feeCounters_sound_proposal : ∃ e', FeeRun 20 (fun s x => ∀ f, FindsFee f s x)
      ⟨Economy.feeEconomy, [], 0⟩ ⟨e', [], 0⟩ ∧
    ∀ id f, 0 ≤ (e'.statisticsOf id).fee f := by
  have hpay : FeeStep 20 ⟨Economy.feeEconomy, [], 0⟩ (.pay ⟨200, 50, 0, 50, false, false, 0⟩ false) _ :=
    .pay ⟨rfl, by decide, by decide⟩ rfl
  have hrun : FeeRun 20 (fun s x => ∀ f, FindsFee f s x) ⟨Economy.feeEconomy, [], 0⟩ _ :=
    Relation.ReflTransGen.tail (Relation.ReflTransGen.single ⟨_, hpay, fun _ => trivial⟩)
      ⟨_, FeeStep.rollback (l := []) rfl rfl, fun _ => .inr fun h => ⟨rfl, h⟩⟩
  refine ⟨_, hrun, ((feeCounters_sound 20).2 _ _ hrun rfl fun id f => ?_).1⟩
  by_cases hid : id = 200
  · subst hid
    cases f <;> decide
  · have hzero : Economy.feeEconomy.statisticsOf id = {} := by
      rw [Economy.statisticsOf]
      have hnone : Economy.feeEconomy.accounts.lookup id = none := AList.lookup_insert_ne hid
      rw [hnone]
      rfl
    rw [hzero]
    cases f <;> decide

/-- A fee of 500 is rolled back from the other counter, and the next maintenance fails. -/
theorem not_feeCounters_sound_proposal : ∃ c, Economy.payerEconomy.charge {} (proposal 500) = .ok c ∧
    (∀ f, 0 ≤ (c.before.statisticsOf 200).fee f) ∧
    ¬ (∀ f, (c.after.statisticsOf 200).fee f = (c.before.statisticsOf 200).fee f) ∧
    (c.after.statisticsOf 200).pendingVestedFees < 0 ∧
    c.after.processFees 200 = .error .tooLarge := by
  refine ⟨_, rfl, fun f => ?_, fun h => ?_, by decide, rfl⟩
  · cases f <;> decide
  · have := h .pendingFees
    revert this
    decide

end ZosCore
