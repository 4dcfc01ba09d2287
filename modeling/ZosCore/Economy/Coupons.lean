import ZosCore.Economy.FeeRuns

/-!
The supply of coupons, in runs of operations.

`coupon_supply` counts the coupons that the accounts have, and those that they have paid as fees
until these are burned. The special accounts have theirs from genesis, and `set_coupon` does not take
them from the supply when they expire.

* `CouponsMeet`: what the steps have to meet. A fee paid in coupons is debited as it was credited and
  from an amount that covers it, and is not burned before it is rolled back; coupons that expire
  are those of an account with an id above 100.
* `couponSupply_exact`: then the supply is what the accounts have, and nothing is negative.
-/

namespace ZosCore

/-- The coupons of all accounts. -/
def Economy.couponTotal (e : Economy) : ℤ :=
  e.statisticsTotal fun _ s => s.amountCoupon + s.couponFees

/-- A payment in coupons that has been credited and not debited yet. -/
def Payment.coupons (p : Payment) : ℤ :=
  if p.evaluator.isCouponFee then p.evaluator.coreFeePaid else 0

/-- The payments in coupons that are open. -/
def openCoupons (ps : List Payment) : ℤ := (ps.map Payment.coupons).sum

variable {special : ℕ} {d : ℤ} {s s' : FeeState} {l l' : List Payment} {p : Payment} {e' : Economy}

/-- What the steps have to meet. -/
def CouponsMeet (special : ℕ) (s : FeeState) : FeeEvent → Prop
  | .rollback p => FindsFee .couponFees s (.rollback p)
  | .settle p => p.evaluator.isCouponFee = true →
      p.evaluator.coreFeePaid = p.evaluator.feeFromAccount ∧
        p.evaluator.feeFromAccount ≤ (s.economy.statisticsOf p.evaluator.feePayer).amountCoupon
  | .processFees id => special ≤ id → s.economy.couponsExpired →
      0 < (s.economy.statisticsOf id).amountCoupon → lastGenesisAccount < id
  | _ => True

/-- The invariant: the supply, and what is open, is what the accounts have, up to the difference `d`
that genesis has made. -/
structure CouponBalance (d : ℤ) (s : FeeState) : Prop where
  paid : ∀ p ∈ s.payments, p.evaluator.isPayFee = true
  covered : Covered .couponFees s
  amounts : ∀ id, 0 ≤ (s.economy.statisticsOf id).amountCoupon
  balance : s.economy.properties.couponSupply + openCoupons s.payments =
    s.economy.couponTotal + s.lapsed + d

lemma openCoupons_cons (p : Payment) (ps : List Payment) :
    openCoupons (p :: ps) = p.coupons + openCoupons ps := by
  simp [openCoupons]

lemma openCoupons_remove (l : List Payment) (p : Payment) (l' : List Payment) :
    openCoupons (l ++ p :: l') = openCoupons (l ++ l') + p.coupons := by
  simp only [openCoupons, List.map_append, List.map_cons, List.sum_append, List.sum_cons]
  ring

lemma openCoupons_paidOut (id : ℕ) (ps : List Payment) :
    openCoupons (ps.map (Payment.paidOut id)) = openCoupons ps := by
  have hp : ∀ p : Payment, (p.paidOut id).coupons = p.coupons := by
    intro p
    rw [Payment.paidOut]
    split_ifs <;> rfl
  simp only [openCoupons, List.map_map, Function.comp_def, hp]

/-- The payments that remain when one is closed have been paid. -/
lemma CouponBalance.remaining (h : CouponBalance d s) (hl : s.payments = l ++ p :: l') :
    ∀ q ∈ l ++ l', q.evaluator.isPayFee = true := by
  intro q hq
  refine h.paid q ?_
  rw [hl]
  rcases List.mem_append.mp hq with hq | hq
  · exact List.mem_append_left _ hq
  · exact List.mem_append_right _ (List.mem_cons_of_mem _ hq)

/-- One account changes. -/
lemma CouponBalance.oneAccount (h : CouponBalance d s) {id : ℕ} {st : AccountStatistics}
    {supply x : ℤ} {ps : List Payment} (hone : Economy.OneAccount s.economy e' id st supply)
    (hpaid : ∀ p ∈ ps, p.evaluator.isPayFee = true) (hcov : Covered .couponFees ⟨e', ps, x⟩)
    (hamount : 0 ≤ st.amountCoupon)
    (hbal : supply + openCoupons ps - openCoupons s.payments =
      st.amountCoupon + st.couponFees - (s.economy.statisticsOf id).amountCoupon -
        (s.economy.statisticsOf id).couponFees + x - s.lapsed) :
    CouponBalance d ⟨e', ps, x⟩ := by
  refine ⟨hpaid, hcov, fun i => ?_, ?_⟩
  · show 0 ≤ (e'.statisticsOf i).amountCoupon
    rw [hone.statistics]
    split_ifs
    · exact hamount
    · exact h.amounts i
  · have hold := h.balance
    have htotal : e'.couponTotal = s.economy.couponTotal -
        ((s.economy.statisticsOf id).amountCoupon + (s.economy.statisticsOf id).couponFees) +
        (st.amountCoupon + st.couponFees) := hone.total _
    show e'.properties.couponSupply + openCoupons ps = e'.couponTotal + x + d
    rw [hone.supply, htotal]
    omega

lemma payFee_coupons (ev : Evaluator) (sc : Bool) (now : ℕ) (threshold : ℤ) (s : AccountStatistics) :
    (ev.payFee sc now threshold s).2.amountCoupon = s.amountCoupon ∧
      (ev.payFee sc now threshold s).2.couponFees = s.couponFees +
        if (ev.payFee sc now threshold s).1.isCouponFee then
          (ev.payFee sc now threshold s).1.coreFeePaid else 0 := by
  by_cases hc : ev.paysCoupon sc s
  · simp [Evaluator.payFee, hc, AccountStatistics.activate]
  · by_cases ht : threshold < ev.coreFeePaid <;>
      simp [Evaluator.payFee, hc, AccountStatistics.payFee, ht, AccountStatistics.activate]

lemma rollbackFee_coupons (ev : Evaluator) (threshold : ℤ) (s : AccountStatistics) :
    (ev.rollbackFee threshold s).2.amountCoupon = s.amountCoupon ∧
      (ev.rollbackFee threshold s).2.couponFees = s.couponFees -
        if ev.isCouponFee then ev.coreFeePaid else 0 := by
  rw [Evaluator.rollbackFee, AccountStatistics.payFee]
  split_ifs <;> simp

lemma CouponBalance.pay (h : CouponBalance d s) {ev ev' : Evaluator} {sc : Bool} (hp : ev.Prepared)
    (hpay : s.economy.payFee {} ev sc = .ok (ev', e')) :
    CouponBalance d { s with economy := e', payments := Payment.opened s.economy ev' :: s.payments } := by
  obtain ⟨hev, hone⟩ := Economy.payFee_one hpay
  obtain ⟨hamount, hcoupon⟩ := payFee_coupons ev sc s.economy.time
    s.economy.parameters.cashbackVestingThreshold (s.economy.statisticsOf ev.feePayer)
  refine h.oneAccount hone ?_ (h.covered.pay hp hpay) ?_ ?_
  · intro q hq
    rcases List.mem_cons.mp hq with rfl | hq
    · show ev'.isPayFee = true
      rw [hev]
      rw [Evaluator.payFee]
      split_ifs <;> rfl
    · exact h.paid q hq
  · rw [hamount]
    exact h.amounts _
  · rw [openCoupons_cons, hamount, hcoupon, ← hev]
    show 0 + ((if ev'.isCouponFee then ev'.coreFeePaid else 0) + _) - _ = _
    omega

lemma CouponBalance.rollback (h : CouponBalance d s) {ev' : Evaluator} (hl : s.payments = l ++ p :: l')
    (hroll : s.economy.rollbackFee {} p.evaluator = .ok (ev', e'))
    (hfind : FindsFee .couponFees s (.rollback p)) :
    CouponBalance d { s with economy := e', payments := l ++ l' } := by
  have hone := Economy.rollbackFee_one hroll
  obtain ⟨hamount, hcoupon⟩ := rollbackFee_coupons p.evaluator
    s.economy.parameters.cashbackVestingThreshold (s.economy.statisticsOf p.evaluator.feePayer)
  refine h.oneAccount hone (h.remaining hl) (h.covered.rollback hl hroll hfind) ?_ ?_
  · rw [hamount]
    exact h.amounts _
  · rw [hl, openCoupons_remove, hamount, hcoupon]
    rw [Payment.coupons]
    omega

lemma CouponBalance.settle (h : CouponBalance d s) (hl : s.payments = l ++ p :: l')
    (htake : s.economy.takeFee p.evaluator = .ok e') (hmeet : CouponsMeet special s (.settle p)) :
    CouponBalance d { s with economy := e', payments := l ++ l' } := by
  have hcov := h.covered.settle hl htake
  have hpaid := h.paid p (by rw [hl]; simp)
  rcases Economy.takeFee_cases htake with ⟨-, hcoupon, hone⟩ | ⟨hnot, hkept⟩
  · obtain ⟨hcore, hle⟩ := hmeet hcoupon
    refine h.oneAccount hone (h.remaining hl) hcov ?_ ?_
    · show 0 ≤ _ - _
      omega
    · rw [hl, openCoupons_remove]
      rw [Payment.coupons]
      rw [if_pos hcoupon]
      show _ = _ - p.evaluator.feeFromAccount + (s.economy.statisticsOf p.evaluator.feePayer).couponFees
        - _ - _ + s.lapsed - s.lapsed
      omega
  · have hzero : p.coupons = 0 := if_neg fun hc => hnot ⟨hpaid, hc⟩
    refine ⟨h.remaining hl, hcov, fun i => ?_, ?_⟩
    · show 0 ≤ (e'.statisticsOf i).amountCoupon
      rw [hkept.statistics]
      exact h.amounts i
    · have hold := h.balance
      have htotal : e'.couponTotal = s.economy.couponTotal := hkept.total _
      rw [hl, openCoupons_remove, hzero] at hold
      show e'.properties.couponSupply + openCoupons (l ++ l') = e'.couponTotal + s.lapsed + d
      rw [hkept.properties, htotal]
      omega

lemma CouponBalance.processFees (h : CouponBalance d s) {id : ℕ}
    (hproc : s.economy.processFees id = .ok e') (hmeet : CouponsMeet special s (.processFees id)) :
    CouponBalance d ⟨e', s.payments.map (Payment.paidOut id), s.lapsed + lapsing special s.economy id⟩ := by
  obtain ⟨st, hone, hp⟩ := Economy.processFees_one hproc
  have h0 := h.amounts id
  refine h.oneAccount hone ?_ (h.covered.processFees hproc) ?_ ?_
  · intro q hq
    obtain ⟨r, hr, rfl⟩ := List.mem_map.mp hq
    have hev : (r.paidOut id).evaluator = r.evaluator := by
      rw [Payment.paidOut]
      split_ifs <;> rfl
    rw [hev]
    exact h.paid r hr
  · rcases hp.amountCoupon with ⟨-, -, hz⟩ | ⟨-, hz⟩
    · exact hz.ge
    · rw [hz]
      exact h0
  · rw [openCoupons_paidOut]
    rw [Economy.processedSupply, lapsing]
    rcases hp.amountCoupon with ⟨hpos, hexp, hz⟩ | ⟨hno, hz⟩
    · -- the coupons expire: they leave the supply, or are those of a special account
      rw [hz]
      by_cases hid : lastGenesisAccount < id
      · rw [if_pos hid, if_neg (by omega)]
        omega
      · have hspecial : id < special := by
          by_contra hge
          exact hid (hmeet (by omega) hexp hpos)
        rw [if_neg hid, if_pos ⟨hspecial, by omega, hexp⟩, max_eq_left hpos.le]
        omega
    · rw [hz]
      have hlapse : (if id < special ∧ id ≤ lastGenesisAccount ∧ s.economy.couponsExpired then
          max (s.economy.statisticsOf id).amountCoupon 0 else 0) = 0 := by
        split_ifs with hall
        · rcases hno with hle | hexp
          · exact max_eq_right hle
          · exact absurd hall.2.2 hexp
        · rfl
      rw [hlapse]
      split_ifs <;> omega

/-- The coupons of an account, and those of all accounts, when there is a new one. -/
lemma CouponBalance.accountCreate (h : CouponBalance d s) {id : ℕ} {a : Account}
    (hlook : s.economy.accounts.lookup id = none) (ha : a.statistics = {}) :
    CouponBalance d { s with economy := s.economy.setAccount id a } := by
  have hzero : s.economy.statisticsOf id = {} := by
    unfold Economy.statisticsOf
    rw [hlook]
    rfl
  have hstat : ∀ i, (s.economy.setAccount id a).statisticsOf i = s.economy.statisticsOf i := by
    intro i
    rw [Economy.statisticsOf_setAccount]
    split_ifs with hi
    · rw [hi, ha, hzero]
    · rfl
  have htotal : (s.economy.setAccount id a).couponTotal = s.economy.couponTotal := by
    unfold Economy.couponTotal Economy.statisticsTotal Economy.setAccount
    rw [total_insert_of_none hlook, ha]
    show _ + ((0 : ℤ) + 0) = _
    ring
  refine ⟨h.paid, h.covered.congr fun i => ?_, fun i => ?_, ?_⟩
  · rw [hstat]
  · show 0 ≤ ((s.economy.setAccount id a).statisticsOf i).amountCoupon
    rw [hstat]
    exact h.amounts i
  · show _ + _ = (s.economy.setAccount id a).couponTotal + _ + _
    rw [htotal]
    exact h.balance

lemma CouponBalance.grant (h : CouponBalance d s) {id : ℕ} {a : Account}
    (hlook : s.economy.accounts.lookup id = some a) (fee : ℤ) :
    CouponBalance d { s with economy := s.economy.modifyCoupon id a fee true } := by
  obtain ⟨st, hone, hfee, hle⟩ := Economy.modifyCoupon_one hlook fee
  have hcoupon : st.couponFees = (s.economy.statisticsOf id).couponFees := hfee .couponFees
  have h0 := h.amounts id
  refine h.oneAccount hone h.paid (h.covered.congr fun i => ?_) (by omega) (by omega)
  rw [hone.statistics]
  split_ifs with hi
  · rw [hi, hfee]
  · rfl

/-- A step keeps the balance. -/
lemma FeeStep.couponBalance {x : FeeEvent} (hstep : FeeStep special s x s')
    (hmeet : CouponsMeet special s x) (h : CouponBalance d s) : CouponBalance d s' := by
  cases hstep with
  | pay hp hpay => exact h.pay hp hpay
  | rollback hl hroll => exact h.rollback hl hroll hmeet
  | settle hl htake => exact h.settle hl htake hmeet
  | accountCoupon hlook => exact h.grant hlook _
  | @accountCreate id a hid hlook ha =>
      have hnew : (s.economy.setAccount id a).accounts.lookup id = some a := by
        rw [Economy.lookup_setAccount, if_pos rfl]
      exact (h.accountCreate hlook ha).grant hnew 0
  | processFees hproc => exact h.processFees hproc hmeet
  | @modifyAccount id a a' hlook hf hc =>
      have hcoupon : a'.statistics.couponFees = a.statistics.couponFees := congrFun hf .couponFees
      have hstat := Economy.statisticsOf_of_lookup hlook
      have hone : Economy.OneAccount s.economy (s.economy.setAccount id a') id a'.statistics 0 := by
        refine ⟨⟨by rw [hlook]; rfl, ?_⟩, fun i => ?_, fun g => ?_, (add_zero _).symm, Iff.rfl⟩
        · rw [Economy.lookup_setAccount, if_pos rfl]
          rfl
        · exact Economy.statisticsOf_setAccount _ _ _ _
        · rw [hstat]
          exact Economy.statisticsTotal_setAccount hlook a' g
      refine h.oneAccount hone h.paid (h.covered.congr fun i => ?_) ?_ ?_
      · rw [hone.statistics]
        split_ifs with hi
        · rw [hi, hstat, hf]
        · rfl
      · rw [hc, ← hstat]
        exact h.amounts id
      · rw [hstat]
        omega
  | @other e' hacc hs =>
      have hstat : ∀ i, e'.statisticsOf i = s.economy.statisticsOf i := by
        intro i
        unfold Economy.statisticsOf
        rw [hacc]
      refine ⟨h.paid, h.covered.congr fun i => by rw [hstat], fun i => ?_, ?_⟩
      · show 0 ≤ (e'.statisticsOf i).amountCoupon
        rw [hstat]
        exact h.amounts i
      · have hold := h.balance
        rw [Economy.couponTotal, Economy.statisticsTotal] at hold ⊢
        show e'.properties.couponSupply + _ = total _ e'.accounts + _ + _
        rw [hs, hacc]
        exact hold

/-- **The supply of coupons is exact.** In a run whose steps meet the conditions, nothing is negative, and
whenever no operation is under way the supply has changed by what the accounts have got and lost;
only the coupons of special accounts remain in it when they expire. -/
theorem couponSupply_exact (hrun : FeeRun special (CouponsMeet special) s s') (hnone : s.payments = [])
    (hfees : ∀ id, 0 ≤ (s.economy.statisticsOf id).couponFees)
    (hamounts : ∀ id, 0 ≤ (s.economy.statisticsOf id).amountCoupon) :
    (∀ id, 0 ≤ (s'.economy.statisticsOf id).couponFees ∧
      0 ≤ (s'.economy.statisticsOf id).amountCoupon) ∧
    (s'.payments = [] → s'.economy.properties.couponSupply - s'.economy.couponTotal =
      s.economy.properties.couponSupply - s.economy.couponTotal + (s'.lapsed - s.lapsed)) := by
  have hstart : CouponBalance (s.economy.properties.couponSupply - s.economy.couponTotal - s.lapsed) s := by
    refine ⟨fun p hp => ?_, .start hnone hfees, hamounts, ?_⟩
    · rw [hnone] at hp
      cases hp
    · rw [hnone]
      show _ + 0 = _
      ring
  have hend : CouponBalance (s.economy.properties.couponSupply - s.economy.couponTotal - s.lapsed) s' := by
    induction hrun with
    | refl => exact hstart
    | tail _ hstep ih =>
        obtain ⟨x, hstep, hmeet⟩ := hstep
        exact hstep.couponBalance hmeet ih
  refine ⟨fun id => ⟨hend.covered.fee_nonneg id, hend.amounts id⟩, fun hdone => ?_⟩
  have hbal := hend.balance
  rw [hdone] at hbal
  change _ + 0 = _ at hbal
  omega

/-- One account, with ten coupons. -/
def couponEconomy : Economy :=
  { Economy.feeEconomy with
    properties := { couponSupply := 10 }
    accounts := (∅ : AList fun _ : ℕ => Account).insert 200
      { networkFeePercentage := 2000, lifetimeReferrerFeePercentage := 3000
        referrerRewardsPercentage := 5000, lifetimeReferrer := 200, referrer := 200, registrar := 200
        statistics := { amountCoupon := 10 } } }

/-- Five coupons are paid, and five are debited. -/
theorem couponSupply_exact_five : ∃ e', FeeRun 20 (CouponsMeet 20) ⟨couponEconomy, [], 0⟩ ⟨e', [], 0⟩ ∧
    e'.properties.couponSupply - e'.couponTotal = 0 := by
  have hpay : FeeStep 20 ⟨couponEconomy, [], 0⟩ (.pay ⟨200, 5, 0, 5, false, false, 0⟩ false) _ :=
    .pay ⟨rfl, by decide, by decide⟩ rfl
  have hrun : FeeRun 20 (CouponsMeet 20) ⟨couponEconomy, [], 0⟩ _ :=
    Relation.ReflTransGen.tail (Relation.ReflTransGen.single ⟨_, hpay, trivial⟩)
      ⟨_, FeeStep.settle (l := []) rfl rfl, fun _ => ⟨rfl, by decide⟩⟩
  have hstat : ∀ id, 0 ≤ (couponEconomy.statisticsOf id).couponFees ∧
      0 ≤ (couponEconomy.statisticsOf id).amountCoupon := by
    intro id
    by_cases hid : id = 200
    · subst hid
      decide
    · have hnone : couponEconomy.accounts.lookup id = none := AList.lookup_insert_ne hid
      rw [Economy.statisticsOf]
      rw [hnone]
      decide
  exact ⟨_, hrun, (couponSupply_exact hrun rfl (fun id => (hstat id).1) fun id => (hstat id).2).2 rfl⟩

/-- A fee of 1, where 5 are asked for: the account is credited five coupons and debited one, and has more
than the supply. -/
theorem not_couponSupply_exact_one : ∃ c, couponEconomy.charge {} (Economy.payment 1 5) = .ok c ∧
    couponEconomy.properties.couponSupply = couponEconomy.couponTotal ∧
    c.after.properties.couponSupply = 10 ∧ c.after.couponTotal = 14 :=
  ⟨_, rfl, by decide, by decide, by decide⟩

end ZosCore
