import ZosCore.Economy.State

/-!
What `deposit_lazy_vesting` and `deposit_cashback` do to the core asset.

* `Economy.Consistent`: the references between the objects lead somewhere, and no vesting
  balance is ahead of its time.
* `Economy.coreTotal`: the core that is in fees and in vesting balances, less the supply. Cashback
  for the chain's own accounts is burned: the supply shrinks by it.
* `depositLazyVesting_spec`, `depositCashback_spec`: the deposit goes through, and adds exactly
  the amount.
-/

namespace ZosCore

namespace Economy

/-! ### The core asset -/

/-- What a vesting balance holds of the core asset. -/
def coreBalance (v : VestingBalance) : ℤ := if v.asset = coreAsset then v.balance else 0

/-- The core asset in vesting balances. -/
def vestingTotal (e : Economy) : ℤ := total (fun _ v => coreBalance v) e.vestingBalances

/-- No vesting balance holds a negative amount of the core asset. -/
def NonnegBalances (e : Economy) : Prop :=
  ∀ vb v, e.vestingBalances.lookup vb = some v → 0 ≤ coreBalance v

/-- The fees that are pending. -/
def pendingTotal (e : Economy) : ℤ :=
  total (fun _ a => a.statistics.pendingFees + a.statistics.pendingVestedFees) e.accounts

/-- The core asset in fees and vesting balances, less the supply. -/
def coreTotal (e : Economy) : ℤ :=
  e.core.accumulatedFees + e.vestingTotal + e.pendingTotal - e.core.currentSupply

/-! ### Consistency -/

/-- The vesting balance is not ahead of the time. -/
def InTime (now : ℕ) (v : VestingBalance) : Prop :=
  ∀ p, v.policy = .cdd p → p.coinSecondsEarnedLastUpdate ≤ now

/-- There is a vesting balance of this id. -/
def HasVesting (e : Economy) (vb : ℕ) : Prop := (e.vestingBalances.lookup vb).isSome

/-- The vesting balances: no id is used before its time, and none is ahead of the time. -/
structure VestingConsistent (e : Economy) : Prop where
  fresh : ∀ vb, e.nextVestingId ≤ vb → e.vestingBalances.lookup vb = none
  inTime : ∀ vb v, e.vestingBalances.lookup vb = some v → InTime e.time v

/-- The references between the objects lead somewhere. -/
structure Consistent (e : Economy) : Prop extends VestingConsistent e where
  referrer : ∀ id a, e.accounts.lookup id = some a →
    (e.accounts.lookup a.lifetimeReferrer).isSome ∧ (e.accounts.lookup a.referrer).isSome ∧
      (e.accounts.lookup a.registrar).isSome
  cashback : ∀ id a vb, e.accounts.lookup id = some a → a.cashbackVb = some vb → e.HasVesting vb

/-- Only vesting balances have changed; they hold so much more of the core asset, and none is
gone. -/
structure Vested (e e' : Economy) (amount : ℤ) : Prop where
  rest : ∃ vb n, e' = { e with vestingBalances := vb, nextVestingId := n }
  total : e'.vestingTotal = e.vestingTotal + amount
  keeps : ∀ vb, e.HasVesting vb → e'.HasVesting vb
  nonneg : 0 ≤ amount → e.NonnegBalances → e'.NonnegBalances
  consistent : e'.VestingConsistent

/-! ### Deposits -/

lemma computeCoinSecondsEarned_ok {p : CddVestingPolicy} {now : ℕ}
    (h : p.coinSecondsEarnedLastUpdate ≤ now) (balance : ℤ) :
    ∃ n, p.computeCoinSecondsEarned balance now = .ok n := by
  rw [CddVestingPolicy.computeCoinSecondsEarned]
  rw [if_neg (by omega)]
  exact ⟨_, rfl⟩

/-- A deposit that is not before the time of the vesting balance adds the amount. -/
lemma deposit_spec {v : VestingBalance} {now : ℕ} (h : InTime now v) (amount : ℤ) :
    ∃ v', v.deposit now amount = .ok v' ∧ v'.asset = v.asset ∧ v'.balance = v.balance + amount ∧
      InTime now v' := by
  rw [VestingBalance.deposit]
  cases hp : v.policy with
  | linear =>
      refine ⟨_, rfl, rfl, rfl, fun p hp' => ?_⟩
      rw [show VestingPolicy.linear = .cdd p from hp ▸ hp'] at hp
      exact h p hp
  | cdd p =>
      obtain ⟨n, hn⟩ := computeCoinSecondsEarned_ok (h p hp) v.balance
      simp only [hn]
      refine ⟨_, rfl, rfl, rfl, fun q hq => ?_⟩
      cases hq
      exact le_rfl

/-- A vested deposit into a `cdd` vesting balance adds the amount. -/
lemma depositVested_spec {v : VestingBalance} {now : ℕ} (h : InTime now v) (amount : ℤ)
    {p : CddVestingPolicy} (hp : v.policy = .cdd p) :
    ∃ v', v.depositVested now amount = .ok v' ∧ v'.asset = v.asset ∧
      v'.balance = v.balance + amount ∧ InTime now v' := by
  obtain ⟨n, hn⟩ := computeCoinSecondsEarned_ok (h p hp) v.balance
  rw [VestingBalance.depositVested]
  simp only [hp, hn]
  refine ⟨_, rfl, rfl, rfl, fun q hq => ?_⟩
  cases hq
  exact le_rfl

/-- A deposit of either kind into a `cdd` vesting balance adds the amount. -/
lemma put_spec {v : VestingBalance} {now : ℕ} (h : InTime now v) (rv : Bool) (amount : ℤ)
    {p : CddVestingPolicy} (hp : v.policy = .cdd p) :
    ∃ v', v.put rv now amount = .ok v' ∧ v'.asset = v.asset ∧ v'.balance = v.balance + amount ∧
      InTime now v' := by
  cases rv with
  | true => exact deposit_spec h amount
  | false => exact depositVested_spec h amount hp

/-- A vesting balance that takes a deposit has the asset and a `cdd` policy. -/
lemma takes_cases {v : VestingBalance} {owner asset seconds : ℕ}
    (h : v.takes owner asset seconds = true) : v.asset = asset ∧ ∃ p, v.policy = .cdd p := by
  unfold VestingBalance.takes at h
  cases hp : v.policy with
  | linear => simp [hp] at h
  | cdd p =>
      simp only [hp, Bool.and_eq_true, decide_eq_true_eq] at h
      exact ⟨h.1.2, p, rfl⟩

variable {e e' : Economy} {amount : ℤ}

/-- A vesting balance is put in. -/
lemma NonnegBalances.insert (h : e.NonnegBalances) {v : VestingBalance} (hv : 0 ≤ coreBalance v)
    (vb n : ℕ) : ({ e with
      vestingBalances := e.vestingBalances.insert vb v, nextVestingId := n } : Economy).NonnegBalances := by
  intro i w hw
  change (e.vestingBalances.insert vb v).lookup i = some w at hw
  by_cases hne : i = vb
  · subst hne
    rw [AList.lookup_insert] at hw
    cases hw
    exact hv
  · rw [AList.lookup_insert_ne hne] at hw
    exact h i w hw

lemma Vested.refl (h : e.VestingConsistent) : Vested e e 0 where
  rest := ⟨e.vestingBalances, e.nextVestingId, rfl⟩
  total := by omega
  keeps _ hv := hv
  nonneg _ hb := hb
  consistent := h

/-- A vesting balance is replaced by one with so much more. -/
lemma Vested.replace (h : e.VestingConsistent) {vb : ℕ} {v v' : VestingBalance}
    (hv : e.vestingBalances.lookup vb = some v) (hasset : v'.asset = v.asset)
    (hcore : v.asset = coreAsset) (hbal : v'.balance = v.balance + amount) (htime : InTime e.time v') :
    Vested e { e with vestingBalances := e.vestingBalances.insert vb v' } amount where
  rest := ⟨_, _, rfl⟩
  total := by
    unfold vestingTotal
    rw [total_insert_of_lookup hv]
    unfold coreBalance
    rw [if_pos hcore, if_pos (hasset.trans hcore), hbal]
    ring
  keeps i hi := by
    by_cases hne : i = vb
    · subst hne
      simp [HasVesting]
    · rw [HasVesting] at hi ⊢
      rwa [AList.lookup_insert_ne hne]
  nonneg h0 hb := by
    have hold := hb vb v hv
    refine hb.insert ?_ vb e.nextVestingId
    rw [coreBalance, if_pos hcore] at hold
    rw [coreBalance, if_pos (hasset.trans hcore), hbal]
    exact Int.add_nonneg hold h0
  consistent := by
    refine ⟨fun i hi => ?_, fun i w hw => ?_⟩
    · have hne : i ≠ vb := by
        rintro rfl
        rw [h.fresh i hi] at hv
        cases hv
      show (e.vestingBalances.insert vb v').lookup i = none
      rw [AList.lookup_insert_ne hne]
      exact h.fresh i hi
    · by_cases hne : i = vb
      · subst hne
        rw [AList.lookup_insert] at hw
        cases hw
        exact htime
      · rw [AList.lookup_insert_ne hne] at hw
        exact h.inTime i w hw

/-- A vesting balance is made. -/
lemma Vested.create (h : e.VestingConsistent) (amount : ℤ) (seconds owner : ℕ) (rv : Bool) :
    Vested e (e.createVesting coreAsset amount seconds owner rv).2 amount where
  rest := ⟨_, _, rfl⟩
  total := by
    show ZosCore.total _ (e.vestingBalances.insert e.nextVestingId _) = _
    rw [total_insert_of_none (h.fresh e.nextVestingId le_rfl)]
    rfl
  keeps i hi := by
    show ((e.vestingBalances.insert e.nextVestingId _).lookup i).isSome
    by_cases hne : i = e.nextVestingId
    · subst hne
      simp
    · rwa [AList.lookup_insert_ne hne]
  nonneg h0 hb := hb.insert (v := e.newVesting coreAsset amount seconds owner rv) h0 _ _
  consistent := by
    refine ⟨fun i hi => ?_, fun i w hw => ?_⟩
    · have hi' : e.nextVestingId + 1 ≤ i := hi
      show (e.vestingBalances.insert e.nextVestingId _).lookup i = none
      rw [AList.lookup_insert_ne (by omega)]
      exact h.fresh i (by omega)
    · change (e.vestingBalances.insert e.nextVestingId _).lookup i = some w at hw
      by_cases hne : i = e.nextVestingId
      · subst hne
        rw [AList.lookup_insert] at hw
        cases hw
        intro p hp
        cases hp
        exact le_rfl
      · rw [AList.lookup_insert_ne hne] at hw
        exact h.inTime i w hw

/-- **`deposit_lazy_vesting`** of an amount of the core asset: it goes through if the vesting balance
that is named is there, and adds exactly the amount. -/
lemma depositLazyVesting_spec (h : e.VestingConsistent) {ovbid : Option ℕ}
    (hvb : ∀ vb, ovbid = some vb → e.HasVesting vb) (amount : ℤ) (seconds owner : ℕ) (rv : Bool) :
    ∃ r e', e.depositLazyVesting ovbid coreAsset amount seconds owner rv = .ok (r, e') ∧
      Vested e e' amount ∧ ∀ vb, r = some vb → e'.HasVesting vb := by
  have hcreate : ∀ vb, (e.createVesting coreAsset amount seconds owner rv).1 = some vb →
      (e.createVesting coreAsset amount seconds owner rv).2.HasVesting vb := by
    intro vb hvb
    cases hvb
    show ((e.vestingBalances.insert e.nextVestingId _).lookup e.nextVestingId).isSome
    simp
  unfold depositLazyVesting
  by_cases h0 : amount = 0
  · rw [if_pos h0]
    subst h0
    exact ⟨none, e, rfl, Vested.refl h, by simp⟩
  rw [if_neg h0]
  cases ovbid with
  | none => exact ⟨_, _, rfl, Vested.create h amount seconds owner rv, hcreate⟩
  | some vb =>
      obtain ⟨v, hv⟩ := Option.isSome_iff_exists.mp (hvb vb rfl)
      simp only [hv]
      by_cases htakes : v.takes owner coreAsset seconds = true
      · rw [if_pos htakes]
        obtain ⟨hasset, p, hp⟩ := takes_cases htakes
        obtain ⟨v', hv', ha, hb, ht⟩ := put_spec (h.inTime vb v hv) rv amount hp
        rw [hv']
        exact ⟨none, _, rfl, Vested.replace h hv ha hasset hb ht, by simp⟩
      · rw [if_neg htakes]
        exact ⟨_, _, rfl, Vested.create h amount seconds owner rv, hcreate⟩

/-! ### Cashback -/

/-- Accounts that differ in nothing but where their cashback goes. -/
def SameAccounts (e e' : Economy) : Prop :=
  ∀ id, (e.accounts.lookup id).map (fun a => { a with cashbackVb := none }) =
    (e'.accounts.lookup id).map fun a => { a with cashbackVb := none }

lemma SameAccounts.isSome (h : SameAccounts e e') (id : ℕ) :
    (e'.accounts.lookup id).isSome = (e.accounts.lookup id).isSome := by
  have hid := congrArg Option.isSome (h id)
  rw [Option.isSome_map, Option.isSome_map] at hid
  exact hid.symm

/-- An account keeps everything but where its cashback goes. -/
lemma SameAccounts.lookup (h : SameAccounts e e') {id : ℕ} {a : Account}
    (ha : e.accounts.lookup id = some a) :
    ∃ vb, e'.accounts.lookup id = some { a with cashbackVb := vb } := by
  have hid := h id
  rw [ha] at hid
  cases ha' : e'.accounts.lookup id with
  | none => simp [ha'] at hid
  | some a' =>
      rw [ha'] at hid
      refine ⟨a'.cashbackVb, ?_⟩
      cases a
      cases a'
      simp_all

/-- What deposits of cashback do: vesting balances hold so much more, and so much of the supply is
burned. -/
structure PaidBack (e e' : Economy) (amount burned : ℤ) : Prop where
  rest : ∃ supply accs vb n, e' = { e with
    core := { e.core with currentSupply := supply }
    accounts := accs, vestingBalances := vb, nextVestingId := n }
  accounts : SameAccounts e e'
  pending : e'.pendingTotal = e.pendingTotal
  total : e'.vestingTotal = e.vestingTotal + amount
  supply : e'.core.currentSupply = e.core.currentSupply - burned
  nonneg : e.NonnegBalances → e'.NonnegBalances
  consistent : e'.Consistent

lemma PaidBack.trans {e'' : Economy} {burned amount' burned' : ℤ} (h : PaidBack e e' amount burned)
    (h' : PaidBack e' e'' amount' burned') :
    PaidBack e e'' (amount + amount') (burned + burned') where
  rest := by
    obtain ⟨_, _, _, _, rfl⟩ := h.rest
    obtain ⟨_, _, _, _, rfl⟩ := h'.rest
    exact ⟨_, _, _, _, rfl⟩
  accounts id := (h.accounts id).trans (h'.accounts id)
  pending := h'.pending.trans h.pending
  total := by
    have := h.total
    have := h'.total
    omega
  supply := by
    have := h.supply
    have := h'.supply
    omega
  nonneg hb := h'.nonneg (h.nonneg hb)
  consistent := h'.consistent

/-- The vesting balances after a deposit, with the accounts as they were. -/
lemma Vested.consistent_accounts (h : e.Consistent) (hv : Vested e e' amount) : e'.Consistent := by
  obtain ⟨vb, n, rfl⟩ := hv.rest
  refine ⟨hv.consistent, h.referrer, fun id a i ha hi => ?_⟩
  exact hv.keeps i (h.cashback id a i ha hi)

lemma Vested.paidBack (h : e.Consistent) (h0 : 0 ≤ amount) (hv : Vested e e' amount) :
    PaidBack e e' amount 0 := by
  have hc := hv.consistent_accounts h
  have ht := hv.total
  have hn := hv.nonneg h0
  obtain ⟨vb, n, rfl⟩ := hv.rest
  exact ⟨⟨_, _, _, _, rfl⟩, fun _ => rfl, rfl, ht, (sub_zero _).symm, hn, hc⟩

lemma lookup_setAccount (e : Economy) (id : ℕ) (a : Account) (i : ℕ) :
    (e.setAccount id a).accounts.lookup i = if i = id then some a else e.accounts.lookup i := by
  show (e.accounts.insert id a).lookup i = _
  split_ifs with hi
  · rw [hi, AList.lookup_insert]
  · exact AList.lookup_insert_ne hi

/-- An account changes, but not its referrers, and its cashback goes to a vesting balance that is
there. -/
lemma Consistent.setAccount (h : e.Consistent) {id : ℕ} {a a' : Account}
    (ha : e.accounts.lookup id = some a) (hlife : a'.lifetimeReferrer = a.lifetimeReferrer)
    (href : a'.referrer = a.referrer) (hreg : a'.registrar = a.registrar)
    (hvb : ∀ vb, a'.cashbackVb = some vb → e.HasVesting vb) : (e.setAccount id a').Consistent := by
  have hsome : ∀ i, ((e.setAccount id a').accounts.lookup i).isSome = (e.accounts.lookup i).isSome := by
    intro i
    rw [lookup_setAccount]
    split_ifs with hi
    · rw [hi, ha]
      rfl
    · rfl
  refine ⟨⟨h.fresh, h.inTime⟩, fun i b hb => ?_, fun i b v hb hv => ?_⟩
  · rw [lookup_setAccount] at hb
    rw [hsome, hsome, hsome]
    split_ifs at hb with hi
    · cases hb
      rw [hlife, href, hreg]
      exact h.referrer id a ha
    · exact h.referrer i b hb
  · rw [lookup_setAccount] at hb
    split_ifs at hb with hi
    · cases hb
      exact hvb v hv
    · exact h.cashback i b v hb hv

/-- An account's cashback goes to a vesting balance that is there. -/
lemma PaidBack.setCashback (h : e.Consistent) {id vb : ℕ} {a : Account}
    (ha : e.accounts.lookup id = some a) (hvb : e.HasVesting vb) :
    PaidBack e (e.setAccount id { a with cashbackVb := some vb }) 0 0 := by
  refine ⟨⟨_, _, _, _, rfl⟩, fun i => ?_, ?_, (add_zero _).symm, (sub_zero _).symm, fun hb => hb, ?_⟩
  · rw [lookup_setAccount]
    split_ifs with hi
    · rw [hi, ha]
      rfl
    · rfl
  · show ZosCore.total _ (e.accounts.insert id _) = _
    rw [total_insert_of_lookup ha]
    show _ - _ + _ = e.pendingTotal
    rw [pendingTotal]
    ring
  · refine h.setAccount ha rfl rfl rfl fun v hv => ?_
    cases hv
    exact hvb

/-- What of a cashback is burned. -/
def burnedCashback (id : ℕ) (amount : ℤ) : ℤ := if isBlockchainAccount id then amount else 0

/-- **`deposit_cashback`** of an amount that is not negative goes through, and pays it into a vesting
balance or burns it. -/
lemma depositCashback_spec (h : e.Consistent) {id : ℕ} (hid : (e.accounts.lookup id).isSome)
    {amount : ℤ} (hamount : 0 ≤ amount) (rv : Bool) :
    ∃ e', e.depositCashback id amount rv = .ok e' ∧
      PaidBack e e' (amount - burnedCashback id amount) (burnedCashback id amount) := by
  obtain ⟨a, ha⟩ := Option.isSome_iff_exists.mp hid
  rw [depositCashback]
  rw [getAccount_eq_ok.mpr ha]
  show ∃ e', (if amount = 0 then _ else _) = _ ∧ _
  by_cases h0 : amount = 0
  · rw [if_pos h0]
    have hburn : burnedCashback id amount = 0 := by
      rw [burnedCashback]
      rw [h0, ite_self]
    refine ⟨e, rfl, ?_⟩
    rw [hburn, h0]
    exact Vested.paidBack h le_rfl (Vested.refl h.toVestingConsistent)
  rw [if_neg h0]
  by_cases hown : isBlockchainAccount id = true
  · rw [if_pos hown]
    have hburn : burnedCashback id amount = amount := if_pos hown
    rw [hburn, sub_self]
    exact ⟨_, rfl, ⟨_, _, _, _, rfl⟩, fun _ => rfl, rfl, (add_zero _).symm, rfl,
      fun hb => hb, ⟨⟨h.fresh, h.inTime⟩, h.referrer, h.cashback⟩⟩
  rw [if_neg hown]
  have hburn : burnedCashback id amount = 0 := if_neg hown
  rw [hburn, sub_zero]
  obtain ⟨r, e', hdep, hv, hr⟩ := depositLazyVesting_spec h.toVestingConsistent
    (fun vb hvb => h.cashback id a vb ha hvb) amount e.parameters.cashbackVestingPeriodSeconds id rv
  have hpaid := Vested.paidBack h hamount hv
  have ha' : e'.accounts.lookup id = some a := by
    obtain ⟨_, _, rfl⟩ := hv.rest
    exact ha
  simp only [hdep]
  cases r with
  | none => exact ⟨e', rfl, hpaid⟩
  | some vb =>
      show ∃ e'', (if a.cashbackVb = some vb then _ else _) = _ ∧ _
      by_cases hsame : a.cashbackVb = some vb
      · rw [if_pos hsame]
        exact ⟨e', rfl, hpaid⟩
      · rw [if_neg hsame]
        refine ⟨_, rfl, ?_⟩
        have := hpaid.trans (PaidBack.setCashback hpaid.consistent ha' (hr vb rfl))
        rwa [add_zero, add_zero] at this

end Economy

end ZosCore
