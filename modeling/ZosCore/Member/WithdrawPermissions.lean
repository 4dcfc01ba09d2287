import ZosCore.Member.LockBalance

/-!
`withdraw_permission_object.hpp`, `withdraw_permission_evaluator.cpp`: how long a withdraw permission lasts,
and how much may be claimed of it.

The beginning of the current period is stored, and only moved on by a claim. Whether there is a new
period is decided twice: `available_this_period` compares the time with a sum of 32 bits, and the claim
divides. The two agree as long as the sum does not wrap.

* `State.withdrawPermissionUpdate`: the evaluator; those of the other operations are in
  `Authentication.lean` and `LockBalance.lean`.
* **`exactLifetime_iff`**: the stored expiration is exact iff its formula stays below `2 ^ 32`.
* `ClaimRun`: claims on one permission while anything else may happen.
* `Metered`: what a run keeps; `Metered.claim` is the step.
* **`limitsEveryPeriod_iff`**: the limit holds in every period of every run iff every period that begins
  before the expiration ends before `2 ^ 32`.
-/

namespace ZosCore.Member

/-! ### Updates -/

/-- `withdraw_permission_update_operation` -/
structure WithdrawPermissionUpdate where
  fee : ℤ
  withdrawFromAccount : ℕ
  authorizedAccount : ℕ
  permissionToUpdate : ℕ
  withdrawalLimit : ℤ
  withdrawalAsset : ℕ
  withdrawalPeriodSec : ℕ
  periodStartTime : ℕ
  periodsUntilExpiration : ℕ

namespace WithdrawPermissionUpdate

/-- `validate` -/
def Valid (op : WithdrawPermissionUpdate) : Prop :=
  0 < op.withdrawalLimit ∧ 0 ≤ op.fee ∧ 0 < op.withdrawalPeriodSec ∧
    op.withdrawFromAccount ≠ op.authorizedAccount ∧ 0 < op.periodsUntilExpiration

instance (op : WithdrawPermissionUpdate) : Decidable op.Valid :=
  inferInstanceAs (Decidable (_ ∧ _))

/-- `period_start_time + periods_until_expiration * withdrawal_period_sec`, in 32 bits. -/
def expiration (op : WithdrawPermissionUpdate) : ℕ :=
  (op.periodStartTime + op.periodsUntilExpiration * op.withdrawalPeriodSec % 2 ^ 32) % 2 ^ 32

end WithdrawPermissionUpdate

namespace State

/-- `do_evaluate` of `withdraw_permission_update_operation`. -/
def evaluateWithdrawPermissionUpdate (s : State) (op : WithdrawPermissionUpdate) :
    Except MemberError Unit := do
  let permit ← orThrow (s.permissions.lookup op.permissionToUpdate)
  fcAssert (permit.authorizedAccount = op.authorizedAccount) .permission
  fcAssert (permit.withdrawFromAccount = op.withdrawFromAccount) .permission
  fcAssert (permit.withdrawalAsset = op.withdrawalAsset) .permission
  let _ ← orThrow (s.assets.lookup op.withdrawalAsset)
  fcAssert (s.time ≤ op.periodStartTime) .permission
  fcAssert (s.time < op.expiration) .permission
  fcAssert (s.blockInterval ≤ op.withdrawalPeriodSec) .permission
  let f ← orThrow (s.accounts.lookup op.withdrawFromAccount)
  fcAssert (¬ f.isLockBalance) .lockBalance
  fcAssert (op.withdrawalLimit ≤ s.getBalance op.withdrawFromAccount op.withdrawalAsset)
    .insufficientBalance

/-- `withdraw_permission_update_operation`: what has been claimed is kept. -/
def withdrawPermissionUpdate (s : State) (op : WithdrawPermissionUpdate) :
    Except MemberError State := do
  fcAssert op.Valid .invalid
  s.evaluateWithdrawPermissionUpdate op
  let p ← orThrow (s.permissions.lookup op.permissionToUpdate)
  return { s with permissions := s.permissions.insert op.permissionToUpdate { p with
    periodStartTime := op.periodStartTime
    expiration := op.expiration
    withdrawalLimit := op.withdrawalLimit
    withdrawalAsset := op.withdrawalAsset
    withdrawalPeriodSec := op.withdrawalPeriodSec } }

end State

/-! ### Lifetimes -/

/-- The permission lasts as many periods as it is to, and so it expires after it begins. -/
structure ExactLifetime (p : WithdrawPermission) (periodStartTime periods periodSec : ℕ) :
    Prop where
  expiration : p.expiration = periodStartTime + periods * periodSec
  begins : p.periodStartTime = periodStartTime
  before : p.periodStartTime < p.expiration

/-- The sum and the product wrap together. -/
lemma wrapped_eq (start periods sec : ℕ) :
    (start + periods * sec % 2 ^ 32) % 2 ^ 32 = (start + periods * sec) % 2 ^ 32 :=
  Nat.add_mod_mod _ _ _

/-- The 32 bits hold the sum exactly if it is below. -/
lemma wrapped_eq_iff (start periods sec : ℕ) :
    (start + periods * sec % 2 ^ 32) % 2 ^ 32 = start + periods * sec ↔
      start + periods * sec < 2 ^ 32 := by
  rw [wrapped_eq]
  constructor
  · intro h
    rw [← h]
    exact Nat.mod_lt _ (by norm_num)
  · exact Nat.mod_eq_of_lt

namespace State

variable {s s' : State}

/-- What a permission is after it has been created. -/
lemma withdrawPermissionCreate_eq_ok {op : WithdrawPermissionCreate}
    (h : s.withdrawPermissionCreate op = .ok s') :
    op.Valid ∧ s.time < op.periodStartTime ∧ s'.time = s.time ∧
      s'.permissions.lookup s.nextPermission = some {
        withdrawFromAccount := op.withdrawFromAccount
        authorizedAccount := op.authorizedAccount
        withdrawalLimit := op.withdrawalLimit
        withdrawalAsset := op.withdrawalAsset
        withdrawalPeriodSec := op.withdrawalPeriodSec
        expiration := op.expiration
        periodStartTime := op.periodStartTime
        authorizedIdentify := op.authorizedIdentify } := by
  simp only [withdrawPermissionCreate, except_bind_eq_ok] at h
  obtain ⟨⟨⟩, heval, h⟩ := h
  simp only [evaluateWithdrawPermissionCreate, except_bind_eq_ok, orThrow_eq_ok, fcAssert_eq_ok,
    exists_const] at heval
  obtain ⟨_, -, _, -, _, -, hstart, -, -, -, hvalid, -⟩ := heval
  cases h
  exact ⟨hvalid, hstart, rfl, AList.lookup_insert _⟩

/-- What a permission is after it has been updated. -/
lemma withdrawPermissionUpdate_eq_ok {op : WithdrawPermissionUpdate}
    (h : s.withdrawPermissionUpdate op = .ok s') :
    op.Valid ∧ s.time ≤ op.periodStartTime ∧ s'.time = s.time ∧
      ∃ p, s.permissions.lookup op.permissionToUpdate = some p ∧
        p.authorizedAccount = op.authorizedAccount ∧
        p.withdrawFromAccount = op.withdrawFromAccount ∧
        s'.permissions.lookup op.permissionToUpdate = some { p with
          periodStartTime := op.periodStartTime
          expiration := op.expiration
          withdrawalLimit := op.withdrawalLimit
          withdrawalAsset := op.withdrawalAsset
          withdrawalPeriodSec := op.withdrawalPeriodSec } := by
  simp only [withdrawPermissionUpdate, except_bind_eq_ok, fcAssert_eq_ok, orThrow_eq_ok,
    exists_const] at h
  obtain ⟨hvalid, ⟨⟩, heval, p, hp, h⟩ := h
  simp only [evaluateWithdrawPermissionUpdate, except_bind_eq_ok, orThrow_eq_ok, fcAssert_eq_ok,
    exists_const] at heval
  obtain ⟨p', hp', hauthorized, hfrom, -, -, -, hstart, -⟩ := heval
  cases hp.symm.trans hp'
  cases h
  exact ⟨hvalid, hstart, rfl, p, hp, hauthorized, hfrom, AList.lookup_insert _⟩

end State

/-- A permission whose expiration is the 32 bits of the formula. -/
lemma exactLifetime_iff_lt {p : WithdrawPermission} {start periods sec : ℕ}
    (hstart : p.periodStartTime = start)
    (hexpiration : p.expiration = (start + periods * sec % 2 ^ 32) % 2 ^ 32)
    (hperiods : 0 < periods) (hsec : 0 < sec) :
    ExactLifetime p start periods sec ↔ start + periods * sec < 2 ^ 32 := by
  have hpos : 0 < periods * sec := Nat.mul_pos hperiods hsec
  rw [← wrapped_eq_iff, ← hexpiration]
  constructor
  · exact fun h => h.expiration
  · intro h
    exact ⟨h, hstart, by omega⟩

/-- **The lifetime of a permission is exact iff it ends within 32 bits**, whether the permission is new or
updated. -/
theorem exactLifetime_iff (s s' : State) :
    (∀ op : WithdrawPermissionCreate, s.withdrawPermissionCreate op = .ok s' →
      ∃ p, s'.permissions.lookup s.nextPermission = some p ∧
        (ExactLifetime p op.periodStartTime op.periodsUntilExpiration op.withdrawalPeriodSec ↔
          op.periodStartTime + op.periodsUntilExpiration * op.withdrawalPeriodSec < 2 ^ 32)) ∧
    ∀ op : WithdrawPermissionUpdate, s.withdrawPermissionUpdate op = .ok s' →
      ∃ p, s'.permissions.lookup op.permissionToUpdate = some p ∧
        (ExactLifetime p op.periodStartTime op.periodsUntilExpiration op.withdrawalPeriodSec ↔
          op.periodStartTime + op.periodsUntilExpiration * op.withdrawalPeriodSec < 2 ^ 32) := by
  constructor
  · intro op h
    obtain ⟨⟨-, -, -, hsec, hperiods⟩, -, -, hp⟩ := State.withdrawPermissionCreate_eq_ok h
    exact ⟨_, hp, exactLifetime_iff_lt rfl rfl hperiods hsec⟩
  · intro op h
    obtain ⟨⟨-, -, hsec, -, hperiods⟩, -, -, _, -, -, -, hp⟩ :=
      State.withdrawPermissionUpdate_eq_ok h
    exact ⟨_, hp, exactLifetime_iff_lt rfl rfl hperiods hsec⟩

/-- An account with something to permit another one to withdraw. -/
def grantor : State where
  time := 100
  accounts := AList.insert 1 {} (AList.insert 2 {} ∅)
  balances := AList.insert (1, 1) 1000 ∅
  assets := AList.insert 1 { issuer := 3 } ∅

/-- A permission of so many periods of `2 ^ 16` seconds. -/
def permit (periods : ℕ) : WithdrawPermissionCreate where
  fee := 0
  withdrawFromAccount := 1
  authorizedAccount := 2
  withdrawalLimit := 70
  withdrawalAsset := 1
  withdrawalPeriodSec := 65536
  periodsUntilExpiration := periods
  periodStartTime := 200

/-- The permission is to last two periods of an hour. -/
def shorten : WithdrawPermissionUpdate where
  fee := 0
  withdrawFromAccount := 1
  authorizedAccount := 2
  permissionToUpdate := 0
  withdrawalLimit := 50
  withdrawalAsset := 1
  withdrawalPeriodSec := 3600
  periodStartTime := 100
  periodsUntilExpiration := 2

/-- A permission that is created with one period, and one that is updated. -/
theorem exactLifetime_iff_permit : ∃ s' s'', grantor.withdrawPermissionCreate (permit 1) = .ok s' ∧
    s'.withdrawPermissionUpdate shorten = .ok s'' ∧
    (∃ p, s'.permissions.lookup grantor.nextPermission = some p ∧
      (ExactLifetime p 200 1 65536 ↔ 200 + 1 * 65536 < 2 ^ 32)) ∧
    ∃ p, s''.permissions.lookup 0 = some p ∧
      (ExactLifetime p 100 2 3600 ↔ 100 + 2 * 3600 < 2 ^ 32) := by
  obtain ⟨s', h⟩ : ∃ s', grantor.withdrawPermissionCreate (permit 1) = .ok s' :=
    exists_eq_ok (by decide +kernel)
  obtain ⟨s'', h'⟩ : ∃ s'', s'.withdrawPermissionUpdate shorten = .ok s'' := by
    refine exists_eq_ok ?_
    cases h
    decide +kernel
  exact ⟨s', s'', h, h', (exactLifetime_iff grantor s').1 (permit 1) h,
    (exactLifetime_iff s' s'').2 shorten h'⟩

/-- `2 ^ 16 + 1` periods of `2 ^ 16` seconds are one in 32 bits. -/
theorem not_exactLifetime : ¬ ∀ (s s' : State) (op : WithdrawPermissionCreate),
    s.withdrawPermissionCreate op = .ok s' →
      ∃ p, s'.permissions.lookup s.nextPermission = some p ∧
        ExactLifetime p op.periodStartTime op.periodsUntilExpiration op.withdrawalPeriodSec := by
  intro h
  obtain ⟨s', hs'⟩ : ∃ s', grantor.withdrawPermissionCreate (permit 65537) = .ok s' :=
    exists_eq_ok (by decide +kernel)
  obtain ⟨p, hp, hexact⟩ := h grantor s' (permit 65537) hs'
  obtain ⟨-, -, -, hlookup⟩ := State.withdrawPermissionCreate_eq_ok hs'
  cases hp.symm.trans hlookup
  exact absurd hexact.expiration (by decide)

/-! ### Claims -/

/-- What a claim makes of the permission. -/
def WithdrawPermission.claimed (p : WithdrawPermission) (now : ℕ) (amount : ℤ) :
    WithdrawPermission :=
  let periods := (now - p.periodStartTime) / p.withdrawalPeriodSec
  { p with
    periodStartTime := (p.periodStartTime + periods * p.withdrawalPeriodSec) % 2 ^ 32
    claimedTotal := p.claimedTotal + amount
    claimedThisPeriod := if periods = 0 then p.claimedThisPeriod + amount else amount }

/-- What a claim has checked, and what it does. -/
lemma State.withdrawPermissionClaim_eq_ok {s s' : State} {op : WithdrawPermissionClaim}
    (h : s.withdrawPermissionClaim op = .ok s') :
    ∃ p, s.permissions.lookup op.withdrawPermission = some p ∧ 0 < op.amountToWithdraw ∧
      p.periodStartTime ≤ s.time ∧ s.time < p.expiration ∧
      op.amountToWithdraw ≤ p.availableThisPeriod s.time ∧
      s'.permissions.lookup op.withdrawPermission =
        some (p.claimed s.time op.amountToWithdraw) ∧ s'.time = s.time := by
  simp only [withdrawPermissionClaim, except_bind_eq_ok, fcAssert_eq_ok, orThrow_eq_ok,
    exists_const] at h
  obtain ⟨⟨-, hpos, -⟩, ⟨⟩, heval, p, hp, s₁, h₁, h₂⟩ := h
  simp only [evaluateWithdrawPermissionClaim, except_bind_eq_ok, orThrow_eq_ok, fcAssert_eq_ok,
    exists_const] at heval
  obtain ⟨p', hp', hexpiration, -, -, -, hstart, havailable, -⟩ := heval
  cases hp.symm.trans hp'
  obtain ⟨b₁, rfl⟩ := (State.adjusted h₁).others
  obtain ⟨b₂, rfl⟩ := (State.adjusted h₂).others
  exact ⟨p, hp, hpos, hstart, hexpiration, havailable, AList.lookup_insert _, rfl⟩

/-- Claims on a permission, with their times, while anything else may happen that leaves the permission
alone. -/
inductive ClaimRun (id : ℕ) (s₀ : State) : List (ℕ × ℤ) → State → Prop where
  | start : ClaimRun id s₀ [] s₀
  | other {es : List (ℕ × ℤ)} {s s' : State} : ClaimRun id s₀ es s → s.time ≤ s'.time →
      s'.permissions.lookup id = s.permissions.lookup id → ClaimRun id s₀ es s'
  | claim {es : List (ℕ × ℤ)} {s s' : State} {op : WithdrawPermissionClaim} :
      ClaimRun id s₀ es s → op.withdrawPermission = id → s.withdrawPermissionClaim op = .ok s' →
      ClaimRun id s₀ (es ++ [(s.time, op.amountToWithdraw)]) s'

/-- What has been claimed from one time on and before another. -/
def claimedIn (es : List (ℕ × ℤ)) (start stop : ℕ) : ℤ :=
  ((es.filter fun e => start ≤ e.1 ∧ e.1 < stop).map (·.2)).sum

/-- The beginning of the period `k`. -/
def WithdrawPermission.periodStart (p : WithdrawPermission) (k : ℕ) : ℕ :=
  p.periodStartTime + k * p.withdrawalPeriodSec

/-- Every period that begins before the expiration ends before `2 ^ 32`. -/
def WithdrawPermission.PeriodsFit (p : WithdrawPermission) : Prop :=
  ∀ k, p.periodStart k < p.expiration → p.periodStart (k + 1) < 2 ^ 32

/-- The claims on a permission that was `p₀` at first and is `p` now have kept to its limit. -/
structure LimitsEveryPeriod (p₀ : WithdrawPermission) (es : List (ℕ × ℤ))
    (p : WithdrawPermission) : Prop where
  /-- In no period is more claimed than the limit. -/
  limited : ∀ k, claimedIn es (p₀.periodStart k) (p₀.periodStart (k + 1)) ≤ p₀.withdrawalLimit
  /-- All claims are counted. -/
  total : p.claimedTotal = p₀.claimedTotal + (es.map (·.2)).sum
  /-- The current period is one of the periods. -/
  aligned : ∃ k, p.periodStartTime = p₀.periodStart k
  /-- The expiration is as it was. -/
  expiration : p.expiration = p₀.expiration
  /-- A claim before the current period or from the expiration on is rejected. -/
  rejected : ∀ (s s' : State) (op : WithdrawPermissionClaim),
    s.permissions.lookup op.withdrawPermission = some p →
    s.time < p.periodStartTime ∨ p.expiration ≤ s.time → s.withdrawPermissionClaim op ≠ .ok s'

/-! ### What has been claimed in a period -/

section

variable {es : List (ℕ × ℤ)} {e : ℕ × ℤ} {start stop : ℕ}

lemma claimedIn_append (es : List (ℕ × ℤ)) (e : ℕ × ℤ) (start stop : ℕ) :
    claimedIn (es ++ [e]) start stop =
      claimedIn es start stop + if start ≤ e.1 ∧ e.1 < stop then e.2 else 0 := by
  rw [claimedIn, List.filter_append, List.map_append, List.sum_append, claimedIn]
  split_ifs with h <;> simp [h]

/-- Nothing has been claimed after the last claim. -/
lemma claimedIn_eq_zero (h : ∀ e ∈ es, e.1 < start) : claimedIn es start stop = 0 := by
  have hnone : es.filter (fun e => start ≤ e.1 ∧ e.1 < stop) = [] := by
    refine List.filter_eq_nil_iff.mpr fun e he => ?_
    have := h e he
    simp only [decide_eq_true_eq]
    omega
  rw [claimedIn, hnone]
  rfl

end

section

variable {p p₀ : WithdrawPermission} {es : List (ℕ × ℤ)} {now k k' : ℕ} {amount : ℤ}

lemma WithdrawPermission.periodStart_succ (p : WithdrawPermission) (k : ℕ) :
    p.periodStart (k + 1) = p.periodStart k + p.withdrawalPeriodSec := by
  rw [periodStart, periodStart, add_one_mul, add_assoc]

lemma WithdrawPermission.periodStart_mono (h : k ≤ k') : p.periodStart k ≤ p.periodStart k' :=
  Nat.add_le_add_left (Nat.mul_le_mul_right _ h) _

/-- A time is in one period at most. -/
lemma WithdrawPermission.period_unique (h : p.periodStart k ≤ now ∧ now < p.periodStart (k + 1))
    (h' : p.periodStart k' ≤ now ∧ now < p.periodStart (k' + 1)) : k = k' := by
  rcases lt_trichotomy k k' with hlt | heq | hlt
  · exact absurd (h'.1.trans_lt h.2) (not_lt.mpr (periodStart_mono hlt))
  · exact heq
  · exact absurd (h.1.trans_lt h'.2) (not_lt.mpr (periodStart_mono hlt))

/-! ### The run -/

/-- What a run keeps: the permission is in the period `k`, knows what has been claimed in it (and what
had been, before the run, if it is the first), and no claim is from later. -/
structure Metered (p₀ : WithdrawPermission) (es : List (ℕ × ℤ)) (p : WithdrawPermission) (k : ℕ) :
    Prop where
  period : p.periodStartTime = p₀.periodStart k
  periodSec : p.withdrawalPeriodSec = p₀.withdrawalPeriodSec
  limit : p.withdrawalLimit = p₀.withdrawalLimit
  expiration : p.expiration = p₀.expiration
  total : p.claimedTotal = p₀.claimedTotal + (es.map (·.2)).sum
  claimed : p.claimedThisPeriod = (if k = 0 then p₀.claimedThisPeriod else 0) +
    claimedIn es (p₀.periodStart k) (p₀.periodStart (k + 1))
  before : ∀ e ∈ es, e.1 < p₀.periodStart (k + 1)
  limited : ∀ j, claimedIn es (p₀.periodStart j) (p₀.periodStart (j + 1)) ≤ p₀.withdrawalLimit

/-- A claim in a period counts towards that period only. -/
lemma claimedIn_append_of_mem (hnow : p.periodStart k ≤ now ∧ now < p.periodStart (k + 1)) (j : ℕ) :
    claimedIn (es ++ [(now, amount)]) (p.periodStart j) (p.periodStart (j + 1)) =
      claimedIn es (p.periodStart j) (p.periodStart (j + 1)) + if j = k then amount else 0 := by
  rw [claimedIn_append]
  by_cases hj : j = k
  · rw [if_pos hj, if_pos (hj ▸ hnow)]
  · have hout : ¬ (p.periodStart j ≤ now ∧ now < p.periodStart (j + 1)) :=
      fun h => hj (WithdrawPermission.period_unique h hnow)
    rw [if_neg hj, if_neg hout]

lemma sum_append (es : List (ℕ × ℤ)) (e : ℕ × ℤ) :
    ((es ++ [e]).map (·.2)).sum = (es.map (·.2)).sum + e.2 := by
  simp

/-- A claim in the current period. -/
lemma Metered.claim_same (h : Metered p₀ es p k) (hclaimed : 0 ≤ p₀.claimedThisPeriod)
    (hstart : p₀.periodStart k ≤ now) (hstop : now < p₀.periodStart (k + 1))
    (hends : p₀.periodStart (k + 1) < 2 ^ 32) (hlimit : p.claimedThisPeriod + amount ≤ p₀.withdrawalLimit) :
    Metered p₀ (es ++ [(now, amount)]) (p.claimed now amount) k := by
  have hperiods : (now - p.periodStartTime) / p.withdrawalPeriodSec = 0 := by
    refine Nat.div_eq_of_lt ?_
    rw [WithdrawPermission.periodStart_succ, ← h.period, ← h.periodSec] at hstop
    rw [← h.period] at hstart
    omega
  have hsame : p.claimed now amount = { p with
      claimedTotal := p.claimedTotal + amount
      claimedThisPeriod := p.claimedThisPeriod + amount } := by
    have hmod : (p.periodStartTime + 0 * p.withdrawalPeriodSec) % 2 ^ 32 = p.periodStartTime := by
      rw [zero_mul, add_zero, h.period, Nat.mod_eq_of_lt (by omega)]
    simp only [WithdrawPermission.claimed, hperiods, hmod, if_true]
  have hcount : ∀ j, claimedIn (es ++ [(now, amount)]) (p₀.periodStart j) (p₀.periodStart (j + 1)) =
      claimedIn es (p₀.periodStart j) (p₀.periodStart (j + 1)) + if j = k then amount else 0 :=
    claimedIn_append_of_mem ⟨hstart, hstop⟩
  rw [hsame]
  refine ⟨h.period, h.periodSec, h.limit, h.expiration, ?_, ?_, ?_, ?_⟩
  · rw [sum_append]
    show p.claimedTotal + amount = _
    rw [h.total, add_assoc]
  · rw [hcount, if_pos rfl]
    show p.claimedThisPeriod + amount = _
    rw [h.claimed, add_assoc]
  · intro e he
    rcases List.mem_append.mp he with he | he
    · exact h.before e he
    · rw [List.mem_singleton.mp he]
      exact hstop
  · intro j
    rw [hcount]
    by_cases hj : j = k
    · have hpart : claimedIn es (p₀.periodStart k) (p₀.periodStart (k + 1)) ≤ p.claimedThisPeriod := by
        rw [h.claimed]
        split_ifs <;> omega
      rw [if_pos hj, hj]
      omega
    · rw [if_neg hj, add_zero]
      exact h.limited j

/-- A claim after the current period begins a new one, and what was left of the limit does not carry
over. -/
lemma Metered.claim_later (h : Metered p₀ es p k) (hsec : 0 < p₀.withdrawalPeriodSec)
    (hstop : p₀.periodStart (k + 1) ≤ now) (hnow : now < 2 ^ 32)
    (hlimit : amount ≤ p₀.withdrawalLimit) :
    ∃ k', Metered p₀ (es ++ [(now, amount)]) (p.claimed now amount) k' := by
  obtain ⟨periods, hperiods⟩ : ∃ n, n = (now - p.periodStartTime) / p.withdrawalPeriodSec :=
    ⟨_, rfl⟩
  rw [WithdrawPermission.periodStart_succ, ← h.period, ← h.periodSec] at hstop
  rw [← h.periodSec] at hsec
  have hpositive : 0 < periods := by
    rw [hperiods]
    exact Nat.div_pos (by omega) hsec
  have hbegin : p₀.periodStart (k + periods) = p.periodStartTime + periods * p.withdrawalPeriodSec := by
    rw [h.period, h.periodSec, WithdrawPermission.periodStart, WithdrawPermission.periodStart,
      add_mul, add_assoc]
  have hfrom : p₀.periodStart (k + periods) ≤ now := by
    have := Nat.div_mul_le_self (now - p.periodStartTime) p.withdrawalPeriodSec
    rw [hbegin, hperiods]
    omega
  have hto : now < p₀.periodStart (k + periods + 1) := by
    have := Nat.lt_div_mul_add hsec (a := now - p.periodStartTime)
    rw [WithdrawPermission.periodStart_succ, hbegin, ← h.periodSec, hperiods]
    omega
  have hnew : p.claimed now amount = { p with
      periodStartTime := p₀.periodStart (k + periods)
      claimedTotal := p.claimedTotal + amount
      claimedThisPeriod := amount } := by
    simp only [WithdrawPermission.claimed, ← hperiods, if_neg hpositive.ne', ← hbegin,
      Nat.mod_eq_of_lt (hfrom.trans_lt hnow)]
  have hcount : ∀ j, claimedIn (es ++ [(now, amount)]) (p₀.periodStart j) (p₀.periodStart (j + 1)) =
      claimedIn es (p₀.periodStart j) (p₀.periodStart (j + 1)) +
        if j = k + periods then amount else 0 :=
    claimedIn_append_of_mem ⟨hfrom, hto⟩
  have hnone : claimedIn es (p₀.periodStart (k + periods)) (p₀.periodStart (k + periods + 1)) = 0 :=
    claimedIn_eq_zero fun e he =>
      (h.before e he).trans_le (WithdrawPermission.periodStart_mono (by omega))
  refine ⟨k + periods, ?_⟩
  rw [hnew]
  refine ⟨rfl, h.periodSec, h.limit, h.expiration, ?_, ?_, ?_, ?_⟩
  · rw [sum_append]
    show p.claimedTotal + amount = _
    rw [h.total, add_assoc]
  · rw [hcount, hnone, if_pos rfl, if_neg (by omega)]
    show amount = _
    ring
  · intro e he
    rcases List.mem_append.mp he with he | he
    · exact (h.before e he).trans_le (WithdrawPermission.periodStart_mono (by omega))
    · rw [List.mem_singleton.mp he]
      exact hto
  · intro j
    rw [hcount]
    by_cases hj : j = k + periods
    · rw [if_pos hj, hj, hnone, zero_add]
      exact hlimit
    · rw [if_neg hj, add_zero]
      exact h.limited j

/-- **A claim** that is accepted leaves the permission metered, if the end of its period fits. -/
theorem Metered.claim (h : Metered p₀ es p k) (hfit : p₀.PeriodsFit)
    (hsec : 0 < p₀.withdrawalPeriodSec) (hclaimed : 0 ≤ p₀.claimedThisPeriod)
    (hexpiration : p₀.expiration < 2 ^ 32)
    (hstart : p.periodStartTime ≤ now) (hbefore : now < p.expiration) (hpos : 0 < amount)
    (havailable : amount ≤ p.availableThisPeriod now) :
    ∃ k', Metered p₀ (es ++ [(now, amount)]) (p.claimed now amount) k' := by
  have hend : p.periodStartTime + p.withdrawalPeriodSec = p₀.periodStart (k + 1) := by
    rw [h.period, h.periodSec, WithdrawPermission.periodStart_succ]
  rw [h.period] at hstart
  rw [h.expiration] at hbefore
  have hends : p₀.periodStart (k + 1) < 2 ^ 32 := hfit k (hstart.trans_lt hbefore)
  rw [WithdrawPermission.availableThisPeriod, hend, Nat.mod_eq_of_lt hends, h.limit] at havailable
  by_cases hstop : p₀.periodStart (k + 1) ≤ now
  · rw [if_pos hstop] at havailable
    exact h.claim_later hsec hstop (by omega) havailable
  · rw [if_neg hstop] at havailable
    split_ifs at havailable with hleft
    · exact ⟨k, h.claim_same hclaimed hstart (by omega) hends (by omega)⟩
    · exact absurd hpos (by omega)

end

/-! ### Where the claims begin -/

/-- The life of a permission: it is created, and then claimed and updated, while anything else may
happen. The periods of the operations are 32 bits. -/
inductive Life (id : ℕ) : State → Prop where
  | created {s s' : State} {op : WithdrawPermissionCreate} : op.withdrawalPeriodSec < 2 ^ 32 →
      s.withdrawPermissionCreate op = .ok s' → s.nextPermission = id → Life id s'
  | other {s s' : State} : Life id s → s.time ≤ s'.time →
      s'.permissions.lookup id = s.permissions.lookup id → Life id s'
  | claimed {s s' : State} {op : WithdrawPermissionClaim} : Life id s →
      op.withdrawPermission = id → s.withdrawPermissionClaim op = .ok s' → Life id s'
  | updated {s s' : State} {op : WithdrawPermissionUpdate} : op.withdrawalPeriodSec < 2 ^ 32 →
      Life id s → op.permissionToUpdate = id → s.withdrawPermissionUpdate op = .ok s' → Life id s'

/-- The permission has just been created or updated. -/
inductive Begun (id : ℕ) : State → Prop where
  | created {s s' : State} {op : WithdrawPermissionCreate} : op.withdrawalPeriodSec < 2 ^ 32 →
      s.withdrawPermissionCreate op = .ok s' → s.nextPermission = id → Begun id s'
  | updated {s s' : State} {op : WithdrawPermissionUpdate} : op.withdrawalPeriodSec < 2 ^ 32 →
      Life id s → op.permissionToUpdate = id → s.withdrawPermissionUpdate op = .ok s' → Begun id s'

/-- What holds of a permission throughout its life. -/
structure WithdrawPermission.Sound (p : WithdrawPermission) : Prop where
  limit : 0 < p.withdrawalLimit
  periodSec : 0 < p.withdrawalPeriodSec ∧ p.withdrawalPeriodSec < 2 ^ 32
  parties : p.authorizedAccount ≠ p.withdrawFromAccount
  claimed : 0 ≤ p.claimedThisPeriod
  expiration : p.expiration < 2 ^ 32

section

variable {id : ℕ} {s s' s₀ : State} {p p₀ : WithdrawPermission} {es : List (ℕ × ℤ)}

/-- A new permission is sound, and begins after the time. -/
lemma sound_created {op : WithdrawPermissionCreate} (hop : op.withdrawalPeriodSec < 2 ^ 32)
    (h : s.withdrawPermissionCreate op = .ok s') :
    ∃ p, s'.permissions.lookup s.nextPermission = some p ∧ p.Sound ∧
      s'.time ≤ p.periodStartTime := by
  obtain ⟨⟨-, hparties, hlimit, hsec, -⟩, hstart, htime, hp⟩ := State.withdrawPermissionCreate_eq_ok h
  refine ⟨_, hp, ⟨hlimit, ⟨hsec, hop⟩, hparties.symm, le_rfl, Nat.mod_lt _ (by norm_num)⟩, ?_⟩
  rw [htime]
  exact hstart.le

/-- A sound permission is sound after an update, and begins no earlier than the time. -/
lemma sound_updated {op : WithdrawPermissionUpdate} (hop : op.withdrawalPeriodSec < 2 ^ 32)
    (h : s.withdrawPermissionUpdate op = .ok s')
    (hsound : ∀ p, s.permissions.lookup op.permissionToUpdate = some p → p.Sound) :
    ∃ p, s'.permissions.lookup op.permissionToUpdate = some p ∧ p.Sound ∧
      s'.time ≤ p.periodStartTime := by
  obtain ⟨⟨hlimit, -, hsec, -, -⟩, hstart, htime, p, hp, -, -, hp'⟩ :=
    State.withdrawPermissionUpdate_eq_ok h
  have hbefore := hsound p hp
  refine ⟨_, hp', ⟨hlimit, ⟨hsec, hop⟩, hbefore.parties, hbefore.claimed,
    Nat.mod_lt _ (by norm_num)⟩, ?_⟩
  rw [htime]
  exact hstart

/-- A permission is sound throughout its life. -/
lemma Life.sound (h : Life id s) : ∃ p, s.permissions.lookup id = some p ∧ p.Sound := by
  induction h with
  | created hop h hid =>
      obtain ⟨p, hp, hsound, -⟩ := sound_created hop h
      exact ⟨p, hid ▸ hp, hsound⟩
  | other _ _ hsame ih =>
      obtain ⟨p, hp, hsound⟩ := ih
      exact ⟨p, hsame.trans hp, hsound⟩
  | claimed _ hid h ih =>
      obtain ⟨p, hp, hsound⟩ := ih
      obtain ⟨p', hp', hpos, -, -, -, hclaimed, -⟩ := State.withdrawPermissionClaim_eq_ok h
      rw [hid] at hp' hclaimed
      cases hp.symm.trans hp'
      refine ⟨_, hclaimed, hsound.limit, hsound.periodSec, hsound.parties, ?_, hsound.expiration⟩
      have := hsound.claimed
      show 0 ≤ if _ = 0 then _ else _
      split_ifs <;> omega
  | updated hop _ hid h ih =>
      obtain ⟨p, hp, hsound⟩ := ih
      obtain ⟨p', hp', hsound', -⟩ := sound_updated hop h fun q hq => by
        cases hp.symm.trans (hid ▸ hq)
        exact hsound
      exact ⟨p', hid ▸ hp', hsound'⟩

/-- A permission is sound where the claims begin, and begins no earlier than the time. -/
lemma Begun.sound (h : Begun id s) :
    ∃ p, s.permissions.lookup id = some p ∧ p.Sound ∧ s.time ≤ p.periodStartTime := by
  cases h with
  | created hop h hid =>
      obtain ⟨p, hp, hsound⟩ := sound_created hop h
      exact ⟨p, hid ▸ hp, hsound⟩
  | updated hop hlife hid h =>
      obtain ⟨p, hp, hsound⟩ := hlife.sound
      obtain ⟨p', hp', hsound'⟩ := sound_updated hop h fun q hq => by
        cases hp.symm.trans (hid ▸ hq)
        exact hsound
      exact ⟨p', hid ▸ hp', hsound'⟩

/-- **A run of claims** leaves the permission metered, if its periods fit. -/
theorem ClaimRun.metered (h : ClaimRun id s₀ es s) (hp₀ : s₀.permissions.lookup id = some p₀)
    (hsound : p₀.Sound) (hfit : p₀.PeriodsFit) :
    ∃ p k, s.permissions.lookup id = some p ∧ Metered p₀ es p k := by
  induction h with
  | start =>
      refine ⟨p₀, 0, hp₀, ?_, rfl, rfl, rfl, ?_, ?_, ?_, fun j => hsound.limit.le⟩
      · rw [WithdrawPermission.periodStart, zero_mul, add_zero]
      · exact (add_zero _).symm
      · exact (add_zero _).symm
      · exact fun e he => absurd he List.not_mem_nil
  | other _ _ hsame ih =>
      obtain ⟨p, k, hp, hmetered⟩ := ih
      exact ⟨p, k, hsame.trans hp, hmetered⟩
  | claim _ hid h ih =>
      obtain ⟨p, k, hp, hmetered⟩ := ih
      obtain ⟨p', hp', hpos, hstart, hbefore, havailable, hclaimed, -⟩ :=
        State.withdrawPermissionClaim_eq_ok h
      rw [hid] at hp' hclaimed
      cases hp.symm.trans hp'
      obtain ⟨k', hmetered'⟩ := hmetered.claim hfit hsound.periodSec.1 hsound.claimed
        hsound.expiration hstart hbefore hpos havailable
      exact ⟨_, k', hclaimed, hmetered'⟩

/-- A metered permission keeps to its limit. -/
lemma Metered.limitsEveryPeriod {k : ℕ} (h : Metered p₀ es p k) : LimitsEveryPeriod p₀ es p where
  limited := h.limited
  total := h.total
  aligned := ⟨k, h.period⟩
  expiration := h.expiration
  rejected s s' op hp hout hclaim := by
    obtain ⟨p', hp', -, hstart, hbefore, -⟩ := State.withdrawPermissionClaim_eq_ok hclaim
    cases hp.symm.trans hp'
    omega

/-! ### Periods that do not fit -/

/-- A state in which as much as the limit is there to be claimed. -/
def generous (id : ℕ) (p : WithdrawPermission) (now : ℕ) : State where
  time := now
  accounts := AList.insert p.authorizedAccount {} ∅
  assets := AList.insert p.withdrawalAsset { issuer := 0 } ∅
  balances := AList.insert (p.withdrawFromAccount, p.withdrawalAsset) p.withdrawalLimit ∅
  permissions := AList.insert id p ∅

/-- A claim of as much as the limit. -/
def claimLimit (id : ℕ) (p : WithdrawPermission) : WithdrawPermissionClaim where
  fee := 0
  withdrawPermission := id
  withdrawFromAccount := p.withdrawFromAccount
  withdrawToAccount := p.authorizedAccount
  amountToWithdraw := p.withdrawalLimit
  asset := p.withdrawalAsset

/-- All of a balance is taken. -/
lemma State.adjustBalance_all {account asset : ℕ} {balance : ℤ}
    (h : s.balances.lookup (account, asset) = some balance) (hpos : 0 < balance) :
    s.adjustBalance account asset (-balance) = .ok { s with
      balances := s.balances.insert (account, asset) (balance + -balance) } := by
  rw [State.adjustBalance, if_neg (by omega), h]
  exact if_neg (by omega)

/-- Something is given where there is no balance. -/
lemma State.adjustBalance_first {account asset : ℕ} {amount : ℤ}
    (h : s.balances.lookup (account, asset) = none) (hpos : 0 < amount) :
    s.adjustBalance account asset amount = .ok { s with
      balances := s.balances.insert (account, asset) amount } := by
  rw [State.adjustBalance, if_neg (by omega), h]
  exact if_pos hpos

/-- There a claim of as much as the limit is accepted. -/
lemma exists_claimLimit {now : ℕ} (hsound : p.Sound) (hstart : p.periodStartTime ≤ now)
    (hbefore : now < p.expiration) (havailable : p.availableThisPeriod now = p.withdrawalLimit) :
    ∃ s', (generous id p now).withdrawPermissionClaim (claimLimit id p) = .ok s' := by
  have hpos := hsound.limit
  have hvalid : (claimLimit id p).Valid := ⟨hsound.parties, hpos, le_rfl, by simp [MemoFits, claimLimit]⟩
  have hauthorized : ({} : Account).isAuthorizedAsset p.withdrawalAsset { issuer := 0 } = true := by
    simp [Account.isAuthorizedAsset]
  have hbalance : (generous id p now).getBalance p.withdrawFromAccount p.withdrawalAsset =
      p.withdrawalLimit := by
    rw [State.getBalance, generous, AList.lookup_insert]
    rfl
  have heval : (generous id p now).evaluateWithdrawPermissionClaim (claimLimit id p) = .ok () := by
    simp only [State.evaluateWithdrawPermissionClaim, except_bind_eq_ok, orThrow_eq_ok,
      fcAssert_eq_ok, exists_const]
    refine ⟨p, AList.lookup_insert _, hbefore, rfl, rfl, rfl, hstart, havailable.ge, ?_, _,
      AList.lookup_insert _, fun h => absurd h (by decide), _, AList.lookup_insert _, _,
      AList.lookup_insert _, by decide, by decide, hauthorized, hauthorized,
      fun h => absurd h (by decide)⟩
    exact hbalance.ge
  simp only [State.withdrawPermissionClaim, except_bind_eq_ok, fcAssert_eq_ok, orThrow_eq_ok,
    exists_const]
  refine ⟨_, hvalid, (), heval, p, AList.lookup_insert _, _,
    State.adjustBalance_all (AList.lookup_insert _) hpos, State.adjustBalance_first ?_ hpos⟩
  have hne : (p.authorizedAccount, p.withdrawalAsset) ≠ (p.withdrawFromAccount, p.withdrawalAsset) :=
    fun h => hsound.parties (Prod.ext_iff.mp h).1
  exact (AList.lookup_insert_ne hne).trans (AList.lookup_insert_ne hne)

lemma WithdrawPermission.Sound.claimed_sound {now : ℕ} (h : p.Sound) :
    (p.claimed now p.withdrawalLimit).Sound := by
  have hclaimed := h.claimed
  have hlimit := h.limit
  refine ⟨h.limit, h.periodSec, h.parties, ?_, h.expiration⟩
  show 0 ≤ if _ = 0 then _ else _
  split_ifs <;> omega

/-- If the period that begins now does not fit, the limit is available, whatever has been claimed. -/
lemma available_of_not_fit {k : ℕ} (hsound : p.Sound) (hbefore : p.periodStart k < p.expiration)
    (hover : 2 ^ 32 ≤ p.periodStart (k + 1)) :
    p.availableThisPeriod (p.periodStart k) = p.withdrawalLimit := by
  have hsec := hsound.periodSec.2
  have hexpiration := hsound.expiration
  refine if_pos ?_
  rw [WithdrawPermission.periodStart_succ] at hover
  cases k with
  | zero =>
      have hfirst : p.periodStart 0 = p.periodStartTime := by
        rw [WithdrawPermission.periodStart, zero_mul, add_zero]
      rw [hfirst] at hover hbefore ⊢
      omega
  | succ k =>
      have hle : p.periodStart 1 ≤ p.periodStart (k + 1) :=
        WithdrawPermission.periodStart_mono (by omega)
      have hone : p.periodStart 1 = p.periodStartTime + p.withdrawalPeriodSec := by
        rw [WithdrawPermission.periodStart, one_mul]
      calc (p.periodStartTime + p.withdrawalPeriodSec) % 2 ^ 32
          ≤ p.periodStartTime + p.withdrawalPeriodSec := Nat.mod_le _ _
        _ ≤ p.periodStart (k + 1) := hone ▸ hle

/-- The limit is claimed, where it is available. -/
lemma ClaimRun.claimLimit {now : ℕ} (h : ClaimRun id s₀ es s) (hp : s.permissions.lookup id = some p)
    (hsound : p.Sound) (htime : s.time ≤ now) (hstart : p.periodStartTime ≤ now)
    (hbefore : now < p.expiration) (havailable : p.availableThisPeriod now = p.withdrawalLimit) :
    ∃ s', ClaimRun id s₀ (es ++ [(now, p.withdrawalLimit)]) s' ∧
      s'.permissions.lookup id = some (p.claimed now p.withdrawalLimit) ∧ s'.time = now := by
  obtain ⟨s', hclaim⟩ : ∃ s', (generous id p now).withdrawPermissionClaim (ZosCore.Member.claimLimit id p) =
      .ok s' :=
    exists_claimLimit hsound hstart hbefore havailable
  have hlookup : (generous id p now).permissions.lookup id = some p := AList.lookup_insert _
  have hready : ClaimRun id s₀ es (generous id p now) := h.other htime (hlookup.trans hp.symm)
  obtain ⟨p', hp', -, -, -, -, hclaimed, htime'⟩ := State.withdrawPermissionClaim_eq_ok hclaim
  cases hlookup.symm.trans hp'
  exact ⟨s', hready.claim rfl hclaim, hclaimed, htime'⟩

/-- A claim at the beginning of a period moves the permission on to it. -/
lemma WithdrawPermission.claimed_periodStart {k : ℕ} {amount : ℤ} (hsec : 0 < p.withdrawalPeriodSec)
    (hend : p.periodStart k < 2 ^ 32) :
    (p.claimed (p.periodStart k) amount).periodStartTime = p.periodStart k := by
  have helapsed : p.periodStart k - p.periodStartTime = k * p.withdrawalPeriodSec := by
    rw [WithdrawPermission.periodStart, Nat.add_sub_cancel_left]
  show (p.periodStartTime + (p.periodStart k - p.periodStartTime) / p.withdrawalPeriodSec *
    p.withdrawalPeriodSec) % 2 ^ 32 = _
  rw [helapsed, Nat.mul_div_cancel _ hsec]
  exact Nat.mod_eq_of_lt hend

/-- Where a period does not fit, the limit can be claimed twice in it. -/
lemma exists_run_of_not_fit {k : ℕ} (hp₀ : s₀.permissions.lookup id = some p₀) (hsound : p₀.Sound)
    (htime : s₀.time ≤ p₀.periodStartTime) (hbefore : p₀.periodStart k < p₀.expiration)
    (hover : 2 ^ 32 ≤ p₀.periodStart (k + 1)) :
    ∃ es s, ClaimRun id s₀ es s ∧ ∀ p, ¬ LimitsEveryPeriod p₀ es p := by
  have hle : p₀.periodStartTime ≤ p₀.periodStart k := Nat.le_add_right _ _
  have hexpiration := hsound.expiration
  -- The first claim moves the permission on to the period that does not fit.
  obtain ⟨s₁, hrun₁, hp, htime₁⟩ := ClaimRun.start.claimLimit hp₀ hsound (htime.trans hle) hle hbefore
    (available_of_not_fit hsound hbefore hover)
  have hperiod : (p₀.claimed (p₀.periodStart k) p₀.withdrawalLimit).periodStartTime =
      p₀.periodStart k :=
    WithdrawPermission.claimed_periodStart hsound.periodSec.1 (hbefore.trans hexpiration)
  -- The second one finds all of the limit again.
  have hfirst : (p₀.claimed (p₀.periodStart k) p₀.withdrawalLimit).periodStart 0 = p₀.periodStart k := by
    rw [WithdrawPermission.periodStart, zero_mul, add_zero, hperiod]
  have hsecond : (p₀.claimed (p₀.periodStart k) p₀.withdrawalLimit).periodStart 1 =
      p₀.periodStart (k + 1) := by
    rw [WithdrawPermission.periodStart_succ, WithdrawPermission.periodStart_succ, hfirst]
    rfl
  have havailable := available_of_not_fit (k := 0) hsound.claimed_sound (hfirst.trans_lt hbefore)
    (hover.trans hsecond.ge)
  rw [hfirst] at havailable
  obtain ⟨s₂, hrun₂, -⟩ := hrun₁.claimLimit hp hsound.claimed_sound htime₁.le hperiod.le hbefore
    havailable
  refine ⟨_, s₂, hrun₂, fun p hlimits => ?_⟩
  have hmem : p₀.periodStart k ≤ p₀.periodStart k ∧ p₀.periodStart k < p₀.periodStart (k + 1) := by
    omega
  have hle := hlimits.limited k
  have hpos := hsound.limit
  rw [claimedIn_append, claimedIn_append, if_pos hmem, if_pos hmem] at hle
  change 0 + p₀.withdrawalLimit + p₀.withdrawalLimit ≤ _ at hle
  omega

/-- **The limit holds in every period of every run iff every period that begins before the expiration ends
before `2 ^ 32`.** -/
theorem limitsEveryPeriod_iff (id : ℕ) (s₀ : State) (p₀ : WithdrawPermission) (h : Begun id s₀)
    (hp₀ : s₀.permissions.lookup id = some p₀) :
    (∀ es s, ClaimRun id s₀ es s →
      ∃ p, s.permissions.lookup id = some p ∧ LimitsEveryPeriod p₀ es p) ↔ p₀.PeriodsFit := by
  obtain ⟨p, hp, hsound, htime⟩ := h.sound
  cases hp₀.symm.trans hp
  constructor
  · intro hlimits k hbefore
    by_contra hover
    obtain ⟨es, s, hrun, hbroken⟩ :=
      exists_run_of_not_fit hp₀ hsound htime hbefore (not_lt.mp hover)
    obtain ⟨p, -, hlimited⟩ := hlimits es s hrun
    exact hbroken p hlimited
  · intro hfit es s hrun
    obtain ⟨p, k, hp, hmetered⟩ := hrun.metered hp₀ hsound hfit
    exact ⟨p, hp, hmetered.limitsEveryPeriod⟩

end

/-- A new permission of one period. -/
theorem limitsEveryPeriod_iff_permit :
    ∃ s₀ p₀, grantor.withdrawPermissionCreate (permit 1) = .ok s₀ ∧
      s₀.permissions.lookup 0 = some p₀ ∧
      ((∀ es s, ClaimRun 0 s₀ es s →
        ∃ p, s.permissions.lookup 0 = some p ∧ LimitsEveryPeriod p₀ es p) ↔ p₀.PeriodsFit) := by
  obtain ⟨s₀, h⟩ : ∃ s₀, grantor.withdrawPermissionCreate (permit 1) = .ok s₀ :=
    exists_eq_ok (by decide +kernel)
  obtain ⟨-, -, -, hp⟩ := State.withdrawPermissionCreate_eq_ok h
  exact ⟨s₀, _, h, hp, limitsEveryPeriod_iff 0 s₀ _ (.created (by decide) h rfl) hp⟩

/-- Two periods of 95 years from 2023 on, neither of which ends within 32 bits. -/
def permitLong : WithdrawPermissionCreate where
  fee := 0
  withdrawFromAccount := 1
  authorizedAccount := 2
  withdrawalLimit := 70
  withdrawalAsset := 1
  withdrawalPeriodSec := 3000000000
  periodsUntilExpiration := 2
  periodStartTime := 1700000000

/-- The limit can be claimed twice in the first period. -/
theorem not_limitsEveryPeriod :
    ¬ ∀ (id : ℕ) (s₀ : State) (p₀ : WithdrawPermission), Begun id s₀ →
      s₀.permissions.lookup id = some p₀ → ∀ es s, ClaimRun id s₀ es s →
        ∃ p, s.permissions.lookup id = some p ∧ LimitsEveryPeriod p₀ es p := by
  intro h
  obtain ⟨s₀, hcreate⟩ : ∃ s₀, grantor.withdrawPermissionCreate permitLong = .ok s₀ :=
    exists_eq_ok (by decide +kernel)
  obtain ⟨-, -, -, hp₀⟩ := State.withdrawPermissionCreate_eq_ok hcreate
  have hbegun : Begun 0 s₀ := .created (by decide) hcreate rfl
  obtain ⟨p, hp, hsound, htime⟩ := hbegun.sound
  cases hp₀.symm.trans hp
  obtain ⟨es, s, hrun, hbroken⟩ := exists_run_of_not_fit (k := 0) hp₀ hsound htime (by decide) (by decide)
  obtain ⟨p, -, hlimited⟩ := h 0 s₀ _ hbegun hp₀ es s hrun
  exact hbroken p hlimited

end ZosCore.Member
