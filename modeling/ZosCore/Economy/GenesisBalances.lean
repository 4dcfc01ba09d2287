import ZosCore.Economy.LinearVesting
import ZosCore.Protocol.SafeInt

/-!
`balance_evaluator.cpp`, `balance_object.hpp` and `db_init.cpp`: the balances of the genesis state.

Such a balance is claimed by the owner of its address, all at once, or as it vests. What is claimed of a
vesting balance is tested against what is available only from above, so a negative amount can be claimed:
the account pays it into the balance. As far as it was claimed before this does no harm; beyond that
the balance exceeds the one that it began with, and nothing can be claimed any more.

* `BalanceObject`, `createBalance`, `createVestingBalance`: the objects, and how they come to be.
* `claim`: `validate`, `do_evaluate` and `do_apply`; `claim_eq_ok` says what an accepted claim does.
* `Run`: accepted claims one after the other. Between them the accounts change as they like.
* `AsScheduled`: what is promised of a balance; `Consistent`: what a run of claims keeps up.
* **`asScheduled_iff`**: the promise is kept throughout a run iff the initial balance is not negative
  and no claim takes back more than has been claimed before.
-/

namespace ZosCore.GenesisBalances

open CddVesting (AssetAmount)

/-! ### Balances -/

/-- `linear_vesting_policy` -/
structure LinearVestingPolicy where
  beginTimestamp : ℕ
  vestingCliffSeconds : ℕ
  vestingDurationSeconds : ℕ
  beginBalance : ℤ
  deriving DecidableEq

/-- The policy in the context of a balance. -/
def LinearVestingPolicy.context (p : LinearVestingPolicy) (balance : AssetAmount) :
    LinearVesting.VestingBalance where
  beginTimestamp := p.beginTimestamp
  vestingCliffSeconds := p.vestingCliffSeconds
  vestingDurationSeconds := p.vestingDurationSeconds
  beginBalance := p.beginBalance
  balance := balance

/-- `balance_object`, with owners that are addresses in `α`. -/
structure BalanceObject (α : Type) where
  owner : α
  balance : AssetAmount
  vestingPolicy : Option LinearVestingPolicy
  lastClaimDate : ℕ := 0
  deriving DecidableEq

variable {α κ : Type}

/-- `is_vesting_balance` -/
def BalanceObject.isVestingBalance (b : BalanceObject α) : Bool := b.vestingPolicy.isSome

/-- `available` -/
def BalanceObject.available (b : BalanceObject α) (now : ℕ) :
    Except LinearVesting.VestingError AssetAmount :=
  match b.vestingPolicy with
  | some p => (p.context b.balance).getAllowedWithdraw now
  | none => .ok b.balance

/-- `initial_balance_type` -/
structure InitialBalance (α : Type) where
  owner : α
  asset : ℕ
  amount : ℤ

/-- `initial_vesting_balance_type` -/
structure InitialVestingBalance (α : Type) extends InitialBalance α where
  beginTimestamp : ℕ
  vestingDurationSeconds : ℕ
  beginBalance : ℤ

/-- What `init_genesis` makes of an initial balance. -/
def createBalance (handout : InitialBalance α) : BalanceObject α where
  owner := handout.owner
  balance := ⟨handout.amount, handout.asset⟩
  vestingPolicy := none

/-- What `init_genesis` makes of an initial vesting balance. -/
def createVestingBalance (vest : InitialVestingBalance α) : Option (BalanceObject α) :=
  if vest.amount ≤ vest.beginBalance then
    some
      { owner := vest.owner
        balance := ⟨vest.amount, vest.asset⟩
        vestingPolicy := some
          { beginTimestamp := vest.beginTimestamp
            vestingCliffSeconds := 0
            vestingDurationSeconds := vest.vestingDurationSeconds
            beginBalance := vest.beginBalance } }
  else none

/-! ### Claims -/

/-- `balance_claim_operation` -/
structure BalanceClaim (κ : Type) where
  fee : AssetAmount
  depositToAccount : ℕ
  balanceOwnerId : ℕ
  balanceOwnerKey : κ
  totalClaimed : AssetAmount

/-- What a claim fails with. -/
inductive ClaimError where
  /-- `fee == asset()` -/
  | fee
  /-- `balance_owner_key != public_key_type() || !balance_owner_id.is_null()` -/
  | noOwner
  /-- There is no such account. -/
  | accountNotFound
  /-- `!is_lock_balance()` -/
  | lockBalance
  /-- `balance_claim_owner_mismatch` -/
  | ownerMismatch
  /-- `total_claimed.asset_id == asset_type()` -/
  | assetMismatch
  /-- An assertion of the policy. -/
  | policy (e : LinearVesting.VestingError)
  /-- `balance_claim_invalid_claim_amount` -/
  | invalidClaimAmount
  /-- `balance_claim_claimed_too_often` -/
  | claimedTooOften
  /-- `total_claimed == balance` -/
  | notWhole
  /-- An amount that has no place in 64 bits. -/
  | number (e : NumberError)
  /-- What an account has is less than what is taken from it. -/
  | insufficientBalance
  deriving DecidableEq

/-- What a claim reads of the accounts, and changes. -/
structure Accounts where
  /-- `is_lock_balance`; `none` for an account that does not exist. -/
  isLockBalance : ℕ → Option Bool
  /-- `account_balance_object`, by account and asset. -/
  balance : ℕ → ℕ → Option ℤ

/-- The balance of an account in an asset is set. -/
def Accounts.setBalance (accounts : Accounts) (account asset : ℕ) (x : ℤ) : Accounts where
  isLockBalance := accounts.isLockBalance
  balance := Function.update accounts.balance account
    (Function.update (accounts.balance account) asset (some x))

/-- `adjust_balance` -/
def Accounts.adjustBalance (accounts : Accounts) (account : ℕ) (delta : AssetAmount) :
    Except ClaimError Accounts :=
  if delta.amount = 0 then .ok accounts
  else
    match accounts.balance account delta.assetId with
    | none =>
        if delta.amount > 0 then .ok (accounts.setBalance account delta.assetId delta.amount)
        else .error .insufficientBalance
    | some x =>
        if delta.amount < 0 ∧ delta.amount = Safe.minimum then .error (.number .overflow)
        else if delta.amount < 0 ∧ ¬ x ≥ -delta.amount then .error .insufficientBalance
        else do
          let sum ← (Safe.add x delta.amount).mapError .number
          return accounts.setBalance account delta.assetId sum

/-- `fc::days(1)`, in seconds. -/
def secondsPerDay : ℕ := 86400

section Claim

variable [DecidableEq α] [DecidableEq κ] (nullKey : κ)

/-- The addresses that a key owns balances under: its own, and the four `pts_address`es of it. -/
structure KeyAddresses (α κ : Type) where
  address : κ → α
  /-- `pts_address(key, compressed, version)` -/
  ptsAddress : κ → Bool → ℕ → α

variable (addresses : KeyAddresses α κ)

/-- The test of the owner. -/
def Owns (key : κ) (owner : α) : Prop :=
  addresses.address key = owner ∨ addresses.ptsAddress key false 56 = owner ∨
    addresses.ptsAddress key true 56 = owner ∨ addresses.ptsAddress key false 0 = owner ∨
    addresses.ptsAddress key true 0 = owner

instance (key : κ) (owner : α) : Decidable (Owns addresses key owner) :=
  inferInstanceAs (Decidable (_ ∨ _))

/-- `validate` -/
def BalanceClaim.validate (op : BalanceClaim κ) : Except ClaimError Unit :=
  if op.fee ≠ ⟨0, 0⟩ then throw .fee
  else if ¬ (op.balanceOwnerKey ≠ nullKey ∨ op.balanceOwnerId ≠ 0) then throw .noOwner
  else pure ()

/-- `do_evaluate`; `skip` tells whether authorities or signatures are not checked. -/
def doEvaluate (skip : Bool) (b : BalanceObject α) (accounts : Accounts) (now : ℕ)
    (op : BalanceClaim κ) : Except ClaimError Unit :=
  match accounts.isLockBalance op.depositToAccount with
  | none => throw .accountNotFound
  | some true => throw .lockBalance
  | some false =>
      if ¬ Owns addresses op.balanceOwnerKey b.owner then throw .ownerMismatch
      else if ¬ skip ∧ op.totalClaimed.assetId ≠ b.balance.assetId then throw .assetMismatch
      else
        match b.vestingPolicy with
        | some p => do
            let allowed ←
              ((p.context b.balance).policyAllowsWithdraw now op.totalClaimed).mapError .policy
            if ¬ allowed then throw .invalidClaimAmount
            else if ¬ now ≥ b.lastClaimDate + secondsPerDay then throw .claimedTooOften
            else pure ()
        | none => if op.totalClaimed ≠ b.balance then throw .notWhole else pure ()

/-- What `do_apply` leaves of the balance: `none` when it is removed. -/
def remainder (b : BalanceObject α) (now : ℕ) (totalClaimed : AssetAmount) :
    Except ClaimError (Option (BalanceObject α)) :=
  if ¬ b.isVestingBalance then return none
  else if totalClaimed.assetId ≠ b.balance.assetId then throw .assetMismatch
  else if totalClaimed.amount < b.balance.amount then do
    let rest ← (Safe.sub b.balance.amount totalClaimed.amount).mapError .number
    return some { b with balance := ⟨rest, b.balance.assetId⟩, lastClaimDate := now }
  else return none

/-- `do_apply` -/
def doApply (b : BalanceObject α) (accounts : Accounts) (now : ℕ) (op : BalanceClaim κ) :
    Except ClaimError (Option (BalanceObject α) × Accounts) := do
  let b' ← remainder b now op.totalClaimed
  let accounts' ← accounts.adjustBalance op.depositToAccount op.totalClaimed
  return (b', accounts')

/-- `balance_claim_operation` in a block with the time `now`. -/
def claim (skip : Bool) (b : BalanceObject α) (accounts : Accounts) (now : ℕ)
    (op : BalanceClaim κ) : Except ClaimError (Option (BalanceObject α) × Accounts) := do
  op.validate nullKey
  doEvaluate addresses skip b accounts now op
  doApply b accounts now op

/-! ### Runs -/

/-- No claim is after the time `t`. -/
def Before (es : List (ℕ × BalanceClaim κ)) (t : ℕ) : Prop := ∀ e ∈ es, e.1 ≤ t

/-- Accepted claims one after the other, at times that do not decrease. What happens to the accounts
between them is not said. -/
inductive Run (b₀ : BalanceObject α) :
    List (ℕ × BalanceClaim κ) → Option (BalanceObject α) → Prop where
  | nil : Run b₀ [] (some b₀)
  | snoc {es : List (ℕ × BalanceClaim κ)} {b : BalanceObject α} {b' : Option (BalanceObject α)}
      {skip : Bool} {accounts accounts' : Accounts} {now : ℕ} {op : BalanceClaim κ} :
      Run b₀ es (some b) → Before es now →
      claim nullKey addresses skip b accounts now op = .ok (b', accounts') →
      Run b₀ (es ++ [(now, op)]) b'

/-- What has been claimed. -/
def claimed (es : List (ℕ × BalanceClaim κ)) : ℤ := (es.map fun e => e.2.totalClaimed.amount).sum

/-- What had been claimed at the time `t`. -/
def claimedUntil (es : List (ℕ × BalanceClaim κ)) (t : ℕ) : ℤ := claimed (es.filter (·.1 ≤ t))

/-- A claim of the whole balance by its owner, for an account that it can be paid to. -/
structure WholeClaim (b : BalanceObject α) (accounts : Accounts) (op : BalanceClaim κ) : Prop where
  valid : op.validate nullKey = .ok ()
  account : accounts.isLockBalance op.depositToAccount = some false
  owner : Owns addresses op.balanceOwnerKey b.owner
  whole : op.totalClaimed = b.balance
  room : ∃ accounts', accounts.adjustBalance op.depositToAccount b.balance = .ok accounts'

/-- The schedule of a vesting balance has been followed in a run, and will be. -/
structure OnSchedule (p : LinearVestingPolicy) (assetId : ℕ) (es : List (ℕ × BalanceClaim κ))
    (b' : Option (BalanceObject α)) : Prop where
  /-- What remains is between nothing and the balance at the beginning. -/
  remaining : ∀ b, b' = some b → 0 ≤ b.balance.amount ∧ b.balance.amount ≤ p.beginBalance
  /-- At every time what had been claimed was between nothing and what had vested. -/
  released : ∀ t, 0 ≤ claimedUntil es t ∧
    claimedUntil es t ≤ (p.context ⟨p.beginBalance, assetId⟩).vested t
  /-- `available` does not throw. -/
  available : ∀ b, b' = some b → ∀ t, Before es t → ∃ a, b.available t = .ok a
  /-- There is a day between two claims. -/
  apart : es.Pairwise fun e e' => e.1 + secondsPerDay ≤ e'.1
  /-- Once the duration has passed the whole rest can be claimed, and then it is gone. -/
  whole : ∀ b, b' = some b → ∀ t, Before es t → p.beginTimestamp < t →
    p.beginTimestamp + p.vestingDurationSeconds ≤ t → b.lastClaimDate + secondsPerDay ≤ t →
    ∀ skip accounts op, WholeClaim nullKey addresses b accounts op →
      ∃ accounts', claim nullKey addresses skip b accounts t op = .ok (none, accounts')

/-- A balance that does not vest is claimed once and in full. -/
structure OnceInFull (b₀ : BalanceObject α) (es : List (ℕ × BalanceClaim κ))
    (b' : Option (BalanceObject α)) : Prop where
  once : es = [] ∧ b' = some b₀ ∨ b' = none ∧ ∃ e, es = [e] ∧ e.2.totalClaimed = b₀.balance
  whole : ∀ b, b' = some b → ∀ t skip accounts op, WholeClaim nullKey addresses b accounts op →
    ∃ accounts', claim nullKey addresses skip b accounts t op = .ok (none, accounts')

/-- What is promised of a balance. -/
def AsScheduled (b₀ : BalanceObject α) (es : List (ℕ × BalanceClaim κ))
    (b' : Option (BalanceObject α)) : Prop :=
  match b₀.vestingPolicy with
  | some p => OnSchedule nullKey addresses p b₀.balance.assetId es b'
  | none => OnceInFull nullKey addresses b₀ es b'

/-! ### What an accepted claim does -/

section

variable {nullKey addresses} {skip : Bool} {b b₀ : BalanceObject α} {b' : Option (BalanceObject α)}
  {accounts accounts' : Accounts} {now t : ℕ} {op : BalanceClaim κ} {p : LinearVestingPolicy}
  {es : List (ℕ × BalanceClaim κ)}

lemma mapError_eq_ok {ε ε' β : Type} {x : Except ε β} {f : ε → ε'} {y : β} :
    x.mapError f = .ok y ↔ x = .ok y := by
  cases x <;> simp [Except.mapError]

lemma sub_eq_ok {x y z : ℤ} (h : Safe.sub x y = .ok z) : z = x - y := by
  rw [Safe.sub] at h
  split_ifs at h
  cases h
  rfl

/-- The parts of an accepted claim. -/
lemma claim_eq_ok (h : claim nullKey addresses skip b accounts now op = .ok (b', accounts')) :
    doEvaluate addresses skip b accounts now op = .ok () ∧
      remainder b now op.totalClaimed = .ok b' := by
  obtain ⟨⟨⟩, -, h⟩ := except_bind_eq_ok.mp h
  obtain ⟨⟨⟩, heval, h⟩ := except_bind_eq_ok.mp h
  obtain ⟨rest, hrest, h⟩ := except_bind_eq_ok.mp h
  obtain ⟨accounts'', -, h⟩ := except_bind_eq_ok.mp h
  cases h
  exact ⟨heval, hrest⟩

omit [DecidableEq κ] in
/-- The tests that all balances have in common. -/
lemma doEvaluate_eq (hlock : accounts.isLockBalance op.depositToAccount = some false)
    (howner : Owns addresses op.balanceOwnerKey b.owner)
    (hasset : op.totalClaimed.assetId = b.balance.assetId) :
    doEvaluate addresses skip b accounts now op =
      match b.vestingPolicy with
      | some p => do
          let allowed ←
            ((p.context b.balance).policyAllowsWithdraw now op.totalClaimed).mapError .policy
          if ¬ allowed then throw .invalidClaimAmount
          else if ¬ now ≥ b.lastClaimDate + secondsPerDay then throw .claimedTooOften
          else pure ()
      | none => if op.totalClaimed ≠ b.balance then throw .notWhole else pure () := by
  simp only [doEvaluate, hlock]
  rw [if_neg (not_not.mpr howner), if_neg fun h => h.2 hasset]

omit [DecidableEq α] [DecidableEq κ] in
/-- The policy allows what is of the asset and no more than is available. -/
lemma policyAllowsWithdraw_iff {v : LinearVesting.VestingBalance} {amount : AssetAmount} :
    v.policyAllowsWithdraw now amount = .ok true ↔ amount.assetId = v.balance.assetId ∧
      ∃ a, v.getAllowedWithdraw now = .ok a ∧ amount.amount ≤ a.amount := by
  rw [LinearVesting.VestingBalance.policyAllowsWithdraw]
  by_cases hasset : amount.assetId = v.balance.assetId
  · rw [if_pos hasset, except_bind_eq_ok]
    simp [hasset, pure, Except.pure]
  · rw [if_neg hasset]
    simp [hasset, pure, Except.pure]

/-- An accepted claim of a balance that does not vest is of all of it, and removes it. -/
lemma claim_plain (hb : b.vestingPolicy = none)
    (h : claim nullKey addresses skip b accounts now op = .ok (b', accounts')) :
    op.totalClaimed = b.balance ∧ b' = none := by
  obtain ⟨heval, hrest⟩ := claim_eq_ok h
  constructor
  · simp only [doEvaluate, hb] at heval
    split at heval
    · cases heval
    · cases heval
    · split_ifs at heval with h1 h2 h3
      exact not_not.mp h3
  · rw [remainder, if_pos (by simp [BalanceObject.isVestingBalance, hb])] at hrest
    cases hrest
    rfl

/-- **An accepted claim of a vesting balance** is of no more than is available, and a day after the last
one. It removes the balance, or leaves what remains. -/
lemma claim_vesting (hb : b.vestingPolicy = some p)
    (h : claim nullKey addresses skip b accounts now op = .ok (b', accounts')) :
    (∃ a, (p.context b.balance).getAllowedWithdraw now = .ok a ∧
        op.totalClaimed.amount ≤ a.amount) ∧
      b.lastClaimDate + secondsPerDay ≤ now ∧
      (b' = none ∨ b' = some { b with
        balance := ⟨b.balance.amount - op.totalClaimed.amount, b.balance.assetId⟩
        lastClaimDate := now }) := by
  obtain ⟨heval, hrest⟩ := claim_eq_ok h
  have hvesting : b.isVestingBalance = true := by simp [BalanceObject.isVestingBalance, hb]
  have hallowed : (p.context b.balance).policyAllowsWithdraw now op.totalClaimed = .ok true ∧
      b.lastClaimDate + secondsPerDay ≤ now := by
    simp only [doEvaluate, hb] at heval
    split at heval
    · cases heval
    · cases heval
    · split_ifs at heval with howner hasset hday
      all_goals
        obtain ⟨allowed, hallowed, heval⟩ := except_bind_eq_ok.mp heval
        split_ifs at heval with hnot
      exact ⟨hnot ▸ mapError_eq_ok.mp hallowed, hday⟩
  refine ⟨(policyAllowsWithdraw_iff.mp hallowed.1).2, hallowed.2, ?_⟩
  rw [remainder, if_neg (not_not.mpr hvesting)] at hrest
  split_ifs at hrest
  · obtain ⟨rest, hsub, hrest⟩ := except_bind_eq_ok.mp hrest
    rw [sub_eq_ok (mapError_eq_ok.mp hsub)] at hrest
    cases hrest
    exact .inr rfl
  · cases hrest
    exact .inl rfl

/-- A claim of the whole balance goes through if it is evaluated to do so. -/
lemma WholeClaim.claim_eq (h : WholeClaim nullKey addresses b accounts op)
    (heval : doEvaluate addresses skip b accounts now op = .ok ()) :
    ∃ accounts', claim nullKey addresses skip b accounts now op = .ok (none, accounts') := by
  obtain ⟨accounts', hroom⟩ := h.room
  refine ⟨accounts', ?_⟩
  have hrest : remainder b now op.totalClaimed = .ok none := by
    rw [h.whole, remainder, if_neg (not_not.mpr rfl), if_neg (lt_irrefl _)]
    split_ifs <;> rfl
  rw [← h.whole] at hroom
  simp only [claim, h.valid, heval, doApply, hrest, hroom, bind, Except.bind, pure, Except.pure]

end

/-! ### Runs of claims -/

section

variable {nullKey addresses} {skip : Bool} {b b₀ : BalanceObject α} {b' : Option (BalanceObject α)}
  {accounts accounts' : Accounts} {now t : ℕ} {op : BalanceClaim κ} {p : LinearVestingPolicy}
  {assetId : ℕ} {es : List (ℕ × BalanceClaim κ)}

omit [DecidableEq κ] in
lemma claimed_append (e : ℕ × BalanceClaim κ) :
    claimed (es ++ [e]) = claimed es + e.2.totalClaimed.amount := by
  simp [claimed]

omit [DecidableEq κ] in
lemma Before.of_append {e : ℕ × BalanceClaim κ} (h : Before (es ++ [e]) t) :
    Before es t ∧ e.1 ≤ t :=
  ⟨fun e' he' => h e' (List.mem_append_left _ he'), h e (List.mem_append_right _ List.mem_cons_self)⟩

omit [DecidableEq κ] in
/-- After the last claim, all that has been claimed had been. -/
lemma claimedUntil_of_before (h : Before es t) : claimedUntil es t = claimed es := by
  rw [claimedUntil, List.filter_eq_self.mpr fun e he => decide_eq_true (h e he)]

omit [DecidableEq κ] in
/-- Before a claim, what had been claimed does not count it. -/
lemma claimedUntil_append_of_lt (h : t < now) :
    claimedUntil (es ++ [(now, op)]) t = claimedUntil es t := by
  rw [claimedUntil, List.filter_append]
  simp [claimedUntil, h]

/-- The policy and the balance of what is left are those of the beginning, less what was claimed, and
that was between nothing and what had vested. -/
structure Consistent (p : LinearVestingPolicy) (assetId : ℕ) (es : List (ℕ × BalanceClaim κ))
    (b' : Option (BalanceObject α)) : Prop where
  claimed_nonneg : 0 ≤ claimed es
  claimed_le : ∀ t, Before es t → claimed es ≤ (p.context ⟨p.beginBalance, assetId⟩).vested t
  claimed_begin : claimed es ≤ p.beginBalance
  released : ∀ t, 0 ≤ claimedUntil es t ∧
    claimedUntil es t ≤ (p.context ⟨p.beginBalance, assetId⟩).vested t
  apart : es.Pairwise fun e e' => e.1 + secondsPerDay ≤ e'.1
  policy : ∀ b, b' = some b → b.vestingPolicy = some p
  rest : ∀ b, b' = some b → b.balance = ⟨p.beginBalance - claimed es, assetId⟩
  last : ∀ b, b' = some b → ∀ e ∈ es, e.1 ≤ b.lastClaimDate

omit [DecidableEq α] [DecidableEq κ] in
/-- What is available is what has vested and was not claimed. -/
lemma Consistent.getAllowedWithdraw (h : Consistent p assetId es b') (hb : b' = some b)
    (hbegin : 0 ≤ p.beginBalance) (ht : Before es t) :
    (p.context b.balance).getAllowedWithdraw t =
      .ok ⟨(p.context ⟨p.beginBalance, assetId⟩).vested t - claimed es, assetId⟩ := by
  have hle := h.claimed_le t ht
  have hnonneg := h.claimed_nonneg
  rw [h.rest b hb]
  have hshort : p.beginBalance - (p.beginBalance - claimed es) = claimed es := sub_sub_cancel _ _
  have heq := LinearVesting.VestingBalance.getAllowedWithdraw_eq (t := t)
    (v := p.context ⟨p.beginBalance - claimed es, assetId⟩) hbegin (hshort.symm ▸ hnonneg)
    (hshort.symm ▸ hle)
  rw [heq]
  change Except.ok (AssetAmount.mk (_ - (p.beginBalance - (p.beginBalance - claimed es))) _) = _
  rw [hshort]
  rfl

omit [DecidableEq α] [DecidableEq κ] in
lemma Consistent.nil (hb : b.vestingPolicy = some p) (hbegin : 0 ≤ p.beginBalance)
    (hinitial : b.balance = ⟨p.beginBalance, assetId⟩) :
    Consistent p assetId ([] : List (ℕ × BalanceClaim κ)) (some b) := by
  have hvested : ∀ t, 0 ≤ (p.context ⟨p.beginBalance, assetId⟩).vested t := fun t =>
    LinearVesting.VestingBalance.vested_nonneg (v := p.context ⟨p.beginBalance, assetId⟩) hbegin t
  refine ⟨le_rfl, fun t _ => hvested t, hbegin, fun t => ⟨le_rfl, hvested t⟩, .nil, ?_, ?_, ?_⟩
  · rintro _ ⟨⟩
    exact hb
  · rintro _ ⟨⟩
    rw [hinitial]
    simp [claimed]
  · simp

/-- **One claim** that takes back no more than has been claimed. -/
lemma Consistent.snoc (h : Consistent p assetId es (some b)) (hbegin : 0 ≤ p.beginBalance)
    (hnow : Before es now)
    (hclaim : claim nullKey addresses skip b accounts now op = .ok (b', accounts'))
    (hback : 0 ≤ claimed es + op.totalClaimed.amount) :
    Consistent p assetId (es ++ [(now, op)]) b' := by
  obtain ⟨⟨a, ha, hle⟩, hday, hleft⟩ := claim_vesting (h.policy b rfl) hclaim
  rw [h.getAllowedWithdraw rfl hbegin hnow] at ha
  cases ha
  have hvested : claimed es + op.totalClaimed.amount ≤
      (p.context ⟨p.beginBalance, assetId⟩).vested now := by
    change op.totalClaimed.amount ≤ _ - _ at hle
    omega
  have hmono : ∀ t, now ≤ t → claimed es + op.totalClaimed.amount ≤
      (p.context ⟨p.beginBalance, assetId⟩).vested t := fun t ht =>
    hvested.trans (LinearVesting.VestingBalance.vested_mono
      (v := p.context ⟨p.beginBalance, assetId⟩) hbegin ht)
  refine ⟨?_, fun t ht => ?_, ?_, fun t => ?_, ?_, fun b₁ hb₁ => ?_, fun b₁ hb₁ => ?_,
    fun b₁ hb₁ e he => ?_⟩
  · rwa [claimed_append]
  · rw [claimed_append]
    exact hmono t ht.of_append.2
  · rw [claimed_append]
    exact hvested.trans (LinearVesting.VestingBalance.vested_le
      (v := p.context ⟨p.beginBalance, assetId⟩) hbegin now)
  · by_cases ht : t < now
    · rw [claimedUntil_append_of_lt ht]
      exact h.released t
    · have hbefore : Before (es ++ [(now, op)]) t := by
        intro e he
        rcases List.mem_append.mp he with he | he
        · exact (hnow e he).trans (not_lt.mp ht)
        · rw [List.mem_singleton.mp he]
          exact not_lt.mp ht
      rw [claimedUntil_of_before hbefore, claimed_append]
      exact ⟨hback, hmono t (not_lt.mp ht)⟩
  · refine List.pairwise_append.mpr ⟨h.apart, List.pairwise_singleton _ _, fun e he e' he' => ?_⟩
    rw [List.mem_singleton.mp he']
    exact (Nat.add_le_add_right (h.last b rfl e he) _).trans hday
  · rcases hleft with hleft | hleft <;> rw [hleft] at hb₁ <;> cases hb₁
    exact h.policy b rfl
  · rcases hleft with hleft | hleft <;> rw [hleft] at hb₁ <;> cases hb₁
    rw [claimed_append, h.rest b rfl, sub_sub]
  · rcases hleft with hleft | hleft <;> rw [hleft] at hb₁ <;> cases hb₁
    rcases List.mem_append.mp he with he | he
    · exact hnow e he
    · rw [List.mem_singleton.mp he]

/-- No claim takes back more than had been claimed before it. -/
def TakesBackNoMore (es : List (ℕ × BalanceClaim κ)) : Prop :=
  ∀ es₁ e es₂, es = es₁ ++ e :: es₂ → 0 ≤ claimed es₁ + e.2.totalClaimed.amount

omit [DecidableEq κ] in
lemma TakesBackNoMore.of_append {es' : List (ℕ × BalanceClaim κ)}
    (h : TakesBackNoMore (es ++ es')) : TakesBackNoMore es := by
  intro es₁ e es₂ hes
  exact h es₁ e (es₂ ++ es') (by rw [hes, List.append_assoc, List.cons_append])

/-- **A run of claims** that take back no more than has been claimed. -/
lemma Run.consistent (h : Run nullKey addresses b₀ es b') (hb : b₀.vestingPolicy = some p)
    (hbegin : 0 ≤ p.beginBalance) (hinitial : b₀.balance = ⟨p.beginBalance, assetId⟩)
    (hback : TakesBackNoMore es) : Consistent p assetId es b' := by
  induction h with
  | nil => exact .nil hb hbegin hinitial
  | @snoc es b b' skip accounts accounts' now op _ hnow hclaim ih =>
      exact (ih hback.of_append).snoc hbegin hnow hclaim (hback es (now, op) [] rfl)

/-- What a consistent run leaves is on schedule. -/
lemma Consistent.onSchedule (h : Consistent p assetId es b') (hbegin : 0 ≤ p.beginBalance)
    (hcliff : p.vestingCliffSeconds = 0) : OnSchedule nullKey addresses p assetId es b' where
  remaining b hb := by
    have hnonneg := h.claimed_nonneg
    have hle := h.claimed_begin
    rw [h.rest b hb]
    constructor
    · change 0 ≤ p.beginBalance - claimed es
      omega
    · change p.beginBalance - claimed es ≤ p.beginBalance
      omega
  released := h.released
  available b hb t ht := by
    rw [BalanceObject.available, h.policy b hb]
    exact ⟨_, h.getAllowedWithdraw hb hbegin ht⟩
  apart := h.apart
  whole b hb t ht hlate hduration hday skip accounts op hop := by
    refine hop.claim_eq ?_
    have hvested : (p.context ⟨p.beginBalance, assetId⟩).vested t = p.beginBalance :=
      LinearVesting.VestingBalance.vested_of_late (v := p.context ⟨p.beginBalance, assetId⟩) hlate
        (by change p.beginTimestamp + p.vestingCliffSeconds ≤ t; omega) hduration
    have hallowed : (p.context b.balance).policyAllowsWithdraw t op.totalClaimed = .ok true := by
      rw [policyAllowsWithdraw_iff]
      refine ⟨by rw [hop.whole]; rfl, _, h.getAllowedWithdraw hb hbegin ht, ?_⟩
      rw [hop.whole, h.rest b hb, hvested]
    rw [doEvaluate_eq hop.account hop.owner (by rw [hop.whole])]
    simp only [h.policy b hb, hallowed, Except.mapError, bind, Except.bind]
    rw [if_neg (by simp), if_neg (not_not.mpr hday)]
    rfl

/-! ### The promise -/

/-- The balance of a genesis state: one that does not vest, or a vesting one that begins with what it
has. -/
def IsGenesis (b₀ : BalanceObject α) : Prop :=
  (∃ handout, b₀ = createBalance handout) ∨
    ∃ vest : InitialVestingBalance α, createVestingBalance vest = some b₀ ∧
      vest.beginBalance = vest.amount

omit [DecidableEq α] in
/-- The policy of a genesis balance that vests. -/
lemma IsGenesis.policy (h : IsGenesis b₀) (hb : b₀.vestingPolicy = some p) :
    b₀.balance = ⟨p.beginBalance, b₀.balance.assetId⟩ ∧ p.vestingCliffSeconds = 0 := by
  rcases h with ⟨handout, rfl⟩ | ⟨vest, hvest, hinitial⟩
  · cases hb
  · rw [createVestingBalance, if_pos hinitial.ge] at hvest
    cases hvest
    cases hb
    exact ⟨by simp only [hinitial], rfl⟩

/-- A balance that does not vest is claimed once and in full. -/
lemma Run.onceInFull (h : Run nullKey addresses b₀ es b') (hb : b₀.vestingPolicy = none) :
    OnceInFull nullKey addresses b₀ es b' := by
  have hwhole : ∀ t skip accounts op, WholeClaim nullKey addresses b₀ accounts op →
      ∃ accounts', claim nullKey addresses skip b₀ accounts t op = .ok (none, accounts') := by
    intro t skip accounts op hop
    refine hop.claim_eq ?_
    rw [doEvaluate_eq hop.account hop.owner (by rw [hop.whole])]
    simp only [hb]
    exact if_neg (not_not.mpr hop.whole)
  induction h with
  | nil =>
      refine ⟨.inl ⟨rfl, rfl⟩, ?_⟩
      rintro _ ⟨⟩
      exact hwhole
  | snoc _ _ hclaim ih =>
      obtain ⟨rfl, hsame⟩ := ih.once.resolve_right fun h => by cases h.1
      cases hsame
      obtain ⟨hall, rfl⟩ := claim_plain hb hclaim
      exact ⟨.inr ⟨rfl, _, rfl, hall⟩, fun _ hnone => by cases hnone⟩

/-- The first claims of a run are a run. -/
lemma Run.exists_prefix {es₁ es₂ : List (ℕ × BalanceClaim κ)}
    (h : Run nullKey addresses b₀ (es₁ ++ es₂) b') : ∃ b₁, Run nullKey addresses b₀ es₁ b₁ := by
  induction es₂ using List.reverseRecOn generalizing b' with
  | nil => exact ⟨b', by simpa using h⟩
  | append_singleton es₂ e ih =>
      rw [← List.append_assoc] at h
      generalize hes : es₁ ++ es₂ ++ [e] = es at h
      cases h with
      | nil => simp at hes
      | snoc hrun _ _ =>
          obtain ⟨rfl, -⟩ := List.append_inj' hes rfl
          exact ih hrun

omit [DecidableEq κ] in
/-- Some time is after everything. -/
lemma exists_before (es : List (ℕ × BalanceClaim κ)) : ∃ t, Before es t :=
  ⟨(es.map (·.1)).sum, fun _ he => List.le_sum_of_mem (List.mem_map_of_mem he)⟩

/-- **When the promise of a genesis balance is kept.** -/
theorem asScheduled_iff (hgenesis : IsGenesis b₀) (h : Run nullKey addresses b₀ es b') :
    (∀ es₁ es₂ b₁, es₁ ++ es₂ = es → Run nullKey addresses b₀ es₁ b₁ →
        AsScheduled nullKey addresses b₀ es₁ b₁) ↔
      (b₀.isVestingBalance = true → 0 ≤ b₀.balance.amount ∧ TakesBackNoMore es) := by
  rw [BalanceObject.isVestingBalance]
  simp only [AsScheduled]
  cases hb : b₀.vestingPolicy with
  | none =>
      refine iff_of_true (fun es₁ _ b₁ _ hrun => hrun.onceInFull hb) fun hvesting => ?_
      cases hvesting
  | some p =>
      obtain ⟨hinitial, hcliff⟩ := hgenesis.policy hb
      have hamount : b₀.balance.amount = p.beginBalance := by rw [hinitial]
      simp only [Option.isSome_some, forall_const, hamount]
      constructor
      · intro hkept
        refine ⟨(hamount ▸ (hkept [] es (some b₀) rfl .nil).remaining b₀ rfl).1, ?_⟩
        rintro es₁ e es₂ rfl
        have hsplit : Run nullKey addresses b₀ (es₁ ++ [e] ++ es₂) b' := by
          rwa [List.append_assoc, List.singleton_append]
        obtain ⟨b₁, hrun⟩ := hsplit.exists_prefix
        obtain ⟨t, ht⟩ := exists_before (es₁ ++ [e])
        have hnonneg := ((hkept (es₁ ++ [e]) es₂ b₁ (by simp) hrun).released t).1
        rwa [claimedUntil_of_before ht, claimed_append] at hnonneg
      · rintro ⟨hbegin, hback⟩ es₁ es₂ b₁ rfl hrun
        exact (hrun.consistent hb hbegin hinitial hback.of_append).onSchedule hbegin hcliff

end

end Claim

/-! ### A balance that vests in ten days -/

/-- The keys are their own addresses. -/
def ownAddresses : KeyAddresses ℕ ℕ := ⟨id, fun k _ _ => k⟩

/-- A hundred coins of the key 5. -/
def tenDays : BalanceObject ℕ :=
  ⟨5, ⟨100, 0⟩, some ⟨0, 0, 10 * secondsPerDay, 100⟩, 0⟩

lemma isGenesis_tenDays : IsGenesis tenDays :=
  .inr ⟨⟨⟨5, 0, 100⟩, 0, 10 * secondsPerDay, 100⟩, rfl, rfl⟩

/-- A claim by the key 5 for the account 9. -/
def claimOf (amount : ℤ) : BalanceClaim ℕ := ⟨⟨0, 0⟩, 9, 0, 5, ⟨amount, 0⟩⟩

/-- The account 9 has twenty coins. -/
def twentyCoins : Accounts := ⟨fun _ => some false, fun _ _ => some 20⟩

/-- A claim of fifty coins after five days. -/
theorem asScheduled_fifty :
    (∀ es₁ es₂ b₁, es₁ ++ es₂ = [(5 * secondsPerDay, claimOf 50)] →
        Run 0 ownAddresses tenDays es₁ b₁ → AsScheduled 0 ownAddresses tenDays es₁ b₁) ↔
      (tenDays.isVestingBalance = true → 0 ≤ tenDays.balance.amount ∧
        TakesBackNoMore [(5 * secondsPerDay, claimOf 50)]) := by
  have hclaim : claim 0 ownAddresses false tenDays twentyCoins (5 * secondsPerDay) (claimOf 50) =
      .ok (some { tenDays with balance := ⟨50, 0⟩, lastClaimDate := 5 * secondsPerDay },
        twentyCoins.setBalance 9 0 70) := rfl
  exact asScheduled_iff isGenesis_tenDays (.snoc .nil (by simp [Before]) hclaim)

/-- Ten coins are paid in before anything has been claimed, and from then on `available` throws. -/
theorem not_asScheduled : ¬ ∀ (nullKey : ℕ) (addresses : KeyAddresses ℕ ℕ) (b₀ : BalanceObject ℕ)
    (es : List (ℕ × BalanceClaim ℕ)) (b' : Option (BalanceObject ℕ)), IsGenesis b₀ →
      Run nullKey addresses b₀ es b' → AsScheduled nullKey addresses b₀ es b' := by
  intro hall
  have hclaim : claim 0 ownAddresses false tenDays twentyCoins secondsPerDay (claimOf (-10)) =
      .ok (some { tenDays with balance := ⟨110, 0⟩, lastClaimDate := secondsPerDay },
        twentyCoins.setBalance 9 0 10) := rfl
  have hkept : OnSchedule 0 ownAddresses ⟨0, 0, 10 * secondsPerDay, 100⟩ 0
      [(secondsPerDay, claimOf (-10))]
      (some { tenDays with balance := ⟨110, 0⟩, lastClaimDate := secondsPerDay }) :=
    hall 0 ownAddresses tenDays _ _ isGenesis_tenDays (.snoc .nil (by simp [Before]) hclaim)
  obtain ⟨a, ha⟩ := hkept.available _ rfl secondsPerDay (by simp [Before])
  have hthrows : BalanceObject.available (α := ℕ)
      { tenDays with balance := ⟨110, 0⟩, lastClaimDate := secondsPerDay } secondsPerDay =
        .error .withdrawnAlready := rfl
  rw [hthrows] at ha
  cases ha

end ZosCore.GenesisBalances
