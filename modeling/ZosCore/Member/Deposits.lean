import ZosCore.Lib.Total
import ZosCore.Member.Whitelists

/-!
`witness_evaluator.cpp`, `db_maint.cpp` and the evaluators of `Identity.lean`: the deposits of the
accounts.

What an account has in deposits is stored twice, in each of its objects and as one sum in its
statistics. A deposit leaves the core balance when an object is created or enabled, and comes back
when it is disabled, as a vesting balance or at once. A lost witness keeps his.

The lock fee is a `uint64_t` that is read as an `int64_t`. The statistics are changed only if the
deposit is positive; a new object gets the deposit in any case, and with it a negative one.

* `State.lockAssetOf`, `State.deposits`, `State.holdings`: the two sides, and all that an account
  has of the core asset.
* `Sound`: the two sides agree. `Opened`: an object is new; `Sound.replaced`: an object changes.
* `DepositOp.reaches_conserved`: the deposits are conserved by every run in which no object is created
  with a negative deposit.
-/

namespace ZosCore.Member

/-! ### What an account has -/

namespace State

/-- `lock_asset` of the statistics of an account. -/
def lockAssetOf (s : State) (x : ℕ) : ℤ := ((s.accounts.lookup x).map Account.lockAsset).getD 0

/-- The sum of `lock_asset` over the objects of an account. -/
def deposits (s : State) (x : ℕ) : ℤ :=
  total (fun _ i => if i.account = x then i.lockAsset else 0) s.identities

/-- The sum of the vesting balances of an account in the core asset. -/
def vestings (s : State) (x : ℕ) : ℤ :=
  total (fun _ v => if v.owner = x ∧ v.asset = 0 then v.balance else 0) s.vestingBalances

/-- All that an account has of the core asset. -/
def holdings (s : State) (x : ℕ) : ℤ := s.getBalance x 0 + s.lockAssetOf x + s.vestings x

end State

/-- Every account has in deposits what its objects have; none has less than nothing, and disabled
ones have nothing. The next numbers are those of no objects. -/
structure Sound (s : State) : Prop where
  deposits : ∀ x, s.lockAssetOf x = s.deposits x
  nonneg : ∀ k i, s.identities.lookup k = some i → 0 ≤ i.lockAsset
  disabled : ∀ k i, s.identities.lookup k = some i → i.enable = .disable → i.lockAsset = 0
  fresh : ∀ kind n, (kind, n) ∈ s.identities → n < s.nextIdentity kind
  freshVesting : ∀ n, n ∈ s.vestingBalances → n < s.nextVesting

/-! ### Operations -/

namespace State

/-- One witness missed a block. -/
def missBlock (s : State) (id : ℕ) : State :=
  match s.identities.lookup (.witness, id) with
  | none => s
  | some w => { s with
      identities := s.identities.insert (.witness, id)
        { w with recentMissed := w.recentMissed + 1 } }

/-- `database_check_witness` -/
def databaseCheckWitness (s : State) (lostNum : ℤ) : State :=
  s.identities.keys.foldl (fun s k =>
    match k.1, s.identities.lookup k with
    | .witness, some w => { s with identities := s.identities.insert k (checkWitness lostNum k.2 w) }
    | _, _ => s) s

end State

/-- The operations and the events that the deposits go through. -/
inductive DepositOp where
  | witnessCreate (op : IdentityCreate)
  | committeeMemberCreate (op : IdentityCreate)
  | budgetMemberCreate (op : IdentityCreate)
  | gatewayCreate (op : GatewayCreate)
  | carrierCreate (op : IdentityCreate)
  | authorCreate (op : AuthorCreate)
  | changeIdentity (op : ChangeIdentity)
  | missBlock (id : ℕ)
  | maintenance (lostNum : ℤ)
  | parameters (lockFee : IdentityKind → ℕ) (identifyLockVestingSeconds : ℕ)
  | time (now : ℕ)

namespace DepositOp

/-- The state after the operation. -/
def apply (s : State) : DepositOp → Except MemberError State
  | witnessCreate op => s.witnessCreate op
  | committeeMemberCreate op => s.committeeMemberCreate op
  | budgetMemberCreate op => s.budgetMemberCreate op
  | gatewayCreate op => s.gatewayCreate op
  | carrierCreate op => s.carrierCreate op
  | authorCreate op => s.authorCreate op
  | changeIdentity op => s.changeIdentity op
  | missBlock id => .ok (s.missBlock id)
  | maintenance lostNum => .ok (s.databaseCheckWitness lostNum)
  | parameters lockFee seconds =>
      .ok { s with lockFee := lockFee, identifyLockVestingSeconds := seconds }
  | time now => .ok { s with time := now }

/-- The object that the operation creates. -/
def creates : DepositOp → Option (IdentityKind × IdentityCreate)
  | witnessCreate op => some (.witness, op)
  | committeeMemberCreate op => some (.committeeMember, op)
  | budgetMemberCreate op => some (.budgetMember, op)
  | gatewayCreate op => some (.gateway, op.toIdentityCreate)
  | carrierCreate op => some (.carrier, op)
  | authorCreate op => some (.author, op.toIdentityCreate)
  | _ => none

/-- If an object is created with a deposit, the lock fee is not negative as an `int64_t`. -/
def Covered (s : State) (op : DepositOp) : Prop :=
  ∀ c, op.creates = some c → 1 < c.2.fee → 0 ≤ s.getFee c.1

end DepositOp

/-! ### New objects -/

section Creation

variable {s t s' : State} {kind : IdentityKind} {x : ℕ} {fees : ℤ}

/-- There is a new object, and the accounts have what they had. -/
structure Opened (s t : State) (kind : IdentityKind) (x : ℕ) (fees : ℤ) : Prop where
  identities : t.identities =
    s.identities.insert (kind, s.nextIdentity kind) { account := x, lockAsset := fees }
  nextIdentity : t.nextIdentity = Function.update s.nextIdentity kind (s.nextIdentity kind + 1)
  accounts : t.accounts = s.accounts
  balances : t.balances = s.balances
  vestingBalances : t.vestingBalances = s.vestingBalances
  nextVesting : t.nextVesting = s.nextVesting

/-- What the statistics of an account say after it has paid a deposit. -/
lemma State.Deposited.lockAssetOf {f : Account → Account} {d : ℤ} (h : t.Deposited s' x f d)
    (hf : ∀ a, (f a).lockAsset = a.lockAsset) (y : ℕ) :
    s'.lockAssetOf y = t.lockAssetOf y + if y = x then d else 0 := by
  rw [State.lockAssetOf, h.accounts, State.lockAssetOf]
  by_cases hy : y = x
  · subst hy
    obtain ⟨a, ha⟩ := Option.isSome_iff_exists.mp h.found
    simp [ha, hf]
  · simp [hy]

/-- What an account has stays the same when it pays a deposit. -/
lemma State.Deposited.holdings {f : Account → Account} {d : ℤ} (h : t.Deposited s' x f d)
    (hf : ∀ a, (f a).lockAsset = a.lockAsset) (y : ℕ) : s'.holdings y = t.holdings y := by
  have hvestings : s'.vestings y = t.vestings y := by
    rw [h.others]
    rfl
  rw [State.holdings, h.balance, h.lockAssetOf hf, hvestings, State.holdings]
  split_ifs with h₁ h₂ h₂
  · ring
  · exact absurd h₁.1 h₂
  · exact absurd ⟨h₂, rfl⟩ h₁
  · ring

/-- A new object costs its account nothing. -/
lemma Opened.holdings (ho : Opened s t kind x fees) (h : t.takeDeposit kind x fees = .ok s')
    (y : ℕ) : s'.holdings y = s.holdings y := by
  rw [(State.takeDeposit_spec h).holdings (fun a => rfl)]
  simp only [State.holdings, State.getBalance, State.lockAssetOf, State.vestings, ho.accounts,
    ho.balances, ho.vestingBalances]

/-- The statistics follow a new object, unless its deposit is negative. -/
lemma Opened.sound (hs : Sound s) (ho : Opened s t kind x fees)
    (h : t.takeDeposit kind x fees = .ok s') (hfees : 0 ≤ fees) : Sound s' := by
  have hd := State.takeDeposit_spec h
  have hfresh : (kind, s.nextIdentity kind) ∉ s.identities := fun hm => (hs.fresh kind _ hm).false
  have hidentities : s'.identities = s.identities.insert (kind, s.nextIdentity kind)
      { account := x, lockAsset := fees } := by rw [hd.others, ← ho.identities]
  have hnext : s'.nextIdentity =
      Function.update s.nextIdentity kind (s.nextIdentity kind + 1) := by
    rw [hd.others, ← ho.nextIdentity]
  have hold : ∀ k i, s'.identities.lookup k = some i →
      k = (kind, s.nextIdentity kind) ∧ i = { account := x, lockAsset := fees } ∨
        s.identities.lookup k = some i := by
    intro k i hi
    rw [hidentities] at hi
    by_cases hk : k = (kind, s.nextIdentity kind)
    · subst hk
      rw [AList.lookup_insert] at hi
      exact .inl ⟨rfl, (Option.some_inj.mp hi).symm⟩
    · rw [AList.lookup_insert_ne hk] at hi
      exact .inr hi
  refine ⟨fun y => ?_, fun k i hi => ?_, fun k i hi hdisable => ?_, fun kind' n hm => ?_, ?_⟩
  · have hlock : s'.lockAssetOf y = s.lockAssetOf y + if y = x then fees else 0 := by
      have hmax : (if 0 < fees then fees else 0) = fees := by split_ifs <;> omega
      have hsame : t.lockAssetOf y = s.lockAssetOf y := by
        rw [State.lockAssetOf, ho.accounts, State.lockAssetOf]
      rw [hd.lockAssetOf (fun a => rfl) y, hmax, hsame]
    have hsum : s'.deposits y = s.deposits y + if x = y then fees else 0 := by
      rw [State.deposits, hidentities, total_insert_of_none (AList.lookup_eq_none.mpr hfresh)]
      rfl
    rw [hlock, hsum, hs.deposits]
    simp only [eq_comm]
  · rcases hold k i hi with ⟨-, rfl⟩ | hi
    · exact hfees
    · exact hs.nonneg k i hi
  · rcases hold k i hi with ⟨-, rfl⟩ | hi
    · exact absurd hdisable (by simp)
    · exact hs.disabled k i hi hdisable
  · rw [hidentities, AList.mem_insert] at hm
    rw [hnext]
    rcases hm with heq | hm
    · cases heq
      simp
    · have hlt := hs.fresh kind' n hm
      by_cases hkind : kind' = kind
      · subst hkind
        rw [Function.update_self]
        omega
      · rwa [Function.update_of_ne hkind]
  · rw [hd.others]
    intro n hn
    rw [ho.vestingBalances] at hn
    rw [ho.nextVesting]
    exact hs.freshVesting n hn

end Creation

/-! ### Objects that change -/

section Changes

variable {s s' : State} {op : ChangeIdentity} {mem : Identity}

/-- The statistics follow an object that is replaced. -/
lemma Sound.replaced (hs : Sound s) {k : IdentityKind × ℕ} {mem' : Identity}
    (hm : s.identities.lookup k = some mem) (hidentities : s'.identities = s.identities.insert k mem')
    (haccount : mem'.account = mem.account)
    (hlock : ∀ y, s'.lockAssetOf y =
      s.lockAssetOf y + if y = mem.account then mem'.lockAsset - mem.lockAsset else 0)
    (hnonneg : 0 ≤ mem'.lockAsset) (hdisable : mem'.enable = .disable → mem'.lockAsset = 0)
    (hnext : s'.nextIdentity = s.nextIdentity)
    (hvesting : ∀ n, n ∈ s'.vestingBalances → n < s'.nextVesting) : Sound s' := by
  have hold : ∀ k' i, s'.identities.lookup k' = some i →
      i = mem' ∨ s.identities.lookup k' = some i := by
    intro k' i hi
    rw [hidentities] at hi
    by_cases hk : k' = k
    · subst hk
      rw [AList.lookup_insert] at hi
      exact .inl (Option.some_inj.mp hi).symm
    · rw [AList.lookup_insert_ne hk] at hi
      exact .inr hi
  refine ⟨fun y => ?_, fun k' i hi => ?_, fun k' i hi hdis => ?_, fun kind n hmem => ?_, hvesting⟩
  · rw [hlock, hs.deposits, State.deposits, State.deposits, hidentities,
      total_insert_of_lookup hm, haccount]
    by_cases hy : y = mem.account
    · subst hy
      simp only [if_true]
      ring
    · simp [hy, Ne.symm hy]
  · rcases hold k' i hi with rfl | hi
    · exact hnonneg
    · exact hs.nonneg k' i hi
  · rcases hold k' i hi with rfl | hi
    · exact hdisable hdis
    · exact hs.disabled k' i hi hdis
  · rw [hidentities, AList.mem_insert] at hmem
    rw [hnext]
    rcases hmem with rfl | hmem
    · exact hs.fresh kind n (AList.lookup_isSome.mp (by simp [hm]))
    · exact hs.fresh kind n hmem

/-- A deposit is paid by an account that is not changed otherwise. -/
lemma State.deposited_self {x : ℕ} {d : ℤ} (h : s.payDeposit x d = .ok s') :
    s.Deposited s' x (fun a => a) d := by
  have hfound : (s.accounts.lookup x).isSome := by
    obtain ⟨s₂, h₂, h₃⟩ := except_bind_eq_ok.mp h
    obtain ⟨b, hb⟩ := (State.adjusted h₂).others
    have := (State.modified h₃).found
    rwa [hb] at this
  exact State.deposited ⟨rfl, hfound, fun y => by simp⟩ h

/-- An object that is enabled takes a deposit if it was disabled. -/
lemma enableIdentity_spec (hs : Sound s)
    (hm : s.identities.lookup (op.kind, op.objectId) = some mem)
    (h : s.enableIdentity op mem = .ok s') : Sound s' ∧ ∀ y, s'.holdings y = s.holdings y := by
  simp only [State.enableIdentity] at h
  obtain ⟨s₁, h₁, h⟩ := except_bind_eq_ok.mp h
  have hs' := Except.ok.inj h
  by_cases htakes : mem.enable = .disable ∧ 0 < s.getFee op.kind
  · rw [if_pos htakes] at h₁
    simp only [if_pos htakes] at hs'
    have hd := State.deposited_self h₁
    have hidentities : s'.identities = s.identities.insert (op.kind, op.objectId)
        { mem with lockAsset := s.getFee op.kind, enable := .enable } := by rw [← hs', hd.others]
    refine ⟨hs.replaced hm hidentities rfl (fun y => ?_) htakes.2.le (by simp) ?_ ?_, fun y => ?_⟩
    · have := hd.lockAssetOf (fun a => rfl) y
      rw [hs.disabled _ _ hm htakes.1, sub_zero, ← this, ← hs']
      rfl
    · rw [← hs', hd.others]
    · rw [← hs', hd.others]
      exact hs.freshVesting
    · rw [← hd.holdings (fun a => rfl) y, ← hs']
      rfl
  · rw [if_neg htakes] at h₁
    cases h₁
    simp only [if_neg htakes] at hs'
    have hidentities : s'.identities =
        s.identities.insert (op.kind, op.objectId) { mem with enable := .enable } := by rw [← hs']
    have hnonneg : 0 ≤ mem.lockAsset := hs.nonneg _ _ hm
    refine ⟨hs.replaced hm hidentities rfl (fun y => ?_) hnonneg (by simp) (by rw [← hs']) ?_,
      fun y => ?_⟩
    · rw [← hs']
      simp [State.lockAssetOf]
    · rw [← hs']
      exact hs.freshVesting
    · rw [← hs']
      rfl

/-- A deposit that is given back is in the balance or in the vesting balances. -/
lemma returnDeposit_spec {x : ℕ} {d : ℤ} (hfresh : ∀ n, n ∈ s.vestingBalances → n < s.nextVesting)
    (h : s.returnDeposit x d = .ok s') :
    s'.identities = s.identities ∧ s'.accounts = s.accounts ∧ s'.nextIdentity = s.nextIdentity ∧
      (∀ n, n ∈ s'.vestingBalances → n < s'.nextVesting) ∧
      ∀ y, s'.getBalance y 0 + s'.vestings y =
        s.getBalance y 0 + s.vestings y + if y = x then d else 0 := by
  by_cases hlong : 3600 < s.identifyLockVestingSeconds
  · rw [State.returnDeposit, if_pos hlong] at h
    cases h
    refine ⟨rfl, rfl, rfl, fun n hn => ?_, fun y => ?_⟩
    · rcases (AList.mem_insert s.vestingBalances).mp hn with rfl | hn
      · exact Nat.lt_succ_self _
      · exact Nat.lt_succ_of_lt (hfresh n hn)
    · have hnone : s.vestingBalances.lookup s.nextVesting = none :=
        AList.lookup_eq_none.mpr fun hm => (hfresh _ hm).false
      simp only [State.vestings, total_insert_of_none hnone, State.getBalance, and_true,
        eq_comm (a := x)]
      ring
  · rw [State.returnDeposit, if_neg hlong] at h
    obtain ⟨⟨b, hb⟩, hbalance⟩ := State.adjusted h
    refine ⟨by rw [hb], by rw [hb], by rw [hb], by rw [hb]; exact hfresh, fun y => ?_⟩
    have hvestings : s'.vestings y = s.vestings y := by
      rw [hb]
      rfl
    rw [hbalance, hvestings]
    simp only [and_true]
    ring

/-- What the statistics of an account say after they are modified. -/
lemma State.Modified.lockAssetOf {x : ℕ} {f : Account → Account} {d : ℤ} (h : s.Modified s' x f)
    (hf : ∀ a, (f a).lockAsset = a.lockAsset + d) (y : ℕ) :
    s'.lockAssetOf y = s.lockAssetOf y + if y = x then d else 0 := by
  rw [State.lockAssetOf, h.accounts, State.lockAssetOf]
  by_cases hy : y = x
  · subst hy
    obtain ⟨a, ha⟩ := Option.isSome_iff_exists.mp h.found
    simp [ha, hf]
  · simp [hy]

/-- An object that is disabled gives its deposit back. -/
lemma disableIdentity_spec (hs : Sound s)
    (hm : s.identities.lookup (op.kind, op.objectId) = some mem)
    (h : s.disableIdentity op mem = .ok s') : Sound s' ∧ ∀ y, s'.holdings y = s.holdings y := by
  simp only [State.disableIdentity] at h
  by_cases hlock : 0 < mem.lockAsset
  · rw [if_pos hlock] at h
    obtain ⟨s₂, h₂, h₃⟩ := except_bind_eq_ok.mp h
    have h₂ := State.modified h₂
    have hvestings : s₂.vestingBalances = s.vestingBalances := by rw [h₂.others]
    have hnextVesting : s₂.nextVesting = s.nextVesting := by rw [h₂.others]
    obtain ⟨hidentities, haccounts, hnext, hfresh, hfunds⟩ :=
      returnDeposit_spec (by rw [hvestings, hnextVesting]; exact hs.freshVesting) h₃
    have hlockAsset : ∀ y, s'.lockAssetOf y =
        s.lockAssetOf y + if y = mem.account then -mem.lockAsset else 0 := by
      intro y
      rw [State.lockAssetOf, haccounts]
      exact h₂.lockAssetOf (fun a => rfl) y
    have hidentities' : s'.identities = s.identities.insert (op.kind, op.objectId)
        { mem with lockAsset := 0, enable := .disable } := by rw [hidentities, h₂.others]
    refine ⟨hs.replaced hm hidentities' rfl (fun y => ?_) le_rfl (fun _ => rfl)
      (by rw [hnext, h₂.others]) hfresh, fun y => ?_⟩
    · rw [hlockAsset, zero_sub]
    · have hfunds₂ : s₂.getBalance y 0 + s₂.vestings y = s.getBalance y 0 + s.vestings y := by
        rw [h₂.others]
        rfl
      have hf := hfunds y
      rw [hfunds₂] at hf
      rw [State.holdings, hlockAsset, State.holdings]
      split_ifs at hf ⊢ <;> linarith
  · rw [if_neg hlock] at h
    have hs' := Except.ok.inj h
    have hzero : mem.lockAsset = 0 := le_antisymm (not_lt.mp hlock) (hs.nonneg _ _ hm)
    have hidentities : s'.identities = s.identities.insert (op.kind, op.objectId)
        { mem with lockAsset := 0, enable := .disable } := by rw [← hs']
    refine ⟨hs.replaced hm hidentities rfl (fun y => ?_) le_rfl (fun _ => rfl) (by rw [← hs']) ?_,
      fun y => ?_⟩
    · rw [← hs', hzero]
      simp [State.lockAssetOf]
    · rw [← hs']
      exact hs.freshVesting
    · rw [← hs']
      rfl

/-- Only `recent_missed` of an object changes, or it gets lost. -/
lemma Sound.touched (hs : Sound s) {k : IdentityKind × ℕ} {mem' : Identity}
    (hm : s.identities.lookup k = some mem) (haccount : mem'.account = mem.account)
    (hlock : mem'.lockAsset = mem.lockAsset)
    (hdisable : mem'.enable = .disable → mem.enable = .disable) :
    Sound { s with identities := s.identities.insert k mem' } := by
  refine hs.replaced hm rfl haccount (fun y => ?_) ?_ (fun hd => ?_) rfl hs.freshVesting
  · rw [hlock]
    simp [State.lockAssetOf]
  · rw [hlock]
    exact hs.nonneg k mem hm
  · rw [hlock]
    exact hs.disabled k mem hm (hdisable hd)

/-- A check of one witness leaves it its deposit. -/
lemma checkWitness_spec (lostNum : ℤ) (id : ℕ) (w : Identity) :
    (State.checkWitness lostNum id w).account = w.account ∧
      (State.checkWitness lostNum id w).lockAsset = w.lockAsset ∧
      ((State.checkWitness lostNum id w).enable = .disable → w.enable = .disable) := by
  by_cases h : w.enable ≠ .enable ∨ id ≤ 11
  · simp [State.checkWitness, h]
  · by_cases hlost : lostNum.tdiv 2 < w.recentMissed <;> simp [State.checkWitness, h, hlost]

/-- The check of the witnesses at maintenance leaves all deposits. -/
lemma databaseCheckWitness_spec (hs : Sound s) (lostNum : ℤ) :
    Sound (s.databaseCheckWitness lostNum) ∧
      ∀ y, (s.databaseCheckWitness lostNum).holdings y = s.holdings y := by
  rw [State.databaseCheckWitness]
  generalize s.identities.keys = keys
  induction keys generalizing s with
  | nil => exact ⟨hs, fun y => rfl⟩
  | cons k keys ih =>
      rw [List.foldl_cons]
      split
      · rename_i w hk hw
        obtain ⟨haccount, hlock, hdisable⟩ := checkWitness_spec lostNum k.2 w
        obtain ⟨hsound, hholdings⟩ := ih (hs.touched hw haccount hlock hdisable)
        exact ⟨hsound, fun y => hholdings y⟩
      · exact ih hs

end Changes

/-! ### Runs -/

namespace DepositOp

variable {s s' : State}

/-- The deposit is that of today if the fee is more than one, and nothing otherwise. -/
lemma evaluateCreate_spec {kind : IdentityKind} {withFee : Bool} {op : IdentityCreate} {fees : ℤ}
    (h : s.evaluateCreate kind withFee op = .ok fees) :
    fees = if 1 < op.fee then s.getFee kind else 0 := by
  simp only [State.evaluateCreate, except_bind_eq_ok, fcAssert_eq_ok, orThrow_eq_ok,
    exists_const] at h
  obtain ⟨-, a, -, -, -, lockFees, h, -, hfees⟩ := h
  cases hfees
  by_cases hfee : 1 < op.fee
  · simp only [State.lockFees, if_pos hfee, except_bind_eq_ok, fcAssert_eq_ok, exists_const] at h
    rw [if_pos hfee]
    exact (Except.ok.inj h.2.2).symm
  · rw [State.lockFees, if_neg hfee] at h
    rw [if_neg hfee]
    exact (Except.ok.inj h).symm

/-- An operation that creates an object opens it and takes the deposit. -/
lemma opened {op : DepositOp} {c : IdentityKind × IdentityCreate} (hc : op.creates = some c)
    (h : op.apply s = .ok s') :
    ∃ t, Opened s t c.1 c.2.account (if 1 < c.2.fee then s.getFee c.1 else 0) ∧
      t.takeDeposit c.1 c.2.account (if 1 < c.2.fee then s.getFee c.1 else 0) = .ok s' := by
  have hcreate : ∀ {kind withFee op}, s.create kind withFee op = .ok s' →
      ∃ t, Opened s t kind op.account (if 1 < op.fee then s.getFee kind else 0) ∧
        t.takeDeposit kind op.account (if 1 < op.fee then s.getFee kind else 0) = .ok s' := by
    intro kind withFee op h
    obtain ⟨fees, heval, h⟩ := except_bind_eq_ok.mp h
    rw [← evaluateCreate_spec heval]
    refine ⟨_, ?_, h⟩
    constructor <;> rfl
  cases op with
  | witnessCreate op =>
      cases hc
      exact hcreate h
  | committeeMemberCreate op =>
      cases hc
      exact hcreate h
  | budgetMemberCreate op =>
      cases hc
      exact hcreate h
  | carrierCreate op =>
      cases hc
      exact hcreate h
  | authorCreate op =>
      cases hc
      obtain ⟨fees, heval, h⟩ := except_bind_eq_ok.mp h
      rw [← evaluateCreate_spec heval]
      refine ⟨_, ?_, h⟩
      constructor <;> rfl
  | gatewayCreate op =>
      cases hc
      simp only [apply, State.gatewayCreate, except_bind_eq_ok, fcAssert_eq_ok, exists_const] at h
      obtain ⟨-, fees, heval, -, s₁, h₁, h⟩ := h
      obtain ⟨hframe, -, -⟩ := State.doAllowedAsset_spec h₁
      rw [← evaluateCreate_spec heval]
      refine ⟨_, ⟨?_, ?_, ?_, ?_, ?_, ?_⟩, h⟩ <;>
        · rw [hframe]
          rfl
  | changeIdentity op => cases hc
  | missBlock id => cases hc
  | maintenance lostNum => cases hc
  | parameters lockFee seconds => cases hc
  | time now => cases hc

/-- A change of identity keeps the deposits and what the accounts have. -/
lemma changeIdentity_spec {op : ChangeIdentity} (hs : Sound s)
    (h : s.changeIdentity op = .ok s') : Sound s' ∧ ∀ y, s'.holdings y = s.holdings y := by
  obtain ⟨mem, heval, h⟩ := except_bind_eq_ok.mp h
  simp only [State.evaluateChangeIdentity, except_bind_eq_ok, fcAssert_eq_ok, orThrow_eq_ok,
    exists_const] at heval
  obtain ⟨mem', hm, -, -, -, heq⟩ := heval
  cases heq
  cases henable : op.enable with
  | true =>
      rw [henable, if_pos rfl] at h
      exact enableIdentity_spec hs hm h
  | false =>
      rw [henable, if_neg (by simp)] at h
      exact disableIdentity_spec hs hm h

/-- A missed block keeps the deposits and what the accounts have. -/
lemma missBlock_spec (hs : Sound s) (id : ℕ) :
    Sound (s.missBlock id) ∧ ∀ y, (s.missBlock id).holdings y = s.holdings y := by
  rw [State.missBlock]
  cases hw : s.identities.lookup (.witness, id) with
  | none => exact ⟨hs, fun y => rfl⟩
  | some w => exact ⟨hs.touched hw rfl rfl fun h => h, fun y => rfl⟩

/-- Every operation keeps what the accounts have, and the deposits if it creates no object with a negative
one. -/
lemma apply_spec {op : DepositOp} (hs : Sound s) (h : op.apply s = .ok s') :
    (op.Covered s → Sound s') ∧ ∀ y, s'.holdings y = s.holdings y := by
  cases hcreates : op.creates with
  | some c =>
      obtain ⟨t, ho, ht⟩ := opened hcreates h
      refine ⟨fun hcovered => ho.sound hs ht ?_, ho.holdings ht⟩
      split_ifs with hfee
      · exact hcovered c hcreates hfee
      · exact le_rfl
  | none =>
      cases op with
      | witnessCreate op => cases hcreates
      | committeeMemberCreate op => cases hcreates
      | budgetMemberCreate op => cases hcreates
      | carrierCreate op => cases hcreates
      | authorCreate op => cases hcreates
      | gatewayCreate op => cases hcreates
      | changeIdentity op => exact (changeIdentity_spec hs h).imp_left fun hs' _ => hs'
      | missBlock id =>
          cases h
          exact (missBlock_spec hs id).imp_left fun hs' _ => hs'
      | maintenance lostNum =>
          cases h
          exact (databaseCheckWitness_spec hs lostNum).imp_left fun hs' _ => hs'
      | parameters lockFee seconds =>
          cases h
          exact ⟨fun _ => ⟨hs.deposits, hs.nonneg, hs.disabled, hs.fresh, hs.freshVesting⟩, fun y => rfl⟩
      | time now =>
          cases h
          exact ⟨fun _ => ⟨hs.deposits, hs.nonneg, hs.disabled, hs.fresh, hs.freshVesting⟩, fun y => rfl⟩

/-- A state that is reached by operations which create no object with a negative deposit. -/
inductive Reaches (s : State) : State → Prop where
  | refl : Reaches s s
  | step {t t' : State} {op : DepositOp} :
      Reaches s t → op.Covered t → op.apply t = .ok t' → Reaches s t'

/-- The deposits of all accounts are what their objects have, disabled objects have none, and no
operation from here on changes what an account has. -/
structure Conserved (s : State) : Prop where
  deposits : ∀ x a, s.accounts.lookup x = some a → a.lockAsset = s.deposits x
  disabled : ∀ k i, s.identities.lookup k = some i → i.enable = .disable → i.lockAsset = 0
  holdings : ∀ op s', DepositOp.apply s op = .ok s' → ∀ x, s'.holdings x = s.holdings x

/-- **Identity deposits are conserved, unless an object is created with a negative one.** This holds
of every state that is reached by operations of which none creates an object with a lock fee that is
negative as an `int64_t`. -/
theorem reaches_conserved (hs : Sound s) (h : Reaches s s') : Conserved s' := by
  have hsound : Sound s' := by
    induction h with
    | refl => exact hs
    | step _ hcovered happly ih => exact (apply_spec ih happly).1 hcovered
  refine ⟨fun x a ha => ?_, hsound.disabled, fun op t h => (apply_spec hsound h).2⟩
  rw [← hsound.deposits, State.lockAssetOf, ha]
  rfl

/-- A lifetime member with a balance, where witnesses pay a lock fee. -/
def beforeWitnesses (lockFee : ℕ) : State where
  lockFee := fun _ => lockFee
  accounts := AList.insert 1 { membershipExpirationDate := 2 ^ 32 - 1 } ∅
  balances := AList.insert (1, 0) 100 ∅

lemma sound_beforeWitnesses (lockFee : ℕ) : Sound (beforeWitnesses lockFee) where
  deposits x := by
    have hdeposits : (beforeWitnesses lockFee).deposits x = 0 := rfl
    rw [hdeposits]
    by_cases hx : x = 1
    · subst hx
      rfl
    · have hnone : (beforeWitnesses lockFee).accounts.lookup x = none := AList.lookup_insert_ne hx
      simp [State.lockAssetOf, hnone]
  nonneg k i hi := by simp [beforeWitnesses] at hi
  disabled k i hi := by simp [beforeWitnesses] at hi
  fresh kind n hm := by simp [beforeWitnesses] at hm
  freshVesting n hm := by simp [beforeWitnesses] at hm

/-- The account becomes a witness. -/
def becomeWitness : DepositOp := .witnessCreate { fee := 5, account := 1 }

/-- And it gives this up. -/
def retire : DepositOp :=
  .changeIdentity { issuer := 1, kind := .witness, objectId := 0, enable := false }

theorem reaches_conserved_retire : ∃ s', Reaches (beforeWitnesses 40) s' ∧ Conserved s' := by
  have hrun : (becomeWitness.apply (beforeWitnesses 40) >>= fun t => retire.apply t).isOk := by
    decide +kernel
  obtain ⟨s', h⟩ := exists_eq_ok hrun
  obtain ⟨t, h₁, h₂⟩ := except_bind_eq_ok.mp h
  have hcovered : becomeWitness.Covered (beforeWitnesses 40) := by
    rintro c hc -
    cases hc
    decide
  have hcovered' : retire.Covered t := by
    rintro c hc -
    cases hc
  have hreaches : Reaches (beforeWitnesses 40) s' :=
    (Reaches.refl.step hcovered h₁).step hcovered' h₂
  exact ⟨s', hreaches, reaches_conserved (sound_beforeWitnesses 40) hreaches⟩

/-- With a lock fee of `2 ^ 63` the new witness has a negative deposit, and his statistics none. -/
theorem not_conserved_becomeWitness :
    ∃ s', Sound (beforeWitnesses (2 ^ 63)) ∧
      becomeWitness.apply (beforeWitnesses (2 ^ 63)) = .ok s' ∧ ¬ Conserved s' := by
  obtain ⟨s', h⟩ :=
    exists_eq_ok (x := becomeWitness.apply (beforeWitnesses (2 ^ 63))) (by decide +kernel)
  have hvalues : (becomeWitness.apply (beforeWitnesses (2 ^ 63))).map (fun s =>
      ((s.accounts.lookup 1).map Account.lockAsset, s.deposits 1)) = .ok (some 0, -2 ^ 63) := by
    decide +kernel
  refine ⟨s', sound_beforeWitnesses _, h, fun hc => ?_⟩
  rw [h] at hvalues
  have hpair := Except.ok.inj hvalues
  obtain ⟨a, ha, hlock⟩ := Option.map_eq_some_iff.mp (congrArg Prod.fst hpair)
  have hdeposits : s'.deposits 1 = -2 ^ 63 := congrArg Prod.snd hpair
  have := hc.deposits 1 a ha
  rw [hlock, hdeposits] at this
  exact absurd this (by decide)

end DepositOp

end ZosCore.Member
