import ZosCore.Chain.History

/-!
The transaction index: no transaction is applied twice on one chain.

`_apply_transaction` takes a transaction that is not in the index and, from the second block on, has
not expired at the time of the head; `clear_expired_transactions` forgets a transaction when the head
is later than its expiration. So a transaction of the chain is in the index still, or it has expired
and is not taken again.

* `Deduped`: the ids of the transactions on the chain are distinct, and each transaction is in the
  index or has expired.
* `Recorded`: what the transactions of a block leave in the index.
* **`transactions_applied_once`**: it is so in every run that never skips the check for duplicates.
-/

namespace ZosCore

open Exec

variable {β ω : Type} {R : Rules β ω} {d : ℕ}

/-! ### The transactions of the chain -/

/-- The transactions of the blocks of the chain, those of the newest block first. -/
def Dynamic.transactions (c : Dynamic β) : List (Transaction β) := c.chain.flatMap (·.transactions)

/-- The `transaction_object` of a transaction. -/
def Transaction.object (trx : Transaction β) : TransactionObject := ⟨trx.id, trx.expiration⟩

/-- The transactions of the chain are in `U`, no two of them have the same id, and each is in the
transaction index or has expired. The head is not below `n`. -/
structure Deduped (U : Transaction β → Prop) (n : ℕ) (o : Objects β ω) : Prop where
  sound : o.dynamic.Sound
  above : n ≤ o.headBlockNumber
  started : o.chain ≠ [] → 0 < o.headBlockNumber
  within : ∀ trx ∈ o.dynamic.transactions, U trx
  nodup : (o.dynamic.transactions.map (·.id)).Nodup
  known : ∀ trx ∈ o.dynamic.transactions,
    trx.object ∈ o.transactions ∨ trx.expiration < o.time

namespace Deduped

variable {U : Transaction β → Prop} {n : ℕ} {o o' : Objects β ω}

/-- Operations leave it. -/
lemma operated {F : List (Operation β) → Prop} (h : Deduped U n o) (ho : o.Operated F o') :
    Deduped U n o' := by
  obtain ⟨⟨_, _, _, _, _, rfl⟩, -⟩ := ho
  exact ⟨h.sound, h.above, h.started, h.within, h.nodup, h.known⟩

/-- More transactions may be in the index. -/
lemma addTransaction (h : Deduped U n o) (trx : Transaction β) :
    Deduped U n (Database.addTransaction trx o) := by
  refine ⟨h.sound, h.above, h.started, h.within, h.nodup, fun trx' htrx' => ?_⟩
  exact (h.known trx' htrx').imp_left fun hmem => List.mem_cons_of_mem _ hmem

/-- Expired transactions may be forgotten. -/
lemma concluded (h : Deduped U n o) (ho : o.Concluded o') : Deduped U n o' := by
  have htrxs : o'.dynamic.transactions = o.dynamic.transactions := by
    simp only [Dynamic.transactions, Objects.dynamic, ho.chain]
  refine ⟨(ho.leads h.sound).2, ho.headBlockNumber ▸ h.above, ?_, htrxs ▸ h.within,
    htrxs ▸ h.nodup, fun trx htrx => ?_⟩
  · rw [ho.chain, ho.headBlockNumber]
    exact h.started
  · rw [htrxs] at htrx
    rw [ho.time]
    rcases h.known trx htrx with hmem | hlt
    · by_cases hle : o.time ≤ trx.expiration
      · exact .inl (ho.transactions _ hmem hle)
      · exact .inr (not_le.mp hle)
    · exact .inr hlt

end Deduped

/-! ### The transactions of a block -/

/-- What the checks of `_apply_transaction` say about duplicates. -/
lemma checkTransaction_eq_ok {skip : SkipFlags} {trx : Transaction β} {o : Objects β ω}
    (h : Database.checkTransaction R skip trx o = .ok ())
    (hskip : skip.transactionDupeCheck = false) :
    (∀ t ∈ o.transactions, t.trxId ≠ trx.id) ∧
      (0 < o.headBlockNumber → o.time ≤ trx.expiration) := by
  unfold Database.checkTransaction at h
  obtain ⟨-, h⟩ := ite_throw_eq_ok.mp h
  obtain ⟨hknown, h⟩ := ite_throw_eq_ok.mp h
  obtain ⟨-, h⟩ := ite_throw_eq_ok.mp h
  refine ⟨fun t ht heq => hknown ?_, fun hhead => ?_⟩
  · simp only [hskip, Bool.not_false, Bool.true_and, Objects.isKnownTransaction, List.any_eq_true,
      decide_eq_true_eq]
    exact ⟨t, ht, heq⟩
  · rw [if_pos hhead] at h
    obtain ⟨-, h⟩ := ite_throw_eq_ok.mp h
    obtain ⟨-, h⟩ := ite_throw_eq_ok.mp h
    by_contra hexpired
    rw [if_pos hexpired] at h
    cases h

/-- The transactions `l`, which have been applied on top of `c` where `ts` was the transaction index:
they have distinct ids that were not in the index, and had not expired. -/
structure Recorded (c : Dynamic β) (ts : List TransactionObject) (l : List (Transaction β)) :
    Prop where
  nodup : (l.map (·.id)).Nodup
  fresh : ∀ trx ∈ l, ∀ t ∈ ts, t.trxId ≠ trx.id
  inTime : ∀ trx ∈ l, 0 < c.headBlockNumber → c.time ≤ trx.expiration

/-- The flags are `skip`, the transaction index is `ts` and the dynamic fields are `c`. -/
def IndexIs (skip : SkipFlags) (ts : List TransactionObject) (c : Dynamic β)
    (db : Database β ω) : Prop :=
  db.skipFlags = skip ∧ OnObjects (fun _ o => o.transactions = ts ∧ o.dynamic = c) db

namespace IndexIs

variable {skip : SkipFlags} {ts : List TransactionObject} {c : Dynamic β} {op : Operation β}

lemma invariant (ts : List TransactionObject) (c : Dynamic β) (n : ℕ) :
    OperationInvariant n (fun _ => True)
      (Above fun _ (o : Objects β ω) => o.transactions = ts ∧ o.dynamic = c) fun _ => True := by
  refine OperationInvariant.above (fun _ _ _ h ho => ?_) n
  obtain ⟨⟨_, _, _, _, _, rfl⟩, -⟩ := ho
  exact h

lemma flags_apart : Apart fun db : Database β ω => db.skipFlags = skip := ⟨fun _ _ _ _ _ _ h => h⟩

/-- Operations leave the index. -/
lemma applyOperations (l : List (Operation β)) :
    Triple (IndexIs skip ts c) (Exec.forEach (Database.applyOperation R d) l)
      (fun _ => (IndexIs skip ts c : Database β ω → Prop)) fun _ _ => True := by
  have hflags : Upholds (fun db : Database β ω => db.skipFlags = skip) (fun _ => True)
      (Exec.forEach (Database.applyOperation R d) l) :=
    Upholds.forEach l fun op _ => flags_apart.operates.operation op (op.admitted_true R)
  have hindex := triple_onObjects (Upholds.forEach l fun op _ =>
    ((invariant (ω := ω) ts c (0 + d)).operates_all le_rfl).operation op (op.admitted_true R))
  exact (Triple.and hflags hindex).conseq (fun _ h => h) (fun _ _ h => h) fun _ _ _ => trivial

lemma runRule (f : Objects β ω → List (Effect β ω)) :
    Triple (OnObjects fun _ o => o.transactions = ts ∧ o.dynamic = c) (Database.runRule f)
      (fun _ => OnObjects fun _ o => o.transactions = ts ∧ o.dynamic = c) fun _ _ => True :=
  triple_onObjects ((invariant ts c 0).runRule f)

/-- A transaction that is applied was not in the index, had not expired, and is in the index now. -/
lemma applyTransaction (hskip : skip.transactionDupeCheck = false) (trx : Transaction β) :
    Triple (IndexIs skip ts c) (Database.applyTransaction R d trx)
      (fun _ (db : Database β ω) => IndexIs skip (trx.object :: ts) c db ∧ Recorded c ts [trx])
      fun _ _ => True := by
  refine Triple.gets_bind fun s hs => Triple.gets_bind fun s' hs' => ?_
  subst hs'
  obtain ⟨rfl, rfl, rfl⟩ := hs
  refine triple_fcLift_bind (fun _ _ _ _ => trivial) fun _ hcheck => ?_
  obtain ⟨hfresh, htime⟩ := checkTransaction_eq_ok hcheck hskip
  have hrecorded : Recorded s'.objects.dynamic s'.objects.transactions [trx] :=
    ⟨List.nodup_singleton _, List.forall_mem_singleton.mpr hfresh,
      List.forall_mem_singleton.mpr htime⟩
  have hadd : Triple (fun db => db = s') (Database.modifyObjects (Database.addTransaction trx))
      (fun _ => IndexIs s'.skipFlags (trx.object :: s'.objects.transactions) s'.objects.dynamic)
      fun _ _ => True := by
    refine Triple.update fun db hdb => ?_
    subst hdb
    exact ⟨rfl, rfl, rfl⟩
  refine Triple.ite (fun _ => ?_) fun hnot => absurd (by rw [hskip]; rfl) hnot
  refine Triple.bind hadd fun _ => Triple.bind (applyOperations _) fun _ => ?_
  refine Triple.bind (Keeps.gets _) fun _ => ?_
  exact Triple.check (fun _ h _ => ⟨h, hrecorded⟩) fun _ _ _ => trivial

/-- So are the transactions of a block. -/
lemma applyTransactions (hskip : skip.transactionDupeCheck = false) (l : List (Transaction β)) :
    Triple (IndexIs skip ts c) (Exec.forEach (Database.applyTransaction R d) l)
      (fun _ (db : Database β ω) => IndexIs skip ((l.map (·.object)).reverse ++ ts) c db ∧
        Recorded c ts l) fun _ _ => True := by
  induction l generalizing ts with
  | nil => exact Triple.pure fun _ h => ⟨h, List.nodup_nil, List.forall_mem_nil _, List.forall_mem_nil _⟩
  | cons trx l ih =>
      rw [forEach_cons]
      refine Triple.bind (applyTransaction hskip trx) fun _ => ?_
      intro db ⟨hdb, hone⟩
      refine (ih.conseq (fun _ h => h) (fun _ db h => ⟨?_, ?_⟩) fun _ _ h => h) db hdb
      · rw [List.map_cons, List.reverse_cons, List.append_assoc]
        exact h.1
      · have hl := h.2
        refine ⟨?_, fun trx' htrx' t ht => ?_, fun trx' htrx' => ?_⟩
        · refine List.nodup_cons.mpr ⟨fun hmem => ?_, hl.nodup⟩
          obtain ⟨trx', htrx', heq⟩ := List.mem_map.mp hmem
          exact hl.fresh trx' htrx' _ List.mem_cons_self heq.symm
        · rcases List.mem_cons.mp htrx' with rfl | htrx'
          · exact hone.fresh trx' List.mem_cons_self t ht
          · exact hl.fresh trx' htrx' t (List.mem_cons_of_mem _ ht)
        · rcases List.mem_cons.mp htrx' with rfl | htrx'
          · exact hone.inTime trx' List.mem_cons_self
          · exact hl.inTime trx' htrx'

end IndexIs

/-! ### A block -/

/-- Transactions of the same id expire at the same time. -/
def SameExpiration (U : Transaction β → Prop) : Prop :=
  ∀ trx trx', U trx → U trx' → trx.id = trx'.id → trx.expiration = trx'.expiration

/-- The transactions of a block come onto the chain with it. -/
lemma Deduped.setHeadBlock {U : Transaction β → Prop} {n : ℕ} {o : Objects β ω}
    (h : Deduped U n o) (hU : SameExpiration U) {b : SignedBlock β}
    (hb : ∀ trx ∈ b.transactions, U trx) (hprev : o.headBlockId = b.previous)
    (hlater : o.time < b.timestamp) {ts : List TransactionObject}
    (hindex : o.transactions = (b.transactions.map (·.object)).reverse ++ ts)
    (hrecorded : Recorded o.dynamic ts b.transactions)
    (hknown : ∀ trx ∈ o.dynamic.transactions, trx.object ∈ ts ∨ trx.expiration < o.time) :
    Deduped U n (Database.setHeadBlock b o) := by
  have hnum : b.blockNum = o.headBlockNumber + 1 := h.sound.blockNum_eq hprev
  have habove := h.above
  have htrxs : (Database.setHeadBlock b o).dynamic.transactions =
      b.transactions ++ o.dynamic.transactions := rfl
  -- a transaction of the block that is on the chain already was in the index or had expired
  have hdisjoint : ∀ trx ∈ b.transactions, ∀ trx' ∈ o.dynamic.transactions, trx.id ≠ trx'.id := by
    intro trx htrx trx' htrx' hid
    rcases hknown trx' htrx' with hmem | hexpired
    · exact hrecorded.fresh trx htrx _ hmem hid.symm
    · have hchain : o.chain ≠ [] := by
        rintro hnil
        simp [Dynamic.transactions, Objects.dynamic, hnil] at htrx'
      have htime : o.time ≤ trx.expiration := hrecorded.inTime trx htrx (h.started hchain)
      have hexp := hU trx trx' (hb trx htrx) (h.within trx' htrx') hid
      omega
  refine ⟨(Dynamic.leads_withHead hprev h.sound).2, ?_, fun _ => ?_, ?_, ?_, fun trx htrx => ?_⟩
  · change n ≤ b.blockNum
    omega
  · exact Nat.succ_pos _
  · rw [htrxs]
    exact List.forall_mem_append.mpr ⟨hb, h.within⟩
  · rw [htrxs, List.map_append]
    refine List.nodup_append.mpr ⟨hrecorded.nodup, h.nodup, fun id hid id' hid' => ?_⟩
    obtain ⟨trx, htrx, rfl⟩ := List.mem_map.mp hid
    obtain ⟨trx', htrx', rfl⟩ := List.mem_map.mp hid'
    exact hdisjoint trx htrx trx' htrx'
  · rw [htrxs] at htrx
    rcases List.mem_append.mp htrx with htrx | htrx
    · refine .inl ?_
      change trx.object ∈ o.transactions
      rw [hindex]
      exact List.mem_append_left _ (List.mem_reverse.mpr (List.mem_map_of_mem htrx))
    · exact (h.known trx htrx).imp_right fun hlt => hlt.trans hlater

section Block

variable {U : Transaction β → Prop} {n : ℕ} {checkpoints : List (ℕ × BlockId)}

/-- The objects and all undo states are deduped; the checkpoints stay. -/
def DedupedThroughout (U : Transaction β → Prop) (checkpoints : List (ℕ × BlockId)) (n : ℕ) :
    Database β ω → Prop :=
  Throughout (fun _ c => c = checkpoints) (Deduped U n)

lemma deduped_operationInvariant (k : ℕ) :
    OperationInvariant k (fun _ => True)
      (fun _ => (DedupedThroughout U checkpoints n : Database β ω → Prop))
      fun db => db.checkpoints = checkpoints :=
  Throughout.operationInvariant k (fun _ _ ho h => ho.operated h) fun _ _ _ _ => trivial

lemma deduped_operates : Operates R d (fun _ => True)
    (DedupedThroughout U checkpoints n : Database β ω → Prop)
    fun db => db.checkpoints = checkpoints := by
  refine (deduped_operationInvariant d).operates (k := 0) (by omega)
    (fun _ _ op _ => op.admitted_true R) fun _ => ?_
  exact Triple.bind (Q := fun _ => DedupedThroughout U checkpoints n) (Triple.update fun _ h => h)
    fun _ => Triple.raise fun _ h => h.1

lemma deduped_applyTransaction (trx : Transaction β) :
    Upholds (DedupedThroughout U checkpoints n : Database β ω → Prop)
      (fun db => db.checkpoints = checkpoints) (Database.applyTransaction R d trx) :=
  Upholds.applyTransaction (fun op _ => deduped_operates.operation op (op.admitted_true R))
    fun _ h => h.record (h.2.2.1.addTransaction trx)

/-- When the transactions of the block `b` have been applied they are in the index. -/
def TransactionsApplied (U : Transaction β → Prop) (checkpoints : List (ℕ × BlockId)) (n : ℕ)
    (c : Dynamic β) (b : SignedBlock β) (db : Database β ω) : Prop :=
  ∃ ts, (Recorded c ts b.transactions ∧
      ∀ trx ∈ c.transactions, trx.object ∈ ts ∨ trx.expiration < c.time) ∧
    DedupedThroughout U checkpoints n db ∧
    OnObjects (fun _ o => o.transactions = (b.transactions.map (·.object)).reverse ++ ts ∧
      o.dynamic = c) db

lemma deduped_steps (hU : SameExpiration U) {c : Dynamic β} {b : SignedBlock β}
    (hb : ∀ trx ∈ b.transactions, U trx) {skip : SkipFlags}
    (hskip : c.headBlockId = b.previous → skip.transactionDupeCheck = false) :
    BlockSteps R d d (fun _ => True) c b skip
      (fun _ => (DedupedThroughout U checkpoints n : Database β ω → Prop))
      (TransactionsApplied U checkpoints n c b) fun db => db.checkpoints = checkpoints :=
  { deduped_operationInvariant d with
    operates := deduped_operates
    transactions := fun hprev db ⟨hdb, hc, hflags⟩ => by
      subst hc
      have hkept : Upholds (DedupedThroughout U checkpoints n : Database β ω → Prop)
          (fun db => db.checkpoints = checkpoints)
          (Exec.forEach (Database.applyTransaction R d) b.transactions) :=
        Upholds.forEach _ fun trx _ => deduped_applyTransaction trx
      have hindex : Triple (IndexIs skip db.objects.transactions db.objects.dynamic)
          (Exec.forEach (Database.applyTransaction R d) b.transactions)
          (fun _ db' => IndexIs skip ((b.transactions.map (·.object)).reverse ++
              db.objects.transactions) db.objects.dynamic db' ∧
            Recorded db.objects.dynamic db.objects.transactions b.transactions) fun _ _ => True :=
        IndexIs.applyTransactions (hskip hprev) b.transactions
      refine ((Triple.and hkept hindex).conseq (fun _ h => h) (fun _ db' h => ?_)
        fun _ _ h => h.1) db ⟨hdb, hflags, rfl, rfl⟩
      exact ⟨_, ⟨h.2.2, hdb.2.2.1.known⟩, h.1, h.2.1.2⟩
    rule := fun f => by
      refine Triple.of_exists fun ts => Triple.of_and fun hts => ?_
      refine (Triple.and ((deduped_operationInvariant 0).runRule (k := 0) f)
        (IndexIs.runRule f)).conseq (fun _ h => h) (fun _ _ h => ⟨ts, hts, h⟩) fun _ _ h => h.1
    head := fun hprev hlater ⟨ts, ⟨hrecorded, hknown⟩, hdb, hindex, _⟩ hc => by
      subst hc
      exact hdb.record (hdb.2.2.1.setHeadBlock hU hb hprev hlater hindex hrecorded hknown)
    concluded := fun h ho => h.record (h.2.2.1.concluded ho)
    other := fun _ _ _ h => h
    ended := fun _ _ h => h
    resize := fun _ h => h }

end Block

/-! ### Runs -/

/-- The block number up to which `apply_block` skips almost everything. -/
def lastCheckpoint (checkpoints : List (ℕ × BlockId)) : ℕ :=
  match checkpoints.getLast? with
  | none => 0
  | some (n, id) => if id = .zero then 0 else n

/-- Above the checkpoints the flags are those of the call. -/
lemma checkpointFlags_eq_ok {checkpoints : List (ℕ × BlockId)} {skip skip' : SkipFlags}
    {b : SignedBlock β} (h : Database.checkpointFlags checkpoints skip b = .ok skip')
    (hb : lastCheckpoint checkpoints < b.blockNum) : skip' = skip := by
  unfold Database.checkpointFlags at h
  unfold lastCheckpoint at hb
  cases hlast : checkpoints.getLast? with
  | none =>
      simp only [hlast] at h
      cases h
      rfl
  | some p =>
      obtain ⟨n, id⟩ := p
      simp only [hlast] at h hb
      by_cases hid : id = .zero
      · rw [if_pos hid] at h
        cases h
        rfl
      · rw [if_neg hid] at h hb
        split_ifs at h with hmismatch hle
        · omega
        · cases h
          rfl

/-- The transactions that a call brings. -/
def Call.transactions : Call β → List (Transaction β)
  | .pushBlock b _ => b.transactions
  | .pushTransaction trx _ => [trx]
  | .validateTransaction trx => [trx]
  | .generateBlock _ _ _ => []

/-- The call does not set `skip_transaction_dupe_check`. -/
def Call.checksDuplicates : Call β → Bool
  | .pushBlock _ skip => !skip.transactionDupeCheck
  | .pushTransaction _ skip => !skip.transactionDupeCheck
  | .validateTransaction _ => true
  | .generateBlock _ _ skip => !skip.transactionDupeCheck

lemma Call.within_of_checksDuplicates {U : Transaction β → Prop} {c : Call β}
    (h : c.checksDuplicates = true) (hU : ∀ trx ∈ c.transactions, U trx) :
    c.Within U (fun b => ∀ trx ∈ b.transactions, U trx)
      fun skip => skip.transactionDupeCheck = false := by
  cases c with
  | pushBlock b skip => exact ⟨hU, (Bool.not_eq_true' _).mp h⟩
  | pushTransaction trx skip => exact ⟨hU trx List.mem_cons_self, (Bool.not_eq_true' _).mp h⟩
  | validateTransaction trx => exact hU trx List.mem_cons_self
  | generateBlock time witness skip => exact (Bool.not_eq_true' _).mp h

lemma deduped_chainInvariant {U : Transaction β → Prop} (hU : SameExpiration U)
    {checkpoints : List (ℕ × BlockId)} {n : ℕ} (hn : lastCheckpoint checkpoints ≤ n) :
    ChainInvariant R d U (fun b => ∀ trx ∈ b.transactions, U trx)
      (fun skip => skip.transactionDupeCheck = false)
      (fun _ => (DedupedThroughout U checkpoints n : Database β ω → Prop))
      (DedupedThroughout U checkpoints n) fun db => db.checkpoints = checkpoints := by
  refine Throughout.chainInvariant (fun _ hb => hb) (fun _ _ _ _ htrxs => htrxs)
    (fun trx _ => deduped_applyTransaction trx) fun b skip hb hskip => ?_
  intro db hdb
  have hsteps : ∀ (db' : Database β ω) (skip' : SkipFlags), DedupedThroughout U checkpoints n db' →
      db'.objects.dynamic = db.objects.dynamic →
      Database.checkpointFlags db'.checkpoints skip b = .ok skip' →
      BlockSteps R d d (fun _ => True) db.objects.dynamic b skip'
        (fun _ => (DedupedThroughout U checkpoints n : Database β ω → Prop))
        (TransactionsApplied U checkpoints n db.objects.dynamic b)
        fun db => db.checkpoints = checkpoints := by
    refine fun db' skip' hdb' _ hflags => deduped_steps hU hb fun hprev => ?_
    -- the block is above the checkpoints, so the check is not skipped
    have hnum : b.blockNum = db.objects.headBlockNumber + 1 := hdb.2.2.1.sound.blockNum_eq hprev
    have habove := hdb.2.2.1.above
    rw [hdb'.1] at hflags
    rw [checkpointFlags_eq_ok hflags (by omega)]
    exact hskip
  obtain ⟨hok, herr⟩ := BlockSteps.applyBlock (I := fun _ => DedupedThroughout U checkpoints n)
    hsteps db ⟨hdb, rfl⟩
  exact ⟨fun a s' hx => (hok a s' hx).1, herr⟩

/-- **No transaction is applied twice on one chain**: in a run that never skips the check for
duplicates, and in which a transaction is determined by its id, no two transactions of the chain
have the same id. -/
theorem transactions_applied_once (R : Rules β ω) (d : ℕ) {db₀ db : Database β ω}
    {l : List (Call β)} (h₀ : db₀.Fresh) (hsound : db₀.objects.dynamic.Sound)
    (hchain : db₀.objects.chain = [])
    (hcheckpoints : lastCheckpoint db₀.checkpoints ≤ db₀.objects.headBlockNumber)
    (hrun : Database.Run R d db₀ l db) (hskip : ∀ c ∈ l, c.checksDuplicates = true)
    (hids : ∀ trx ∈ l.flatMap (·.transactions), ∀ trx' ∈ l.flatMap (·.transactions),
      trx.id = trx'.id → trx = trx') :
    (db.objects.dynamic.transactions.map (·.id)).Nodup := by
  let U : Transaction β → Prop := fun trx => trx ∈ l.flatMap (·.transactions)
  have hU : SameExpiration U := fun trx trx' htrx htrx' hid =>
    congrArg Transaction.expiration (hids trx htrx trx' htrx' hid)
  have hempty : db₀.objects.dynamic.transactions = [] := by
    simp only [Dynamic.transactions, Objects.dynamic, hchain, List.flatMap_nil]
  have hbegin : Deduped U db₀.objects.headBlockNumber db₀.objects := by
    refine ⟨hsound, le_rfl, fun hne => absurd hchain hne, ?_, ?_, ?_⟩ <;> simp [hempty]
  have hdb := (deduped_chainInvariant (R := R) (d := d) hU hcheckpoints).run hrun (fun c hc => ?_)
    ⟨h₀.holds, rfl, h₀.enabled, hbegin, by simp [h₀.stack]⟩
  · exact hdb.2.2.2.1.nodup
  · exact Call.within_of_checksDuplicates (hskip c hc) fun trx htrx =>
      List.mem_flatMap.mpr ⟨c, hc, htrx⟩

/-- A block with the transaction that is `executing`. -/
def executingBlock (previous : BlockId) (hash : ℕ) : SignedBlock Unit :=
  { emptyBlock previous hash with transactions := [executing] }

/-- The transaction comes in the first block, and in the second, which is not applied. -/
theorem transactions_applied_once_executing :
    ∃ db, Database.Run calmRules 1 (newChain [0, 1, 2])
        [.pushBlock (executingBlock .zero 1) {}, .pushBlock (executingBlock ⟨1, 1⟩ 2) {}] db ∧
      db.objects.dynamic.transactions.length = 1 ∧
      (db.objects.dynamic.transactions.map (·.id)).Nodup := by
  have hone := (Database.Run.nil (newChain [0, 1, 2])).returns (R := calmRules) (d := 1)
    (c := .pushBlock (executingBlock .zero 1) {}) (by decide +kernel)
  have hrejected : (Database.call calmRules 1 (.pushBlock (executingBlock ⟨1, 1⟩ 2) {})
      (Database.call calmRules 1 (.pushBlock (executingBlock .zero 1) {})
        (newChain [0, 1, 2])).2).1 = .error (.fc .duplicateTransaction) := by decide +kernel
  have hrun := hone.snoc (c := .pushBlock (executingBlock ⟨1, 1⟩ 2) {}) ⟨rfl, by rw [hrejected]; nofun⟩
  refine ⟨_, hrun, by decide +kernel,
    transactions_applied_once calmRules 1 (newChain_begins _).toFresh (newChain_begins _).sound
      rfl le_rfl hrun ?_ ?_⟩
  · decide
  · intro trx htrx trx' htrx' _
    have hall : ∀ trx ∈ [executing, executing], trx = executing := by simp
    exact (hall trx htrx).trans (hall trx' htrx').symm

end ZosCore
