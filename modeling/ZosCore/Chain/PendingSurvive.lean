import ZosCore.Chain.Conditions
import ZosCore.Chain.Pending
import ZosCore.Chain.PoppedBlocks
import ZosCore.Chain.Review
import ZosCore.Chain.TransactionIndex

/-!
Pending transactions survive `push_block`.

`without_pending_transactions` puts the pending transactions aside, `_push_block` appends the block,
switches to another branch or fails, and the restorer tries the transactions that were popped and then
those that had been pending.

* `Database.pushed`: the state that `_push_block` leaves for the restorer.
* `Survive`: what becomes of the pending transactions.
* **`pending_survive`**: it is so in every run that checks for duplicates, as long as no session trims
  the state of an open one.
-/

namespace ZosCore

open Exec

variable {β ω : Type} {R : Rules β ω} {d : ℕ}

/-! ### The steps of `push_block` -/

namespace Database

variable {α : Type} {db db' s : Database β ω} {b : SignedBlock β} {skip : SkipFlags}

/-- `y` runs whether `x` returns or throws. -/
lemma snd_finally {x : Act β ω α} {y : Act β ω Unit}
    (hend : ((catchFc x (fun e => y >>= fun _ => raise e) >>= fun a => y >>= fun _ => pure a) s).1 ≠
      .error .crash) :
    (x s).1 ≠ .error .crash ∧ (y (x s).2).1 ≠ .error .crash ∧
      ((catchFc x (fun e => y >>= fun _ => raise e) >>= fun a => y >>= fun _ => pure a) s).2 =
        (y (x s).2).2 := by
  rcases hx : x s with ⟨e | a, s₂⟩
  · cases e with
    | crash =>
        have hcrash : catchFc x (fun e => y >>= fun _ => raise e) s = (.error .crash, s₂) :=
          catchIf_missed hx rfl
        exact absurd (congrArg Prod.fst (bind_error hcrash)) hend
    | fc e =>
        rcases hy : y s₂ with ⟨e' | u, s₃⟩
        · have hcaught : catchFc x (fun e => y >>= fun _ => raise e) s = (.error e', s₃) :=
            (catchIf_caught hx rfl).trans (bind_error hy)
          rw [bind_error hcaught] at hend ⊢
          exact ⟨by simp, fun h => hend (by cases h; rfl), rfl⟩
        · have hcaught : catchFc x (fun e => y >>= fun _ => raise e) s = (.error (.fc e), s₃) :=
            (catchIf_caught hx rfl).trans (bind_ok hy)
          rw [bind_error hcaught]
          exact ⟨by simp, by simp, rfl⟩
  · have hreturns : catchFc x (fun e => y >>= fun _ => raise e) s = (.ok a, s₂) := catchIf_ok hx
    rw [bind_ok hreturns] at hend ⊢
    rcases hy : y s₂ with ⟨e' | u, s₃⟩
    · rw [bind_error hy] at hend ⊢
      exact ⟨by simp, fun h => hend (by cases h; rfl), rfl⟩
    · rw [bind_ok hy]
      exact ⟨by simp, by simp, rfl⟩

/-- `without_pending_transactions`: what `x` leaves is restored. -/
lemma withoutPendingTransactions_snd {x : Act β ω α} (hclear : clearPending db = (.ok (), s))
    (hend : (withoutPendingTransactions R d x db).1 ≠ .error .crash) :
    (x s).1 ≠ .error .crash ∧ (restorePending R d db.pendingTx (x s).2).1 ≠ .error .crash ∧
      (withoutPendingTransactions R d x db).2 = (restorePending R d db.pendingTx (x s).2).2 := by
  have hstart : withoutPendingTransactions R d x db =
      (catchFc x (fun e => restorePending R d db.pendingTx >>= fun _ => raise e) >>= fun a =>
        restorePending R d db.pendingTx >>= fun _ => pure a) s :=
    (bind_ok (gets_apply _ _)).trans (bind_ok hclear)
  rw [hstart] at hend ⊢
  exact snd_finally hend

/-- The state that `_push_block` leaves for `~pending_transactions_restorer`. -/
def pushed (R : Rules β ω) (d : ℕ) (b : SignedBlock β) (skip : SkipFlags) (db : Database β ω) :
    Database β ω :=
  (pushBlockInner R d b (db.entering skip)).2

/-- A call of `push_block` that ends: the pending transactions are put aside, `_push_block` runs, and
the restorer. -/
lemma Calls.pushBlock (hcall : Calls R d db (.pushBlock b skip) db')
    (hclear : ∀ e s, clearPending { db with skipFlags := skip } ≠ (.error (.fc e), s)) :
    clearPending { db with skipFlags := skip } = (.ok (), db.entering skip) ∧
    (pushBlockInner R d b (db.entering skip)).1 ≠ .error .crash ∧
    ∃ r s, restorePending R d db.pendingTx (db.pushed R d b skip) = (r, s) ∧ r ≠ .error .crash ∧
      db' = { s with skipFlags := db.skipFlags } := by
  obtain ⟨hcall, hend⟩ := hcall
  let db₁ : Database β ω := { db with skipFlags := skip }
  let x : Act β ω Bool := withoutPendingTransactions R d (pushBlockInner R d b)
  have hpush : Database.pushBlock R d b skip db =
      ((x db₁).1, { (x db₁).2 with skipFlags := db.skipFlags }) := rfl
  have hreturn : (x db₁).1 ≠ .error .crash ∧ db' = { (x db₁).2 with skipFlags := db.skipFlags } := by
    rcases hx : x db₁ with ⟨e | a, s⟩
    · rw [hx] at hpush
      have hthrows : call R d (.pushBlock b skip) db = _ := bind_error hpush
      rw [hthrows] at hend hcall
      exact ⟨fun h => hend (by cases h; rfl), hcall.symm⟩
    · rw [hx] at hpush
      have hreturns : call R d (.pushBlock b skip) db = _ := bind_ok hpush
      rw [hreturns] at hcall
      exact ⟨by simp, hcall.symm⟩
  obtain ⟨hne, rfl⟩ := hreturn
  have hcleared : clearPending db₁ = (.ok (), db.entering skip) := by
    rcases hc : clearPending db₁ with ⟨e | u, s⟩
    · cases e with
      | fc e => exact absurd hc (hclear e s)
      | crash =>
          have hthrows : x db₁ = (.error .crash, s) := (bind_ok (gets_apply _ _)).trans (bind_error hc)
          exact absurd (congrArg Prod.fst hthrows) hne
    · exact Prod.ext rfl (congrArg Prod.snd hc).symm
  obtain ⟨hpushed, hrestored, hsnd⟩ := withoutPendingTransactions_snd hcleared hne
  refine ⟨hcleared, hpushed, _, _, rfl, hrestored, ?_⟩
  rw [hsnd]
  rfl

end Database

/-- Where a computation ends that does not end the program. -/
lemma Triple.ends {α : Type} {P Q C : Database β ω → Prop} {x : Act β ω α} {db : Database β ω}
    (h : Triple P x (fun _ => Q) (OnFailure Q C)) (hdb : P db) (hne : (x db).1 ≠ .error .crash) :
    Q (x db).2 := by
  obtain ⟨hok, herr⟩ := h db hdb
  rcases hx : x db with ⟨e | a, db'⟩
  · cases e with
    | fc e => exact herr _ db' hx
    | crash => exact absurd (congrArg Prod.fst hx) hne
  · exact hok a db' hx

namespace PendingInvariant

variable {U : Transaction β → Prop} {P : SignedBlock β → Prop} {T : SkipFlags → Prop}
  {I : ℕ → Database β ω → Prop} {C : Database β ω → Prop} {db : Database β ω} {skip : SkipFlags}

lemma settled (h : PendingInvariant R d U I C) (hdb : Idle U P I db) (hT : T skip) :
    Settled U P T I { db with skipFlags := skip } := ⟨_, ⟨hdb.1, hT, rfl⟩, h.other _ _ _ skip hdb.2⟩

/-- `clear_pending` does not throw between calls. -/
lemma clearPending_ne (h : PendingInvariant R d U I C) (hdb : Idle U P I db) (e : ChainError)
    (s : Database β ω) :
    Database.clearPending { db with skipFlags := skip } ≠ (.error (.fc e), s) :=
  fun hthrows => (h.clearPending (T := fun _ => True) (fun _ => False) _
    (h.settled hdb trivial)).2 _ _ hthrows

/-- The state in which `_push_block` is called. -/
lemma entering (h : PendingInvariant R d U I C) (hdb : Idle U P I db) (hT : T skip)
    (hclear : Database.clearPending { db with skipFlags := skip } = (.ok (), db.entering skip)) :
    Inside U P T false (I 0) (db.entering skip) :=
  (h.clearPending (fun _ => False) _ (h.settled hdb hT)).1 _ _ hclear

end PendingInvariant

/-! ### Pending transactions -/

/-- What becomes of the pending transactions of `db` in `push_block`, which leads to `db'`; `s` is the
state that `_push_block` leaves, and `before` the main chain before. -/
structure Survive (R : Rules β ω) (d : ℕ) (skip : SkipFlags) (before : List (SignedBlock β))
    (db s db' : Database β ω) : Prop where
  reverted : Reverted before s.poppedTx
  pendingTx : db'.pendingTx =
    (Ledger.tryAll R s.recording skip d (s.poppedTx ++ db.pendingTx) s.objects).1
  sublist : db'.pendingTx.Sublist (s.poppedTx ++ db.pendingTx)
  applied : (Ledger.forEach (Ledger.transaction R s.recording skip d) db'.pendingTx s.objects).2 =
    .ok ((), db'.objects)
  base : db'.undo.base db'.objects = s.objects
  session : db'.pendingTx ≠ [] → db'.pendingTxSession = true
  nodup : (db'.pendingTx.map (·.id)).Nodup
  fresh : ∀ trx ∈ db'.pendingTx, ∀ b ∈ s.objects.chain, lastCheckpoint s.checkpoints < b.blockNum →
    ∀ trx' ∈ b.transactions, s.objects.time ≤ trx'.expiration → trx.id ≠ trx'.id
  poppedTx : db'.poppedTx = []

/-- The restorer leaves the pending transactions so if the transactions of the chain are in the
index. -/
lemma PendingRestored.survive {before : List (SignedBlock β)} {db s s' : Database β ω}
    (h : PendingRestored R d db.pendingTx s s') (hskip : s.skipFlags.transactionDupeCheck = false)
    (hreverted : Reverted before s.poppedTx)
    (hindexed : Indexed (lastCheckpoint s.checkpoints) s.objects) (skipFlags : SkipFlags) :
    Survive R d s.skipFlags before db s { s' with skipFlags } := by
  obtain ⟨hnodup, hunknown⟩ := Ledger.tryAll_recorded (R := R) (d := d) s.recording hskip
    (s.poppedTx ++ db.pendingTx) s.objects
  rw [← h.pendingTx] at hnodup hunknown
  refine ⟨hreverted, h.pendingTx, ?_, ?_, h.base, h.session, hnodup, ?_, h.poppedTx⟩
  · exact h.pendingTx ▸ Ledger.tryAll_sublist _ _
  · change (Ledger.forEach _ s'.pendingTx s.objects).2 = .ok ((), s'.objects)
    rw [h.pendingTx, h.objects]
    exact Ledger.forEach_tryAll _ _
  · intro trx htrx b hb hlater trx' htrx' htime heq
    -- a transaction that has not expired is in the index, and what is pending was not
    rcases hindexed b hb hlater trx' htrx' with hmem | hexpired
    · have hknown : s.objects.isKnownTransaction trx.id = true :=
        List.any_eq_true.mpr ⟨_, hmem, decide_eq_true heq.symm⟩
      rw [hunknown trx htrx] at hknown
      cases hknown
    · exact absurd hexpired (not_lt.mpr htime)

/-! ### Runs -/

namespace Database.Run

variable {db₀ db db' : Database β ω} {l : List (Call β)} {b : SignedBlock β} {skip : SkipFlags}

/-- The committed states rise. -/
lemma rising (hrun : Database.Run R d db₀ l db) (h₀ : db₀.Begins)
    (hzero : db₀.objects.headBlockNumber = 0) :
    Idle (fun _ => True) (fun _ => True) (Chronicle UndoEvent.Untrimmed Rising) db := by
  refine (rising_invariant.chainInvariant R d).run hrun (Database.within_true l)
    ⟨h₀.toFresh.holds, ?_⟩
  rw [h₀.pendingTxSession]
  exact (h₀.keeping (X := fun _ _ => True) hzero trivial).1

/-- Where `_push_block` is called nothing has been popped. -/
lemma popping (hrun : Database.Run R d db₀ l db) (h₀ : db₀.Begins)
    (hzero : db₀.objects.headBlockNumber = 0)
    (hclear : Database.clearPending { db with skipFlags := skip } = (.ok (), db.entering skip)) :
    Popping (fun skip' => skip' = skip) (PoppedFrom (db.entering skip).objects.chain [])
      (db.entering skip) := by
  obtain ⟨hcleared, hchron⟩ := (rising_invariant.chainInvariant R d).pending.entering
    (T := fun skip' => skip' = skip) (hrun.rising h₀ hzero) rfl hclear
  have hnone : PoppedIs [] db := PoppedIs.run hrun h₀.poppedTx
  have hpopped : (db.entering skip).poppedTx = [] :=
    (PoppedIs.clearPending { db with skipFlags := skip } hnone).1 _ _ hclear
  refine ⟨hcleared, hchron, fun _ => ?_⟩
  rw [hpopped]
  exact .refl _ _

/-- What `_push_block` has popped. -/
lemma popped_pushed (hrun : Database.Run R d db₀ l db) (h₀ : db₀.Begins)
    (hzero : db₀.objects.headBlockNumber = 0)
    (hclear : Database.clearPending { db with skipFlags := skip } = (.ok (), db.entering skip))
    (hpush : (Database.pushBlockInner R d b (db.entering skip)).1 ≠ .error .crash) :
    Popping (fun skip' => skip' = skip) (fun _ => Reverted (db.entering skip).objects.chain)
      (db.pushed R d b skip) ∧
    ((Database.pushBlockInner R d b (db.entering skip)).1.isOk = true →
      Popping (fun skip' => skip' = skip) (Switched (db.entering skip).objects.chain)
        (db.pushed R d b skip)) := by
  obtain ⟨hok, herr⟩ := Popping.pushBlockInner (R := R) (d := d) b _ (hrun.popping h₀ hzero hclear)
  rcases hs : Database.pushBlockInner R d b (db.entering skip) with ⟨e | a, s⟩
  · cases e with
    | fc e =>
        rw [Database.pushed, hs]
        exact ⟨herr _ s hs, fun hok => by cases hok⟩
    | crash => exact absurd (congrArg Prod.fst hs) hpush
  · rw [Database.pushed, hs]
    exact ⟨(hok a s hs).reverted, fun _ => hok a s hs⟩

/-- What `_push_block` leaves in the transaction index. -/
lemma indexed_pushed (hrun : Database.Run R d db₀ l db) (h₀ : db₀.Begins)
    (hcalls : ∀ c ∈ l, c.checksDuplicates = true) (hskip : skip.transactionDupeCheck = false)
    (hclear : Database.clearPending { db with skipFlags := skip } = (.ok (), db.entering skip))
    (hpush : (Database.pushBlockInner R d b (db.entering skip)).1 ≠ .error .crash) :
    Indexed (lastCheckpoint (db.pushed R d b skip).checkpoints) (db.pushed R d b skip).objects := by
  have hinv := indexed_chainInvariant (β := β) (ω := ω) R d
    (le_refl (lastCheckpoint db₀.checkpoints))
  have hbegin := hinv.pending.entering (T := fun skip => skip.transactionDupeCheck = false)
    (hrun.indexed h₀ hcalls) hskip hclear
  have hend := Triple.ends (hinv.switch.pushBlockInner trivial) hbegin hpush
  obtain ⟨-, hcheckpoints, -, hindexed, -⟩ := hend
  rw [Database.pushed, hcheckpoints]
  exact hindexed

end Database.Run

/-- `_push_block` adds no pending transactions. -/
lemma pendingTx_pushed {db : Database β ω} {b : SignedBlock β} {skip : SkipFlags}
    (hclear : Database.clearPending { db with skipFlags := skip } = (.ok (), db.entering skip))
    (hpush : (Database.pushBlockInner R d b (db.entering skip)).1 ≠ .error .crash) :
    (db.pushed R d b skip).pendingTx = [] := by
  have hinv : PushInvariant fun db : Database β ω => db.pendingTx = [] :=
    { change := fun _ _ _ _ _ _ h => h
      call := fun _ _ h => h
      other := fun _ _ _ _ _ _ h => h }
  have hcleared : Triple (fun _ => True) (Database.clearPending : Act β ω Unit)
      (fun _ db => db.pendingTx = []) (OnFailure (fun db => db.pendingTx = []) fun _ => True) :=
    Triple.bind (Triple.update fun _ _ => rfl) fun _ => hinv.resetPendingSession
  exact Triple.ends (hinv.pushBlockInner b) ((hcleared _ trivial).1 _ _ hclear) hpush

/-- **Pending transactions survive `push_block`**, whether it appends the block, switches to another
branch or fails, after every run from an empty chain on in which all calls check for duplicates, as
long as no session trims the state of an open one. Of the popped transactions, in the order of the
chain, and then those that were pending, those are pending that apply in their order on the new head;
the pending session holds what they lead to. Their ids are distinct, and not those of transactions of
the chain that have not expired. If `_push_block` returns, only blocks of the old main chain have been
popped. -/
theorem pending_survive (R : Rules β ω) (d : ℕ) {db₀ db db' : Database β ω} {l : List (Call β)}
    {b : SignedBlock β} {skip : SkipFlags} (h₀ : db₀.Begins)
    (hzero : db₀.objects.headBlockNumber = 0) (hrun : Database.Run R d db₀ l db)
    (hcalls : ∀ c ∈ l, c.checksDuplicates = true) (hskip : skip.transactionDupeCheck = false)
    (hcall : Database.Calls R d db (.pushBlock b skip) db')
    (huntrimmed : ∀ e ∈ db'.undoLog, e.Untrimmed) :
    Survive R d skip (db.entering skip).objects.chain db (db.pushed R d b skip) db' ∧
    ((Database.pushBlockInner R d b (db.entering skip)).1.isOk = true →
      Switched (db.entering skip).objects.chain (db.pushed R d b skip).objects.chain
        (db.pushed R d b skip).poppedTx) := by
  have hpending := (rising_invariant.chainInvariant R d).pending
  obtain ⟨hclear, hpush, r, s, hrestore, hend, rfl⟩ :=
    hcall.pushBlock (hpending.clearPending_ne (hrun.rising h₀ hzero))
  -- the log of the restorer begins with that of `_push_block`
  have hlogged : Logged UndoEvent.Untrimmed (db.pushed R d b skip) := by
    obtain ⟨new, hnew, -⟩ := confined_restorePending (R := R) (d := d) db.pendingTx
      (db.pushed R d b skip)
    rw [hrestore] at hnew
    exact fun e he => huntrimmed e (hnew ▸ List.mem_append_right _ he)
  obtain ⟨hreverted, hswitched⟩ := hrun.popped_pushed h₀ hzero hclear hpush
  obtain ⟨hactive, -⟩ := hreverted.rising.committed hlogged
  have hflags : (db.pushed R d b skip).skipFlags = skip := hreverted.cleared.2.1
  obtain ⟨-, hrestored⟩ := restored_of_untrimmed hreverted.rising.1
    ⟨hreverted.cleared.2.2, hactive⟩ (pendingTx_pushed hclear hpush) (by rw [hflags]; exact hskip)
    hrestore hend huntrimmed
  have hindexed := hrun.indexed_pushed h₀ hcalls hskip hclear hpush
  refine ⟨?_, fun hok => (hswitched hok).holds hlogged⟩
  have hsurvive := hrestored.survive (by rw [hflags]; exact hskip) (hreverted.holds hlogged) hindexed
    db.skipFlags
  rw [hflags] at hsurvive
  exact hsurvive

/-- The second block of a chain, which holds the transaction that is pending in `oneTransaction`. -/
def takenBlock : SignedBlock Unit :=
  { emptyBlock ⟨1, 1⟩ 2 with transactions := [{ id := 1, expiration := 1700000010 }] }

/-- A call that returns. -/
lemma Database.Calls.returns {db : Database β ω} {c : Call β}
    (h : (Database.call R d c db).1.isOk = true) :
    Database.Calls R d db c (Database.call R d c db).2 := by
  refine ⟨rfl, fun hc => ?_⟩
  rw [hc] at h
  cases h

/-- The transaction stays pending over an empty block. -/
theorem pending_survive_oneTransaction :
    ∃ db', Database.Calls calmRules 1 oneTransaction (.pushBlock (emptyBlock ⟨1, 1⟩ 2) {}) db' ∧
      db'.pendingTx.map (·.id) = [1] ∧
      db'.undo.base db'.objects =
        (oneTransaction.pushed calmRules 1 (emptyBlock ⟨1, 1⟩ 2) {}).objects := by
  have hcall : Database.Calls calmRules 1 oneTransaction (.pushBlock (emptyBlock ⟨1, 1⟩ 2) {})
      (Database.call calmRules 1 (.pushBlock (emptyBlock ⟨1, 1⟩ 2) {}) oneTransaction).2 :=
    Database.Calls.returns (by decide +kernel)
  have huntrimmed : ∀ e ∈ (Database.call calmRules 1 (.pushBlock (emptyBlock ⟨1, 1⟩ 2) {})
      oneTransaction).2.undoLog, e.call = .start → e.activeSessions ≤ e.maxSize := by
    decide +kernel
  obtain ⟨hsurvive, -⟩ := pending_survive calmRules 1 (newChain_begins _) rfl oneTransaction_run
    (by decide) rfl hcall huntrimmed
  exact ⟨_, hcall, by decide +kernel, hsurvive.base⟩

/-- A proposal that is executed at once and makes another one, which is executed at once too. -/
def nestedProposals : Transaction OperationTag :=
  proposing [.basic .gatewayCreate, .proposalCreate 7 1700700000 none [.basic .transfer]]

/-- The first block of the new node. -/
def gatewayBlock : SignedBlock OperationTag where
  previous := .zero
  timestamp := 1700000003
  digest := 1

/-- A transaction is pending that is on the chain and has not expired. -/
def Database.PendingOnChain (db : Database Unit Unit) : Prop :=
  ∃ trx ∈ db.pendingTx, ∃ b ∈ db.objects.chain, ∃ trx' ∈ b.transactions,
    trx.id = trx'.id ∧ db.objects.time ≤ trx'.expiration

instance (db : Database Unit Unit) : Decidable db.PendingOnChain :=
  inferInstanceAs (Decidable (∃ trx ∈ db.pendingTx, ∃ b ∈ db.objects.chain,
    ∃ trx' ∈ b.transactions, trx.id = trx'.id ∧ db.objects.time ≤ trx'.expiration))

/-- Where the second block is pushed without the check for duplicates, by its flags or since it is a
checkpoint, its transaction is not noted in the index: it stays pending, though it is on the chain and
has not expired. Where proposals nest, the third session in the pending one trims the state under
that: the transaction is pending, but what it led to is undone. -/
theorem not_pending_survive_takenBlock :
    (Database.Run calmRules 1 (newChain [0, 1, 2])
      [.pushBlock (emptyBlock .zero 1) {}, .pushTransaction { id := 1, expiration := 1700000010 } {}]
      oneTransaction ∧
    ∃ db', Database.Calls calmRules 1 oneTransaction
        (.pushBlock takenBlock { transactionDupeCheck := true }) db' ∧ db'.PendingOnChain) ∧
    (∃ db db', Database.Run calmRules 1 { newChain [0, 1, 2] with checkpoints := [(2, ⟨2, 2⟩)] }
        [.pushBlock (emptyBlock .zero 1) {},
          .pushTransaction { id := 1, expiration := 1700000010 } {}] db ∧
      Database.Calls calmRules 1 db (.pushBlock takenBlock {}) db' ∧ db'.PendingOnChain) ∧
    ∃ db db', Database.Run (committeeRules.withTags id) 2 newNode
        [.pushTransaction nestedProposals {}] db ∧
      Database.Calls (committeeRules.withTags id) 2 db (.pushBlock gatewayBlock {}) db' ∧
      db'.pendingTx.map (·.id) = [1] ∧ db'.pendingTxSession = true ∧
      db'.objects.transactions.length = 0 ∧
      (Ledger.tryAll (committeeRules.withTags id) false {} 2 db'.pendingTx
        (db.pushed (committeeRules.withTags id) 2 gatewayBlock {}).objects).2.transactions.length = 1 := by
  refine ⟨⟨oneTransaction_run, _, Database.Calls.returns (by decide +kernel), by decide +kernel⟩,
    ?_, ?_⟩
  · have hrun := ((Database.Run.nil { newChain [0, 1, 2] with checkpoints := [(2, ⟨2, 2⟩)] }).returns
      (R := calmRules) (d := 1) (c := .pushBlock (emptyBlock .zero 1) {}) (by decide +kernel)).returns
      (c := .pushTransaction { id := 1, expiration := 1700000010 } {}) (by decide +kernel)
    exact ⟨_, _, hrun, Database.Calls.returns (by decide +kernel), by decide +kernel⟩
  · have hrun := (Database.Run.nil newNode).returns (R := committeeRules.withTags id) (d := 2)
      (c := .pushTransaction nestedProposals {}) (by decide +kernel)
    exact ⟨_, _, hrun, Database.Calls.returns (by decide +kernel), by decide +kernel,
      by decide +kernel, by decide +kernel, by decide +kernel⟩

end ZosCore
