import ZosCore.Chain.Invariant

/-!
Invariants across whole calls: fork switches, pending transactions, and the calls of a node.

* `Apart`: a property of the database that operations leave alone.
* `SessionInvariant`, `PendingInvariant`, `SwitchInvariant`: what an invariant needs to hold across
  sessions, pending transactions, and blocks and fork switches; `ChainInvariant`: all of it.
* **`NodeInvariant.call`**, **`NodeInvariant.run`**: every call of a node keeps an invariant across
  pending transactions that `_push_block` keeps, and so does every run.
* `Throughout`: a property of the objects and of all undo states.
-/

namespace ZosCore

open Exec

/-! ### What is left alone -/

section Frames

variable {β ω α : Type} {R : Rules β ω} {d : ℕ} {F : Database β ω → Prop}

/-- `F` does not look at the objects, at the undo database or at what was applied. -/
structure Apart (F : Database β ω → Prop) : Prop where
  change : ∀ db objects undo undoLog appliedOps appliedBalances, F db →
    F { db with objects, undo, undoLog, appliedOps, appliedBalances }

namespace Apart

lemma onUndo (h : Apart F)
    (f : Database β ω → Except DbError (Objects β ω × UndoDatabase (Objects β ω)))
    (failure : Failure) : Upholds F (fun _ => True) (Database.onUndo f failure) := by
  refine triple_onUndo (fun db _ _ hdb _ => h.change db _ _ _ _ _ hdb) fun db _ hdb _ => ?_
  cases failure with
  | fc e => exact hdb
  | crash => trivial

/-- The calls on the undo database. -/
lemma noteUndo (h : Apart F) (call : UndoCall) :
    Upholds F (fun _ => True) (Database.noteUndo call) :=
  Upholds.update fun db hdb => h.change db _ _ _ _ _ hdb

lemma startUndoSession (h : Apart F) (forceEnable : Bool) :
    Upholds F (fun _ => True) (Database.startUndoSession forceEnable) :=
  Upholds.bind (h.noteUndo _) fun _ => Upholds.update fun db hdb => h.change db _ _ _ _ _ hdb

lemma sessionUndo (h : Apart F) : Upholds F (fun _ => True) Database.sessionUndo :=
  Upholds.bind (h.noteUndo _) fun _ => h.onUndo _ _

lemma sessionMerge (h : Apart F) : Upholds F (fun _ => True) Database.sessionMerge :=
  Upholds.bind (h.noteUndo _) fun _ => h.onUndo _ _

lemma sessionCommit (h : Apart F) : Upholds F (fun _ => True) Database.sessionCommit :=
  Upholds.bind (h.noteUndo _) fun _ => h.onUndo _ _

lemma popUndo (h : Apart F) : Upholds F (fun _ => True) Database.popUndo :=
  Upholds.bind (h.noteUndo _) fun _ => h.onUndo _ _

lemma operationInvariant (h : Apart F) (n : ℕ) :
    OperationInvariant n (fun _ => True) (fun _ => F) fun _ => True where
  crash _ := trivial
  proposals _ _ _ := trivial
  modify hdb _ := h.change _ _ _ _ _ _ hdb
  applied _ _ hdb := h.change _ _ _ _ _ _ hdb
  start _ _ := h.startUndoSession true
  undo _ _ := h.sessionUndo
  merge _ _ := h.sessionMerge
  exit _ _ hdb := h.change _ _ _ _ _ _ hdb

lemma operates (h : Apart F) : Operates R d (fun _ => True) F fun _ => True :=
  (h.operationInvariant (0 + d)).operates_all (k := 0) le_rfl

lemma applyTransaction (h : Apart F) (trx : Transaction β) :
    Upholds F (fun _ => True) (Database.applyTransaction R d trx) :=
  Upholds.applyTransaction (fun op _ => h.operates.operation op (op.admitted_true R)) fun _ hdb =>
    h.change _ _ _ _ _ _ hdb

/-- A block leaves it if `set_max_size` does, and what is set while it is applied. -/
lemma applyBlock (h : Apart F)
    (hother : ∀ db maxBlockSize skipFlags appStatus, F db →
      F { db with blockDb := { db.blockDb with maxBlockSize }, skipFlags, appStatus })
    (hresize : ∀ db n, F db → F { db with forkDb := db.forkDb.setMaxSize n })
    (b : SignedBlock β) (skip : SkipFlags) :
    Upholds F (fun _ => True) (Database.applyBlock R d b skip) := by
  have hinv : ∀ db : Database β ω, F db → BlockInvariant R d 0 (fun _ => True) db.objects.dynamic b
      (fun _ => F) fun _ => True := fun _ _ =>
    { h.operationInvariant 0 with
      operates := h.operates
      objects := fun hdb _ _ => h.change _ _ _ _ _ _ hdb
      other := fun _ _ _ hdb => hother _ _ _ _ hdb
      ended := fun _ _ _ => trivial
      resize := fun _ hdb => h.change _ _ _ _ _ _ (hresize _ _ hdb) }
  exact BlockInvariant.upholds_applyBlock (I := fun _ => F) hinv
    (fun _ _ op _ => op.admitted_true R) skip

end Apart

end Frames

/-! ### The blocks on disk -/

namespace BlockDatabase

variable {β : Type} {pack : SignedBlock β → ℕ} {d d' : BlockDatabase β} {P : SignedBlock β → Prop}

lemma forall_mem_store {id : BlockId} {b : SignedBlock β} (h : ∀ b ∈ d.blocks, P b) (hb : P b)
    (hst : d.store pack id b = .ok d') : ∀ b ∈ d'.blocks, P b := by
  unfold store at hst
  generalize (if id = .zero then b.id else id) = id at hst
  split_ifs at hst
  cases hst
  exact List.forall_mem_append.mpr ⟨h, List.forall_mem_singleton.mpr hb⟩

lemma mem_of_fetchOptional {id : BlockId} {b : SignedBlock β}
    (h : d.fetchOptional pack id = some b) : b ∈ d.blocks := by
  unfold fetchOptional at h
  split at h
  · cases h
  · split_ifs at h
    unfold unpack at h
    split at h
    · cases h
    · rename_i hget
      split_ifs at h
      cases h
      exact List.mem_of_getElem? hget

end BlockDatabase

/-! ### Generating a block -/

namespace Database

variable {β ω : Type} (R : Rules β ω) (d : ℕ)

/-- `_generate_block` up to the block that it pushes. -/
def prepareBlock (time witness : ℕ) : Act β ω (SignedBlock β) := do
  let o ← gets (·.objects)
  fcAssert (R.mayGenerate time witness o) .wrongWitness
  resetPendingSession
  startUndoSession false
  update fun db => { db with pendingTxSession := true }
  let pending ← gets (·.pendingTx)
  let trxs ← collectTransactions R d pending R.maxBlockHeaderSize []
  resetPendingSession
  let o ← gets (·.objects)
  return assembleBlock R time witness trxs o

lemma generateBlockInner_eq (time witness : ℕ) :
    generateBlockInner R d time witness = do
      let skip ← gets (·.skipFlags)
      let b ← prepareBlock R d time witness
      let _ ← pushBlock R d b skip
      return b := by
  simp only [generateBlockInner, prepareBlock, bind_assoc]
  rfl

end Database

/-! ### Calls -/

section Calls

variable {β ω α : Type} {R : Rules β ω} {d : ℕ} {U : Transaction β → Prop}
  {P : SignedBlock β → Prop} {S : SkipFlags → Prop} {I : ℕ → Database β ω → Prop}
  {B C : Database β ω → Prop} {p : Bool}

/-- What an invariant `I`, `I k` being for `k` open sessions, needs to hold across sessions that are
opened and undone. -/
structure SessionInvariant (I : ℕ → Database β ω → Prop) (C : Database β ω → Prop) : Prop where
  pendingTxSession : ∀ {k db} pendingTxSession, I k db → I k { db with pendingTxSession }
  enabled : ∀ {k db}, I k db → db.undo.disabled = false
  start : ∀ {k db}, k ≤ 1 → I k db → I (k + 1) db.opened
  undo : ∀ {k}, k ≤ 1 →
    Triple (I (k + 1)) Database.sessionUndo (fun _ => I k) (OnFailure (fun _ => False) C)

/-- What an invariant `I`, `I k` being for `k` open sessions, needs to hold across pending
transactions, which are in `U`. -/
structure PendingInvariant (R : Rules β ω) (d : ℕ) (U : Transaction β → Prop)
    (I : ℕ → Database β ω → Prop) (C : Database β ω → Prop) : Prop where
  crash : ∀ {k db}, I k db → C db
  other : ∀ {k db} pendingTx poppedTx pendingTxSession skipFlags, I k db →
    I k { db with pendingTx, poppedTx, pendingTxSession, skipFlags }
  ended : ∀ {db} skipFlags, C db → C { db with skipFlags }
  enabled : ∀ {k db}, I k db → db.undo.disabled = false
  start : ∀ {k db}, k ≤ 1 → I k db → I (k + 1) db.opened
  undo : ∀ {k}, k ≤ 1 →
    Triple (I (k + 1)) Database.sessionUndo (fun _ => I k) (OnFailure (fun _ => False) C)
  merge : Triple (I 2) Database.sessionMerge (fun _ => I 1) (OnFailure (I 2) C)
  transaction : ∀ {k trx}, U trx → 1 ≤ k → k ≤ 2 →
    Upholds (I k) C (Database.applyTransaction R d trx)

/-- What an invariant `I`, `I k` being for `k` open sessions, needs to hold across blocks and fork
switches. `B` holds when a block has been applied and its session is not committed yet. The blocks
are in `P`, their transactions in `U` and the flags in `S`. -/
structure SwitchInvariant (R : Rules β ω) (d : ℕ) (U : Transaction β → Prop)
    (P : SignedBlock β → Prop) (S : SkipFlags → Prop) (I : ℕ → Database β ω → Prop)
    (B C : Database β ω → Prop) : Prop where
  carried : ∀ {b}, P b → ∀ trx ∈ b.transactions, U trx
  crash : ∀ {k db}, I k db → C db
  other : ∀ {k db} forkDb blockDb poppedTx pendingTxSession, I k db →
    I k { db with forkDb, blockDb, poppedTx, pendingTxSession }
  stored : ∀ {db} blockDb, B db → B { db with blockDb }
  ended : ∀ {db} forkDb, C db → C { db with forkDb }
  applied : ∀ {db}, B db → I 1 db
  enabled : ∀ {k db}, I k db → db.undo.disabled = false
  start : ∀ {k db}, k ≤ 1 → I k db → I (k + 1) db.opened
  undo : ∀ {k}, k ≤ 1 →
    Triple (I (k + 1)) Database.sessionUndo (fun _ => I k) (OnFailure (fun _ => False) C)
  pop : Upholds (I 0) C Database.popUndo
  block : ∀ b skip, P b → S skip → Triple (fun db => I 1 db ∧ ∃ l, db.undo.stack = db.objects :: l)
    (Database.applyBlock R d b skip) (fun _ => B) (OnFailure (I 1) C)
  commit : Triple B Database.sessionCommit (fun _ => I 0) (OnFailure (I 1) C)

/-- What an invariant `I`, `I k` being for `k` open sessions, needs to hold across the calls of a
node. `B` holds when a block has been applied and its session is not committed yet. The
transactions are in `U`, the blocks in `P` and the flags in `S`. -/
structure ChainInvariant (R : Rules β ω) (d : ℕ) (U : Transaction β → Prop)
    (P : SignedBlock β → Prop) (S : SkipFlags → Prop) (I : ℕ → Database β ω → Prop)
    (B C : Database β ω → Prop) : Prop where
  carried : ∀ {b}, P b → ∀ trx ∈ b.transactions, U trx
  assembled : ∀ {trxs} time witness o, (∀ trx ∈ trxs, U trx) →
    P (Database.assembleBlock R time witness trxs o)
  crash : ∀ {k db}, I k db → C db
  other : ∀ {k db} forkDb blockDb pendingTx poppedTx pendingTxSession skipFlags, I k db →
    I k { db with forkDb, blockDb, pendingTx, poppedTx, pendingTxSession, skipFlags }
  stored : ∀ {db} blockDb, B db → B { db with blockDb }
  ended : ∀ {db} forkDb skipFlags, C db → C { db with forkDb, skipFlags }
  applied : ∀ {db}, B db → I 1 db
  enabled : ∀ {k db}, I k db → db.undo.disabled = false
  start : ∀ {k db}, k ≤ 1 → I k db → I (k + 1) db.opened
  undo : ∀ {k}, k ≤ 1 →
    Triple (I (k + 1)) Database.sessionUndo (fun _ => I k) (OnFailure (fun _ => False) C)
  merge : Triple (I 2) Database.sessionMerge (fun _ => I 1) (OnFailure (I 2) C)
  pop : Upholds (I 0) C Database.popUndo
  transaction : ∀ {k trx}, U trx → 1 ≤ k → k ≤ 2 →
    Upholds (I k) C (Database.applyTransaction R d trx)
  block : ∀ b skip, P b → S skip → Triple (fun db => I 1 db ∧ ∃ l, db.undo.stack = db.objects :: l)
    (Database.applyBlock R d b skip) (fun _ => B) (OnFailure (I 1) C)
  commit : Triple B Database.sessionCommit (fun _ => I 0) (OnFailure (I 1) C)

/-- The transactions that wait are in `U`, and the blocks that are kept in `P`. -/
def Database.Holds (U : Transaction β → Prop) (P : SignedBlock β → Prop)
    (db : Database β ω) : Prop :=
  db.forkDb.All P ∧ (∀ b ∈ db.blockDb.blocks, P b) ∧ (∀ trx ∈ db.pendingTx, U trx) ∧
    ∀ trx ∈ db.poppedTx, U trx

/-- What is held is in `U` and `P`, the flags are in `S`, and `p` says whether the pending session
is open. -/
def Outside (U : Transaction β → Prop) (P : SignedBlock β → Prop) (S : SkipFlags → Prop) (p : Bool)
    (db : Database β ω) : Prop :=
  db.Holds U P ∧ S db.skipFlags ∧ db.pendingTxSession = p

/-- The invariant, with the pending session open or not. -/
def Settled (U : Transaction β → Prop) (P : SignedBlock β → Prop) (S : SkipFlags → Prop)
    (I : ℕ → Database β ω → Prop) (db : Database β ω) : Prop :=
  ∃ p : Bool, Outside U P S p db ∧ I (if p then 1 else 0) db

/-- The invariant, with `k` sessions open. -/
def Inside (U : Transaction β → Prop) (P : SignedBlock β → Prop) (S : SkipFlags → Prop) (p : Bool)
    (I : Database β ω → Prop) (db : Database β ω) : Prop :=
  Outside U P S p db ∧ I db

/-- A block that is fetched is one that is kept. -/
lemma Database.Holds.fetchBlockById {db : Database β ω} (h : db.Holds U P) {id : BlockId}
    {b : SignedBlock β} (hb : Database.fetchBlockById R db id = some b) : P b := by
  unfold Database.fetchBlockById at hb
  cases hf : db.forkDb.fetchBlock id with
  | none =>
      simp only [hf] at hb
      exact h.2.1 b (BlockDatabase.mem_of_fetchOptional hb)
  | some it =>
      simp only [hf] at hb
      cases hb
      exact h.1 it (ForkDatabase.mem_alive.mpr (.inl (ForkDatabase.fetchBlock_mem_index hf)))

lemma outside_apart : Apart (Outside U P S p : Database β ω → Prop) := ⟨fun _ _ _ _ _ _ h => h⟩

/-- `apply_block` leaves the flags and the pending session, and takes no block into the fork
database. -/
lemma outside_applyBlock (b : SignedBlock β) (skip : SkipFlags) :
    Upholds (Outside U P S p) (fun _ : Database β ω => True) (Database.applyBlock R d b skip) := by
  have hpart : Apart fun db : Database β ω => db.Holds U P ∧ db.pendingTxSession = p :=
    ⟨fun _ _ _ _ _ _ h => h⟩
  have hheld := hpart.applyBlock (R := R) (d := d) (fun _ _ _ _ h => h)
    (fun _ _ h => ⟨⟨h.1.1.setMaxSize _, h.1.2⟩, h.2⟩) b skip
  have hflags : Triple (fun db : Database β ω => S db.skipFlags) (Database.applyBlock R d b skip)
      (fun _ db => S db.skipFlags) fun _ db => S db.skipFlags := by
    refine Triple.bind (Keeps.gets _) fun db => Triple.bind
      (Triple.ofExcept (fun _ _ h _ => h) fun _ _ h _ => h) fun skip' => ?_
    intro db hdb
    refine ⟨fun a s' hx => ?_, fun e s' hx => ?_⟩ <;>
    · obtain ⟨-, rfl⟩ := Prod.mk.inj hx
      exact hdb
  refine (Triple.and hheld hflags).conseq (fun _ h => ⟨⟨h.1, h.2.2⟩, h.2.1⟩)
    (fun _ _ h => ⟨h.1.1, h.2, h.1.2⟩) fun e _ h => ?_
  exact h.1.imp (fun hI => ⟨hI.1, h.2, hI.2⟩) fun _ => trivial

/-- An invariant, beside what is left alone. -/
lemma Upholds.framed {F I J C : Database β ω → Prop} {x : Act β ω α}
    {Q : α → Database β ω → Prop} (hF : Upholds F (fun _ => True) x)
    (h : Triple I x Q (OnFailure J C)) :
    Triple (fun db => F db ∧ I db) x (fun a db => F db ∧ Q a db)
      (OnFailure (fun db => F db ∧ J db) C) := by
  refine (Triple.and hF h).conseq (fun _ hdb => hdb) (fun _ _ hdb => hdb) fun e db hdb => ?_
  cases e with
  | fc e => exact hdb
  | crash => exact hdb.2

namespace SessionInvariant

variable {T : SkipFlags → Prop}

/-- A session is opened. -/
lemma startUndoSession (h : SessionInvariant I C) {k : ℕ} (hk : k ≤ 1)
    {E : Failure → Database β ω → Prop} :
    Triple (Inside U P T p (I k)) (Database.startUndoSession false)
      (fun _ => Inside U P T p fun db => I (k + 1) db ∧ ∃ l, db.undo.stack = db.objects :: l) E := by
  rintro db ⟨hout, hI⟩
  rw [startUndoSession_eq (by rw [h.enabled hI]; rfl)]
  refine ⟨fun _ _ hx => ?_, fun _ _ hx => ?_⟩
  · cases hx
    exact ⟨hout, h.start hk hI, _, rfl⟩
  · cases hx

lemma opens (h : SessionInvariant I C) {k : ℕ} (hk : k ≤ 1)
    {E : Failure → Database β ω → Prop} :
    Triple (Inside U P T p (I k)) (Database.startUndoSession false)
      (fun _ => Inside U P T p (I (k + 1))) E :=
  (h.startUndoSession hk).conseq (fun _ hdb => hdb) (fun _ _ hdb => ⟨hdb.1, hdb.2.1⟩) fun _ _ hdb => hdb

lemma sessionUndo (h : SessionInvariant I C) {k : ℕ} (hk : k ≤ 1)
    (J : Database β ω → Prop) :
    Triple (Inside U P T p (I (k + 1))) Database.sessionUndo (fun _ => Inside U P T p (I k))
      (OnFailure J C) := by
  refine (Upholds.framed outside_apart.sessionUndo (h.undo hk)).conseq (fun _ hdb => hdb)
    (fun _ _ hdb => hdb) fun e _ hdb => ?_
  exact hdb.imp (fun hfalse => hfalse.2.elim) id

/-- The pending session is undone if it is open. -/
lemma resetPendingSession (h : SessionInvariant I C) (J : Database β ω → Prop) :
    Triple (Settled U P T I) Database.resetPendingSession (fun _ => Inside U P T false (I 0))
      (OnFailure J C) := by
  refine Triple.gets_bind fun s hs => ?_
  obtain ⟨p, hout, hI⟩ := hs
  have hp : s.pendingTxSession = p := hout.2.2
  rw [hp]
  cases p with
  | false => exact Triple.pure fun s' hs' => hs' ▸ ⟨hout, hI⟩
  | true =>
      have hs : Inside U P T true (I 1) s := ⟨hout, hI⟩
      refine Triple.bind ((h.sessionUndo (Nat.zero_le 1) J).conseq (fun _ hdb => hdb ▸ hs)
        (fun _ _ hdb => hdb) fun _ _ hdb => hdb) fun _ => ?_
      exact Triple.update fun db hdb =>
        ⟨⟨hdb.1.1, hdb.1.2.1, rfl⟩, h.pendingTxSession _ hdb.2⟩

end SessionInvariant

namespace PendingInvariant

variable {T : SkipFlags → Prop}

/-- An invariant across pending transactions is one across sessions. -/
lemma session (h : PendingInvariant R d U I C) : SessionInvariant I C :=
  { h with
    pendingTxSession := fun pendingTxSession hdb => h.other _ _ pendingTxSession _ hdb }

/-- A transaction in a session of its own, which `body` closes. -/
lemma inTransaction (h : PendingInvariant R d U I C) {k : ℕ} (hk : k ≤ 1)
    {trx : Transaction β} (hU : U trx) {x : Act β ω α}
    (hx : Triple (Inside U P T p (I (k + 1))) x (fun _ => Inside U P T p (I k))
      (OnFailure (Inside U P T p (I (k + 1))) C)) :
    Upholds (Inside U P T p (I k)) C (Database.inSession false do
      Database.applyTransaction R d trx
      x) := by
  refine Upholds.inSession_false (h.session.opens hk) ?_ (h.session.sessionUndo hk _)
  have htrx := h.transaction (k := k + 1) hU (by omega) (by omega)
  exact Triple.bind (Upholds.framed (outside_apart.applyTransaction trx) htrx) fun _ => hx

/-- `_push_transaction`. -/
lemma pushTransactionInner (h : PendingInvariant R d U I C) {trx : Transaction β} (hU : U trx) :
    Upholds (Settled U P T I) C (Database.pushTransactionInner R d trx) := by
  have hfail : ∀ p e (db : Database β ω), OnFailure (Inside U P T p (I (if p then 1 else 0))) C e db →
      OnFailure (Settled U P T I) C e db := by
    exact fun p e db hdb => hdb.imp (fun hI => ⟨p, hI⟩) id
  have hmain : Triple (Inside U P T true (I 1)) (Database.inSession false do
      Database.applyTransaction R d trx
      Exec.update fun db => { db with pendingTx := db.pendingTx ++ [trx] }
      Database.sessionMerge) (fun _ => Settled U P T I) (OnFailure (Settled U P T I) C) := by
    refine (h.inTransaction le_rfl hU ?_).conseq (fun _ hdb => hdb) (fun _ _ hdb => ⟨true, hdb⟩)
      fun e db hdb => hfail true e db hdb
    refine Triple.bind (Keeps.update fun db hdb => ⟨⟨⟨hdb.1.1.1, hdb.1.1.2.1, ?_, hdb.1.1.2.2.2⟩,
      hdb.1.2⟩, h.other _ _ _ _ hdb.2⟩) fun _ => ?_
    · exact List.forall_mem_append.mpr ⟨hdb.1.1.2.2.1, List.forall_mem_singleton.mpr hU⟩
    · exact Upholds.framed outside_apart.sessionMerge h.merge
  refine Triple.gets_bind fun s hs => ?_
  obtain ⟨p, hs⟩ := hs
  have hp : s.pendingTxSession = p := hs.1.2.2
  rw [hp]
  cases p with
  | true => exact hmain.conseq (fun _ hdb => hdb ▸ hs) (fun _ _ hdb => hdb) fun _ _ hdb => hdb
  | false =>
      have hstart : Triple (fun s' => s' = s) (Database.startUndoSession false)
          (fun _ => Inside U P T false (I 1)) (OnFailure (Settled U P T I) C) :=
        (h.session.opens (Nat.zero_le 1)).conseq (fun _ hdb => hdb ▸ hs) (fun _ _ hdb => hdb)
          fun _ _ hdb => hdb
      refine Triple.bind hstart fun _ => Triple.bind (Triple.update fun db hdb => ?_) fun _ => hmain
      exact ⟨⟨hdb.1.1, hdb.1.2.1, rfl⟩, h.other _ _ _ _ hdb.2⟩

/-- The transactions that are tried again. -/
lemma restorePending (h : PendingInvariant R d U I C) {pending : List (Transaction β)}
    (hpending : ∀ trx ∈ pending, U trx) :
    Upholds (Settled U P T I) C (Database.restorePending R d pending) := by
  have hretry : ∀ l, (∀ trx ∈ l, U trx) → Upholds (Settled U P T I) C
      (Exec.forEach (Database.retryTransaction R d) l) := by
    refine fun l hl => Upholds.forEach l fun trx htrx => Upholds.bind (Upholds.gets _) fun o => ?_
    refine Upholds.ite ?_ (Upholds.pure ())
    exact Upholds.catchFc (h.pushTransactionInner (hl trx htrx)) (fun _ => Upholds.pure ())
      fun _ hC => hC
  refine Upholds.gets_bind fun s ⟨_, hs⟩ => Upholds.bind (hretry _ hs.1.1.2.2.2) fun _ => ?_
  refine Upholds.bind (Upholds.update fun db hdb => ?_) fun _ => hretry pending hpending
  obtain ⟨p, hdb⟩ := hdb
  exact ⟨p, ⟨⟨hdb.1.1.1, hdb.1.1.2.1, hdb.1.1.2.2.1, nofun⟩, hdb.1.2⟩, h.other _ _ _ _ hdb.2⟩

/-- `clear_pending`. -/
lemma clearPending (h : PendingInvariant R d U I C) (J : Database β ω → Prop) :
    Triple (Settled U P T I) Database.clearPending (fun _ => Inside U P T false (I 0))
      (OnFailure J C) := by
  refine Triple.bind (Q := fun _ => Settled U P T I) (Triple.update fun db hdb => ?_)
    fun _ => h.session.resetPendingSession _
  obtain ⟨p, hdb⟩ := hdb
  exact ⟨p, ⟨⟨hdb.1.1.1, hdb.1.1.2.1, nofun, hdb.1.1.2.2.2⟩, hdb.1.2⟩, h.other _ _ _ _ hdb.2⟩

/-- `without_pending_transactions`, from a state in `D`. -/
lemma withoutPendingTransactions (h : PendingInvariant R d U I C) {D : Database β ω → Prop}
    {x : Act β ω α}
    (hx : Triple (fun s => Inside U P T false (I 0) s ∧ ∃ db, D db ∧ s = (Database.clearPending db).2)
      x (fun _ => Inside U P T false (I 0)) (OnFailure (Inside U P T false (I 0)) C)) :
    Triple (fun db => Settled U P T I db ∧ D db) (Database.withoutPendingTransactions R d x)
      (fun _ => Settled U P T I) (OnFailure (Settled U P T I) C) := by
  refine Triple.gets_bind fun s ⟨hs, hD⟩ => ?_
  have hpending : ∀ trx ∈ s.pendingTx, U trx := by
    obtain ⟨_, hs⟩ := hs
    exact hs.1.1.2.2.1
  have hrestore : Triple (Inside U P T false (I 0)) (Database.restorePending R d s.pendingTx)
      (fun _ => Settled U P T I) (OnFailure (Settled U P T I) C) :=
    (h.restorePending hpending).conseq (fun _ hdb => ⟨false, hdb⟩) (fun _ _ hdb => hdb)
      fun _ _ hdb => hdb
  have hclear : Triple (fun s' => s' = s) Database.clearPending
      (fun _ s' => Inside U P T false (I 0) s' ∧ ∃ db, D db ∧ s' = (Database.clearPending db).2)
      (OnFailure (Settled U P T I) C) := by
    rintro s' rfl
    obtain ⟨hok, herr⟩ := h.clearPending (Settled U P T I) s' hs
    exact ⟨fun a s'' hx => ⟨hok a s'' hx, s', hD, by rw [hx]⟩, herr⟩
  refine Triple.bind hclear fun _ => Triple.bind (Q := fun _ => Inside U P T false (I 0)) ?_ fun a => ?_
  · refine Upholds.catchFc hx (fun e => ?_) fun _ hC => hC
    exact Triple.bind hrestore fun _ => Triple.raise fun _ hdb => hdb
  · exact Triple.bind hrestore fun _ => Triple.pure fun _ hdb => hdb

/-- Flags are set for a while, whatever they were before. -/
lemma withSkipFlags (h : PendingInvariant R d U I C) {D : Database β ω → Prop} {x : Act β ω α}
    {skip : SkipFlags} (hx : Triple (fun db => Settled U P S I db ∧ D db) x
      (fun _ => Settled U P S I) (OnFailure (Settled U P S I) C)) (hskip : S skip)
    (T : SkipFlags → Prop) :
    Triple (fun db => Settled U P T I db ∧ D { db with skipFlags := skip })
      (Database.withSkipFlags skip x) (fun _ => Settled U P T I)
      (OnFailure (Settled U P T I) C) := by
  have hback : ∀ db db' : Database β ω, Settled U P T I db → Settled U P S I db' →
      Settled U P T I { db' with skipFlags := db.skipFlags } := by
    rintro db db' ⟨_, hdb⟩ ⟨p, hdb'⟩
    exact ⟨p, ⟨hdb'.1.1, hdb.1.2.1, hdb'.1.2.2⟩, h.other _ _ _ _ hdb'.2⟩
  refine Triple.around hx (fun db hdb => ⟨?_, hdb.2⟩)
    (fun db _ db' hdb hdb' => hback db db' hdb.1 hdb') fun db e db' hdb hdb' => ?_
  · obtain ⟨⟨p, hdb⟩, -⟩ := hdb
    exact ⟨p, ⟨hdb.1.1, hskip, hdb.1.2.2⟩, h.other _ _ _ _ hdb.2⟩
  · exact hdb'.imp (hback db db' hdb.1) (h.ended _)

/-- Flags are set while an invariant is kept. -/
lemma upholds_withSkipFlags (h : PendingInvariant R d U I C) {x : Act β ω α}
    (hx : Upholds (Settled U P S I) C x) {skip : SkipFlags} (hskip : S skip) (T : SkipFlags → Prop) :
    Upholds (Settled U P T I) C (Database.withSkipFlags skip x) :=
  (h.withSkipFlags (D := fun _ => True) (hx.conseq (fun _ hdb => hdb.1) (fun _ _ hdb => hdb)
    fun _ _ hdb => hdb) hskip T).conseq (fun _ hdb => ⟨hdb, trivial⟩) (fun _ _ hdb => hdb)
    fun _ _ hdb => hdb

/-- `validate_transaction`. -/
lemma validateTransaction (h : PendingInvariant R d U I C) {trx : Transaction β} (hU : U trx) :
    Upholds (Settled U P T I) C (Database.validateTransaction R d trx) := by
  rintro db ⟨p, hdb⟩
  have hk : (if p then 1 else 0) ≤ 1 := by split_ifs <;> omega
  generalize hkp : (if p then 1 else 0) = k at hdb hk
  refine (?_ : Upholds (Inside U P T p (I k)) C (Database.validateTransaction R d trx)).conseq
    (P := Inside U P T p (I k)) (fun _ h => h) (fun _ _ hdb => ⟨p, hkp ▸ hdb⟩) (fun e db hdb => ?_) db hdb
  · have htrx := h.transaction (k := k + 1) hU (by omega) (by omega)
    refine Triple.bind (Upholds.inSession_false (h.session.opens hk)
      (Upholds.framed (outside_apart.applyTransaction trx) htrx) (h.session.sessionUndo hk _)) fun _ => ?_
    exact h.session.sessionUndo hk _
  · exact hdb.imp (fun hI => ⟨p, hkp ▸ hI⟩) id

/-- The loop of `_generate_block`: it takes pending transactions only. -/
lemma collectTransactions (h : PendingInvariant R d U I C) {l acc : List (Transaction β)}
    (hl : ∀ trx ∈ l, U trx) (hacc : ∀ trx ∈ acc, U trx) (n : ℕ) :
    Triple (Inside U P T true (I 1)) (Database.collectTransactions R d l n acc)
      (fun trxs db => (∀ trx ∈ trxs, U trx) ∧ Inside U P T true (I 1) db)
      (OnFailure (Inside U P T true (I 1)) C) := by
  induction l generalizing n acc with
  | nil => exact Triple.pure fun _ hdb => ⟨fun trx htrx => hacc trx (List.mem_reverse.mp htrx), hdb⟩
  | cons trx l ih =>
      obtain ⟨htrx, hl⟩ := List.forall_mem_cons.mp hl
      refine Triple.bind (Keeps.gets _) fun o => Triple.ite (fun _ => ih hl hacc _) fun _ => ?_
      have htry : Upholds (Inside U P T true (I 1)) C (Database.catchFc
          (do
            Database.inSession false do
              Database.applyTransaction R d trx
              Database.sessionMerge
            return true)
          fun _ => return false) := by
        refine Upholds.catchFc (J := Inside U P T true (I 1)) ?_ (fun _ => Upholds.pure _)
          fun _ hC => hC
        refine Upholds.bind (h.inTransaction le_rfl htrx ?_) fun _ => Upholds.pure _
        exact Upholds.framed outside_apart.sessionMerge h.merge
      refine Triple.bind htry fun ok => Triple.ite (fun _ => ih hl ?_ _) fun _ => ih hl hacc _
      exact List.forall_mem_cons.mpr ⟨htrx, hacc⟩

/-- The block that `_generate_block` pushes: it holds pending transactions only. -/
lemma prepareBlock (h : PendingInvariant R d U I C) (time witness : ℕ) :
    Triple (Settled U P T I) (Database.prepareBlock R d time witness)
      (fun b db => (∃ trxs o, (∀ trx ∈ trxs, U trx) ∧
        b = Database.assembleBlock R time witness trxs o) ∧ Settled U P T I db)
      (OnFailure (Settled U P T I) C) := by
  refine Triple.bind (Upholds.gets _) fun o => Triple.bind (Upholds.fcAssert _ _) fun _ => ?_
  refine Triple.bind (h.session.resetPendingSession _) fun _ => ?_
  refine Triple.bind (h.session.startUndoSession (Nat.zero_le 1)) fun _ => ?_
  refine Triple.bind (Q := fun _ => Inside U P T true (I 1)) (Triple.update fun db hdb => ?_) fun _ => ?_
  · exact ⟨⟨hdb.1.1, hdb.1.2.1, rfl⟩, h.other _ _ _ _ hdb.2.1⟩
  · refine Triple.gets_bind fun s' hs' => ?_
    have hcollect : Triple (fun db => db = s')
        (Database.collectTransactions R d s'.pendingTx R.maxBlockHeaderSize [])
        (fun trxs db => (∀ trx ∈ trxs, U trx) ∧ Settled U P T I db)
        (OnFailure (Settled U P T I) C) := by
      exact (h.collectTransactions hs'.1.1.2.2.1 (List.forall_mem_nil U) _).conseq
        (fun _ hdb => hdb ▸ hs') (fun _ _ hdb => ⟨hdb.1, true, hdb.2⟩)
        fun _ _ hdb => hdb.imp (fun hI => ⟨true, hI⟩) id
    refine Triple.bind hcollect fun trxs => Triple.of_and fun htrxs => ?_
    refine Triple.bind (Q := fun _ => Settled U P T I) ?_ fun _ => ?_
    · exact (h.session.resetPendingSession (Settled U P T I)).conseq (fun _ hdb => hdb)
        (fun _ _ hdb => ⟨false, hdb⟩) fun _ _ hdb => hdb
    · refine Triple.bind (Upholds.gets _) fun o => Triple.pure fun db hdb => ?_
      exact ⟨⟨trxs, o, htrxs, rfl⟩, hdb⟩

end PendingInvariant

namespace SwitchInvariant

variable {T : SkipFlags → Prop}

/-- An invariant across fork switches is one across sessions. -/
lemma session (h : SwitchInvariant R d U P S I B C) : SessionInvariant I C :=
  { h with
    pendingTxSession := fun pendingTxSession hdb => h.other _ _ _ pendingTxSession hdb }

/-- A block is applied in a session of its own. -/
lemma applyAndStore (h : SwitchInvariant R d U P S I B C) {b : SignedBlock β} (hb : P b)
    {skip : SkipFlags} (hskip : S skip) (id : BlockId) :
    Upholds (Inside U P T p (I 0)) C (Database.applyAndStore R d b id skip) := by
  refine Upholds.inSession_false (h.session.startUndoSession (Nat.zero_le 1))
    (J := Inside U P T p (I 1)) ?_ (h.session.sessionUndo (Nat.zero_le 1) _)
  refine Triple.bind (Upholds.framed (outside_applyBlock b skip) (h.block b skip hb hskip))
    fun _ => ?_
  have hstore : Triple (Inside U P T p B) (Database.storeBlock R id b) (fun _ => Inside U P T p B)
      (OnFailure (Inside U P T p (I 1)) C) := by
    refine Triple.gets_bind fun s hs => triple_fcLift_bind (fun _ _ hdb _ => ?_) fun blockDb hst => ?_
    · exact hdb ▸ ⟨hs.1, h.applied hs.2⟩
    · refine Triple.update fun db hdb => ?_
      subst hdb
      exact ⟨⟨⟨hs.1.1.1, BlockDatabase.forall_mem_store hs.1.1.2.1 hb hst, hs.1.1.2.2⟩, hs.1.2⟩,
        h.stored _ hs.2⟩
  exact Triple.bind hstore fun _ => Upholds.framed outside_apart.sessionCommit h.commit

/-- `pop_block`. -/
lemma popBlock (h : SwitchInvariant R d U P S I B C) :
    Upholds (Inside U P T false (I 0)) C (Database.popBlock R) := by
  have hreset : Upholds (Inside U P T false (I 0)) C Database.resetPendingSession :=
    (h.session.resetPendingSession (Inside U P T false (I 0))).conseq (fun _ hdb => ⟨false, hdb⟩)
      (fun _ _ hdb => hdb) fun _ _ hdb => hdb
  refine Upholds.bind hreset fun _ => Triple.gets_bind fun s hs => ?_
  cases hfetch : Database.fetchBlockById R s s.objects.headBlockId with
  | none => exact Triple.raise fun _ hdb => hdb ▸ hs
  | some b =>
      have hb : P b := hs.1.1.fetchBlockById hfetch
      refine triple_fcLift_bind (fun _ _ hdb _ => hdb ▸ hs) fun f hf => ?_
      refine Triple.bind (Q := fun _ => Inside U P T false (I 0)) ?_ fun _ => ?_
      · refine Triple.update fun db hdb => ?_
        subst hdb
        exact ⟨⟨⟨hs.1.1.1.popBlock hf, hs.1.1.2⟩, hs.1.2⟩, h.other _ _ _ _ hs.2⟩
      · refine Upholds.bind (Upholds.framed outside_apart.popUndo h.pop) fun _ => ?_
        refine Upholds.update fun db hdb => ⟨⟨⟨hdb.1.1.1, hdb.1.1.2.1, hdb.1.1.2.2.1, ?_⟩, hdb.1.2⟩,
          h.other _ _ _ _ hdb.2⟩
        exact List.forall_mem_append.mpr ⟨h.carried hb, hdb.1.1.2.2.2⟩

lemma popBlocksUntil (h : SwitchInvariant R d U P S I B C) (id : BlockId) :
    Upholds (Inside U P T false (I 0)) C (Database.popBlocksUntil R id) := by
  refine Upholds.bind (Upholds.gets _) fun n => ?_
  induction n with
  | zero =>
      exact Upholds.bind (Upholds.gets _) fun o => Upholds.ite h.popBlock (Upholds.pure ())
  | succ n ih =>
      refine Upholds.bind (Upholds.gets _) fun o => Upholds.ite ?_ (Upholds.pure ())
      exact Upholds.bind h.popBlock fun _ => ih

/-- A change of the fork database that takes in no block. -/
lemma forkDb (h : SwitchInvariant R d U P S I B C) {k : ℕ} {g : ForkDatabase β → ForkDatabase β}
    (hg : ∀ f, f.All P → (g f).All P) :
    Upholds (Inside U P T p (I k)) C
      (Exec.update fun db : Database β ω => { db with forkDb := g db.forkDb }) :=
  Upholds.update fun db hdb =>
    ⟨⟨⟨hg _ hdb.1.1.1, hdb.1.1.2⟩, hdb.1.2⟩, h.other _ db.blockDb db.poppedTx
      db.pendingTxSession hdb.2⟩

/-- The recovery of a switch. -/
lemma recover (h : SwitchInvariant R d U P S I B C) (newBlock : SignedBlock β)
    (bad : List (ForkItem β)) {old : List (ForkItem β)} (hold : ∀ it ∈ old, P it.data)
    (forkPoint : BlockId) {skip : SkipFlags} (hskip : S skip) :
    Upholds (Inside U P T false (I 0)) C (Database.recover R d newBlock bad old forkPoint skip) := by
  refine Upholds.bind (h.forkDb (g := fun f => bad.foldl (fun f it => f.remove it.id) f)
    fun f hf => ?_) fun _ => ?_
  · exact List.foldlRecOn bad (fun f it => f.remove it.id) (motive := ForkDatabase.All P) hf
      fun f hf it _ => hf.remove it.id
  · have htail : Upholds (Inside U P T false (I 0)) C (do
        Database.popBlocksUntil R forkPoint
        Exec.forEach (fun it => Database.applyAndStore R d it.data newBlock.id skip) old.reverse) := by
      refine Upholds.bind (h.popBlocksUntil forkPoint) fun _ => Upholds.forEach _ fun it hit => ?_
      exact h.applyAndStore (hold it (List.mem_reverse.mp hit)) hskip _
    cases hh : old.head? with
    | none => exact Upholds.raise (fun _ hdb => h.crash hdb.2) _
    | some it =>
        refine Upholds.bind (h.forkDb (g := fun f => f.setHead it) fun f hf => hf.setHead ?_)
          fun _ => htail
        exact hold it (List.mem_of_head? hh)

/-- The loop of a switch over the new branch. -/
lemma switchLoop (h : SwitchInvariant R d U P S I B C) (newBlock : SignedBlock β)
    {new old : List (ForkItem β)} (hnew : ∀ it ∈ new, P it.data) (hold : ∀ it ∈ old, P it.data)
    (forkPoint : BlockId) {skip : SkipFlags} (hskip : S skip) :
    Upholds (Inside U P T false (I 0)) C
      (Database.switchLoop R d newBlock old forkPoint skip new) := by
  induction new with
  | nil => exact Upholds.pure ()
  | cons it new ih =>
      refine Upholds.bind ?_ fun _ => ih fun it hit => hnew it (List.mem_cons_of_mem _ hit)
      refine Upholds.catchFc (h.applyAndStore (hnew it List.mem_cons_self) hskip _) (fun e => ?_)
        fun _ hC => hC
      exact Upholds.bind (h.recover newBlock _ hold forkPoint hskip) fun _ => Upholds.fail e

/-- The branches are held while `x` runs. -/
lemma pinning (h : SwitchInvariant R d U P S I B C) {x : Act β ω α} {k : ℕ}
    (hx : Upholds (Inside U P T p (I k)) C x) {items : List (ForkItem β)}
    (hitems : ∀ it ∈ items, P it.data) :
    Upholds (Inside U P T p (I k)) C (Database.pinning items x) := by
  have hback : ∀ db db' : Database β ω, Inside U P T p (I k) db → Inside U P T p (I k) db' →
      Inside U P T p (I k)
        { db' with forkDb := { db'.forkDb with pinned := db.forkDb.pinned } } := by
    refine fun db db' hdb hdb' => ⟨⟨⟨hdb'.1.1.1.pin fun it hit => ?_, hdb'.1.1.2⟩, hdb'.1.2⟩,
      h.other _ _ _ _ hdb'.2⟩
    exact hdb.1.1.1 it (ForkDatabase.mem_alive.mpr (.inr (.inr hit)))
  refine Triple.around hx (fun db hdb =>
      ⟨⟨⟨hdb.1.1.1.pin hitems, hdb.1.1.2⟩, hdb.1.2⟩, h.other _ _ _ _ hdb.2⟩)
    (fun db _ db' hdb hdb' => hback db db' hdb hdb') fun db e db' hdb hdb' => ?_
  exact hdb'.imp (hback db db' hdb) (h.ended _)

/-- The switch to another branch. -/
lemma switchForks (h : SwitchInvariant R d U P S I B C) (newBlock : SignedBlock β)
    (newHead : ForkItem β) {skip : SkipFlags} (hskip : S skip) :
    Upholds (Inside U P T false (I 0)) C (Database.switchForks R d newBlock newHead skip) := by
  refine Triple.gets_bind fun s hs => triple_fcLift_bind (fun _ _ hdb _ => hdb ▸ hs) ?_
  rintro ⟨new, old⟩ hbranch
  have hall : ∀ it ∈ new ++ old, P it.data := fun it hit =>
    hs.1.1.1 it (ForkDatabase.fetchBranchFrom_mem_alive hbranch it hit)
  simp only
  cases old.getLast? with
  | none => exact Triple.raise fun _ hdb => hdb ▸ h.crash hs.2
  | some last =>
      have hbody : Upholds (Inside U P T false (I 0)) C (do
          Database.popBlocksUntil R last.data.previous
          Database.switchLoop R d newBlock old last.data.previous skip new.reverse) := by
        refine Upholds.bind (h.popBlocksUntil _) fun _ => h.switchLoop newBlock (fun it hit => ?_)
          (fun it hit => hall it (List.mem_append_right _ hit)) _ hskip
        exact hall it (List.mem_append_left _ (List.mem_reverse.mp hit))
      exact (h.pinning hbody hall).conseq (fun _ hdb => hdb ▸ hs) (fun _ _ hdb => hdb)
        fun _ _ hdb => hdb

/-- The last step of `_push_block`. -/
lemma extendChain (h : SwitchInvariant R d U P S I B C) {b : SignedBlock β} (hb : P b)
    {skip : SkipFlags} (hskip : S skip) :
    Upholds (Inside U P T p (I 0)) C (Database.extendChain R d b skip) := by
  refine Upholds.catchFc (h.applyAndStore hb hskip _) (fun e => ?_) fun _ hC => hC
  exact Upholds.bind (h.forkDb fun f hf => hf.remove b.id) fun _ => Upholds.fail e

/-- `_push_block`. -/
lemma pushBlockInner (h : SwitchInvariant R d U P S I B C) {b : SignedBlock β} (hb : P b) :
    Upholds (Inside U P S false (I 0)) C (Database.pushBlockInner R d b) := by
  refine Upholds.gets_bind fun s hs => ?_
  have hskip : S s.skipFlags := hs.1.2.1
  refine Upholds.ite (Upholds.bind (h.extendChain hb hskip) fun _ => Upholds.pure _) ?_
  refine Triple.gets_bind fun s' hs' => ?_
  refine triple_fcLift_bind (fun _ _ hdb _ => hdb ▸ hs') fun f hf => ?_
  refine Triple.bind (Q := fun _ => Inside U P S false (I 0)) ?_ fun _ => ?_
  · refine Triple.update fun db hdb => ?_
    subst hdb
    exact ⟨⟨⟨hs'.1.1.1.pushBlock hb hf, hs'.1.1.2⟩, hs'.1.2⟩, h.other _ _ _ _ hs'.2⟩
  · cases f.head with
    | none => exact Upholds.raise (fun _ hdb => h.crash hdb.2) _
    | some newHead =>
        refine Upholds.bind (Upholds.gets _) fun o => Upholds.ite (Upholds.ite ?_ (Upholds.pure _)) ?_
        · exact Upholds.bind (h.switchForks b newHead hskip) fun _ => Upholds.pure _
        · exact Upholds.bind (h.extendChain hb hskip) fun _ => Upholds.pure _

end SwitchInvariant

namespace ChainInvariant

variable {T : SkipFlags → Prop}

/-- An invariant across calls is one across fork switches. -/
lemma switch (h : ChainInvariant R d U P S I B C) : SwitchInvariant R d U P S I B C :=
  { h with
    other := fun forkDb blockDb poppedTx pendingTxSession hdb =>
      h.other forkDb blockDb _ poppedTx pendingTxSession _ hdb
    ended := fun forkDb hdb => h.ended forkDb _ hdb }

/-- An invariant across calls is one across pending transactions. -/
lemma pending (h : ChainInvariant R d U P S I B C) : PendingInvariant R d U I C :=
  { h with
    other := fun pendingTx poppedTx pendingTxSession skipFlags hdb =>
      h.other _ _ pendingTx poppedTx pendingTxSession skipFlags hdb
    ended := fun skipFlags hdb => h.ended _ skipFlags hdb }

end ChainInvariant

/-- What an invariant across pending transactions needs to hold across the calls of a node: that
`_push_block` keeps it with no session open, and that what a node assembles is in `P`. -/
structure NodeInvariant (R : Rules β ω) (d : ℕ) (U : Transaction β → Prop)
    (P : SignedBlock β → Prop) (S : SkipFlags → Prop) (I : ℕ → Database β ω → Prop)
    (C : Database β ω → Prop) : Prop extends PendingInvariant R d U I C where
  assembled : ∀ {trxs} time witness o, (∀ trx ∈ trxs, U trx) →
    P (Database.assembleBlock R time witness trxs o)
  push : ∀ {b}, P b → Upholds (Inside U P S false (I 0)) C (Database.pushBlockInner R d b)

namespace NodeInvariant

variable {T : SkipFlags → Prop}

/-- `push_block`. -/
lemma pushBlock (h : NodeInvariant R d U P S I C) {b : SignedBlock β} (hb : P b)
    {skip : SkipFlags} (hskip : S skip) (T : SkipFlags → Prop) :
    Upholds (Settled U P T I) C (Database.pushBlock R d b skip) := by
  refine h.upholds_withSkipFlags ?_ hskip T
  have hpush := h.withoutPendingTransactions (T := S) (D := fun _ => True)
    ((h.push hb).conseq (fun _ hdb => hdb.1) (fun _ _ hdb => hdb) fun _ _ hdb => hdb)
  exact hpush.conseq (fun _ hdb => ⟨hdb, trivial⟩) (fun _ _ hdb => hdb) fun _ _ hdb => hdb

/-- `_generate_block`. -/
lemma generateBlockInner (h : NodeInvariant R d U P S I C) (time witness : ℕ) :
    Upholds (Settled U P S I) C (Database.generateBlockInner R d time witness) := by
  rw [Database.generateBlockInner_eq]
  refine Upholds.gets_bind fun s ⟨_, hs⟩ => ?_
  have hskip : S s.skipFlags := hs.1.2.1
  refine Triple.bind (h.prepareBlock time witness) fun b => Triple.of_and fun ⟨_, o, htrxs, hb⟩ => ?_
  have hassembled : P b := hb ▸ h.assembled time witness o htrxs
  exact Upholds.bind (h.pushBlock hassembled hskip S) fun _ => Upholds.pure b

end NodeInvariant

/-- An invariant across calls, with the fork switches made by their own rule. -/
lemma ChainInvariant.node (h : ChainInvariant R d U P S I B C) : NodeInvariant R d U P S I C :=
  { h.pending with
    assembled := h.assembled
    push := fun hb => h.switch.pushBlockInner hb }

/-- The transactions, blocks and flags of a call are in `U`, `P` and `S`. -/
def Call.Within (U : Transaction β → Prop) (P : SignedBlock β → Prop) (S : SkipFlags → Prop) :
    Call β → Prop
  | .pushBlock b skip => P b ∧ S skip
  | .pushTransaction trx skip => U trx ∧ S skip
  | .validateTransaction trx => U trx
  | .generateBlock _ _ skip => S skip

/-- Between two calls the flags do not matter. -/
def Idle (U : Transaction β → Prop) (P : SignedBlock β → Prop) (I : ℕ → Database β ω → Prop)
    (db : Database β ω) : Prop :=
  db.Holds U P ∧ I (if db.pendingTxSession then 1 else 0) db

lemma settled_iff_idle {db : Database β ω} : Settled U P (fun _ => True) I db ↔ Idle U P I db := by
  constructor
  · rintro ⟨p, ⟨hall, -, rfl⟩, hI⟩
    exact ⟨hall, hI⟩
  · exact fun h => ⟨_, ⟨h.1, trivial, rfl⟩, h.2⟩

/-- **Every call of a node keeps the invariant.** -/
theorem NodeInvariant.call (h : NodeInvariant R d U P S I C) {c : Call β} (hc : c.Within U P S) :
    Upholds (Idle U P I) C (Database.call R d c) := by
  refine (?_ : Upholds (Settled U P (fun _ => True) I) C (Database.call R d c)).conseq
    (fun _ hdb => settled_iff_idle.mpr hdb) (fun _ _ hdb => settled_iff_idle.mp hdb) fun e _ hdb => ?_
  · cases c with
    | pushBlock b skip =>
        exact Upholds.bind (h.pushBlock hc.1 hc.2 _) fun _ => Upholds.pure ()
    | pushTransaction trx skip =>
        exact h.upholds_withSkipFlags (h.pushTransactionInner hc.1) hc.2 _
    | validateTransaction trx => exact h.validateTransaction hc
    | generateBlock time witness skip =>
        refine Upholds.bind ?_ fun _ => Upholds.pure ()
        exact h.upholds_withSkipFlags (h.generateBlockInner time witness) hc _
  · exact hdb.imp settled_iff_idle.mp id

end Calls

/-! ### Runs -/

section Runs

variable {β ω : Type} {R : Rules β ω} {d : ℕ} {U : Transaction β → Prop} {P : SignedBlock β → Prop}
  {S : SkipFlags → Prop} {I : ℕ → Database β ω → Prop} {B C : Database β ω → Prop}

/-- A database that has just been set up: no block is kept, no transaction waits, no session is
open. -/
structure Database.Fresh (db : Database β ω) : Prop where
  enabled : db.undo.disabled = false
  activeSessions : db.undo.activeSessions = 0
  stack : db.undo.stack = []
  forkDb : db.forkDb.alive = []
  blockDb : db.blockDb.blocks = []
  pendingTx : db.pendingTx = []
  poppedTx : db.poppedTx = []
  pendingTxSession : db.pendingTxSession = false
  stackUsedUp : db.stackUsedUp = false

/-- Calls one after the other, each of which returns or throws. -/
inductive Database.Run (R : Rules β ω) (d : ℕ) :
    Database β ω → List (Call β) → Database β ω → Prop
  | nil (db : Database β ω) : Run R d db [] db
  | snoc {db₀ db db' : Database β ω} {l : List (Call β)} {c : Call β} :
      Run R d db₀ l db → Database.Calls R d db c db' → Run R d db₀ (l ++ [c]) db'

/-- A call that returns comes next in a run. -/
lemma Database.Run.returns {db₀ db : Database β ω} {l : List (Call β)} {c : Call β}
    (h : Database.Run R d db₀ l db) (hok : (Database.call R d c db).1.isOk = true) :
    Database.Run R d db₀ (l ++ [c]) (Database.call R d c db).2 := by
  refine .snoc h ⟨rfl, fun hc => ?_⟩
  rw [hc] at hok
  cases hok

/-- What a call that ends leads to. -/
lemma Database.Calls.ends {K Q : Database β ω → Prop} {db db' : Database β ω} {c : Call β}
    (h : Triple K (Database.call R d c) (fun _ => Q) (OnFailure Q C))
    (hcall : Database.Calls R d db c db') (hdb : K db) : Q db' := by
  obtain ⟨hok, herr⟩ := h db hdb
  obtain ⟨rfl, hne⟩ := hcall
  rcases hx : Database.call R d c db with ⟨e | _, db'⟩
  · cases e with
    | fc e => exact herr _ db' hx
    | crash => simp [hx] at hne
  · exact hok _ db' hx

/-- A fresh database holds nothing. -/
lemma Database.Fresh.holds {db : Database β ω} (h : db.Fresh) : db.Holds U P := by
  refine ⟨fun it hit => ?_, ?_, ?_, ?_⟩
  · rw [h.forkDb] at hit
    cases hit
  · rw [h.blockDb]
    exact List.forall_mem_nil P
  · rw [h.pendingTx]
    exact List.forall_mem_nil U
  · rw [h.poppedTx]
    exact List.forall_mem_nil U

/-- **Every run of calls keeps the invariant.** -/
theorem NodeInvariant.run (h : NodeInvariant R d U P S I C) {db₀ db : Database β ω}
    {l : List (Call β)} (hrun : Database.Run R d db₀ l db) (hl : ∀ c ∈ l, c.Within U P S)
    (h₀ : Idle U P I db₀) : Idle U P I db := by
  induction hrun with
  | nil => exact h₀
  | @snoc db db' l c hrun hcall ih =>
      obtain ⟨hl, hc⟩ := List.forall_mem_append.mp hl
      exact hcall.ends (h.call (hc c List.mem_cons_self)) (ih hl)

lemma ChainInvariant.run (h : ChainInvariant R d U P S I B C) {db₀ db : Database β ω}
    {l : List (Call β)} (hrun : Database.Run R d db₀ l db) (hl : ∀ c ∈ l, c.Within U P S)
    (h₀ : Idle U P I db₀) : Idle U P I db :=
  h.node.run hrun hl h₀

end Runs

/-! ### What holds of the objects and of all undo states -/

/-- The objects and all undo states are in `Q`, and `M` holds of the history of the call stack and of
the checkpoints. -/
def Throughout {β ω : Type} (M : Bool → List (ℕ × BlockId) → Prop) (Q : Objects β ω → Prop)
    (db : Database β ω) : Prop :=
  M db.stackUsedUp db.checkpoints ∧ db.undo.disabled = false ∧ Q db.objects ∧
    ∀ o ∈ db.undo.stack, Q o

namespace Throughout

variable {β ω : Type} {R : Rules β ω} {d n : ℕ} {F : List (Operation β) → Prop}
  {M : Bool → List (ℕ × BlockId) → Prop} {Q : Objects β ω → Prop} {db : Database β ω}

/-- A change of the objects. -/
lemma record (h : Throughout M Q db) {o : Objects β ω} (ho : Q o) :
    Throughout M Q { db with undo := db.undo.record db.objects id, objects := o } := by
  obtain ⟨hM, henabled, hobjects, hstack⟩ := h
  by_cases hne : db.undo.stack = []
  · have hrecord : db.undo.record db.objects id = { db.undo with stack := [db.objects] } := by
      simp [UndoDatabase.record, henabled, hne]
    rw [hrecord]
    exact ⟨hM, henabled, ho, List.forall_mem_singleton.mpr hobjects⟩
  · rw [UndoDatabase.record_id hne]
    exact ⟨hM, henabled, ho, hstack⟩

/-- A session is opened. -/
lemma opened (h : Throughout M Q db) : Throughout M Q db.opened :=
  ⟨h.1, rfl, h.2.2.1, List.forall_mem_cons.mpr
    ⟨h.2.2.1, fun o ho => h.2.2.2 o (List.mem_of_mem_take ho)⟩⟩

lemma startUndoSession (forceEnable : Bool) {E : Failure → Database β ω → Prop} :
    Triple (Throughout M Q) (Database.startUndoSession forceEnable) (fun _ => Throughout M Q) E := by
  intro db hdb
  rw [startUndoSession_eq (by rw [hdb.2.1]; rfl)]
  refine ⟨fun _ _ hx => ?_, fun _ _ hx => ?_⟩
  · cases hx
    exact hdb.opened
  · cases hx

/-- A session is undone, or the program ends. -/
lemma sessionUndo (J : Database β ω → Prop) :
    Triple (Throughout M Q) Database.sessionUndo (fun _ => Throughout M Q)
      (OnFailure J fun db => M db.stackUsedUp db.checkpoints) := by
  refine Triple.bind (Q := fun _ => Throughout M Q) (Triple.update fun _ h => h) fun _ => ?_
  refine triple_onUndo (fun db o u h hu => ?_) fun _ _ h _ => h.1
  obtain ⟨s, l, hstack, rfl, rfl⟩ := UndoDatabase.undo_restoreSnapshot hu
  rw [Throughout, hstack, List.forall_mem_cons] at h
  exact ⟨h.1, h.2.1, h.2.2.2⟩

lemma sessionMerge :
    Upholds (Throughout M Q) (fun db => M db.stackUsedUp db.checkpoints) Database.sessionMerge := by
  refine Triple.bind (Q := fun _ => Throughout M Q) (Triple.update fun _ h => h) fun _ => ?_
  refine triple_onUndo (fun db o u h hu => ?_) fun _ _ h _ => h
  obtain ⟨u', hmerge, hou⟩ := except_map_eq_ok.mp hu
  obtain ⟨rfl, rfl⟩ := Prod.mk.inj hou
  obtain ⟨-, rfl⟩ := UndoDatabase.merge_combineSnapshot hmerge
  exact ⟨h.1, h.2.1, h.2.2.1, fun o ho => h.2.2.2 o (List.mem_of_mem_tail ho)⟩

lemma sessionCommit :
    Upholds (Throughout M Q) (fun db => M db.stackUsedUp db.checkpoints) Database.sessionCommit := by
  refine Triple.bind (Q := fun _ => Throughout M Q) (Triple.update fun _ h => h) fun _ => ?_
  refine triple_onUndo (fun db o u h hu => ?_) fun _ _ h _ => h
  obtain ⟨u', hcommit, hou⟩ := except_map_eq_ok.mp hu
  obtain ⟨rfl, rfl⟩ := Prod.mk.inj hou
  unfold UndoDatabase.commit at hcommit
  split_ifs at hcommit
  cases hcommit
  exact h

lemma popUndo :
    Upholds (Throughout M Q) (fun db => M db.stackUsedUp db.checkpoints) Database.popUndo := by
  refine Triple.bind (Q := fun _ => Throughout M Q) (Triple.update fun _ h => h) fun _ => ?_
  refine triple_onUndo (fun db o u h hu => ?_) fun _ _ h _ => h
  obtain ⟨s, l, -, hstack, rfl, rfl⟩ := UndoDatabase.popCommit_restoreSnapshot hu
  rw [Throughout, hstack, List.forall_mem_cons] at h
  exact ⟨h.1, rfl, h.2.2.2⟩

/-- Operations keep it if the changes they may make do. -/
lemma operationInvariant (n : ℕ) (hQ : ∀ o o', Q o → o.Operated F o' → Q o')
    (hF : ∀ o, Q o → ∀ p ∈ o.proposals, F p.proposedOps) :
    OperationInvariant n F (fun _ => Throughout M Q) fun db => M db.stackUsedUp db.checkpoints where
  crash h := h.1
  proposals h := hF _ h.2.2.1
  modify h ho := h.record (hQ _ _ h.2.2.1 ho)
  applied _ _ h := h
  start _ _ := startUndoSession true
  undo _ _ := sessionUndo _
  merge _ _ := sessionMerge
  exit h hdis _ := by
    rw [h.2.1] at hdis
    cases hdis

/-- The calls of a node keep it if transactions and blocks do. -/
lemma chainInvariant {U : Transaction β → Prop} {P : SignedBlock β → Prop} {S : SkipFlags → Prop}
    (hcarried : ∀ b, P b → ∀ trx ∈ b.transactions, U trx)
    (hassembled : ∀ trxs time witness o, (∀ trx ∈ trxs, U trx) →
      P (Database.assembleBlock R time witness trxs o))
    (htransaction : ∀ trx, U trx →
      Upholds (Throughout M Q) (fun db => M db.stackUsedUp db.checkpoints)
        (Database.applyTransaction R d trx))
    (hblock : ∀ b skip, P b → S skip →
      Upholds (Throughout M Q) (fun db => M db.stackUsedUp db.checkpoints)
        (Database.applyBlock R d b skip)) :
    ChainInvariant R d U P S (fun _ => Throughout M Q) (Throughout M Q)
      fun db => M db.stackUsedUp db.checkpoints where
  carried := hcarried _
  assembled time witness o h := hassembled _ time witness o h
  crash h := h.1
  other _ _ _ _ _ _ h := h
  stored _ h := h
  ended _ _ h := h
  applied h := h
  enabled h := h.2.1
  start _ h := h.opened
  undo _ := sessionUndo _
  merge := sessionMerge
  pop := popUndo
  transaction htrx _ _ := htransaction _ htrx
  block b skip hb hskip := (hblock b skip hb hskip).conseq (fun _ h => h.1) (fun _ _ h => h)
    fun _ _ h => h
  commit := sessionCommit

/-- The calls of a node keep what every change of the dynamic fields keeps. -/
lemma leads_chainInvariant (hQ : ∀ o o', o.dynamic.Leads o'.dynamic → Q o → Q o') :
    ChainInvariant R d (fun _ => True) (fun _ => True) (fun _ => True)
      (fun _ => Throughout (fun _ _ => True) Q) (Throughout (fun _ _ => True) Q) fun _ => True := by
  have hinv : OperationInvariant (0 + d) (fun _ => True) (fun _ => Throughout (fun _ _ => True) Q)
      fun _ => True :=
    operationInvariant _ (fun _ _ ho h => hQ _ _ (h.dynamic ▸ Dynamic.Leads.refl _) ho)
      fun _ _ _ _ => trivial
  have hoperates : Operates R d (fun _ => True) (Throughout (fun _ _ => True) Q) fun _ => True :=
    hinv.operates_all (k := 0) le_rfl
  refine chainInvariant (fun _ _ _ _ => trivial) (fun _ _ _ _ _ => trivial) (fun trx _ => ?_)
    fun b skip _ _ => ?_
  · exact Upholds.applyTransaction (fun op _ => hoperates.operation op (op.admitted_true R))
      fun db h => h.record (hQ db.objects _ (Dynamic.Leads.refl db.objects.dynamic) h.2.2.1)
  · have hblock : ∀ db : Database β ω, Throughout (fun _ _ => True) Q db →
        BlockInvariant R d (0 + d) (fun _ => True) db.objects.dynamic b
          (fun _ => Throughout (fun _ _ => True) Q) fun _ => True := fun _ _ =>
      { hinv with
        operates := hoperates
        objects := fun h hleads _ => h.record (hQ _ _ hleads h.2.2.1)
        other := fun _ _ _ h => h
        ended := fun _ _ _ => trivial
        resize := fun _ h => h }
    exact BlockInvariant.upholds_applyBlock (I := fun _ => Throughout (fun _ _ => True) Q) hblock
      (fun _ _ op _ => op.admitted_true R) skip

end Throughout

end ZosCore
