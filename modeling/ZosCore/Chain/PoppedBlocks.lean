import ZosCore.Chain.BlockByNumber

/-!
Which transactions `_push_block` leaves in `_popped_tx`.

`pop_block` puts the transactions of the block before those that are there already, so the blocks of a
branch come in the order of the chain. A switch pops the old branch; if it fails, the blocks of the new
branch that had been applied are popped too, and come first.

* `Switched`: of the chain before only the blocks above the fork point have been popped.
* `Reverted`: beside them, blocks of the branch to which a switch failed.
* `Popping`: a property of the chain and of `_popped_tx`, while no session is open.
* **`Popping.pushBlockInner`**: `_push_block` leaves the one or the other.
* **`PoppedIs.run`**: between the calls of a node there is nothing in `_popped_tx`.
-/

namespace ZosCore

open Exec

variable {β ω : Type} {R : Rules β ω} {d : ℕ}

/-! ### What has been popped -/

/-- Of the chain `before` the blocks above `base` have been popped, and the chain `after` goes on from
there: `popped` are the transactions of these blocks, the oldest one first. -/
def Switched (before after : List (SignedBlock β)) (popped : List (Transaction β)) : Prop :=
  ∃ old base : List (SignedBlock β), old.map (·.id) ++ base.map (·.id) = before.map (·.id) ∧
    base <:+ after ∧ popped = old.reverse.flatMap (·.transactions)

/-- A switch to `branch` has failed: the newest blocks of this branch have been popped after those of
the chain `before`, and their transactions come first. -/
def Reverted (before : List (SignedBlock β)) (popped : List (Transaction β)) : Prop :=
  ∃ (branch tried : List (SignedBlock β)) (p : List (Transaction β)), Switched before branch p ∧
    (branch.Pairwise fun newer older => older.blockNum < newer.blockNum) ∧
    tried.map (·.id) <+: branch.map (·.id) ∧ popped = tried.reverse.flatMap (·.transactions) ++ p

/-- The blocks of `chain` are still there, the others have been popped, and their transactions come
before `p`. -/
def PoppedFrom (before : List (SignedBlock β)) (p : List (Transaction β))
    (chain : List (SignedBlock β)) (popped : List (Transaction β)) : Prop :=
  ∃ l : List (SignedBlock β), l.map (·.id) ++ chain.map (·.id) = before.map (·.id) ∧
    popped = l.reverse.flatMap (·.transactions) ++ p

section Popped

variable {before after chain l : List (SignedBlock β)} {p popped : List (Transaction β)}
  {b b' : SignedBlock β}

lemma PoppedFrom.refl (chain : List (SignedBlock β)) (p : List (Transaction β)) :
    PoppedFrom chain p chain p := ⟨[], rfl, rfl⟩

/-- One more block is popped. -/
lemma PoppedFrom.pop (h : PoppedFrom before p (b' :: chain) popped) (hid : b.id = b'.id) :
    PoppedFrom before p chain (b.transactions ++ popped) := by
  obtain ⟨l, hl, rfl⟩ := h
  refine ⟨l ++ [b], ?_, ?_⟩
  · rw [← hl, List.map_append, List.map_singleton, hid, List.append_assoc]
    rfl
  · rw [List.reverse_append, List.reverse_singleton, List.singleton_append, List.flatMap_cons,
      List.append_assoc]

lemma PoppedFrom.switched (h : PoppedFrom before [] chain popped) : Switched before chain popped := by
  obtain ⟨l, hl, rfl⟩ := h
  exact ⟨l, chain, hl, List.suffix_rfl, List.append_nil _⟩

/-- The chain goes on to grow. -/
lemma Switched.cons (h : Switched before after popped) (b : SignedBlock β) :
    Switched before (b :: after) popped := by
  obtain ⟨old, base, hold, hbase, rfl⟩ := h
  exact ⟨old, base, hold, hbase.trans (List.suffix_cons b after), rfl⟩

end Popped

/-- While a switch that has failed pops the blocks of the branch. -/
def Reverting (before chain : List (SignedBlock β)) (popped : List (Transaction β)) : Prop :=
  ∃ (branch : List (SignedBlock β)) (p : List (Transaction β)), Switched before branch p ∧
    (branch.Pairwise fun newer older => older.blockNum < newer.blockNum) ∧
    PoppedFrom branch p chain popped

lemma Reverting.reverted {before chain : List (SignedBlock β)} {popped : List (Transaction β)}
    (h : Reverting before chain popped) : Reverted before popped := by
  obtain ⟨branch, p, hswitched, hdecreasing, l, hl, rfl⟩ := h
  exact ⟨branch, l, p, hswitched, hdecreasing, hl ▸ List.prefix_append _ _, rfl⟩

/-! ### Popping and applying blocks -/

/-- No session is open, and `F` holds of the chain and of `_popped_tx`, as long as no state of an open
session was trimmed. -/
def Popping (T : SkipFlags → Prop) (F : List (SignedBlock β) → List (Transaction β) → Prop) :
    Database β ω → Prop :=
  During T fun c db => F c.chain db.poppedTx

/-- A block that is fetched by its id has that id. -/
lemma Database.id_of_fetchBlockById {db : Database β ω} {id : BlockId} {b : SignedBlock β}
    (h : Database.fetchBlockById R db id = some b) : b.id = id := by
  unfold Database.fetchBlockById at h
  cases hf : db.forkDb.fetchBlock id with
  | some it =>
      simp only [hf] at h
      cases h
      exact of_decide_eq_true (List.find?_some (p := fun it : ForkItem β => decide (it.id = id)) hf)
  | none =>
      simp only [hf, BlockDatabase.fetchOptional, BlockDatabase.unpack] at h
      split at h
      · cases h
      · split_ifs at h with hid
        split at h
        · cases h
        · split_ifs at h with hunpack
          cases h
          exact hunpack.2.trans hid

/-- A block that is applied in a session of its own leaves the popped transactions. -/
lemma poppedTx_applyAndStore (p : List (Transaction β)) (b : SignedBlock β) (id : BlockId)
    (skip : SkipFlags) : Upholds (fun db : Database β ω => db.poppedTx = p) (fun _ => True)
      (Database.applyAndStore R d b id skip) := by
  have hpart : Apart fun db : Database β ω => db.poppedTx = p := ⟨fun _ _ _ _ _ _ h => h⟩
  refine Upholds.inSession_false (hpart.startUndoSession false) ?_ hpart.sessionUndo
  refine Upholds.bind (hpart.applyBlock (fun _ _ _ _ h => h) (fun _ _ h => h) b skip) fun _ => ?_
  refine Upholds.bind ?_ fun _ => hpart.sessionCommit
  refine Upholds.gets_bind fun s _ => triple_fcLift_bind (fun _ _ hdb _ => hdb) fun blockDb _ => ?_
  exact Upholds.update fun db hdb => hdb

namespace Popping

variable {T : SkipFlags → Prop} {F G : List (SignedBlock β) → List (Transaction β) → Prop}
  {before : List (SignedBlock β)} {db : Database β ω}

lemma mono (h : Popping T F db) (hFG : ∀ l p, F l p → G l p) : Popping T G db :=
  During.mono h fun _ hF => hFG _ _ hF

/-- The blocks of the chain are numbered. -/
lemma decreasing (h : Popping T F db) : Popping T (fun l p => F l p ∧
    l.Pairwise fun newer older : SignedBlock β => older.blockNum < newer.blockNum) db :=
  ⟨h.cleared, h.rising, fun hN => ⟨h.holds hN, (During.head h hN).2.1.decreasing⟩⟩

/-- Where the chain has been switched at most, nothing of a branch has been popped. -/
lemma reverted (h : Popping T (Switched before) db) : Popping T (fun _ => Reverted before) db :=
  h.decreasing.mono fun l p hl => ⟨l, [], p, hl.1, hl.2, List.nil_prefix, rfl⟩

/-- A change of the fork database. -/
lemma forkDb (g : ForkDatabase β → ForkDatabase β) {E : Failure → Database β ω → Prop} :
    Triple (Popping T F) (Exec.update fun db : Database β ω => { db with forkDb := g db.forkDb })
      (fun _ => Popping T F) E :=
  During.forkDb fun _ _ hF => hF

/-- A block is applied, or its session undone. -/
lemma applyAndStore (hF : ∀ b l p, F l p → F (b :: l) p) (b : SignedBlock β) (id : BlockId)
    (skip : SkipFlags) :
    Upholds (Popping T F) (fun _ => True) (Database.applyAndStore R d b id skip) := by
  intro db hdb
  have hlasting : Lasting fun c (_ : Database β ω) => F c.chain db.poppedTx :=
    ⟨fun _ => ⟨fun _ _ _ _ _ _ h => h⟩, fun _ _ _ _ _ _ h => h, fun _ h => h⟩
  have happly : Triple (During T fun c _ => F c.chain db.poppedTx)
      (Database.applyAndStore R d b id skip) (fun _ => During T fun c _ => F c.chain db.poppedTx)
      (OnFailure (During T fun c _ => F c.chain db.poppedTx) fun _ => True) :=
    During.applyAndStore hlasting hlasting (fun _ _ hext h _ => hext.chain ▸ hF _ _ _ h) skip
  have hboth := Triple.and happly (poppedTx_applyAndStore (R := R) (d := d) db.poppedTx b id skip)
  have hend : ∀ db' : Database β ω, During T (fun c _ => F c.chain db.poppedTx) db' →
      db'.poppedTx = db.poppedTx → Popping T F db' := by
    refine fun db' h hpopped => During.mono h fun c hF' => ?_
    rw [hpopped]
    exact hF'
  obtain ⟨hok, herr⟩ := hboth db ⟨During.mono hdb fun _ h => h, rfl⟩
  refine ⟨fun a db' hx => hend db' (hok a db' hx).1 (hok a db' hx).2, fun e db' hx => ?_⟩
  cases e with
  | fc e => exact hend db' (herr _ db' hx).1 (herr _ db' hx).2
  | crash => trivial

/-- The loop of a switch that pops blocks. -/
lemma popBlocksUntil (id : BlockId) (hF : ∀ {b b' : SignedBlock β} {l p}, b.id = b'.id → b'.id ≠ id →
      F (b' :: l) p → F l (b.transactions ++ p)) :
    Upholds (Popping T F) (fun _ => True) (Database.popBlocksUntil R id : Act β ω Unit) := by
  refine During.popBlocksUntil_of fun {s} hs hid => hs.popBlock_of (fun {_ b b' _ _ _} hb _ hext h => ?_)
    fun _ h => h
  rw [hext.chain] at h
  exact hF ((Database.id_of_fetchBlockById hb).trans hext.headBlockId) (hext.headBlockId ▸ hid) h

/-! ### Pushing a block -/

/-- What is known during a switch with the given fork point: `F` while the old branch is popped, `G`
while the new one is applied, `K` while this one is popped again, and `J` while the old one is put
back. -/
structure Switching (forkPoint : BlockId)
    (F G K J : List (SignedBlock β) → List (Transaction β) → Prop) : Prop where
  pop : ∀ {b b' : SignedBlock β} {l p}, b.id = b'.id → b'.id ≠ forkPoint → F (b' :: l) p →
    F l (b.transactions ++ p)
  switched : ∀ {l p}, F l p → G l p
  extends_ : ∀ b {l p}, G l p → G (b :: l) p
  fails : ∀ {l p}, G l p →
    (l.Pairwise fun newer older : SignedBlock β => older.blockNum < newer.blockNum) → K l p
  popAgain : ∀ {b b' : SignedBlock β} {l p}, b.id = b'.id → b'.id ≠ forkPoint → K (b' :: l) p →
    K l (b.transactions ++ p)
  reverted : ∀ {l p}, K l p → J l p
  putBack : ∀ b {l p}, J l p → J (b :: l) p

section Switch

variable {K J : List (SignedBlock β) → List (Transaction β) → Prop} {forkPoint : BlockId}

lemma Switching.failed (h : Switching forkPoint F G K J) (hdb : Popping T G db) : Popping T J db :=
  hdb.decreasing.mono fun _ _ hl => h.reverted (h.fails hl.1 hl.2)

/-- The recovery of a switch pops blocks of the branch. -/
lemma recover (h : Switching forkPoint F G K J) (newBlock : SignedBlock β)
    (bad old : List (ForkItem β)) (skip : SkipFlags) :
    Triple (Popping T G) (Database.recover R d newBlock bad old forkPoint skip)
      (fun _ => Popping T J) (OnFailure (Popping T J) fun _ : Database β ω => True) := by
  refine Triple.bind (forkDb fun f => bad.foldl (fun f it => f.remove it.id) f) fun _ => ?_
  cases old.head? with
  | none => exact Triple.raise fun _ _ => trivial
  | some it =>
      refine Triple.bind (forkDb fun f => f.setHead it) fun _ => ?_
      refine Triple.bind ((popBlocksUntil forkPoint h.popAgain).conseq (fun db hdb => ?_)
        (fun _ _ hdb => hdb.mono fun _ _ hl => h.reverted hl)
        fun _ _ hdb => hdb.imp (fun hI => hI.mono fun _ _ hl => h.reverted hl) id) fun _ => ?_
      · exact hdb.decreasing.mono fun _ _ hl => h.fails hl.1 hl.2
      · exact Upholds.forEach _ fun it _ =>
          applyAndStore (fun b _ _ hl => h.putBack b hl) it.data newBlock.id skip

/-- The loop of a switch over the new branch. -/
lemma switchLoop (h : Switching forkPoint F G K J) (newBlock : SignedBlock β)
    (new old : List (ForkItem β)) (skip : SkipFlags) :
    Triple (Popping T G) (Database.switchLoop R d newBlock old forkPoint skip new)
      (fun _ => Popping T G) (OnFailure (Popping T J) fun _ : Database β ω => True) := by
  induction new with
  | nil => exact Triple.pure fun _ hdb => hdb
  | cons it new ih =>
      refine Triple.bind (Upholds.catchFc
        (applyAndStore (fun b _ _ hl => h.extends_ b hl) it.data it.id skip) (fun e => ?_)
        fun _ _ => trivial) fun _ => ih
      exact Triple.bind (recover h newBlock _ old skip) fun _ => Triple.raise fun _ hdb => hdb

/-- The switch to another branch. -/
lemma switchForks {s : Database β ω} {newHead : ForkItem β} (hs : Popping T J s)
    (hswitching : ∀ new old last,
      s.forkDb.fetchBranchFrom newHead.id s.objects.headBlockId = .ok (new, old) →
      old.getLast? = some last → Switching last.data.previous F G K J ∧ Popping T F s)
    (newBlock : SignedBlock β) (skip : SkipFlags) :
    Triple (fun db => db = s) (Database.switchForks R d newBlock newHead skip)
      (fun _ => Popping T G) (OnFailure (Popping T J) fun _ : Database β ω => True) := by
  refine Triple.gets_bind fun s' hs' => triple_fcLift_bind (fun _ _ hdb _ => hdb ▸ hs' ▸ hs) ?_
  rintro ⟨new, old⟩ hbranch
  subst hs'
  simp only
  cases hlast : old.getLast? with
  | none => exact Triple.raise fun _ _ => trivial
  | some last =>
      obtain ⟨h, hF⟩ := hswitching new old last hbranch hlast
      have hbody : Triple (Popping T F) (do
          Database.popBlocksUntil R last.data.previous
          Database.switchLoop R d newBlock old last.data.previous skip new.reverse)
          (fun _ => Popping T G) (OnFailure (Popping T J) fun _ : Database β ω => True) := by
        refine Triple.bind ((popBlocksUntil _ h.pop).conseq (fun _ hdb => hdb)
          (fun _ _ hdb => hdb.mono fun _ _ hl => h.switched hl)
          fun _ _ hdb => hdb.imp (fun hI => h.failed (hI.mono fun _ _ hl => h.switched hl)) id) fun _ => ?_
        exact switchLoop h newBlock _ old skip
      have hpin : ∀ {H : List (SignedBlock β) → List (Transaction β) → Prop} (db : Database β ω)
          (items : List (ForkItem β)), Popping T H db →
          Popping T H { db with forkDb := { db.forkDb with pinned := items } } := fun db items hdb =>
        ⟨Cleared.of_eq hdb.cleared.2.1 hdb.cleared.2.2, hdb.rising, fun hN => hdb.holds hN⟩
      refine (Triple.around (P := Popping T F)
        (g := fun db => { db with forkDb := { db.forkDb with pinned := new ++ old } })
        (h := fun db db' => { db' with forkDb := { db'.forkDb with pinned := db.forkDb.pinned } })
        hbody (fun db hdb => hpin db _ hdb) (fun db _ db' _ hdb' => hpin db' _ hdb')
        fun db e db' _ hdb' => hdb'.imp (hpin db' _) id).conseq (fun _ hdb => hdb ▸ hF)
        (fun _ _ hdb => hdb) fun _ _ hdb => hdb

/-- The last step of `_push_block`. -/
lemma extendChain (hG : ∀ b l p, G l p → G (b :: l) p) (b : SignedBlock β) (skip : SkipFlags) :
    Upholds (Popping T G) (fun _ => True) (Database.extendChain R d b skip : Act β ω Unit) := by
  refine Upholds.catchFc (applyAndStore hG b b.id skip) (fun e => ?_) fun _ _ => trivial
  exact Triple.bind (forkDb fun f => f.remove b.id) fun _ => Upholds.fail e

/-- `_push_block`, with what is known of the switch. -/
lemma pushBlockInner_of {s : Database β ω} {b : SignedBlock β} (hG : ∀ b l p, G l p → G (b :: l) p)
    (hGJ : ∀ db : Database β ω, Popping T G db → Popping T J db) (hs : Popping T G s)
    (hswitch : ∀ f newHead, s.skipFlags.forkDb = false → s.forkDb.pushBlock b = .ok f →
      f.head = some newHead → newHead.data.previous ≠ s.objects.headBlockId →
      s.objects.headBlockNumber < newHead.data.blockNum →
      Triple (fun db => db = { s with forkDb := f })
        (Database.switchForks R d b newHead s.skipFlags) (fun _ => Popping T G)
        (OnFailure (Popping T J) fun _ : Database β ω => True)) :
    Triple (fun db => db = s) (Database.pushBlockInner R d b) (fun _ => Popping T G)
      (OnFailure (Popping T J) fun _ : Database β ω => True) := by
  have hextend : ∀ (s : Database β ω), Popping T G s → ∀ skip, Triple (fun db => db = s)
      (do
        Database.extendChain R d b skip
        return false) (fun _ => Popping T G) (OnFailure (Popping T J) fun _ : Database β ω => True) :=
    fun s hs skip => Triple.bind ((extendChain hG b skip).conseq (fun _ hdb => hdb ▸ hs)
      (fun _ _ hdb => hdb) fun _ _ hdb => hdb.imp (hGJ _) id) fun _ => Triple.pure fun _ hdb => hdb
  refine Triple.gets_bind fun s' hs' => ?_
  subst hs'
  refine Triple.ite (fun _ => hextend s' hs _) fun hskip => ?_
  refine Triple.gets_bind fun s hs' => triple_fcLift_bind (fun _ _ hdb _ => hdb ▸ hs' ▸ hGJ _ hs)
    fun f hf => ?_
  subst hs'
  have hf' : Popping T G { s with forkDb := f } :=
    ⟨Cleared.of_eq hs.cleared.2.1 hs.cleared.2.2, hs.rising, fun hN => hs.holds hN⟩
  refine Triple.bind (Q := fun _ db => db = { s with forkDb := f })
    (Triple.update fun db hdb => hdb ▸ rfl) fun _ => ?_
  cases hhead : f.head with
  | none => exact Triple.raise fun _ _ => trivial
  | some newHead =>
      refine Triple.gets_bind fun s' hs' => ?_
      subst hs'
      refine Triple.ite (fun hne => Triple.ite (fun hlt => ?_) fun _ =>
        Triple.pure fun _ hdb => hdb ▸ hf') fun _ => hextend _ hf' _
      exact Triple.bind (hswitch f newHead (by simpa using hskip) hf hhead hne hlt) fun _ =>
        Triple.pure fun _ hdb => hdb

end Switch

lemma switching (before : List (SignedBlock β)) (forkPoint : BlockId) :
    Switching forkPoint (PoppedFrom before []) (Switched before) (Reverting before)
      fun _ => Reverted before where
  pop hid _ h := h.pop hid
  switched h := h.switched
  extends_ b _ _ h := h.cons b
  fails {l p} h hl := ⟨l, p, h, hl, .refl l p⟩
  popAgain hid _ h := by
    obtain ⟨branch, p, hswitched, hdecreasing, hpopped⟩ := h
    exact ⟨branch, p, hswitched, hdecreasing, hpopped.pop hid⟩
  reverted h := h.reverted
  putBack _ _ _ h := h

/-- **`_push_block`**: if it returns, the chain has been switched at most; if it throws, a switch may
have been reverted. -/
theorem pushBlockInner (b : SignedBlock β) :
    Triple (Popping T (PoppedFrom before [])) (Database.pushBlockInner R d b)
      (fun _ => Popping T (Switched before))
      (OnFailure (Popping T fun _ => Reverted before) fun _ : Database β ω => True) := by
  intro s hs
  have hfailed : ∀ db : Database β ω, Popping T (Switched before) db →
      Popping T (fun _ => Reverted before) db := fun _ hdb => (switching before .zero).failed hdb
  have hswitched : Popping T (Switched before) s := hs.mono fun _ _ h => h.switched
  refine pushBlockInner_of (fun b _ _ h => h.cons b) hfailed hswitched (fun f newHead _ _ _ _ _ => ?_) s rfl
  have hf : Popping T (PoppedFrom before []) { s with forkDb := f } :=
    ⟨Cleared.of_eq hs.cleared.2.1 hs.cleared.2.2, hs.rising, fun hN => hs.holds hN⟩
  exact switchForks (hfailed _ (hf.mono fun _ _ h => h.switched))
    (fun _ _ last _ _ => ⟨switching before last.data.previous, hf⟩) b _

end Popping

/-! ### Between the calls of a node -/

/-- `_popped_tx` is `p`. -/
def PoppedIs (p : List (Transaction β)) (db : Database β ω) : Prop := db.poppedTx = p

namespace PoppedIs

variable {α : Type} {p : List (Transaction β)} {J : Database β ω → Prop}

lemma apart (p : List (Transaction β)) : Apart (PoppedIs p : Database β ω → Prop) :=
  ⟨fun _ _ _ _ _ _ h => h⟩

/-- A transaction in a session of its own, which is merged. -/
lemma inTransaction {x : Act β ω Unit} (hx : Upholds (PoppedIs p) (fun _ => True) x)
    (trx : Transaction β) :
    Upholds (PoppedIs p) (fun _ => True) (Database.inSession false do
      Database.applyTransaction R d trx
      x) :=
  Upholds.inSession_false ((apart p).startUndoSession false)
    (Upholds.bind ((apart p).applyTransaction trx) fun _ => hx) (apart p).sessionUndo

/-- `_push_transaction`. -/
lemma pushTransactionInner (trx : Transaction β) :
    Upholds (PoppedIs p) (fun _ => True) (Database.pushTransactionInner R d trx) := by
  have hmain : Upholds (PoppedIs p) (fun _ => True) (Database.inSession false do
      Database.applyTransaction R d trx
      Exec.update fun db => { db with pendingTx := db.pendingTx ++ [trx] }
      Database.sessionMerge) := by
    refine inTransaction (Upholds.bind (Upholds.update fun db hdb => ?_) fun _ => ?_) trx
    · exact hdb
    · exact (apart p).sessionMerge
  refine Upholds.gets_bind fun s _ => ?_
  cases s.pendingTxSession with
  | true => exact hmain
  | false =>
      refine Upholds.bind ((apart p).startUndoSession false) fun _ => ?_
      exact Upholds.bind (Upholds.update fun _ h => h) fun _ => hmain

/-- The transactions that are tried again: they never throw. -/
lemma forEach_retryTransaction (l : List (Transaction β)) :
    Keeps (PoppedIs p) (OnFailure J fun _ => True)
      (Exec.forEach (Database.retryTransaction R d) l) := by
  refine Keeps.forEach l fun trx _ => Keeps.bind (Keeps.gets _) fun o => ?_
  refine Triple.ite (fun _ => ?_) fun _ => Keeps.pure ()
  exact Upholds.catchFc (pushTransactionInner trx) (fun _ => Keeps.pure ()) fun _ _ => trivial

/-- After `~pending_transactions_restorer` nothing is left over. -/
lemma restorePending (pending : List (Transaction β)) :
    Triple (fun _ => True) (Database.restorePending R d pending) (fun _ => PoppedIs [])
      (OnFailure J fun _ => True) := by
  refine Triple.gets_bind fun s _ => ?_
  have hpopped : Triple (fun db => db = s)
      (Exec.forEach (Database.retryTransaction R d) s.poppedTx)
      (fun _ => PoppedIs s.poppedTx) (OnFailure J fun _ => True) :=
    (forEach_retryTransaction _).conseq (fun _ hdb => hdb ▸ rfl) (fun _ _ h => h) fun _ _ h => h
  refine Triple.bind hpopped fun _ => ?_
  exact Triple.bind (Triple.update fun _ _ => rfl) fun _ => forEach_retryTransaction pending

lemma resetPendingSession :
    Upholds (PoppedIs p) (fun _ => True) (Database.resetPendingSession : Act β ω Unit) := by
  refine Upholds.bind (Upholds.gets _) fun _ => Upholds.ite ?_ (Upholds.pure ())
  exact Upholds.bind (apart p).sessionUndo fun _ => Upholds.update fun _ h => h

/-- `clear_pending`. -/
lemma clearPending :
    Upholds (PoppedIs p) (fun _ => True) (Database.clearPending : Act β ω Unit) :=
  Upholds.bind (Upholds.update fun _ h => h) fun _ => resetPendingSession

/-- `without_pending_transactions`, whatever is done meanwhile. -/
lemma withoutPendingTransactions (x : Act β ω α) :
    Upholds (PoppedIs []) (fun _ => True) (Database.withoutPendingTransactions R d x) := by
  refine Upholds.gets_bind fun s _ => Upholds.bind clearPending fun _ =>
    Triple.bind (Q := fun _ _ => True) ?_ fun a => ?_
  · have hx : Triple (PoppedIs []) x (fun _ _ => True) (OnFailure (fun _ => True) fun _ => True) :=
      Triple.top.conseq (fun _ _ => trivial) (fun _ _ h => h) fun e _ _ => by
        cases e <;> trivial
    refine Upholds.catchFc hx (fun e => ?_) fun _ _ => trivial
    exact Triple.bind (restorePending _) fun _ => Triple.raise fun _ h => h
  · exact Triple.bind (restorePending _) fun _ => Triple.pure fun _ h => h

/-- Flags are set for a while. -/
lemma withSkipFlags {x : Act β ω α} (hx : Upholds (PoppedIs p) (fun _ => True) x)
    (skip : SkipFlags) : Upholds (PoppedIs p) (fun _ => True) (Database.withSkipFlags skip x) := by
  have hset : ∀ (db : Database β ω) skipFlags, PoppedIs p db → PoppedIs p { db with skipFlags } :=
    fun _ _ h => h
  exact Triple.around hx (fun db hdb => hset db skip hdb) (fun db _ db' _ hdb' => hset db' _ hdb')
    fun db _ db' _ hdb' => hdb'.imp (hset db' _) id

/-- `_generate_block` up to the block that it pushes. -/
lemma prepareBlock (time witness : ℕ) :
    Upholds (PoppedIs p) (fun _ => True) (Database.prepareBlock R d time witness) := by
  have hcollect : ∀ l total acc, Upholds (PoppedIs p) (fun _ => True)
      (Database.collectTransactions R d l total acc) := by
    intro l
    induction l with
    | nil => exact fun _ _ => Upholds.pure _
    | cons trx l ih =>
        intro total acc
        refine Upholds.bind (Upholds.gets _) fun o => Upholds.ite (ih _ _) ?_
        have htry : Upholds (PoppedIs p) (fun _ => True) (do
            Database.inSession false do
              Database.applyTransaction R d trx
              Database.sessionMerge
            return true) :=
          Upholds.bind (inTransaction (apart p).sessionMerge trx) fun _ => Upholds.pure _
        exact Upholds.bind (Upholds.catchFc htry (fun _ => Upholds.pure _) fun _ _ => trivial)
          fun ok => Upholds.ite (ih _ _) (ih _ _)
  refine Upholds.bind (Upholds.gets _) fun o => Upholds.bind (Upholds.fcAssert _ _) fun _ => ?_
  refine Upholds.bind resetPendingSession fun _ => ?_
  refine Upholds.bind ((apart p).startUndoSession false) fun _ => ?_
  refine Upholds.bind (Upholds.update fun _ h => h) fun _ => Upholds.bind (Upholds.gets _) fun _ => ?_
  refine Upholds.bind (hcollect _ _ _) fun _ => Upholds.bind resetPendingSession fun _ => ?_
  exact Upholds.bind (Upholds.gets _) fun _ => Upholds.pure _

/-- Every call of a node leaves nothing in `_popped_tx`. -/
lemma call (c : Call β) :
    Upholds (PoppedIs []) (fun _ : Database β ω => True) (Database.call R d c) := by
  have hpush : ∀ (b : SignedBlock β) skip,
      Upholds (PoppedIs []) (fun _ : Database β ω => True) (Database.pushBlock R d b skip) :=
    fun b skip => withSkipFlags (withoutPendingTransactions _) skip
  cases c with
  | pushBlock b skip => exact Upholds.bind (hpush b skip) fun _ => Upholds.pure ()
  | pushTransaction trx skip => exact withSkipFlags (pushTransactionInner trx) skip
  | validateTransaction trx =>
      refine Upholds.bind ?_ fun _ => (apart []).sessionUndo
      exact Upholds.inSession_false ((apart []).startUndoSession false)
        ((apart []).applyTransaction trx) (apart []).sessionUndo
  | generateBlock time witness skip =>
      refine Upholds.bind (withSkipFlags ?_ skip) fun _ => Upholds.pure ()
      rw [Database.generateBlockInner_eq]
      refine Upholds.bind (Upholds.gets _) fun skip => Upholds.bind (prepareBlock time witness)
        fun b => ?_
      exact Upholds.bind (hpush b skip) fun _ => Upholds.pure b

/-- **Between the calls of a node `_popped_tx` is empty.** -/
theorem run {db₀ db : Database β ω} {l : List (Call β)} (hrun : Database.Run R d db₀ l db)
    (h₀ : PoppedIs [] db₀) : PoppedIs [] db := by
  induction hrun with
  | nil => exact h₀
  | snoc hrun hcall ih => exact hcall.ends (call _) ih

end PoppedIs

end ZosCore
