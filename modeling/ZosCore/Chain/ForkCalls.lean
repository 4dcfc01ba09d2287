import ZosCore.Chain.Calls

/-!
What `_push_block` does to the fork database, and what it leaves alone.

* `ForkCall`, `ForkDatabase.call`: the calls that change a fork database.
* `PushInvariant`: a property that these calls keep, and that looks at nothing else that
  `_push_block` changes. **`PushInvariant.pushBlockInner`**: `_push_block` keeps it, with or without a
  switch to another branch; `PushInvariant.run`: and so does a node, if the pending transactions do
  not matter.
-/

namespace ZosCore

open Exec

variable {β ω : Type}

/-- The calls that change a fork database. A rejected one leaves it as it was. `hold` is what the
branches of a fork switch keep alive from there on. -/
inductive ForkCall (β : Type) where
  | reset
  | startBlock (b : SignedBlock β)
  | pushBlock (b : SignedBlock β)
  | popBlock
  | remove (id : BlockId)
  | setHead (it : ForkItem β)
  | setMaxSize (s : ℕ)
  | hold (items : List (ForkItem β))

namespace ForkDatabase

/-- `reset`. -/
def reset (f : ForkDatabase β) : ForkDatabase β := { f with index := [], head := none }

/-- A call; the fork database stays as it is if the call throws. -/
def call (f : ForkDatabase β) : ForkCall β → ForkDatabase β
  | .reset => f.reset
  | .startBlock b => f.startBlock b
  | .pushBlock b =>
      match f.pushBlock b with
      | .ok f' => f'
      | .error _ => f
  | .popBlock =>
      match f.popBlock with
      | .ok f' => f'
      | .error _ => f
  | .remove id => f.remove id
  | .setHead it => f.setHead it
  | .setMaxSize s => f.setMaxSize s
  | .hold items => { f with pinned := items }

end ForkDatabase

/-- A property that the calls of the fork database keep, and that looks neither at the objects nor
at what `_push_block` changes besides. -/
structure PushInvariant (F : Database β ω → Prop) : Prop extends Apart F where
  call : ∀ db c, F db → F { db with forkDb := db.forkDb.call c }
  other : ∀ db blockDb poppedTx pendingTxSession skipFlags appStatus, F db →
    F { db with blockDb, poppedTx, pendingTxSession, skipFlags, appStatus }

namespace PushInvariant

variable {R : Rules β ω} {d : ℕ} {α : Type} {F : Database β ω → Prop}

/-- A call of the fork database. -/
lemma update (h : PushInvariant F) {g : ForkDatabase β → ForkDatabase β} (c : ForkCall β)
    (hg : ∀ f, g f = f.call c) :
    Upholds F (fun _ => True) (Exec.update fun db => { db with forkDb := g db.forkDb }) :=
  Upholds.update fun db hdb => by
    rw [hg]
    exact h.call db c hdb

lemma applyAndStore (h : PushInvariant F) (b : SignedBlock β) (id : BlockId) (skip : SkipFlags) :
    Upholds F (fun _ => True) (Database.applyAndStore R d b id skip) := by
  refine Upholds.inSession_false (h.toApart.startUndoSession false) ?_ h.toApart.sessionUndo
  have hblock := h.toApart.applyBlock (R := R) (d := d)
    (fun db m skipFlags appStatus hdb =>
      h.other db { db.blockDb with maxBlockSize := m } _ _ skipFlags appStatus hdb)
    (fun db n hdb => h.call db (.setMaxSize n) hdb) b skip
  refine Upholds.bind hblock fun _ => Upholds.bind ?_ fun _ => h.toApart.sessionCommit
  refine Upholds.gets_bind fun s _ => triple_fcLift_bind (fun _ _ hdb _ => hdb) fun blockDb _ => ?_
  exact Upholds.update fun db hdb => h.other db blockDb _ _ _ _ hdb

lemma resetPendingSession (h : PushInvariant F) :
    Upholds F (fun _ => True) (Database.resetPendingSession : Act β ω Unit) := by
  refine Upholds.bind (Upholds.gets _) fun p => Upholds.ite ?_ (Upholds.pure ())
  refine Upholds.bind h.toApart.sessionUndo fun _ => Upholds.update fun db hdb => ?_
  exact h.other db _ _ false _ _ hdb

lemma popBlock (h : PushInvariant F) : Upholds F (fun _ => True) (Database.popBlock R) := by
  refine Upholds.bind h.resetPendingSession fun _ => Triple.gets_bind fun s hs => ?_
  cases Database.fetchBlockById R s s.objects.headBlockId with
  | none => exact Triple.raise fun _ hdb => hdb ▸ hs
  | some b =>
      refine triple_fcLift_bind (fun _ _ hdb _ => hdb ▸ hs) fun f hf => ?_
      have hcall : f = s.forkDb.call .popBlock := by simp only [ForkDatabase.call, hf]
      refine Triple.bind (Q := fun _ => F) (Triple.update fun db hdb => ?_) fun _ => ?_
      · rw [hdb, hcall]
        exact h.call s .popBlock hs
      · refine Upholds.bind h.toApart.popUndo fun _ => Upholds.update fun db hdb => ?_
        exact h.other db _ (b.transactions ++ db.poppedTx) _ _ _ hdb

lemma popBlocksUntil (h : PushInvariant F) (id : BlockId) :
    Upholds F (fun _ => True) (Database.popBlocksUntil R id) := by
  refine Upholds.bind (Upholds.gets _) fun n => ?_
  induction n with
  | zero => exact Upholds.bind (Upholds.gets _) fun o => Upholds.ite h.popBlock (Upholds.pure ())
  | succ n ih =>
      refine Upholds.bind (Upholds.gets _) fun o => Upholds.ite ?_ (Upholds.pure ())
      exact Upholds.bind h.popBlock fun _ => ih

/-- The recovery of a switch: what cannot be applied is taken out, and the head is set. -/
lemma recover (h : PushInvariant F) (newBlock : SignedBlock β) (bad old : List (ForkItem β))
    (forkPoint : BlockId) (skip : SkipFlags) :
    Upholds F (fun _ => True) (Database.recover R d newBlock bad old forkPoint skip) := by
  refine Upholds.bind (Upholds.update fun db hdb => ?_) fun _ => ?_
  · exact List.foldlRecOn bad (fun f it => f.remove it.id)
      (motive := fun f => F { db with forkDb := f }) hdb fun f hf it _ => h.call _ (.remove it.id) hf
  · cases old.head? with
    | none => exact Upholds.raise (fun _ _ => trivial) _
    | some it =>
        refine Upholds.bind (h.update (.setHead it) fun _ => rfl) fun _ => ?_
        refine Upholds.bind (h.popBlocksUntil forkPoint) fun _ => Upholds.forEach _ fun it _ => ?_
        exact h.applyAndStore it.data newBlock.id skip

lemma switchLoop (h : PushInvariant F) (newBlock : SignedBlock β) (new old : List (ForkItem β))
    (forkPoint : BlockId) (skip : SkipFlags) :
    Upholds F (fun _ => True)
      (Database.switchLoop R d newBlock old forkPoint skip new) := by
  induction new with
  | nil => exact Upholds.pure ()
  | cons it new ih =>
      refine Upholds.bind ?_ fun _ => ih
      refine Upholds.catchFc (h.applyAndStore it.data it.id skip) (fun e => ?_) fun _ hC => hC
      exact Upholds.bind (h.recover newBlock _ old forkPoint skip) fun _ => Upholds.fail e

/-- The branches are held while `x` runs. -/
lemma pinning (h : PushInvariant F) {x : Act β ω α} (hx : Upholds F (fun _ => True) x)
    (items : List (ForkItem β)) : Upholds F (fun _ => True) (Database.pinning items x) := by
  have hhold : ∀ db : Database β ω, F db →
      F { db with forkDb := { db.forkDb with pinned := items } } :=
    fun db hdb => h.call db (.hold items) hdb
  have hback : ∀ db db' : Database β ω, F db' →
      F { db' with forkDb := { db'.forkDb with pinned := db.forkDb.pinned } } :=
    fun db db' hdb' => h.call db' (.hold db.forkDb.pinned) hdb'
  refine Triple.around hx hhold (fun db _ db' _ => hback db db') fun db e db' _ hdb' => ?_
  exact hdb'.imp (hback db db') id

lemma switchForks (h : PushInvariant F) (newBlock : SignedBlock β) (newHead : ForkItem β)
    (skip : SkipFlags) :
    Upholds F (fun _ => True) (Database.switchForks R d newBlock newHead skip) := by
  refine Upholds.gets_bind fun s _ => triple_fcLift_bind (fun _ _ h _ => h) ?_
  rintro ⟨new, old⟩ -
  simp only
  cases old.getLast? with
  | none => exact Upholds.raise (fun _ _ => trivial) _
  | some last =>
      refine h.pinning (Upholds.bind (h.popBlocksUntil _) fun _ => ?_) _
      exact h.switchLoop newBlock _ old _ skip

lemma extendChain (h : PushInvariant F) (b : SignedBlock β) (skip : SkipFlags) :
    Upholds F (fun _ => True) (Database.extendChain R d b skip) := by
  refine Upholds.catchFc (h.applyAndStore b b.id skip) (fun e => ?_) fun _ hC => hC
  exact Upholds.bind (h.update (.remove b.id) fun _ => rfl) fun _ => Upholds.fail e

/-- `_push_block`. -/
lemma pushBlockInner (h : PushInvariant F) (b : SignedBlock β) :
    Upholds F (fun _ => True) (Database.pushBlockInner R d b) := by
  refine Upholds.gets_bind fun s _ => Upholds.ite ?_ (Triple.gets_bind fun s' hs' => ?_)
  · exact Upholds.bind (h.extendChain b _) fun _ => Upholds.pure _
  refine triple_fcLift_bind (fun _ _ hdb _ => hdb ▸ hs') fun f hf => ?_
  have hcall : f = s'.forkDb.call (.pushBlock b) := by simp only [ForkDatabase.call, hf]
  refine Triple.bind (Q := fun _ => F) (Triple.update fun db hdb => ?_) fun _ => ?_
  · rw [hdb, hcall]
    exact h.call s' (.pushBlock b) hs'
  · cases f.head with
    | none => exact Upholds.raise (fun _ _ => trivial) _
    | some newHead =>
        refine Upholds.bind (Upholds.gets _) fun o => ?_
        refine Upholds.ite (Upholds.ite ?_ (Upholds.pure _)) ?_
        · exact Upholds.bind (h.switchForks b newHead _) fun _ => Upholds.pure _
        · exact Upholds.bind (h.extendChain b _) fun _ => Upholds.pure _

/-- A node keeps it, if it does not look at the pending transactions. -/
theorem run (h : PushInvariant F)
    (hpending : ∀ db : Database β ω, ∀ pendingTx, F db → F { db with pendingTx })
    {db₀ db : Database β ω} {l : List (Call β)} (hrun : Database.Run R d db₀ l db) (h₀ : db₀.Fresh)
    (hF : F db₀) : F db := by
  have hnode := (Throughout.leads_chainInvariant (R := R) (d := d) (ω := ω) (Q := fun _ => True)
    fun _ _ _ h => h).node
  have hinv : NodeInvariant R d (fun _ => True) (fun _ => True) (fun _ => True)
      (fun _ (db : Database β ω) => F db ∧ Throughout (fun _ _ => True) (fun _ => True) db)
      fun _ => True :=
    { crash := fun _ => trivial
      other := fun pendingTx _ _ _ hdb =>
        ⟨h.other _ _ _ _ _ _ (hpending _ pendingTx hdb.1), hdb.2⟩
      ended := fun _ _ => trivial
      enabled := fun hdb => hnode.enabled (k := 0) hdb.2
      start := fun hk hdb => ⟨h.change _ _ _ _ _ _ hdb.1, hnode.start hk hdb.2⟩
      undo := fun hk => (Upholds.framed h.toApart.sessionUndo (hnode.undo hk)).conseq
        (fun _ hdb => hdb) (fun _ _ hdb => hdb) fun _ _ he => he.imp (fun hI => hI.2.elim) id
      merge := Upholds.framed h.toApart.sessionMerge hnode.merge
      transaction := fun htrx h₁ h₂ =>
        Upholds.framed (h.toApart.applyTransaction _) (hnode.transaction htrx h₁ h₂)
      assembled := fun _ _ _ _ => trivial
      push := fun {b} hb => (Upholds.framed (h.pushBlockInner b) (hnode.push hb)).conseq
        (fun _ hdb => ⟨hdb.2.1, hdb.1, hdb.2.2⟩) (fun _ _ hdb => ⟨hdb.2.1, hdb.1, hdb.2.2⟩)
        fun _ _ he => he.imp (fun hI => ⟨hI.2.1, hI.1, hI.2.2⟩) id }
  have hdb := hinv.run hrun (fun c _ => by cases c <;> simp [Call.Within])
    ⟨h₀.holds, hF, trivial, h₀.enabled, trivial, fun _ _ => trivial⟩
  exact hdb.2.1

end PushInvariant

end ZosCore
