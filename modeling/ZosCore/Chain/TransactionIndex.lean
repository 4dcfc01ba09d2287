import ZosCore.Chain.Dedupe

/-!
The transaction index holds the transactions of the chain that have not expired.

Unlike in `Deduped`, transactions of the same id may be different here, and expire at different times.

* `Indexed`: each transaction of a block above the checkpoints is in the index, or has expired.
* **`indexed_chainInvariant`**, **`Run.indexed`**: the calls of a node keep it if they check for
  duplicates, and so does a run.
-/

namespace ZosCore

open Exec

variable {β ω : Type} {R : Rules β ω} {d n : ℕ} {checkpoints : List (ℕ × BlockId)}

/-- The transactions of the blocks above the number `n` are in the transaction index, or have
expired. -/
def Indexed (n : ℕ) (o : Objects β ω) : Prop :=
  ∀ b ∈ o.chain, n < b.blockNum → ∀ trx ∈ b.transactions,
    trx.object ∈ o.transactions ∨ trx.expiration < o.time

namespace Indexed

variable {o o' : Objects β ω}

/-- Operations leave it. -/
lemma operated {F : List (Operation β) → Prop} (h : Indexed n o) (ho : o.Operated F o') :
    Indexed n o' := by
  obtain ⟨⟨_, _, _, _, _, rfl⟩, -⟩ := ho
  exact h

/-- More transactions may be in the index. -/
lemma addTransaction (h : Indexed n o) (trx : Transaction β) :
    Indexed n (Database.addTransaction trx o) :=
  fun b hb hn trx' htrx' => (h b hb hn trx' htrx').imp_left fun hmem => List.mem_cons_of_mem _ hmem

/-- Expired transactions may be forgotten. -/
lemma concluded (h : Indexed n o) (ho : o.Concluded o') : Indexed n o' := by
  intro b hb hn trx htrx
  rw [ho.chain] at hb
  rw [ho.time]
  rcases h b hb hn trx htrx with hmem | hlt
  · by_cases hle : o.time ≤ trx.expiration
    · exact .inl (ho.transactions _ hmem hle)
    · exact .inr (not_le.mp hle)
  · exact .inr hlt

/-- The transactions of a block come onto the chain with it. -/
lemma setHeadBlock (h : Indexed n o) {b : SignedBlock β} (hlater : o.time < b.timestamp)
    (hindex : n < b.blockNum → ∀ trx ∈ b.transactions, trx.object ∈ o.transactions) :
    Indexed n (Database.setHeadBlock b o) := by
  refine List.forall_mem_cons.mpr ⟨fun hn trx htrx => .inl (hindex hn trx htrx), ?_⟩
  exact fun b' hb' hn trx htrx => (h b' hb' hn trx htrx).imp_right fun hlt => hlt.trans hlater

end Indexed

/-! ### Blocks and runs -/

/-- The objects and all undo states are indexed; the checkpoints stay. -/
def IndexedThroughout (checkpoints : List (ℕ × BlockId)) (n : ℕ) : Database β ω → Prop :=
  Throughout (fun _ c => c = checkpoints) (Indexed n)

/-- When the transactions of the block `b` have been applied they are in the index. -/
def BlockIndexed (checkpoints : List (ℕ × BlockId)) (n : ℕ) (c : Dynamic β) (b : SignedBlock β)
    (db : Database β ω) : Prop :=
  IndexedThroughout checkpoints n db ∧ (n < b.blockNum → ∃ ts, OnObjects (fun _ o =>
    o.transactions = (b.transactions.map (·.object)).reverse ++ ts ∧ o.dynamic = c) db)

lemma indexed_operationInvariant (k : ℕ) :
    OperationInvariant k (fun _ => True)
      (fun _ => (IndexedThroughout checkpoints n : Database β ω → Prop))
      fun db => db.checkpoints = checkpoints :=
  Throughout.operationInvariant k (fun _ _ ho h => ho.operated h) fun _ _ _ _ => trivial

lemma indexed_operates : Operates R d (fun _ => True)
    (IndexedThroughout checkpoints n : Database β ω → Prop)
    fun db => db.checkpoints = checkpoints := by
  refine (indexed_operationInvariant d).operates (k := 0) (by omega)
    (fun _ _ op _ => op.admitted_true R) fun _ => ?_
  exact Triple.bind (Q := fun _ => IndexedThroughout checkpoints n) (Triple.update fun _ h => h)
    fun _ => Triple.raise fun _ h => h.1

lemma indexed_applyTransaction (trx : Transaction β) :
    Upholds (IndexedThroughout checkpoints n : Database β ω → Prop)
      (fun db => db.checkpoints = checkpoints) (Database.applyTransaction R d trx) :=
  Upholds.applyTransaction (fun op _ => indexed_operates.operation op (op.admitted_true R))
    fun _ h => h.record (h.2.2.1.addTransaction trx)

/-- The transactions of a block. -/
lemma indexed_transactions {c : Dynamic β} {b : SignedBlock β} {skip : SkipFlags}
    (hskip : n < b.blockNum → skip.transactionDupeCheck = false) :
    Triple (fun db : Database β ω => IndexedThroughout checkpoints n db ∧ db.objects.dynamic = c ∧
        db.skipFlags = skip)
      (Exec.forEach (Database.applyTransaction R d) b.transactions)
      (fun _ => BlockIndexed checkpoints n c b)
      (OnFailure (IndexedThroughout checkpoints n) fun db => db.checkpoints = checkpoints) := by
  rintro db ⟨hdb, hc, hflags⟩
  have hkept : Upholds (IndexedThroughout checkpoints n : Database β ω → Prop)
      (fun db => db.checkpoints = checkpoints)
      (Exec.forEach (Database.applyTransaction R d) b.transactions) :=
    Upholds.forEach _ fun trx _ => indexed_applyTransaction trx
  by_cases hb : n < b.blockNum
  · have hindex : Triple (IndexIs skip db.objects.transactions c)
        (Exec.forEach (Database.applyTransaction R d) b.transactions)
        (fun _ db' => IndexIs skip ((b.transactions.map (·.object)).reverse ++
            db.objects.transactions) c db' ∧
          Recorded c db.objects.transactions b.transactions) fun _ _ => True :=
      IndexIs.applyTransactions (hskip hb) b.transactions
    refine ((Triple.and hkept hindex).conseq (fun _ h => h) (fun _ db' h => ?_)
      fun _ _ h => h.1) db ⟨hdb, hflags, rfl, hc⟩
    exact ⟨h.1, fun _ => ⟨_, h.2.1.2⟩⟩
  · exact (hkept.conseq (fun _ h => h) (fun _ _ h => ⟨h, fun hlt => absurd hlt hb⟩)
      fun _ _ h => h) db hdb

/-- The rules that run before the block comes onto the chain. -/
lemma blockIndexed_runRule {c : Dynamic β} {b : SignedBlock β}
    (f : Objects β ω → List (Effect β ω)) :
    Triple (BlockIndexed checkpoints n c b) (Database.runRule f)
      (fun _ => BlockIndexed checkpoints n c b)
      (OnFailure (IndexedThroughout checkpoints n) fun db => db.checkpoints = checkpoints) := by
  have hkept : Upholds (IndexedThroughout checkpoints n : Database β ω → Prop)
      (fun db => db.checkpoints = checkpoints) (Database.runRule f) :=
    (indexed_operationInvariant 0).runRule (k := 0) f
  by_cases hb : n < b.blockNum
  · have hindex : Triple (fun db : Database β ω => ∃ ts, OnObjects (fun _ o =>
          o.transactions = (b.transactions.map (·.object)).reverse ++ ts ∧ o.dynamic = c) db)
        (Database.runRule f) (fun _ db => ∃ ts, OnObjects (fun _ o =>
          o.transactions = (b.transactions.map (·.object)).reverse ++ ts ∧ o.dynamic = c) db)
        fun _ _ => True :=
      Triple.of_exists fun ts => (IndexIs.runRule f).conseq (fun _ h => h)
        (fun _ _ h => ⟨ts, h⟩) fun _ _ h => h
    exact (Triple.and hkept hindex).conseq (fun _ h => ⟨h.1, h.2 hb⟩)
      (fun _ _ h => ⟨h.1, fun _ => h.2⟩) fun _ _ h => h.1
  · exact hkept.conseq (fun _ h => h.1) (fun _ _ h => ⟨h, fun hlt => absurd hlt hb⟩)
      fun _ _ h => h

lemma indexed_steps {c : Dynamic β} {b : SignedBlock β} {skip : SkipFlags}
    (hskip : n < b.blockNum → skip.transactionDupeCheck = false) :
    BlockSteps R d d (fun _ => True) c b skip
      (fun _ => (IndexedThroughout checkpoints n : Database β ω → Prop))
      (BlockIndexed checkpoints n c b) fun db => db.checkpoints = checkpoints :=
  { indexed_operationInvariant d with
    operates := indexed_operates
    transactions := fun _ => indexed_transactions hskip
    rule := blockIndexed_runRule
    head := fun _ hlater ⟨hdb, hindex⟩ hc => by
      subst hc
      refine hdb.record (hdb.2.2.1.setHeadBlock hlater fun hn trx htrx => ?_)
      obtain ⟨ts, hts, -⟩ := hindex hn
      rw [hts]
      exact List.mem_append_left _ (List.mem_reverse.mpr (List.mem_map_of_mem htrx))
    concluded := fun h ho => h.record (h.2.2.1.concluded ho)
    other := fun _ _ _ h => h
    ended := fun _ _ h => h
    resize := fun _ h => h }

/-- **The calls of a node that check for duplicates** keep the transactions of the chain in the index
until they expire. -/
theorem indexed_chainInvariant (R : Rules β ω) (d : ℕ) (hn : lastCheckpoint checkpoints ≤ n) :
    ChainInvariant R d (fun _ => True) (fun _ => True)
      (fun skip => skip.transactionDupeCheck = false)
      (fun _ => (IndexedThroughout checkpoints n : Database β ω → Prop))
      (IndexedThroughout checkpoints n) fun db => db.checkpoints = checkpoints := by
  refine Throughout.chainInvariant (fun _ _ _ _ => trivial) (fun _ _ _ _ _ => trivial)
    (fun trx _ => indexed_applyTransaction trx) fun b skip _ hskip => ?_
  intro db hdb
  have hsteps : ∀ (db' : Database β ω) (skip' : SkipFlags), IndexedThroughout checkpoints n db' →
      db'.objects.dynamic = db.objects.dynamic →
      Database.checkpointFlags db'.checkpoints skip b = .ok skip' →
      BlockSteps R d d (fun _ => True) db.objects.dynamic b skip'
        (fun _ => (IndexedThroughout checkpoints n : Database β ω → Prop))
        (BlockIndexed checkpoints n db.objects.dynamic b) fun db => db.checkpoints = checkpoints := by
    refine fun db' skip' hdb' _ hflags => indexed_steps fun hb => ?_
    -- above the checkpoints the check is not skipped
    rw [hdb'.1] at hflags
    rw [checkpointFlags_eq_ok hflags (hn.trans_lt hb)]
    exact hskip
  obtain ⟨hok, herr⟩ := BlockSteps.applyBlock (I := fun _ => IndexedThroughout checkpoints n)
    hsteps db ⟨hdb, rfl⟩
  exact ⟨fun a s' hx => (hok a s' hx).1, herr⟩

/-- **A run in which all calls check for duplicates** keeps the transactions of the chain in the index
until they expire, those of the blocks up to the last checkpoint apart. -/
theorem Database.Run.indexed {db₀ db : Database β ω} {l : List (Call β)}
    (hrun : Database.Run R d db₀ l db) (h₀ : db₀.Begins)
    (hcalls : ∀ c ∈ l, c.checksDuplicates = true) :
    Idle (fun _ => True) (fun _ => True)
      (fun _ => IndexedThroughout db₀.checkpoints (lastCheckpoint db₀.checkpoints)) db := by
  refine (indexed_chainInvariant R d le_rfl).run hrun (fun c hc => ?_) ⟨h₀.toFresh.holds, rfl,
    h₀.enabled, fun b hb => ?_, ?_⟩
  · have hchecks := hcalls c hc
    cases c with
    | pushBlock b skip => exact ⟨trivial, (Bool.not_eq_true' _).mp hchecks⟩
    | pushTransaction trx skip => exact ⟨trivial, (Bool.not_eq_true' _).mp hchecks⟩
    | validateTransaction trx => trivial
    | generateBlock time witness skip => exact (Bool.not_eq_true' _).mp hchecks
  · rw [h₀.chain] at hb
    cases hb
  · rw [h₀.stack]
    exact List.forall_mem_nil _

end ZosCore
