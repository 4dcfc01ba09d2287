import ZosCore.Chain.Irreversible

/-!
`create_block_summary`, `set_reference_block` and the TaPoS check: a transaction is bound to the
chain that it names.

The head of the chain moves before the block summary is written, so between the two the summaries are
those of the chain without its newest block.

* `Objects.Traces`: the summaries are those of a list of blocks; `Objects.Summarized`: of the chain.
* `Moving`: the state between `update_global_dynamic_data` and `create_block_summary`.
* `summarized_applyBlock`: a block keeps the summaries, or leaves undo states that have them.
* **`transactions_bound`**: the summaries are those of the chain in every state that is reached, what
  `set_reference_block` makes of a block of the chain passes the check, and what passes the check
  names a block of the chain or a summary that no block has written.
-/

namespace ZosCore

open Exec

variable {β ω : Type} {R : Rules β ω} {d : ℕ} {first : ℕ → BlockId}

/-! ### The ring of summaries -/

/-- The id of the latest block of the chain, which has its newest block first, whose number is
congruent to `k`; or the first value of the summary. -/
def summaryOf (first : ℕ → BlockId) (chain : List (SignedBlock β)) (k : ℕ) : BlockId :=
  match chain.find? (·.blockNum % 65536 = k) with
  | some b => b.id
  | none => first k

/-- A block overwrites its summary. -/
lemma summaryOf_cons (b : SignedBlock β) (chain : List (SignedBlock β)) :
    summaryOf first (b :: chain) =
      Function.update (summaryOf first chain) (b.blockNum % 65536) b.id := by
  funext k
  by_cases hk : b.blockNum % 65536 = k
  · subst hk
    simp [summaryOf]
  · rw [Function.update_of_ne (Ne.symm hk)]
    simp [summaryOf, hk]

/-- The summaries are those of `chain`, and the head is the end of the chain that is stored. -/
structure Objects.Traces (first : ℕ → BlockId) (chain : List (SignedBlock β)) (o : Objects β ω) :
    Prop where
  headBlockId : o.headBlockId.num = o.headBlockNumber
  numbered : o.dynamic.Numbered
  summaries : ∀ k < 65536, o.blockSummaries k = summaryOf first chain k

/-- The summaries are those of the chain. -/
def Objects.Summarized (first : ℕ → BlockId) (o : Objects β ω) : Prop := o.Traces first o.chain

/-- The summaries are those of the chain below its newest block `b`. -/
def Objects.Overtaken (first : ℕ → BlockId) (b : SignedBlock β) (o : Objects β ω) : Prop :=
  ∃ l, o.chain = b :: l ∧ o.Traces first l

namespace Objects

variable {o o' : Objects β ω} {b : SignedBlock β} {chain : List (SignedBlock β)}

/-- Only the head, the chain and the summaries matter. -/
lemma Traces.of_eq (h : o.Traces first chain) (hnum : o'.headBlockNumber = o.headBlockNumber)
    (hid : o'.headBlockId = o.headBlockId) (hchain : o'.chain = o.chain)
    (hsummaries : o'.blockSummaries = o.blockSummaries) : o'.Traces first chain := by
  have hdecreasing := h.numbered.decreasing
  have hle := h.numbered.le_head
  refine ⟨by rw [hid, hnum]; exact h.headBlockId, ⟨?_, ?_⟩, fun k hk => ?_⟩
  · change o'.chain.Pairwise _
    rw [hchain]
    exact hdecreasing
  · change ∀ b ∈ o'.chain, b.blockNum ≤ o'.headBlockNumber
    rw [hchain, hnum]
    exact hle
  · rw [hsummaries]
    exact h.summaries k hk

lemma Summarized.operated {F : List (Operation β) → Prop} (h : o.Summarized first)
    (ho : o.Operated F o') : o'.Summarized first := by
  obtain ⟨⟨_, _, _, _, _, rfl⟩, -⟩ := ho
  exact h.of_eq rfl rfl rfl rfl

lemma Overtaken.operated {F : List (Operation β) → Prop} (h : o.Overtaken first b)
    (ho : o.Operated F o') : o'.Overtaken first b := by
  obtain ⟨⟨_, _, _, _, _, rfl⟩, -⟩ := ho
  obtain ⟨l, hchain, htraces⟩ := h
  exact ⟨l, hchain, htraces.of_eq rfl rfl rfl rfl⟩

/-- The head moves to a block that follows. -/
lemma Summarized.setHeadBlock (h : o.Summarized first) (hprev : o.headBlockId = b.previous) :
    (Database.setHeadBlock b o).Overtaken first b := by
  have hnum : b.blockNum = o.headBlockNumber + 1 := by
    rw [SignedBlock.blockNum, ← hprev, h.headBlockId]
  have hle : ∀ b' ∈ o.chain, b'.blockNum < b.blockNum := fun b' hb' => by
    have : b'.blockNum ≤ o.headBlockNumber := h.numbered.le_head b' hb'
    omega
  refine ⟨o.chain, rfl, rfl, ⟨?_, fun b' hb' => ?_⟩, h.summaries⟩
  · exact List.pairwise_cons.mpr ⟨hle, h.numbered.decreasing⟩
  · rcases List.mem_cons.mp hb' with rfl | hb'
    · exact le_rfl
    · exact (hle b' hb').le

/-- `create_block_summary` writes the summary of the newest block. -/
lemma Overtaken.createBlockSummary (h : o.Overtaken first b) :
    ({ o with blockSummaries :=
      Function.update o.blockSummaries (b.blockNum % 65536) b.id } : Objects β ω).Summarized first := by
  obtain ⟨l, hchain, htraces⟩ := h
  refine ⟨htraces.headBlockId, htraces.numbered, fun k hk => ?_⟩
  change Function.update o.blockSummaries (b.blockNum % 65536) b.id k = summaryOf first o.chain k
  rw [hchain, summaryOf_cons, Function.update_apply, Function.update_apply, htraces.summaries k hk]

/-- The block of the chain with a number that is not too far back is the latest of its summary. -/
lemma Summarized.blockSummaries_eq (h : o.Summarized first) (hb : b ∈ o.chain)
    (hrecent : o.headBlockNumber ≤ b.blockNum + 65535) :
    o.blockSummaries (b.blockNum % 65536) = b.id := by
  rw [h.summaries _ (Nat.mod_lt _ (by decide)), summaryOf]
  cases hfind : o.chain.find? (·.blockNum % 65536 = b.blockNum % 65536) with
  | none =>
      have hnot := List.find?_eq_none.mp hfind b hb
      simp at hnot
  | some b' =>
      have hmod : b'.blockNum % 65536 = b.blockNum % 65536 := by
        simpa using List.find?_some hfind
      have hle : b'.blockNum ≤ o.headBlockNumber :=
        h.numbered.le_head b' (List.mem_of_find?_eq_some hfind)
      obtain ⟨newer, older, hchain, hnewer⟩ := (List.find?_eq_some_iff_append.mp hfind).2
      have hdecreasing : o.chain.Pairwise fun newer older => older.blockNum < newer.blockNum :=
        h.numbered.decreasing
      rw [hchain] at hb hdecreasing
      rcases List.mem_append.mp hb with hb | hb
      · have hnot := hnewer b hb
        simp at hnot
      · rcases List.mem_cons.mp hb with rfl | hb
        · rfl
        · -- an older block of the same summary is 65536 blocks back
          have hlt := (List.pairwise_cons.mp (List.pairwise_append.mp hdecreasing).2.1).1 b hb
          omega

/-- A summary is that of a block of the chain, or has not been written. -/
lemma Summarized.exists_block (h : o.Summarized first) {k : ℕ} (hk : k < 65536) :
    (∃ b ∈ o.chain, b.blockNum % 65536 = k ∧ o.blockSummaries k = b.id) ∨
      (∀ b ∈ o.chain, b.blockNum % 65536 ≠ k) ∧ o.blockSummaries k = first k := by
  rw [h.summaries k hk, summaryOf]
  cases hfind : o.chain.find? (·.blockNum % 65536 = k) with
  | none => exact .inr ⟨fun b hb => by simpa using List.find?_eq_none.mp hfind b hb, rfl⟩
  | some b =>
      exact .inl ⟨b, List.mem_of_find?_eq_some hfind, by simpa using List.find?_some hfind, rfl⟩

end Objects

/-! ### Across a block -/

/-- The objects and all undo states have the summaries of their chains. -/
def SummarizedThroughout (first : ℕ → BlockId) : Database β ω → Prop :=
  Throughout (fun _ _ => True) (Objects.Summarized first)

/-- The undo states below the `k` newest of the objects and the undo states have the summaries of
their chains. -/
def SummarizedBelow (first : ℕ → BlockId) (k : ℕ) (db : Database β ω) : Prop :=
  db.undo.disabled = false ∧ ∀ o ∈ (db.objects :: db.undo.stack).drop k, o.Summarized first

/-- The head has moved to `b`, and the summary of `b` is not written yet. -/
structure Moving (first : ℕ → BlockId) (b : SignedBlock β) (db : Database β ω) : Prop where
  enabled : db.undo.disabled = false
  stack : db.undo.stack ≠ []
  states : ∀ o ∈ db.undo.stack, o.Summarized first
  objects : db.objects.Overtaken first b

section Block

variable {b : SignedBlock β} {db : Database β ω}

lemma SummarizedThroughout.below (h : SummarizedThroughout first db) : SummarizedBelow first 1 db :=
  ⟨h.2.1, h.2.2.2⟩

lemma Moving.below (h : Moving first b db) : SummarizedBelow first 1 db := ⟨h.enabled, h.states⟩

/-- A change of the objects. -/
lemma Moving.record (h : Moving first b db) {o : Objects β ω} (ho : o.Overtaken first b) :
    Moving first b { db with undo := db.undo.record db.objects id, objects := o } := by
  rw [UndoDatabase.record_id h.stack]
  exact ⟨h.enabled, h.stack, h.states, ho⟩

/-- The head moves: the objects before are among the undo states, or are those of one. -/
lemma SummarizedThroughout.moving (h : SummarizedThroughout first db)
    (hprev : db.objects.headBlockId = b.previous) :
    Moving first b { db with
      undo := db.undo.record db.objects id, objects := Database.setHeadBlock b db.objects } := by
  have hmoved := h.2.2.1.setHeadBlock hprev
  by_cases hne : db.undo.stack = []
  · have hrecord : db.undo.record db.objects id = { db.undo with stack := [db.objects] } := by
      simp [UndoDatabase.record, h.2.1, hne]
    rw [hrecord]
    exact ⟨h.2.1, List.cons_ne_nil _ _, List.forall_mem_singleton.mpr h.2.2.1, hmoved⟩
  · rw [UndoDatabase.record_id hne]
    exact ⟨h.2.1, hne, h.2.2.2, hmoved⟩

/-- The summary is written. -/
lemma Moving.createBlockSummary (h : Moving first b db) :
    SummarizedThroughout first
      { db with
        undo := db.undo.record db.objects id
        objects :=
          { db.objects with
            blockSummaries :=
              Function.update db.objects.blockSummaries (b.blockNum % 65536) b.id } } := by
  rw [UndoDatabase.record_id h.stack]
  exact ⟨trivial, h.enabled, h.objects.createBlockSummary, h.states⟩

/-- No session is opened while the head moves. -/
lemma moving_invariant (first : ℕ → BlockId) (b : SignedBlock β) :
    OperationInvariant 0 (fun _ => True) (fun _ => (Moving first b : Database β ω → Prop))
      fun _ => True where
  crash _ := trivial
  proposals _ _ _ := trivial
  modify h ho := h.record (h.objects.operated ho)
  applied _ _ h := ⟨h.enabled, h.stack, h.states, h.objects⟩
  start k hk := absurd hk k.not_lt_zero
  undo k hk := absurd hk k.not_lt_zero
  merge k hk := absurd hk k.not_lt_zero
  exit h hdis _ := by
    rw [h.enabled] at hdis
    cases hdis

lemma summarized_invariant (first : ℕ → BlockId) (n : ℕ) :
    OperationInvariant n (fun _ => True)
      (fun _ => (SummarizedThroughout first : Database β ω → Prop)) fun _ => True :=
  Throughout.operationInvariant n (fun _ _ h ho => h.operated ho) fun _ _ _ _ => trivial

lemma summarized_operates : Operates R d (fun _ => True)
    (SummarizedThroughout first : Database β ω → Prop) fun _ => True :=
  (summarized_invariant first (0 + d)).operates_all (k := 0) le_rfl

/-- Transactions keep the summaries. -/
lemma summarized_applyTransaction (trx : Transaction β) :
    Upholds (SummarizedThroughout first : Database β ω → Prop) (fun _ => True)
      (Database.applyTransaction R d trx) :=
  Upholds.applyTransaction (fun op _ => summarized_operates.operation op (op.admitted_true R))
    fun _ h => h.record (h.2.2.1.of_eq rfl rfl rfl rfl)

/-- What fails leaves undo states with summaries. -/
lemma Upholds.below {α : Type} {I : Database β ω → Prop} {x : Act β ω α}
    (h : Upholds I (fun _ => True) x) (hI : ∀ db, I db → SummarizedBelow first 1 db) :
    Triple I x (fun _ => I) (OnFailure (SummarizedBelow first 1) fun _ => True) := by
  refine h.conseq (fun _ hdb => hdb) (fun _ _ hdb => hdb) fun e db hdb => ?_
  exact hdb.imp (hI db) id

/-- Up to `create_block_summary` nothing but the head moves. -/
lemma moving_updateGlobalDynamicData {c : Dynamic β} {m : ℕ} (hprev : c.headBlockId = b.previous) :
    Triple (fun db : Database β ω => SummarizedThroughout first db ∧ DynamicIs c m db)
      (Database.updateGlobalDynamicData R b) (fun _ => Moving first b)
      (OnFailure (SummarizedBelow first 1) fun _ => True) := by
  refine Triple.bind (((summarized_invariant first 0).runRule (k := 0) _).also (DynamicIs.runRule _)
    |>.conseq (fun _ h => h) (fun _ _ h => h) fun e db h => ?_) fun _ => ?_
  · exact h.imp (fun hI => SummarizedThroughout.below hI) fun _ => trivial
  · refine Triple.bind (Q := fun _ => Moving first b) (Triple.update fun db h => ?_) fun _ => ?_
    · refine SummarizedThroughout.moving h.1 ?_
      exact (congrArg Dynamic.headBlockId h.2.2).trans hprev
    · refine Upholds.below ?_ fun _ h => h.below
      refine Upholds.bind (Upholds.gets _) fun o => Upholds.bind (Upholds.gets _) fun skip => ?_
      have hupdate : Upholds (Moving first b) (fun _ => True) (Exec.update fun db => { db with
          undo := db.undo.setMaxSize (o.headBlockNumber - o.lastIrreversibleBlockNum + 1)
          forkDb := db.forkDb.setMaxSize (o.headBlockNumber - o.lastIrreversibleBlockNum + 1) } :
            Act β ω Unit) :=
        Upholds.update fun _ h => ⟨h.enabled, h.stack, h.states, h.objects⟩
      exact Upholds.ite (Upholds.bind (Upholds.fcAssert _ _) fun _ => hupdate) hupdate

lemma moving_updateLastIrreversibleBlock :
    Upholds (Moving first b : Database β ω → Prop) (fun _ => True)
      Database.updateLastIrreversibleBlock := by
  refine Upholds.bind (Upholds.gets _) fun o => ?_
  cases Database.confirmedByThreshold o with
  | none => exact Upholds.raise (fun _ _ => trivial) _
  | some n =>
      refine Upholds.ite (Upholds.update fun db h => h.record ?_) (Upholds.pure ())
      obtain ⟨l, hchain, htraces⟩ := h.objects
      exact ⟨l, hchain, htraces.of_eq rfl rfl rfl rfl⟩

lemma moving_updateSigningWitness :
    Upholds (Moving first b : Database β ω → Prop) (fun _ => True)
      (Database.updateSigningWitness R b) := by
  refine Upholds.bind ((moving_invariant first b).runRule (k := 0) _) fun _ => ?_
  refine Upholds.update fun db h => h.record ?_
  obtain ⟨l, hchain, htraces⟩ := h.objects
  exact ⟨l, hchain, htraces.of_eq rfl rfl rfl rfl⟩

/-- The end of `_apply_block`, which writes the summary first. -/
lemma summarized_endOfBlock :
    Triple (Moving first b : Database β ω → Prop) (do
        Database.createBlockSummary b
        Database.clearExpiredTransactions
        Database.clearExpiredProposals R d
        Database.runRule (R.endOfBlock b)
        Database.clearApplied
        Database.notifyChangedObjects)
      (fun _ => SummarizedThroughout first)
      (OnFailure (SummarizedBelow first 1) fun _ => True) := by
  refine Triple.bind (Q := fun _ => SummarizedThroughout first)
    (Triple.update fun _ h => h.createBlockSummary) fun _ => ?_
  refine Upholds.below ?_ fun _ h => SummarizedThroughout.below h
  refine Upholds.bind (Upholds.update fun _ h => h.record (h.2.2.1.of_eq rfl rfl rfl rfl)) fun _ => ?_
  refine Upholds.bind ((summarized_invariant first (0 + d)).clearExpiredProposals (k := 0)
    summarized_operates) fun _ => ?_
  refine Upholds.bind ((summarized_invariant first 0).runRule (k := 0) _) fun _ => ?_
  refine Upholds.bind (Upholds.update fun _ h => h) fun _ => ?_
  exact Upholds.bind (Upholds.gets _) fun _ => Upholds.fcAssert _ _

lemma summarized_applyBlockLocked :
    Triple (SummarizedThroughout first : Database β ω → Prop) (Database.applyBlockLocked R d b)
      (fun _ => SummarizedThroughout first)
      (OnFailure (SummarizedBelow first 1) fun _ => True) := by
  have hbelow : ∀ db : Database β ω, SummarizedThroughout first db → SummarizedBelow first 1 db :=
    fun _ h => SummarizedThroughout.below h
  refine Triple.bind ((Upholds.gets _).below hbelow) fun _ => ?_
  refine Triple.bind ((Upholds.fcAssert _ _).below hbelow) fun _ => Triple.gets_bind fun s hs => ?_
  -- the transactions leave the head
  refine triple_fcLift_bind (fun _ _ h _ => h ▸ hbelow s hs) fun _ hv => ?_
  have hprev : s.objects.headBlockId = b.previous := (validateBlockHeader_eq_ok hv).1
  have htrxs : Upholds (SummarizedThroughout first : Database β ω → Prop) (fun _ => True)
      (Exec.forEach (Database.applyTransaction R d) b.transactions) :=
    Upholds.forEach _ fun trx _ => summarized_applyTransaction trx
  refine Triple.bind ((Triple.and (htrxs.below hbelow) (DynamicIs.applyTransactions
    (c := s.objects.dynamic) (m := s.undo.maxSize) b.transactions)).conseq
    (fun db h => ?_) (fun _ _ h => h) fun _ _ h => h.1) fun _ => ?_
  · subst h
    exact ⟨hs, rfl, rfl⟩
  -- the head moves
  refine Triple.bind (moving_updateGlobalDynamicData hprev) fun _ => ?_
  have hmoving : ∀ db : Database β ω, Moving first b db → SummarizedBelow first 1 db :=
    fun _ h => h.below
  refine Triple.bind (moving_updateSigningWitness.below hmoving) fun _ => ?_
  refine Triple.bind (moving_updateLastIrreversibleBlock.below hmoving) fun _ => ?_
  refine Triple.ite (fun _ => ?_) fun _ => summarized_endOfBlock
  refine Triple.bind (((moving_invariant first b).runRule (k := 0) _).below hmoving) fun _ => ?_
  refine Triple.bind ((Upholds.gets _).below hmoving) fun o => ?_
  refine Triple.bind ((Upholds.update fun _ h => ?_).below hmoving) fun _ => summarized_endOfBlock
  exact ⟨h.enabled, h.stack, h.states, h.objects⟩

/-- **A block keeps the summaries.** Where it fails the undo states have them. -/
lemma summarized_applyBlock (skip : SkipFlags) :
    Triple (SummarizedThroughout first : Database β ω → Prop) (Database.applyBlock R d b skip)
      (fun _ => SummarizedThroughout first)
      (OnFailure (SummarizedBelow first 1) fun _ => True) := by
  have hbelow : ∀ db : Database β ω, SummarizedThroughout first db → SummarizedBelow first 1 db :=
    fun _ h => SummarizedThroughout.below h
  have hflags : ∀ e db skip status, OnFailure (SummarizedBelow first 1) (fun _ => True) e db →
      OnFailure (SummarizedBelow first 1) (fun _ : Database β ω => True) e
        { db with skipFlags := skip, appStatus := status } :=
    fun e db skip status h => h.imp id id
  refine Triple.gets_bind fun s hs => triple_fcLift_bind (fun _ _ h _ => h ▸ hbelow s hs)
    fun skip' _ => ?_
  refine triple_withSkipFlags (J := SummarizedThroughout first) ?_ (fun db h => h ▸ hs)
    (fun _ _ _ h => h) fun e db skip h => hflags e db skip db.appStatus h
  have hclear : Upholds (SummarizedThroughout first : Database β ω → Prop) (fun _ => True)
      Database.clearApplied := Upholds.update fun _ h => h
  refine Triple.bind (hclear.below hbelow) fun _ => ?_
  exact triple_appApplyBlock summarized_applyBlockLocked (fun _ _ h => h) (fun _ _ _ h => h)
    fun e db status h => hflags e db db.skipFlags status h

end Block

/-! ### Across the calls of a node -/

namespace SummarizedBelow

variable {k : ℕ} {db : Database β ω}

/-- With no session open this is what holds throughout. -/
lemma zero_iff : SummarizedBelow first 0 db ↔ SummarizedThroughout first db := by
  constructor
  · rintro ⟨henabled, h⟩
    obtain ⟨hobjects, hstack⟩ := List.forall_mem_cons.mp h
    exact ⟨trivial, henabled, hobjects, hstack⟩
  · rintro ⟨-, henabled, hobjects, hstack⟩
    exact ⟨henabled, List.forall_mem_cons.mpr ⟨hobjects, hstack⟩⟩

lemma opened (h : SummarizedBelow first k db) : SummarizedBelow first (k + 1) db.opened := by
  refine ⟨rfl, fun o ho => h.2 o ?_⟩
  have hsub : (db.objects :: db.undo.stack.take db.undo.maxSize).drop k ⊆
      (db.objects :: db.undo.stack).drop k := by
    rw [← List.take_succ_cons, List.drop_take]
    exact List.take_subset _ _
  exact hsub ho

lemma sessionUndo (J : Database β ω → Prop) :
    Triple (SummarizedBelow first (k + 1)) Database.sessionUndo (fun _ => SummarizedBelow first k)
      (OnFailure J fun _ => True) := by
  refine Triple.bind (Q := fun _ => SummarizedBelow first (k + 1)) (Triple.update fun _ h => h)
    fun _ => triple_onUndo (fun db o u h hu => ?_) fun _ _ _ _ => trivial
  obtain ⟨s, l, hstack, rfl, rfl⟩ := UndoDatabase.undo_restoreSnapshot hu
  rw [SummarizedBelow, hstack] at h
  exact h

end SummarizedBelow

/-- What holds throughout without a session open is restored when a block or a switch fails. -/
lemma summarized_switchInvariant :
    SwitchInvariant R d (fun _ => True) (fun _ => True) (fun _ => True)
      (fun k => (SummarizedBelow first k : Database β ω → Prop)) (SummarizedThroughout first)
      fun _ => True where
  carried _ _ _ := trivial
  crash _ := trivial
  other _ _ _ _ h := h
  stored _ h := h
  ended _ _ := trivial
  applied h := h.below
  enabled h := h.1
  start _ h := h.opened
  undo _ := SummarizedBelow.sessionUndo _
  pop := (Throughout.popUndo (M := fun _ _ => True)).conseq
    (fun _ h => SummarizedBelow.zero_iff.mp h) (fun _ _ h => SummarizedBelow.zero_iff.mpr h)
    fun _ _ h => h.imp SummarizedBelow.zero_iff.mpr id
  block b skip _ _ := (summarized_applyBlock skip).conseq (fun db h => by
      obtain ⟨h, l, hl⟩ := h
      have hstates := h.2
      rw [List.drop_succ_cons, List.drop_zero] at hstates
      exact ⟨trivial, h.1, hstates _ (hl ▸ List.mem_cons_self), hstates⟩)
    (fun _ _ h => h) fun _ _ h => h
  commit := Throughout.sessionCommit.conseq (fun _ h => h)
    (fun _ _ h => SummarizedBelow.zero_iff.mpr h) fun _ _ h => h.imp SummarizedThroughout.below id

lemma summarized_nodeInvariant :
    NodeInvariant R d (fun _ => True) (fun _ => True) (fun _ => True)
      (fun _ => (SummarizedThroughout first : Database β ω → Prop)) fun _ => True where
  crash _ := trivial
  other _ _ _ _ h := h
  ended _ _ := trivial
  enabled h := h.2.1
  start _ h := h.opened
  undo _ := (Throughout.sessionUndo _).conseq (fun _ h => h) (fun _ _ h => h)
    fun _ _ h => h.imp id fun _ => trivial
  merge := (Throughout.sessionMerge (M := fun _ _ => True)).conseq (fun _ h => h) (fun _ _ h => h)
    fun _ _ h => h.imp id fun _ => trivial
  transaction _ _ _ := summarized_applyTransaction _
  assembled _ _ _ _ := trivial
  push hb := (summarized_switchInvariant.pushBlockInner hb).conseq
    (fun _ h => ⟨h.1, SummarizedBelow.zero_iff.mpr h.2⟩)
    (fun _ _ h => ⟨h.1, SummarizedBelow.zero_iff.mp h.2⟩)
    fun _ _ h => h.imp (fun hI => ⟨hI.1, SummarizedBelow.zero_iff.mp hI.2⟩) id

/-! ### The check -/

/-- `set_reference_block`. -/
def Transaction.setReferenceBlock (R : Rules β ω) (referenceBlock : BlockId) (trx : Transaction β) :
    Transaction β :=
  { trx with
    refBlockNum := referenceBlock.num % 65536
    refBlockPrefix := R.hashPrefix referenceBlock }

/-- The transaction passes the TaPoS check of `_apply_transaction`. -/
def PassesTapos (R : Rules β ω) (skip : SkipFlags) (trx : Transaction β) (o : Objects β ω) : Prop :=
  0 < o.headBlockNumber → skip.taposCheck = false →
    trx.refBlockPrefix = R.hashPrefix (o.blockSummaries (trx.refBlockNum % 65536))

lemma passesTapos_of_checkTransaction {skip : SkipFlags} {trx : Transaction β} {o : Objects β ω}
    (h : Database.checkTransaction R skip trx o = .ok ()) : PassesTapos R skip trx o := by
  intro hhead hskip
  unfold Database.checkTransaction at h
  obtain ⟨-, h⟩ := ite_throw_eq_ok.mp h
  obtain ⟨-, h⟩ := ite_throw_eq_ok.mp h
  obtain ⟨-, h⟩ := ite_throw_eq_ok.mp h
  rw [if_pos hhead] at h
  obtain ⟨htapos, -⟩ := ite_throw_eq_ok.mp h
  simpa [hskip] using htapos

lemma checkTransaction_ne_taposMismatch {skip : SkipFlags} {trx : Transaction β} {o : Objects β ω}
    (h : PassesTapos R skip trx o) :
    Database.checkTransaction R skip trx o ≠ .error .taposMismatch := by
  intro herror
  unfold Database.checkTransaction at herror
  obtain ⟨-, hne⟩ | ⟨-, herror⟩ := ite_throw_eq_error.mp herror
  · cases hne
  obtain ⟨-, hne⟩ | ⟨-, herror⟩ := ite_throw_eq_error.mp herror
  · cases hne
  obtain ⟨-, hne⟩ | ⟨-, herror⟩ := ite_throw_eq_error.mp herror
  · cases hne
  by_cases hhead : 0 < o.headBlockNumber
  · rw [if_pos hhead] at herror
    obtain ⟨htapos, -⟩ | ⟨-, herror⟩ := ite_throw_eq_error.mp herror
    · simp only [Bool.and_eq_true, Bool.not_eq_eq_eq_not, Bool.not_true, decide_eq_true_eq] at htapos
      exact htapos.2 (h hhead htapos.1)
    · obtain ⟨-, hne⟩ | ⟨-, herror⟩ := ite_throw_eq_error.mp herror
      · cases hne
      · split_ifs at herror <;> cases herror
  · rw [if_neg hhead] at herror
    cases herror

lemma applyTransaction_eq_ok {trx : Transaction β} {s s' : Database β ω}
    (h : Database.applyTransaction R d trx s = (.ok (), s')) :
    Database.checkTransaction R s.skipFlags trx s.objects = .ok () := by
  obtain ⟨_, _, hgets, h⟩ := bind_eq_ok.mp h
  cases hgets
  obtain ⟨_, _, hgets, h⟩ := bind_eq_ok.mp h
  cases hgets
  obtain ⟨_, _, hcheck, -⟩ := bind_eq_ok.mp h
  cases hx : Database.checkTransaction R s.skipFlags trx s.objects with
  | ok _ => rfl
  | error e =>
      rw [hx] at hcheck
      cases hcheck

/-- **Transactions are bound to the chain they name.** In every state that is reached, and in every
undo state, the block summaries are those of the chain. Where they are: what `set_reference_block`
makes of a block of the chain at most 65535 blocks behind the head passes the TaPoS check; a
transaction that is accepted with this check refers to a block of the chain, or to the first value of
a summary that no block of the chain has written; and transactions and blocks keep the summaries. -/
theorem transactions_bound (R : Rules β ω) (d : ℕ) {db₀ db : Database β ω} {l : List (Call β)}
    (h₀ : db₀.Begins) (hrun : Database.Run R d db₀ l db) :
    SummarizedThroughout db₀.objects.blockSummaries db ∧
    ∀ s : Database β ω, SummarizedThroughout db₀.objects.blockSummaries s →
      (∀ k < 65536, s.objects.blockSummaries k =
        summaryOf db₀.objects.blockSummaries s.objects.chain k) ∧
      (∀ b ∈ s.objects.chain, s.objects.headBlockNumber ≤ b.blockNum + 65535 →
        ∀ (skip : SkipFlags) (trx : Transaction β),
        Database.checkTransaction R skip (trx.setReferenceBlock R b.id) s.objects ≠
          .error .taposMismatch) ∧
      (∀ trx s', Database.applyTransaction R d trx s = (.ok (), s') →
        SummarizedThroughout db₀.objects.blockSummaries s' ∧
        (0 < s.objects.headBlockNumber → s.skipFlags.taposCheck = false →
          (∃ b ∈ s.objects.chain, b.blockNum % 65536 = trx.refBlockNum % 65536 ∧
            trx.refBlockPrefix = R.hashPrefix b.id) ∨
          (∀ b ∈ s.objects.chain, b.blockNum % 65536 ≠ trx.refBlockNum % 65536) ∧
            trx.refBlockPrefix =
              R.hashPrefix (db₀.objects.blockSummaries (trx.refBlockNum % 65536)))) ∧
      ∀ b skip s', Database.applyBlock R d b skip s = (.ok (), s') →
        SummarizedThroughout db₀.objects.blockSummaries s' := by
  refine ⟨?_, fun s hs => ⟨hs.2.2.1.summaries, ?_, ?_, ?_⟩⟩
  · have hnumbered : db₀.objects.dynamic.Numbered := by
      have hchain : db₀.objects.dynamic.chain = [] := h₀.chain
      exact ⟨hchain ▸ List.Pairwise.nil, by simp [hchain]⟩
    have hbegin : SummarizedThroughout db₀.objects.blockSummaries db₀ := by
      refine ⟨trivial, h₀.enabled, ⟨h₀.sound.headBlockId, hnumbered, fun k _ => ?_⟩, ?_⟩
      · rw [h₀.chain]
        rfl
      · simp [h₀.stack]
    exact (summarized_nodeInvariant.run hrun (fun c _ => by cases c <;> simp [Call.Within])
      ⟨h₀.toFresh.holds, hbegin⟩).2
  · intro b hb hrecent skip trx
    refine checkTransaction_ne_taposMismatch fun _ _ => ?_
    have hnum : b.id.num % 65536 % 65536 = b.blockNum % 65536 := Nat.mod_mod _ _
    simp only [Transaction.setReferenceBlock, hnum, hs.2.2.1.blockSummaries_eq hb hrecent]
  · intro trx s' hx
    refine ⟨(summarized_applyTransaction trx s hs).1 _ s' hx, fun hhead hskip => ?_⟩
    rw [passesTapos_of_checkTransaction (applyTransaction_eq_ok hx) hhead hskip]
    obtain ⟨b, hb, hmod, hid⟩ | ⟨hnone, hfirst⟩ :=
      hs.2.2.1.exists_block (Nat.mod_lt trx.refBlockNum (by decide))
    · exact .inl ⟨b, hb, hmod, congrArg R.hashPrefix hid⟩
    · exact .inr ⟨hnone, congrArg R.hashPrefix hfirst⟩
  · exact fun b skip s' hx => (summarized_applyBlock skip s hs).1 _ s' hx

/-- After the first block a transaction may refer to it. -/
theorem transactions_bound_oneBlock :
    oneBlock.objects.blockSummaries 1 = ⟨1, 1⟩ ∧
    Database.checkTransaction calmRules {} (executing.setReferenceBlock calmRules ⟨1, 1⟩)
      oneBlock.objects ≠ .error .taposMismatch := by
  obtain ⟨hdb, hstep⟩ := transactions_bound calmRules 1 (newChain_begins _) oneBlock_run
  obtain ⟨hsummaries, hreference, -⟩ := hstep oneBlock hdb
  have hchain : oneBlock.objects.chain = [emptyBlock .zero 1] := rfl
  have hhead : oneBlock.objects.headBlockNumber = 1 := by decide +kernel
  refine ⟨?_, hreference (emptyBlock .zero 1) ?_ ?_ {} executing⟩
  · rw [hsummaries 1 (by decide), hchain]
    rfl
  · rw [hchain]
    exact List.mem_singleton_self _
  · rw [hhead]
    decide

/-- A transaction that refers to a summary which no block has written. -/
def unbound : Transaction Unit := { id := 2, expiration := 1700000010, refBlockNum := 5 }

/-- It is accepted, but no block of the chain has its prefix. -/
theorem unbound_accepted :
    ¬ ∀ (db : Database Unit Unit) (l : List (Call Unit)),
      Database.Run calmRules 1 (newChain [0, 1, 2]) l db → ∀ trx s',
      Database.applyTransaction calmRules 1 trx db = (.ok (), s') →
      0 < db.objects.headBlockNumber → db.skipFlags.taposCheck = false →
      ∃ b ∈ db.objects.chain, trx.refBlockPrefix = calmRules.hashPrefix b.id := by
  intro h
  have hok : (Database.applyTransaction calmRules 1 unbound oneBlock).1 = .ok () := by
    decide +kernel
  have hhead : 0 < oneBlock.objects.headBlockNumber := by decide +kernel
  have hskip : oneBlock.skipFlags.taposCheck = false := by decide +kernel
  generalize hx : Database.applyTransaction calmRules 1 unbound oneBlock = x at hok
  obtain ⟨_, s'⟩ := x
  cases hok
  obtain ⟨b, hb, hprefix⟩ := h oneBlock _ oneBlock_run unbound s' hx hhead hskip
  have hchain : oneBlock.objects.chain = [emptyBlock .zero 1] := rfl
  rw [hchain, List.mem_singleton] at hb
  subst hb
  exact absurd hprefix (by decide)

end ZosCore
