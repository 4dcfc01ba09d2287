import ZosCore.Chain.Heads
import ZosCore.Chain.Horizon

/-!
What holds of the head of the chain while blocks are appended and popped.

A property `X c` of the databases beside the objects, with the dynamic fields `c` of the head, is
followed across `pop_block` and across a block that is applied in its session. As far as no session
trims the state of an open one, the chain goes back by a block when it is popped, and a block that
cannot be applied leaves the head where it was.

* `Rising`: the committed states have a block of every number up to that of their head.
* `Lasting`, `Receding`: properties that stay while a block is applied, and while blocks are popped.
* `During`: no session is open, and `X` holds of the head.
* **`During.applyAndStore`**, **`During.popBlocksUntil`**: what blocks and the loop of a fork switch
  do to it.
-/

namespace ZosCore

open Exec

variable {β ω : Type} {R : Rules β ω} {d : ℕ}

/-! ### The numbers of a chain -/

/-- The committed states have a block of every number up to that of their head. -/
structure Rising (o : Objects β ω) (P : List (Objects β ω)) (m : ℕ) : Prop extends Descent o P m where
  length : ∀ s ∈ o :: P, s.chain.length = s.headBlockNumber

lemma rising_invariant :
    HistoryInvariant UndoEvent.Untrimmed
      (Rising : Objects β ω → List (Objects β ω) → ℕ → Prop) where
  trim {o P m k newest} h hN := by
    obtain ⟨hk, hdescent⟩ := descent_invariant.trim h.toDescent hN
    refine ⟨hk, hdescent, fun s hs => h.length s ?_⟩
    rcases List.mem_cons.mp hs with rfl | hs
    · exact List.mem_cons_self
    · exact List.mem_cons_of_mem _ (List.mem_of_mem_take hs)
  pop h hN := ⟨descent_invariant.pop h.toDescent hN, fun s hs => h.length s (List.mem_cons_of_mem _ hs)⟩
  resize h hprev := ⟨descent_invariant.resize h.toDescent hprev, h.length⟩
  commit {o o' P b} h hext := by
    refine ⟨descent_invariant.commit h.toDescent hext, List.forall_mem_cons.mpr ⟨?_, h.length⟩⟩
    have hchain : o'.chain = b :: o.chain := hext.chain
    have hnum : o'.headBlockNumber = o.headBlockNumber + 1 :=
      hext.headBlockNumber.trans (hext.blockNum_eq (h.sound o List.mem_cons_self))
    rw [hchain, List.length_cons, h.length o List.mem_cons_self, hnum]

/-- A numbered chain that is as long as its head is high has a block of every number. -/
lemma Dynamic.Numbered.exists_block {c : Dynamic β} (h : c.Numbered)
    (hlength : c.chain.length = c.headBlockNumber) {n : ℕ} (hpos : 1 ≤ n)
    (hn : n ≤ c.headBlockNumber) : ∃ b ∈ c.chain, b.blockNum = n := by
  have hnodup : (c.chain.map (·.blockNum)).Nodup :=
    List.pairwise_map.mpr (h.decreasing.imp fun hlt => hlt.ne')
  have hsubset : (c.chain.map (·.blockNum)).toFinset ⊆ Finset.Icc 1 c.headBlockNumber := by
    intro k hk
    obtain ⟨b, hb, rfl⟩ := List.mem_map.mp (List.mem_toFinset.mp hk)
    exact Finset.mem_Icc.mpr ⟨Nat.succ_pos _, h.le_head b hb⟩
  have hcard : (Finset.Icc 1 c.headBlockNumber).card ≤ (c.chain.map (·.blockNum)).toFinset.card := by
    rw [List.toFinset_card_of_nodup hnodup, List.length_map, hlength, Nat.card_Icc,
      Nat.add_sub_cancel]
  have hmem : n ∈ (c.chain.map (·.blockNum)).toFinset := by
    rw [Finset.eq_of_subset_of_card_le hsubset hcard]
    exact Finset.mem_Icc.mpr ⟨hpos, hn⟩
  obtain ⟨b, hb, hbn⟩ := List.mem_map.mp (List.mem_toFinset.mp hmem)
  exact ⟨b, hb, hbn⟩

/-- The committed states rise, and the head under the sessions is that of `c`. -/
def RisingFrom (c : Dynamic β) (o : Objects β ω) (P : List (Objects β ω)) (m : ℕ) : Prop :=
  Rising o P m ∧ o.dynamic = c

lemma risingFrom_trims (c : Dynamic β) :
    Trims UndoEvent.Untrimmed (RisingFrom c : Objects β ω → List (Objects β ω) → ℕ → Prop) :=
  fun h hN => ⟨(rising_invariant.trim h.1 hN).1, (rising_invariant.trim h.1 hN).2, h.2⟩

/-! ### Runs in which the state of an open session has been trimmed -/

/-- Not all calls on the undo database were in `N`. -/
def Lost (N : UndoEvent → Prop) (k : ℕ) (db : Database β ω) : Prop :=
  Chronicle N (fun _ _ _ => False) k db

lemma lost_iff {N : UndoEvent → Prop} {k : ℕ} {db : Database β ω} :
    Lost N k db ↔ db.undo.disabled = false ∧ ¬ Logged N db := by
  constructor
  · rintro ⟨henabled, h⟩
    refine ⟨henabled, fun hN => ?_⟩
    obtain ⟨_, _, -, hfalse⟩ := (h hN).2
    exact hfalse
  · exact fun h => ⟨h.1, fun hN => absurd hN h.2⟩

lemma lost_invariant (N : UndoEvent → Prop) :
    HistoryInvariant N (fun (_ : Objects β ω) _ _ => False) where
  trim h _ := h.elim
  pop h _ := h
  resize h _ := h
  commit h _ := h

/-- The history under no open session. -/
lemma Chronicle.committed {N : UndoEvent → Prop}
    {H : Objects β ω → List (Objects β ω) → ℕ → Prop} {db : Database β ω}
    (h : Chronicle N H 0 db) (hN : Logged N db) :
    db.undo.activeSessions = 0 ∧ H db.objects db.undo.stack db.undo.maxSize := by
  obtain ⟨A, P, hl, hH⟩ := (h.2 hN).2
  obtain rfl := List.length_eq_zero_iff.mp hl.length
  rw [hl.stack]
  exact ⟨hl.activeSessions, hH⟩

/-! ### Properties of the head -/

/-- `X` looks neither at the objects nor at the undo database, and stays while a block is applied
and while transactions wait. -/
structure Lasting (X : Dynamic β → Database β ω → Prop) : Prop where
  apart : ∀ c, Apart (X c)
  other : ∀ {c db} maxBlockSize pendingTx poppedTx pendingTxSession skipFlags appStatus, X c db →
    X c { db with
      blockDb := { db.blockDb with maxBlockSize }
      pendingTx, poppedTx, pendingTxSession, skipFlags, appStatus }
  resize : ∀ {c db} n, X c db → X c { db with forkDb := db.forkDb.setMaxSize n }

/-- `X` stays when the chain and the fork database go back. -/
structure Receding (X : Dynamic β → Database β ω → Prop) : Prop extends Lasting X where
  popBlock : ∀ {c db f}, X c db → db.forkDb.popBlock = .ok f → X c { db with forkDb := f }
  back : ∀ {c c' b db}, c'.Extends b c → X c db → X c' db

lemma Lasting.applyBlock {X : Dynamic β → Database β ω → Prop} (hX : Lasting X) (c : Dynamic β)
    (b : SignedBlock β) (skip : SkipFlags) :
    Upholds (X c) (fun _ => True) (Database.applyBlock R d b skip) :=
  (hX.apart c).applyBlock
    (fun db maxBlockSize skipFlags appStatus h => hX.other maxBlockSize db.pendingTx db.poppedTx
      db.pendingTxSession skipFlags appStatus h) (fun _ n h => hX.resize n h) b skip

/-- No session is open, the committed states rise, and `X` holds of the head, as long as no state of
an open session was trimmed. -/
structure During (T : SkipFlags → Prop) (X : Dynamic β → Database β ω → Prop)
    (db : Database β ω) : Prop where
  cleared : Cleared T db
  rising : Chronicle UndoEvent.Untrimmed Rising 0 db
  holds : Logged UndoEvent.Untrimmed db → X db.objects.dynamic db

namespace During

variable {T : SkipFlags → Prop} {X Y : Dynamic β → Database β ω → Prop} {α : Type}
  {db : Database β ω}

lemma mono (h : During T X db) (hXY : ∀ c, X c db → Y c db) : During T Y db :=
  ⟨h.cleared, h.rising, fun hN => hXY _ (h.holds hN)⟩

/-- What the committed states say of the head. -/
lemma head (h : During T X db) (hN : Logged UndoEvent.Untrimmed db) :
    db.objects.dynamic.Sound ∧ db.objects.dynamic.Numbered ∧
      db.objects.chain.length = db.objects.headBlockNumber := by
  obtain ⟨-, hrising⟩ := h.rising.committed hN
  exact ⟨hrising.sound _ List.mem_cons_self, hrising.numbered _ List.mem_cons_self,
    hrising.length _ List.mem_cons_self⟩

/-- Once a state of an open session has been trimmed there is nothing to show. -/
lemma of_lost {x : Act β ω α}
    (hx : ∀ {H : Objects β ω → List (Objects β ω) → ℕ → Prop},
      HistoryInvariant UndoEvent.Untrimmed H →
      Upholds (Inside (fun _ => True) (fun _ => True) T false (Chronicle UndoEvent.Untrimmed H 0))
        (SafeSoFar UndoEvent.Untrimmed) x)
    (h : During T X db) (hN : ¬ Logged UndoEvent.Untrimmed db) :
    (∀ a db', x db = (.ok a, db') → During T Y db') ∧
      ∀ e db', x db = (.error e, db') → OnFailure (During T X) (fun _ => True) e db' := by
  have hend : ∀ {Z : Dynamic β → Database β ω → Prop} (db : Database β ω),
      Inside (fun _ => True) (fun _ => True) T false (Chronicle UndoEvent.Untrimmed Rising 0) db ∧
      Inside (fun _ => True) (fun _ => True) T false (Lost UndoEvent.Untrimmed 0) db →
      During T Z db :=
    fun db h => ⟨h.1.1, h.1.2, fun hN => absurd hN (lost_iff.mp h.2.2).2⟩
  obtain ⟨hok, herr⟩ := Triple.and (hx rising_invariant) (hx (lost_invariant _)) db
    ⟨⟨h.cleared, h.rising⟩, h.cleared, lost_iff.mpr ⟨h.rising.1, hN⟩⟩
  refine ⟨fun a db' hdb' => hend db' (hok a db' hdb'), fun e db' hdb' => ?_⟩
  cases e with
  | fc e => exact hend db' (herr _ db' hdb')
  | crash => trivial

end During

/-! ### Appending a block -/

section Append

variable {T : SkipFlags → Prop} {X Y : Dynamic β → Database β ω → Prop} {c : Dynamic β}
  {b : SignedBlock β} {db : Database β ω}

/-- The block could not be applied: `X` holds of the head under its session, or a state has been
trimmed. -/
structure Broken (T : SkipFlags → Prop) (X : Dynamic β → Database β ω → Prop) (c : Dynamic β)
    (db : Database β ω) : Prop where
  cleared : Cleared T db
  rising : Chronicle UndoEvent.Untrimmed (RisingFrom c) 1 db
  holds : X c db ∨ Lost UndoEvent.Untrimmed 1 db

/-- A block that has been applied and stored: it extends `c`, and `Y` holds. -/
structure Stored (T : SkipFlags → Prop) (Y : Dynamic β → Database β ω → Prop) (c : Dynamic β)
    (b : SignedBlock β) (db : Database β ω) : Prop where
  cleared : Cleared T db
  rising : Chronicle UndoEvent.Untrimmed (RisingFrom c) 1 db
  extends_ : c.Extends b db.objects.dynamic
  maxSize : db.undo.maxSize = b.blockNum - c.lastIrreversibleBlockNum + 1
  holds : Y db.objects.dynamic db

/-- The session of a block that could not be applied is undone. -/
lemma Broken.sessionUndo (hX : Lasting X) (c : Dynamic β) :
    Triple (Broken T X c) Database.sessionUndo (fun _ => During T X)
      (OnFailure (During T X) fun _ : Database β ω => True) := by
  have hundo : ∀ {F F' : Database β ω → Prop} {E : Failure → Database β ω → Prop},
      Triple F Database.sessionUndo (fun _ => F') E →
      (∀ db, F' db → X c db ∨ Lost UndoEvent.Untrimmed 0 db) →
      Triple (fun db => Cleared T db ∧ Chronicle UndoEvent.Untrimmed (RisingFrom c) 1 db ∧ F db)
        Database.sessionUndo (fun _ => During T X)
        (OnFailure (During T X) fun _ : Database β ω => True) := by
    intro F F' E hF hcase
    refine (Triple.and outside_apart.sessionUndo (Triple.and (Chronicle.sessionUndo fun _ => False)
      hF)).conseq (fun _ h => h) (fun _ db h => ?_) fun e db h => ?_
    · refine ⟨h.1, h.2.1.mono fun _ _ _ hH => hH.1, fun hN => ?_⟩
      obtain ⟨-, -, hc⟩ := h.2.1.committed hN
      exact hc ▸ (hcase db h.2.2).resolve_right fun hlost => (lost_iff.mp hlost).2 hN
    · cases e with
      | fc e => exact h.2.1.elim
      | crash => trivial
  rintro db ⟨hclear, hchron, hholds | hlost⟩
  · exact hundo (hX.apart c).sessionUndo (fun _ h => .inl h) db ⟨hclear, hchron, hholds⟩
  · exact hundo (Chronicle.sessionUndo fun _ => False) (fun _ h => .inr h) db
      ⟨hclear, hchron, hlost⟩

/-- `session::commit` of an open session. -/
lemma sessionCommit_eq (h : db.undo.activeSessions ≠ 0) :
    Database.sessionCommit db = (.ok (), { db with
      undo := { db.undo with activeSessions := db.undo.activeSessions - 1 }
      undoLog := Database.undoEvent .commit db.objects db.undo :: db.undoLog }) := by
  refine (bind_ok (update_apply _ _)).trans (Database.onUndo_ok ?_ _)
  simp [UndoDatabase.commit, h, Except.map]

lemma sessionCommit_error (h : db.undo.activeSessions = 0) :
    Database.sessionCommit db = (.error (.fc .undo), { db with
      undoLog := Database.undoEvent .commit db.objects db.undo :: db.undoLog }) := by
  refine (bind_ok (update_apply _ _)).trans (Database.onUndo_error (e := .noActiveSession) ?_ _)
  simp [UndoDatabase.commit, h, Except.map]

/-- The session of a block that has been applied is committed. -/
lemma Stored.sessionCommit (hY : Lasting Y) (c : Dynamic β) (b : SignedBlock β) :
    Triple (Stored T Y c b) Database.sessionCommit (fun _ => During T Y)
      (OnFailure (Broken T X c) fun _ : Database β ω => True) := by
  intro db h
  have happlied : BlockApplied UndoEvent.Untrimmed Rising db := by
    refine ⟨h.rising.mono fun _ _ _ hH => hH.1, fun hN => ⟨b, ?_⟩⟩
    obtain ⟨P, ⟨-, hbase⟩, -⟩ := (h.rising.2 hN).2.base
    have hirr := congrArg Dynamic.lastIrreversibleBlockNum hbase
    exact ⟨hbase ▸ h.extends_, h.maxSize.trans (by rw [← hirr]; rfl)⟩
  obtain ⟨hrising, -⟩ := Chronicle.sessionCommit rising_invariant db happlied
  by_cases hactive : db.undo.activeSessions = 0
  · -- the session is gone, as its state has been trimmed
    have hlost : ¬ Logged UndoEvent.Untrimmed db := by
      intro hN
      obtain ⟨A, P, hl, -⟩ := (h.rising.2 hN).2
      exact one_ne_zero (hl.activeSessions.symm.trans hactive)
    rw [sessionCommit_error hactive]
    refine ⟨fun _ _ hx => (by cases hx), fun _ _ hx => ?_⟩
    cases hx
    have hgone : ∀ hN : Logged UndoEvent.Untrimmed { db with
        undoLog := Database.undoEvent .commit db.objects db.undo :: db.undoLog }, False :=
      fun hN => hlost (List.forall_mem_cons.mp hN).2
    exact ⟨h.cleared, ⟨h.rising.1, fun hN => (hgone hN).elim⟩, .inr (lost_iff.mpr ⟨h.rising.1, hgone⟩)⟩
  · rw [sessionCommit_eq hactive] at hrising ⊢
    refine ⟨fun _ _ hx => ?_, fun _ _ hx => (by cases hx)⟩
    cases hx
    exact ⟨h.cleared, hrising _ _ rfl, fun _ =>
      (hY.apart _).change db db.objects _ _ db.appliedOps db.appliedBalances h.holds⟩

/-- **A block that is applied and stored**, or whose session is undone. `Y` has to hold of the chain
with the block and of the block database in which it is stored. -/
theorem During.applyAndStore (hX : Lasting X) (hY : Lasting Y) {id : BlockId}
    (hstored : ∀ {c c' db blockDb}, c.Sound → c.Numbered → c.Extends b c' → X c db →
      db.blockDb.store R.packBlock id b = .ok blockDb → Y c' { db with blockDb })
    (skip : SkipFlags) :
    Triple (During T X) (Database.applyAndStore R d b id skip) (fun _ => During T Y)
      (OnFailure (During T X) fun _ => True) := by
  intro s hs
  by_cases hN : Logged UndoEvent.Untrimmed s
  swap
  · exact hs.of_lost (fun hinv => (hinv.chainInvariant R d).switch.applyAndStore trivial trivial id) hN
  obtain ⟨hsound, hnum, -⟩ := hs.head hN
  let c := s.objects.dynamic
  have hfrom : Chronicle UndoEvent.Untrimmed (RisingFrom c) 0 s := by
    refine ⟨hs.rising.1, fun hN => ⟨(hs.rising.2 hN).1, ?_⟩⟩
    obtain ⟨A, P, hl, hH⟩ := (hs.rising.2 hN).2
    obtain rfl := List.length_eq_zero_iff.mp hl.length
    exact ⟨[], P, hl, hH, rfl⟩
  have hstart : Triple (fun db => db = s) (Database.startUndoSession false)
      (fun _ db => Cleared T db ∧ (Chronicle UndoEvent.Untrimmed (RisingFrom c) 1 db ∧
        db.objects.dynamic = c) ∧ X c db) (OnFailure (During T X) fun _ => True) := by
    rintro db rfl
    rw [startUndoSession_eq (by rw [hs.rising.1]; rfl)]
    refine ⟨fun _ _ hx => ?_, fun _ _ hx => (by cases hx)⟩
    cases hx
    exact ⟨hs.cleared, ⟨hfrom.opened (risingFrom_trims c), rfl⟩,
      (hX.apart c).change db db.objects _ _ db.appliedOps db.appliedBalances (hs.holds hN)⟩
  have hresize : ∀ {o P m}, c.headBlockId = b.previous → RisingFrom c o P m →
      RisingFrom c (o : Objects β ω) P (b.blockNum - c.lastIrreversibleBlockNum + 1) := by
    rintro o P m hprev ⟨hH, hc⟩
    exact ⟨⟨⟨hH.toLineage, hH.numbered⟩, hH.length⟩, hc⟩
  have happly : Triple (fun db => Cleared T db ∧
        (Chronicle UndoEvent.Untrimmed (RisingFrom c) 1 db ∧ db.objects.dynamic = c) ∧ X c db)
      (Database.applyBlock R d b skip)
      (fun _ db => Cleared T db ∧ (Chronicle UndoEvent.Untrimmed (RisingFrom c) 1 db ∧
        c.Extends b db.objects.dynamic ∧
        db.undo.maxSize = b.blockNum - c.lastIrreversibleBlockNum + 1) ∧ X c db)
      (OnFailure (Broken T X c) fun _ => True) := by
    refine (Triple.and (outside_applyBlock b skip) (Triple.and
      (Chronicle.applyBlock_of_trims (risingFrom_trims c) hresize skip)
      (hX.applyBlock c b skip))).conseq (fun _ h => h) (fun _ _ h => h) fun e db h => ?_
    cases e with
    | fc e => exact ⟨h.1, h.2.1, .inl h.2.2⟩
    | crash => trivial
  have hstore : Triple (fun db => Cleared T db ∧ (Chronicle UndoEvent.Untrimmed (RisingFrom c) 1 db ∧
        c.Extends b db.objects.dynamic ∧
        db.undo.maxSize = b.blockNum - c.lastIrreversibleBlockNum + 1) ∧ X c db)
      (Database.storeBlock R id b) (fun _ => Stored T Y c b)
      (OnFailure (Broken T X c) fun _ => True) := by
    refine Triple.gets_bind fun s' hs' => triple_fcLift_bind (fun _ _ hdb _ => ?_) fun blockDb hst => ?_
    · exact hdb ▸ ⟨hs'.1, hs'.2.1.1, .inl hs'.2.2⟩
    · refine Triple.update fun db hdb => ?_
      subst hdb
      obtain ⟨hclear, ⟨hchron, hext, hsize⟩, hholds⟩ := hs'
      exact ⟨Cleared.of_eq hclear.2.1 hclear.2.2, hchron, hext, hsize,
        hstored hsound hnum hext hholds hst⟩
  exact Upholds.inSession_false hstart (Triple.bind happly fun _ => Triple.bind hstore fun _ =>
    Stored.sessionCommit hY c b) (Broken.sessionUndo hX c) s rfl

end Append

/-! ### Popping blocks -/

section Pop

variable {T : SkipFlags → Prop} {X : Dynamic β → Database β ω → Prop} {db db' : Database β ω}

/-- `pop_undo` when there is no state. -/
lemma popUndo_error (h : db.undo.activeSessions = 0) (hstack : db.undo.stack = []) :
    Database.popUndo db = (.error (.fc .undo), { db with
      undoLog := Database.undoEvent .popCommit db.objects db.undo :: db.undoLog }) := by
  refine (bind_ok (update_apply _ _)).trans (Database.onUndo_error (e := .stackTooSmall) ?_ _)
  simp [UndoDatabase.popCommit, h, hstack]

/-- What `pop_block` leaves when it throws: the head of the fork database may have gone back. -/
lemma Database.popBlock_eq_error (h : db.Closed) {e : Failure}
    (hpop : Database.popBlock R db = (.error e, db')) :
    db' = db ∨ ∃ f, db.forkDb.popBlock = .ok f ∧ db' = { db with
      forkDb := f
      undoLog := Database.undoEvent .popCommit db.objects db.undo :: db.undoLog } := by
  have hreset : Database.resetPendingSession db = (.ok (), db) := by
    refine (bind_ok (gets_apply _ _)).trans ?_
    rw [h.pendingTxSession]
    rfl
  cases hb : Database.fetchBlockById R db db.objects.headBlockId with
  | none =>
      have hthrows : Database.popBlock R db = (.error (.fc .popEmptyChain), db) := by
        rw [Database.popBlock]
        rw [bind_ok hreset, bind_ok (gets_apply _ _)]
        simp only [hb, raise_apply]
      cases hpop.symm.trans hthrows
      exact .inl rfl
  | some b =>
      cases hf : db.forkDb.popBlock with
      | error e =>
          have hthrows : Database.popBlock R db = (.error (.fc e), db) := by
            rw [Database.popBlock]
            rw [bind_ok hreset, bind_ok (gets_apply _ _)]
            simp only [hb, hf]
            rfl
          cases hpop.symm.trans hthrows
          exact .inl rfl
      | ok f =>
          cases hstack : db.undo.stack with
          | nil =>
              have hthrows : Database.popBlock R db = (.error (.fc .undo), { db with
                  forkDb := f
                  undoLog := Database.undoEvent .popCommit db.objects db.undo :: db.undoLog }) := by
                rw [Database.popBlock]
                rw [bind_ok hreset, bind_ok (gets_apply _ _)]
                simp only [hb, hf]
                exact (bind_ok rfl).trans ((bind_ok rfl).trans
                  (bind_error (popUndo_error h.activeSessions hstack)))
              cases hpop.symm.trans hthrows
              exact .inr ⟨f, rfl, rfl⟩
          | cons s l =>
              have hok := (Database.popBlock_eq_ok h).mpr ⟨b, f, s, l, hb, hf, hstack, rfl⟩
              cases hpop.symm.trans hok

/-- `pop_block`, if it takes `X` to `Y`. -/
lemma During.popBlock_of {Y : Dynamic β → Database β ω → Prop} {s : Database β ω} (hs : During T X s)
    (hpop : ∀ {c : Dynamic β} {b b' f o l},
      Database.fetchBlockById R s s.objects.headBlockId = some b → s.forkDb.popBlock = .ok f →
      c.Extends b' s.objects.dynamic → X s.objects.dynamic s → Y c (s.popped b f o l))
    (hfail : ∀ {f undoLog}, s.forkDb.popBlock = .ok f → X s.objects.dynamic s →
      X s.objects.dynamic { s with forkDb := f, undoLog }) :
    Triple (fun db => db = s) (Database.popBlock R) (fun _ => During T Y)
      (OnFailure (During T X) fun _ => True) := by
  rintro s rfl
  by_cases hN : Logged UndoEvent.Untrimmed s
  swap
  · exact hs.of_lost (fun hinv => (hinv.chainInvariant R 0).switch.popBlock) hN
  obtain ⟨hactive, hrising⟩ := hs.rising.committed hN
  have hclosed : s.Closed := ⟨hs.cleared.2.2, hactive⟩
  obtain ⟨hok, herr⟩ := (rising_invariant.chainInvariant R 0).switch.popBlock s
    ⟨hs.cleared, hs.rising⟩
  refine ⟨fun a db' hx => ?_, fun e db' hx => ?_⟩
  · obtain ⟨hclear, hchron⟩ := hok a db' hx
    refine ⟨hclear, hchron, fun _ => ?_⟩
    obtain ⟨b, f, o, l, hb, hf, hstack, rfl⟩ := (Database.popBlock_eq_ok hclosed).mp hx
    rw [hstack] at hrising
    obtain ⟨b', hext⟩ := hrising.head
    exact hpop hb hf hext (hs.holds hN)
  · have hend := herr e db' hx
    cases e with
    | crash => trivial
    | fc e =>
        refine ⟨hend.1, hend.2, fun _ => ?_⟩
        rcases Database.popBlock_eq_error hclosed hx with rfl | ⟨f, hf, rfl⟩
        · exact hs.holds hN
        · exact hfail hf (hs.holds hN)

/-- The loop of a fork switch that pops blocks, if each round keeps `X`. -/
lemma During.popBlocksUntil_of {id : BlockId} (hround : ∀ {s : Database β ω}, During T X s →
      s.objects.headBlockId ≠ id → Triple (fun db => db = s) (Database.popBlock R)
        (fun _ => During T X) (OnFailure (During T X) fun _ => True)) :
    Upholds (During T X) (fun _ => True) (Database.popBlocksUntil R id) := by
  refine Upholds.bind (Upholds.gets _) fun n => ?_
  induction n with
  | zero =>
      exact Triple.gets_bind fun s hs => Triple.ite (fun hne => hround hs hne) fun _ =>
        Triple.pure fun _ hdb => hdb ▸ hs
  | succ n ih =>
      exact Triple.gets_bind fun s hs => Triple.ite
        (fun hne => Triple.bind (hround hs hne) fun _ => ih) fun _ => Triple.pure fun _ hdb => hdb ▸ hs

/-- **The loop of a fork switch** that pops blocks, and the properties that stay when the chain goes
back. -/
theorem During.popBlocksUntil (hX : Receding X) (id : BlockId) :
    Upholds (During T X) (fun _ => True) (Database.popBlocksUntil R id) :=
  During.popBlocksUntil_of fun hs _ => hs.popBlock_of
    (fun _ hf hext h => hX.other _ _ _ _ _ _
      ((hX.apart _).change _ _ _ _ _ _ (hX.popBlock (hX.back hext h) hf)))
    fun hf h => (hX.apart _).change _ _ _ _ _ _ (hX.popBlock h hf)

end Pop

end ZosCore
