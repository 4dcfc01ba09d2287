import ZosCore.Chain.History

/-!
The last irreversible block and the undo history.

`update_global_dynamic_data` makes the undo history and the fork database as long as the blocks
above the last irreversible one, before this block has moved. Open sessions count as states of the
history, so a session inside two others may push a block out of it; and when a fork switch takes the
last irreversible block back, what was trimmed before may be missing.

* `Lineage`: the committed states are those between the blocks of the chain.
* `UndoEvent.Leaves`: a session that trims the history leaves the states of the blocks above a given
  one.
* **`undoHistory_kept`**: the undo history reaches back to the last irreversible block, if sessions
  inside two others leave its states, and all sessions do if it has been higher before.
* `Dynamic.irreversible`: the irreversible blocks.
-/

namespace ZosCore

open Exec

variable {β ω : Type}

/-! ### The states between the blocks -/

/-- The committed states `P` are sound, and each is followed by a block that leads to the next one,
and at last to `o`. -/
structure Lineage (o : Objects β ω) (P : List (Objects β ω)) : Prop where
  sound : ∀ s ∈ o :: P, s.dynamic.Sound
  extends_ : List.IsChain (fun newer older : Objects β ω => ∃ b, older.dynamic.Extends b newer.dynamic)
    (o :: P)

namespace Lineage

variable {o o' s : Objects β ω} {P : List (Objects β ω)} {b : SignedBlock β}

lemma take (h : Lineage o P) (n : ℕ) : Lineage o (P.take n) := by
  have htake : o :: P.take n = (o :: P).take (n + 1) := rfl
  exact ⟨fun s hs => h.sound s (List.mem_of_mem_take (htake ▸ hs)), htake ▸ h.extends_.take (n + 1)⟩

lemma pop (h : Lineage o (s :: P)) : Lineage s P :=
  ⟨fun s' hs => h.sound s' (List.mem_cons_of_mem _ hs), h.extends_.tail⟩

/-- The newest block. -/
lemma head (h : Lineage o (s :: P)) : ∃ b, s.dynamic.Extends b o.dynamic :=
  (List.isChain_cons_cons.mp h.extends_).1

lemma commit (h : Lineage o P) (hext : o.dynamic.Extends b o'.dynamic) : Lineage o' (o :: P) :=
  ⟨List.forall_mem_cons.mpr ⟨hext.sound (h.sound o List.mem_cons_self), h.sound⟩,
    List.isChain_cons_cons.mpr ⟨⟨b, hext⟩, h.extends_⟩⟩

end Lineage

/-! ### The undo history reaches back to the last irreversible block -/

/-- No session is opened that trims the state of an open one. -/
def UndoEvent.Untrimmed (e : UndoEvent) : Prop := e.call = .start → e.activeSessions ≤ e.maxSize

/-- If a session trims the history, it leaves the states of the blocks above `n`. -/
def UndoEvent.Leaves (n : ℕ) (e : UndoEvent) : Prop :=
  e.maxSize < e.size → e.headBlockNumber + e.activeSessions ≤ e.maxSize + n

/-- No state of an open session is trimmed. The last irreversible block is never above `n` if it is to
be `low`; then the sessions inside two others leave the states of the blocks above `n`, and all
sessions do if it is not. -/
structure UndoEvent.Ample (n : ℕ) (low : Prop) (e : UndoEvent) : Prop where
  untrimmed : e.Untrimmed
  le : low → e.lastIrreversibleBlockNum ≤ n
  leaves : e.call = .start → 2 ≤ e.activeSessions ∨ ¬ low → e.Leaves n

/-- There is a committed state for every block above `n`, as far as blocks have been applied. As long
as the last irreversible block is not above `n`, there is room for one more. -/
structure Reaching (n : ℕ) (low : Prop) (o : Objects β ω) (P : List (Objects β ω)) (m : ℕ) : Prop
    extends Lineage o P where
  room : low → o.lastIrreversibleBlockNum ≤ n → o.headBlockNumber + 1 ≤ m + n
  enough : min (o.headBlockNumber - n) o.chain.length ≤ P.length

lemma reaching_invariant (n : ℕ) (low : Prop) :
    HistoryInvariant (UndoEvent.Ample n low)
      (Reaching n low : Objects β ω → List (Objects β ω) → ℕ → Prop) where
  trim {o P m k newest} h hN := by
    have hk : k ≤ m := hN.untrimmed rfl
    have henough := h.enough
    refine ⟨hk, h.take _, h.room, ?_⟩
    rw [List.length_take]
    by_cases hfits : k + P.length ≤ m
    · omega
    have hleaves : 2 ≤ k ∨ ¬ low → o.headBlockNumber + k ≤ m + n := fun hl =>
      hN.leaves rfl hl (not_le.mp hfits)
    by_cases hl : 2 ≤ k ∨ ¬ low
    · have := hleaves hl
      omega
    · -- the history is as long as the last block has made it
      obtain ⟨hk2, hlow⟩ := not_or.mp hl
      have hroom := h.room (not_not.mp hlow) (hN.le (not_not.mp hlow))
      omega
  pop {o s P m} h hN := by
    obtain ⟨b, hext⟩ := h.head
    have hnum : o.headBlockNumber = s.headBlockNumber + 1 :=
      hext.headBlockNumber.trans (hext.blockNum_eq (h.pop.sound s List.mem_cons_self))
    have hlength : o.chain.length = s.chain.length + 1 := congrArg List.length hext.chain
    have henough := h.enough
    rw [List.length_cons] at henough
    refine ⟨h.pop, fun hlow _ => ?_, by omega⟩
    have hroom := h.room hlow (hN.le hlow)
    omega
  resize {o P m b} h hprev := by
    have hnum : b.blockNum = o.headBlockNumber + 1 :=
      (h.sound o List.mem_cons_self).blockNum_eq hprev
    exact ⟨h.toLineage, fun _ hirr => by omega, h.enough⟩
  commit {o o' P b} h hext := by
    have hnum : b.blockNum = o.headBlockNumber + 1 := hext.blockNum_eq (h.sound o List.mem_cons_self)
    have hhead : o'.headBlockNumber = b.blockNum := hext.headBlockNumber
    have hlength : o'.chain.length = o.chain.length + 1 := congrArg List.length hext.chain
    have hirr : o.lastIrreversibleBlockNum ≤ o'.lastIrreversibleBlockNum := hext.irreversible.1
    have henough := h.enough
    refine ⟨h.commit hext, fun _ hn => by omega, ?_⟩
    rw [List.length_cons]
    omega

/-- As many blocks can be popped as there are committed states. -/
lemma forEach_popUndo {db : Database β ω} (hactive : db.undo.activeSessions = 0) {l : List ℕ}
    (hl : l.length ≤ db.undo.size) :
    (Exec.forEach (fun _ => Database.popUndo) l db).1 = .ok () := by
  induction l generalizing db with
  | nil => rfl
  | cons a l ih =>
      cases hstack : db.undo.stack with
      | nil => simp [UndoDatabase.size, hstack] at hl
      | cons s P =>
          have hpop : Database.popUndo db = (.ok (), { db with
              objects := s
              undo := { db.undo with stack := P, disabled := false }
              undoLog := Database.undoEvent .popCommit db.objects db.undo :: db.undoLog }) := by
            refine (bind_ok (update_apply _ _)).trans (Database.onUndo_ok ?_ _)
            simp only [UndoDatabase.popCommit, hactive, hstack]
            rfl
          rw [forEach_cons, bind_ok hpop]
          refine ih hactive ?_
          simp only [UndoDatabase.size, hstack, List.length_cons] at hl ⊢
          omega

/-- The pending session can be undone; what is under it stays. -/
lemma Chronicle.resetPendingSession {N : UndoEvent → Prop}
    {H : Objects β ω → List (Objects β ω) → ℕ → Prop} {db : Database β ω}
    (h : Idle (fun _ => True) (fun _ => True) (Chronicle N H) db) (hN : Logged N db) :
    ∃ db', Database.resetPendingSession db = (.ok (), db') ∧ db'.undo.activeSessions = 0 ∧
      db'.objects = db.undo.base db.objects ∧
      ∃ P, db'.undo.stack = P ∧ H db'.objects P db'.undo.maxSize := by
  have hI := h.2
  cases hp : db.pendingTxSession with
  | false =>
      rw [hp] at hI
      obtain ⟨A, P, hl, hH⟩ := (hI.2 hN).2
      obtain rfl := List.length_eq_zero_iff.mp hl.length
      refine ⟨db, ?_, hl.activeSessions, (hl.base _).symm, P, hl.stack, hH⟩
      exact (bind_ok (gets_apply _ _)).trans (by rw [hp]; rfl)
  | true =>
      rw [hp] at hI
      obtain ⟨-, s, l, hstack, hactive, A, P, hl, hH⟩ := (hI.2 hN).2.undone
      have hone : db.undo.activeSessions = 1 := by
        have := hl.activeSessions
        simp only at this
        omega
      obtain rfl := List.length_eq_zero_iff.mp hl.length
      refine ⟨{ db with
          objects := s
          undo := { db.undo with stack := l, activeSessions := db.undo.activeSessions - 1 }
          undoLog := Database.undoEvent .undo db.objects db.undo :: db.undoLog
          pendingTxSession := false }, ?_, hl.activeSessions, ?_, P, hl.stack, hH⟩
      swap
      · simp [UndoDatabase.base, hone, hstack]
      refine (bind_ok (gets_apply _ _)).trans ?_
      rw [hp]
      exact (bind_ok (sessionUndo_eq hI.1 hactive hstack)).trans (update_apply _ _)

/-- **Enough undo history is kept** above the last irreversible block `n`, if the sessions inside two
others leave the states of the blocks above `n` when they trim it, and all sessions do in a run in which
the last irreversible block has been above `n`: when the pending session is cleared there is a
committed state for every block above the last irreversible one, as far as blocks have been applied,
and so many blocks can be popped. -/
theorem undoHistory_kept (R : Rules β ω) (d : ℕ) {db₀ db : Database β ω} {l : List (Call β)} {n : ℕ}
    (h₀ : db₀.Begins) (hrun : Database.Run R d db₀ l db)
    (hn : (db.undo.base db.objects).lastIrreversibleBlockNum = n)
    (huntrimmed : ∀ e ∈ db.undoLog, e.Untrimmed)
    (hleaves : ∀ e ∈ db.undoLog, e.call = .start →
      2 ≤ e.activeSessions ∨ (∃ e' ∈ db.undoLog, n < e'.lastIrreversibleBlockNum) → e.Leaves n) :
    ∃ db', Database.resetPendingSession db = (.ok (), db') ∧ db'.undo.activeSessions = 0 ∧
      db'.objects = db.undo.base db.objects ∧
      min (db'.objects.headBlockNumber - db'.objects.lastIrreversibleBlockNum)
        db'.objects.chain.length ≤ db'.undo.size ∧
      ∀ n ≤ min (db'.objects.headBlockNumber - db'.objects.lastIrreversibleBlockNum)
        db'.objects.chain.length,
        (Exec.forEach (fun _ => Database.popUndo) (List.range n) db').1 = .ok () := by
  let low : Prop := ∀ e ∈ db.undoLog, e.lastIrreversibleBlockNum ≤ n
  have hample : ∀ e ∈ db.undoLog, e.Ample n low := fun e he =>
    ⟨huntrimmed e he, fun hlow => hlow e he, fun hstart hcase => hleaves e he hstart <|
      hcase.imp id fun hlow => by simpa [low] using hlow⟩
  have hbegin : Reaching n low db₀.objects [] db₀.undo.maxSize := by
    have hroom := h₀.maxSize
    refine ⟨⟨List.forall_mem_singleton.mpr h₀.sound, List.isChain_singleton _⟩, fun _ _ => by omega, ?_⟩
    simp [h₀.chain]
  have hdb := (reaching_invariant n low).run h₀ hbegin hrun
  obtain ⟨db', hreset, hactive, hbase, P, hstack, hH⟩ := Chronicle.resetPendingSession hdb hample
  have henough : min (db'.objects.headBlockNumber - db'.objects.lastIrreversibleBlockNum)
      db'.objects.chain.length ≤ db'.undo.size := by
    rw [UndoDatabase.size, hstack, hbase, hn, ← hbase]
    exact hH.enough
  refine ⟨db', hreset, hactive, hbase, henough, fun k hk => forEach_popUndo hactive ?_⟩
  rw [List.length_range]
  exact hk.trans henough

/-- A transaction after the first block. -/
def oneTransaction : Database Unit Unit :=
  (Database.call calmRules 1 (.pushTransaction { id := 1, expiration := 1700000010 } {}) oneBlock).2

lemma oneTransaction_run : Database.Run calmRules 1 (newChain [0, 1, 2])
    [.pushBlock (emptyBlock .zero 1) {}, .pushTransaction { id := 1, expiration := 1700000010 } {}]
    oneTransaction :=
  oneBlock_run.returns (by decide +kernel)

/-- Rules under which three witnesses take turns. -/
def turnRules : Rules Unit Unit :=
  { calmRules with
    getSlotAtTime := fun t o => (t - o.time) / 3
    getScheduledWitness := fun n o => (o.time / 3 + n) % 3 }

/-- The block of the witness whose turn it is. -/
def turnBlock (previous : BlockId) (slot hash : ℕ) : SignedBlock Unit :=
  { emptyBlock previous hash with
    timestamp := 1700000000 + 3 * slot
    witness := (1700000000 / 3 + slot) % 3 }

/-- The three witnesses have made four blocks, and the fourth has made the second irreversible. -/
def inTurn : Database Unit Unit :=
  ([.pushBlock (turnBlock .zero 1 1) {}, .pushBlock (turnBlock ⟨1, 1⟩ 2 2) {},
    .pushBlock (turnBlock ⟨2, 2⟩ 3 3) {}, .pushBlock (turnBlock ⟨3, 3⟩ 4 4) {}].foldl
      (fun db c => (Database.call turnRules 1 c db).2) (newChain [0, 1, 2]) : Database Unit Unit)

lemma inTurn_run : Database.Run turnRules 1 (newChain [0, 1, 2])
    [.pushBlock (turnBlock .zero 1 1) {}, .pushBlock (turnBlock ⟨1, 1⟩ 2 2) {},
      .pushBlock (turnBlock ⟨2, 2⟩ 3 3) {}, .pushBlock (turnBlock ⟨3, 3⟩ 4 4) {}] inTurn :=
  ((((Database.Run.nil _).returns (by decide +kernel)).returns (by decide +kernel)).returns
    (by decide +kernel)).returns (by decide +kernel)

/-- Two blocks on the third one replace the fourth. -/
def switched : Database Unit Unit :=
  (Database.call turnRules 1 (.pushBlock (turnBlock ⟨4, 5⟩ 7 6) {})
    (Database.call turnRules 1 (.pushBlock (turnBlock ⟨3, 3⟩ 5 5) {}) inTurn).2).2

lemma switched_run : Database.Run turnRules 1 inTurn
    [.pushBlock (turnBlock ⟨3, 3⟩ 5 5) {}, .pushBlock (turnBlock ⟨4, 5⟩ 7 6) {}] switched :=
  ((Database.Run.nil _).returns (by decide +kernel)).returns (by decide +kernel)

/-- The blocks above the last irreversible one can be popped after a switch has replaced a block that
had moved it. -/
theorem undoHistory_kept_switched :
    ∃ db', Database.resetPendingSession switched = (.ok (), db') ∧
      db'.objects.chain.map (·.id) = [⟨5, 6⟩, ⟨4, 5⟩, ⟨3, 3⟩, ⟨2, 2⟩, ⟨1, 1⟩] ∧
      db'.objects.lastIrreversibleBlockNum = 3 ∧ 2 ≤ db'.undo.size := by
  have huntrimmed : ∀ e ∈ switched.undoLog, e.call = .start → e.activeSessions ≤ e.maxSize := by
    decide +kernel
  have hlow : ∀ e ∈ switched.undoLog, e.call = .start → ¬ (2 ≤ e.activeSessions ∨
      ∃ e' ∈ switched.undoLog, 3 < e'.lastIrreversibleBlockNum) := by decide +kernel
  have hirr : (switched.undo.base switched.objects).lastIrreversibleBlockNum = 3 := by decide +kernel
  have hrun₅ := inTurn_run.returns (c := .pushBlock (turnBlock ⟨3, 3⟩ 5 5) {}) (by decide +kernel)
  have hrun : Database.Run turnRules 1 (newChain [0, 1, 2]) _ switched :=
    hrun₅.returns (c := .pushBlock (turnBlock ⟨4, 5⟩ 7 6) {}) (by decide +kernel)
  obtain ⟨db', hreset, -, hbase, hsize, -⟩ := undoHistory_kept turnRules 1 (newChain_begins _) hrun hirr
    huntrimmed fun e he hstart h => absurd h (hlow e he hstart)
  have hnum : (switched.undo.base switched.objects).headBlockNumber = 5 ∧
      (switched.undo.base switched.objects).chain.map (·.id) =
        [⟨5, 6⟩, ⟨4, 5⟩, ⟨3, 3⟩, ⟨2, 2⟩, ⟨1, 1⟩] := by decide +kernel
  have hlength := congrArg List.length hnum.2
  simp only [List.length_map, List.length_cons, List.length_nil] at hlength
  rw [hbase, hnum.1, hirr, hlength] at hsize
  exact ⟨db', hreset, hbase ▸ hnum.2, hbase ▸ hirr, by omega⟩

/-- The first block cannot be popped any more after a transaction has executed a proposal: the
third session has pushed the block's state out of the history. -/
theorem not_undoHistory_kept_executing :
    ∃ db db', Database.Run calmRules 1 (newChain [0, 1, 2])
      [.pushBlock (emptyBlock .zero 1) {}, .pushTransaction executing {}] db ∧
      Database.resetPendingSession db = (.ok (), db') ∧
      db'.objects.headBlockNumber - db'.objects.lastIrreversibleBlockNum = 1 ∧
      db'.objects.chain.length = 1 ∧ db'.undo.size = 0 ∧
      (Database.popUndo db').1 = .error (.fc .undo) := by
  have hrun := oneBlock_run.returns (c := .pushTransaction executing {}) (by decide +kernel)
  refine ⟨_, (Database.resetPendingSession
    (Database.call calmRules 1 (.pushTransaction executing {}) oneBlock).2).2, hrun, ?_⟩
  refine ⟨Prod.ext ?_ rfl, ?_⟩
  · decide +kernel
  · decide +kernel

/-! ### The irreversible blocks stay -/

namespace Dynamic

variable {c c' : Dynamic β} {b : SignedBlock β}

/-- The blocks of the chain up to the last irreversible one, newest first. -/
def irreversible (c : Dynamic β) : List (SignedBlock β) :=
  c.chain.filter (·.blockNum ≤ c.lastIrreversibleBlockNum)

/-- The numbers of the blocks go up to that of the head. -/
structure Numbered (c : Dynamic β) : Prop where
  decreasing : c.chain.Pairwise fun newer older => older.blockNum < newer.blockNum
  le_head : ∀ b ∈ c.chain, b.blockNum ≤ c.headBlockNumber

lemma Numbered.extends_ (h : c.Numbered) (hs : c.Sound) (hext : c.Extends b c') : c'.Numbered := by
  have hnum : b.blockNum = c.headBlockNumber + 1 := hext.blockNum_eq hs
  have hle : ∀ b' ∈ c.chain, b'.blockNum < b.blockNum := fun b' hb' => by
    have := h.le_head b' hb'
    omega
  refine ⟨?_, fun b' hb' => ?_⟩
  · rw [hext.chain]
    exact List.pairwise_cons.mpr ⟨hle, h.decreasing⟩
  · rw [hext.chain] at hb'
    rw [hext.headBlockNumber]
    rcases List.mem_cons.mp hb' with rfl | hb'
    · exact le_rfl
    · exact (hle b' hb').le

/-- The blocks up to `m` are the last ones of those up to `n`. -/
lemma filter_blockNum_suffix {l : List (SignedBlock β)}
    (hl : l.Pairwise fun newer older => older.blockNum < newer.blockNum) {m n : ℕ} (hmn : m ≤ n) :
    l.filter (·.blockNum ≤ m) <:+ l.filter (·.blockNum ≤ n) := by
  induction l with
  | nil => exact List.suffix_rfl
  | cons b l ih =>
      obtain ⟨hb, hl⟩ := List.pairwise_cons.mp hl
      by_cases hm : b.blockNum ≤ m
      · -- then all older blocks are in both lists as well
        have hall : ∀ k, m ≤ k → (b :: l).filter (·.blockNum ≤ k) = b :: l := by
          intro k hk
          refine List.filter_eq_self.mpr (List.forall_mem_cons.mpr ⟨?_, fun b' hb' => ?_⟩)
          · simpa using hm.trans hk
          · simpa using ((hb b' hb').le.trans hm).trans hk
        rw [hall m le_rfl, hall n hmn]
      · rw [List.filter_cons_of_neg (by simpa using hm)]
        exact (ih hl).trans (List.IsSuffix.filter _ (List.suffix_cons b l))

end Dynamic

/-- A second block on a chain with one witness, with which it becomes irreversible. -/
def twoBlocks : Database Unit Unit :=
  (Database.call calmRules 1 (.pushBlock (emptyBlock ⟨1, 1⟩ 2) {})
    (Database.call calmRules 1 (.pushBlock (emptyBlock .zero 1) {}) (newChain [0])).2).2

lemma twoBlocks_run : Database.Run calmRules 1 (newChain [0])
    [.pushBlock (emptyBlock .zero 1) {}, .pushBlock (emptyBlock ⟨1, 1⟩ 2) {}] twoBlocks :=
  ((Database.Run.nil _).returns (by decide +kernel)).returns (by decide +kernel)

/-- Two blocks on another branch. -/
def otherBranch : Database Unit Unit :=
  (Database.call calmRules 1 (.pushBlock (emptyBlock ⟨2, 3⟩ 4) {})
    (Database.call calmRules 1 (.pushBlock (emptyBlock ⟨1, 1⟩ 3) {}) twoBlocks).2).2

end ZosCore
