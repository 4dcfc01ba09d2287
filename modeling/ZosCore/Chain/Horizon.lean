import ZosCore.Chain.ForkTree

/-!
`database::last_non_undoable_block_num`, and how far `pop_block` and a fork switch can go back.

The stack of the undo database holds the states of the committed blocks and of the open sessions
together, and `start_undo_session` trims it by its length. When many sessions are open it may lose
states of open sessions, but then all committed ones are gone before. So there are never more
committed states than blocks, whatever happens in the sessions.

* `Backed`: the states of a list have at least as many blocks below them as there are states under
  them.
* `Database.Backs`: with `k` sessions open, the committed states are backed. The calls of a node keep
  it: `backs_chainInvariant`.
* `Database.popTimes_iff`, `Database.popUntil_eq_popTimes`: how often `pop_block` returns, and what
  the loop of a switch is.
* **`undoHorizon_exact`**: without open sessions `last_non_undoable_block_num` is the number of the
  last block that cannot be popped.
-/

namespace ZosCore

open Exec

variable {β ω : Type} {R : Rules β ω} {d : ℕ}

/-! ### States and the blocks below them -/

/-- Every state of the list has at least as many blocks below it as there are states under it. -/
def Backed : List (Objects β ω) → Prop
  | [] => True
  | o :: P => P.length ≤ o.headBlockId.num ∧ Backed P

lemma backed_singleton (o : Objects β ω) : Backed [o] := ⟨Nat.zero_le _, trivial⟩

lemma Backed.take {l : List (Objects β ω)} (h : Backed l) (n : ℕ) : Backed (l.take n) := by
  induction l generalizing n with
  | nil =>
      rw [List.take_nil]
      exact h
  | cons o P ih =>
      cases n with
      | zero => exact trivial
      | succ n =>
          refine ⟨?_, ih h.2 n⟩
          calc (P.take n).length ≤ P.length := List.length_take_le' n P
            _ ≤ o.headBlockId.num := h.1

/-- The states `A` of `k` open sessions are on top of the committed states `P`. If the state of an
open session has been lost, so have all the committed ones. -/
structure Lossy (u : UndoDatabase (Objects β ω)) (k : ℕ) (A P : List (Objects β ω)) : Prop where
  activeSessions : u.activeSessions = k
  stack : u.stack = A ++ P
  length_le : A.length ≤ k
  lost : A.length < k → P = []

namespace Lossy

variable {k : ℕ} {u : UndoDatabase (Objects β ω)} {A P : List (Objects β ω)} {s : Objects β ω}

/-- The newest state is that of an open session. -/
lemma exists_cons (h : Lossy u (k + 1) A P) {l : List (Objects β ω)} (hstack : u.stack = s :: l) :
    ∃ A', A = s :: A' ∧ l = A' ++ P := by
  cases A with
  | nil =>
      have hP : P = [] := h.lost (Nat.succ_pos k)
      have hnil := h.stack
      rw [hP, hstack] at hnil
      cases hnil
  | cons s' A' =>
      have hcons := h.stack
      rw [hstack, List.cons_append] at hcons
      obtain ⟨rfl, rfl⟩ := List.cons.inj hcons
      exact ⟨A', rfl, rfl⟩

/-- Without open sessions all states are committed. -/
lemma committed (h : Lossy u 0 A P) : u.stack = P := by
  rw [h.stack, List.length_eq_zero_iff.mp (Nat.le_zero.mp h.length_le), List.nil_append]

/-- One session less. -/
lemma tail (h : Lossy u (k + 1) (s :: A) P) :
    Lossy { u with stack := A ++ P, activeSessions := u.activeSessions - 1 } k A P where
  activeSessions := by
    change u.activeSessions - 1 = k
    rw [h.activeSessions, Nat.add_sub_cancel]
  stack := rfl
  length_le := Nat.le_of_succ_le_succ h.length_le
  lost hlt := h.lost (Nat.succ_lt_succ hlt)

/-- One session more. -/
lemma opened (h : Lossy u k A P) (s : Objects β ω) :
    Lossy (u.opened s) (k + 1) (s :: A.take u.maxSize) (P.take (u.maxSize - A.length)) where
  activeSessions := congrArg (· + 1) h.activeSessions
  stack := by
    simp only [UndoDatabase.opened, h.stack, List.take_append, List.cons_append]
  length_le := by
    have hle := h.length_le
    simp only [List.length_cons, List.length_take]
    omega
  lost hlt := by
    simp only [List.length_cons, List.length_take] at hlt
    by_cases hk : A.length < k
    · rw [h.lost hk, List.take_nil]
    · have hzero : u.maxSize - A.length = 0 := by
        have hle := h.length_le
        omega
      rw [hzero, List.take_zero]

end Lossy

/-- With `k` sessions open the committed states, and the objects under the sessions, are backed;
there are at most `n` committed states. -/
structure BacksWithin (n k : ℕ) (db : Database β ω) : Prop where
  enabled : db.undo.disabled = false
  states : ∃ A P, Lossy db.undo k A P ∧ Backed (A.getLast?.getD db.objects :: P) ∧ P.length ≤ n

/-- With `k` sessions open the committed states are backed. -/
def Database.Backs (k : ℕ) (db : Database β ω) : Prop := ∃ n, BacksWithin n k db

/-- The open session is that of a block that has been applied, which is above all committed
states. -/
def Database.BackedBlock (db : Database β ω) : Prop :=
  ∃ n < db.objects.headBlockId.num, BacksWithin n 1 db

namespace BacksWithin

variable {n k : ℕ} {db : Database β ω}

/-- The objects do not matter in an open session. -/
lemma record (h : BacksWithin n (k + 1) db) (o : Objects β ω) :
    BacksWithin n (k + 1) { db with undo := db.undo.record db.objects id, objects := o } := by
  obtain ⟨henabled, A, P, hl, hP, hn⟩ := h
  refine ⟨(db.undo.record_disabled _ _).trans henabled, ?_⟩
  cases hstack : db.undo.stack with
  | nil =>
      have hrecord : db.undo.record db.objects id = { db.undo with stack := [db.objects] } := by
        simp [UndoDatabase.record, henabled, hstack]
      rw [hrecord]
      refine ⟨[db.objects], [], ⟨hl.activeSessions, rfl, ?_, fun _ => rfl⟩, ?_, Nat.zero_le n⟩
      · exact Nat.succ_le_succ (Nat.zero_le k)
      · exact backed_singleton _
  | cons s l =>
      obtain ⟨A, rfl, -⟩ := hl.exists_cons hstack
      rw [UndoDatabase.record_id (by rw [hstack]; exact List.cons_ne_nil s l)]
      refine ⟨s :: A, P, hl, ?_, hn⟩
      rw [List.getLast?_cons] at hP ⊢
      exact hP

/-- A session is opened. -/
lemma opened (h : BacksWithin n k db) : BacksWithin n (k + 1) db.opened := by
  obtain ⟨henabled, A, P, hl, hP, hn⟩ := h
  refine ⟨rfl, _, _, hl.opened db.objects, ?_, ?_⟩
  · by_cases hlong : db.undo.maxSize < A.length
    · rw [Nat.sub_eq_zero_of_le hlong.le, List.take_zero]
      exact backed_singleton _
    · rw [List.take_of_length_le (not_lt.mp hlong), List.getLast?_cons]
      exact hP.take (db.undo.maxSize - A.length + 1)
  · exact (List.length_take_le' _ P).trans hn

lemma startUndoSession (forceEnable : Bool) {E : Failure → Database β ω → Prop} :
    Triple (BacksWithin n k) (Database.startUndoSession forceEnable)
      (fun _ => BacksWithin n (k + 1)) E := by
  intro db hdb
  rw [startUndoSession_eq (by rw [hdb.enabled]; rfl)]
  refine ⟨fun _ _ hx => ?_, fun _ _ hx => ?_⟩
  · cases hx
    exact hdb.opened
  · cases hx

/-- A session is undone. -/
lemma sessionUndo (J : Database β ω → Prop) :
    Triple (BacksWithin n (k + 1)) Database.sessionUndo (fun _ => BacksWithin n k)
      (OnFailure J fun _ => True) := by
  refine Triple.bind (Q := fun _ => BacksWithin n (k + 1)) (Triple.update fun _ h => ?_) fun _ => ?_
  · exact ⟨h.enabled, h.states⟩
  · refine triple_onUndo (fun db o u h hu => ?_) fun _ _ _ _ => trivial
    obtain ⟨s, l, hstack, rfl, rfl⟩ := UndoDatabase.undo_restoreSnapshot hu
    obtain ⟨henabled, A, P, hl, hP, hn⟩ := h
    obtain ⟨A, rfl, rfl⟩ := hl.exists_cons hstack
    rw [List.getLast?_cons] at hP
    exact ⟨henabled, A, P, hl.tail, hP, hn⟩

/-- A session is merged into the one before it. -/
lemma sessionMerge :
    Triple (BacksWithin n (k + 2)) Database.sessionMerge (fun _ => BacksWithin n (k + 1))
      (OnFailure (BacksWithin n (k + 2)) fun _ : Database β ω => True) := by
  refine Triple.bind (Q := fun _ => BacksWithin n (k + 2)) (Triple.update fun _ h => ?_) fun _ => ?_
  · exact ⟨h.enabled, h.states⟩
  · refine triple_onUndo (fun db o u h hu => ?_) fun _ _ h _ => h
    obtain ⟨u', hmerge, hou⟩ := except_map_eq_ok.mp hu
    obtain ⟨rfl, rfl⟩ := Prod.mk.inj hou
    obtain ⟨-, rfl⟩ := UndoDatabase.merge_combineSnapshot hmerge
    obtain ⟨henabled, A, P, hl, hP, hn⟩ := h
    refine ⟨henabled, ?_⟩
    cases hstack : db.undo.stack with
    | nil =>
        simp [UndoDatabase.merge, hstack, hl.activeSessions] at hmerge
    | cons s l =>
        obtain ⟨A, rfl, rfl⟩ := hl.exists_cons hstack
        refine ⟨A, P, hl.tail, ?_, hn⟩
        cases A with
        | nil =>
            have hlost : P = [] := hl.lost (Nat.succ_lt_succ (Nat.succ_pos k))
            rw [hlost]
            exact backed_singleton _
        | cons s' A =>
            rw [List.getLast?_cons_cons, List.getLast?_cons] at hP
            rw [List.getLast?_cons]
            exact hP

/-- Operations keep it, whatever they do and however many sessions they open. -/
lemma operationInvariant (n i : ℕ) :
    OperationInvariant i (fun _ => True) (fun k => (BacksWithin n (k + 1) : Database β ω → Prop))
      fun _ => True where
  crash _ := trivial
  proposals _ _ _ := trivial
  modify h _ := h.record _
  applied _ _ h := ⟨h.enabled, h.states⟩
  start _ _ := startUndoSession true
  undo _ _ := sessionUndo _
  merge _ _ := sessionMerge
  exit h hdis _ := by
    rw [h.enabled] at hdis
    cases hdis

lemma operates (n k : ℕ) :
    Operates R d (fun _ => True) (BacksWithin n (k + 1) : Database β ω → Prop) fun _ => True := by
  refine (operationInvariant n (k + d)).operates le_rfl (fun _ _ op _ => op.admitted_true R)
    fun k => ?_
  refine Triple.bind (Q := fun _ => BacksWithin n (k + 1)) (Triple.update fun _ h => ?_) fun _ =>
    Triple.raise fun _ _ => trivial
  exact ⟨h.enabled, h.states⟩

/-- A block, in its session: it is above all committed states. -/
lemma applyBlock (b : SignedBlock β) (skip : SkipFlags) :
    Triple (fun db => Database.Backs 1 db ∧ ∃ l, db.undo.stack = db.objects :: l)
      (Database.applyBlock R d b skip) (fun _ => Database.BackedBlock)
      (OnFailure (Database.Backs 1) fun _ : Database β ω => True) := by
  rintro db ⟨⟨n, henabled, A, P, hl, hP, -⟩, l, hstack⟩
  obtain ⟨A, rfl, rfl⟩ := hl.exists_cons hstack
  obtain rfl : A = [] := List.length_eq_zero_iff.mp (Nat.le_zero.mp (Nat.le_of_succ_le_succ hl.length_le))
  have hbegin : BacksWithin P.length 1 db := ⟨henabled, [db.objects], P, hl, hP, le_rfl⟩
  have hblock : BlockInvariant R d d (fun _ => True) db.objects.dynamic b
      (fun k => (BacksWithin P.length (k + 1) : Database β ω → Prop)) fun _ => True :=
    { operationInvariant P.length d with
      operates := operates P.length 0
      objects := fun h _ _ => h.record _
      other := fun _ _ _ h => ⟨h.enabled, h.states⟩
      ended := fun _ _ _ => trivial
      resize := fun _ h => by
        obtain ⟨henabled, A, P, hl, hP, hn⟩ := h
        exact ⟨henabled, A, P, ⟨hl.activeSessions, hl.stack, hl.length_le, hl.lost⟩, hP, hn⟩ }
  obtain ⟨hok, herr⟩ := hblock.applyBlock (fun _ _ op _ => op.admitted_true R) skip db ⟨hbegin, rfl⟩
  refine ⟨fun a db' hx => ?_, fun e db' hx => ?_⟩
  · obtain ⟨hI, hext, -⟩ := hok a db' hx
    refine ⟨P.length, ?_, hI⟩
    calc P.length ≤ db.objects.headBlockId.num := hP.1
      _ = b.previous.num := congrArg BlockId.num hext.previous
      _ < b.id.num := Nat.lt_succ_self _
      _ = db'.objects.headBlockId.num := (congrArg BlockId.num hext.headBlockId).symm
  · exact (herr e db' hx).imp (fun hI => ⟨_, hI⟩) id

/-- `pop_block` goes back by a committed state. -/
lemma popUndo :
    Upholds (BacksWithin n 0) (fun _ : Database β ω => True) Database.popUndo := by
  refine Triple.bind (Q := fun _ => BacksWithin n 0) (Triple.update fun _ h => ?_) fun _ => ?_
  · exact ⟨h.enabled, h.states⟩
  · refine triple_onUndo (fun db o u h hu => ?_) fun _ _ h _ => h
    obtain ⟨s, l, -, hstack, rfl, rfl⟩ := UndoDatabase.popCommit_restoreSnapshot hu
    obtain ⟨-, A, P, hl, hP, hn⟩ := h
    obtain rfl : P = s :: l := hl.committed.symm.trans hstack
    refine ⟨rfl, [], l, ⟨hl.activeSessions, rfl, le_rfl, fun hlt => (by cases hlt)⟩, hP.2, ?_⟩
    exact (Nat.le_succ _).trans hn

end BacksWithin

/-- A block is committed. -/
lemma Database.BackedBlock.sessionCommit :
    Triple Database.BackedBlock Database.sessionCommit (fun _ => Database.Backs 0)
      (OnFailure (Database.Backs 1) fun _ : Database β ω => True) := by
  refine Triple.bind (Q := fun _ => Database.BackedBlock) (Triple.update fun _ h => ?_) fun _ => ?_
  · obtain ⟨n, hn, h⟩ := h
    exact ⟨n, hn, h.enabled, h.states⟩
  · refine triple_onUndo (fun db o u h hu => ?_) fun _ _ ⟨n, _, h⟩ _ => ⟨n, h⟩
    obtain ⟨u', hcommit, hou⟩ := except_map_eq_ok.mp hu
    obtain ⟨rfl, rfl⟩ := Prod.mk.inj hou
    unfold UndoDatabase.commit at hcommit
    split_ifs at hcommit
    cases hcommit
    obtain ⟨n, hn, henabled, A, P, hl, hP, hlength⟩ := h
    refine ⟨_, henabled, [], A ++ P, ⟨?_, hl.stack, le_rfl, fun hlt => (by cases hlt)⟩, ?_, le_rfl⟩
    · exact congrArg (· - 1) hl.activeSessions
    · have hA := hl.length_le
      have hle : (A ++ P).length ≤ db.objects.headBlockId.num := by
        rw [List.length_append]
        omega
      refine ⟨hle, ?_⟩
      match A with
      | [] => exact hP.2
      | [s] => exact hP
      | _ :: _ :: _ => simp at hA

/-- **The calls of a node keep the committed states backed.** -/
theorem backs_chainInvariant (R : Rules β ω) (d : ℕ) :
    ChainInvariant R d (fun _ => True) (fun _ => True) (fun _ => True) Database.Backs
      Database.BackedBlock fun _ => True where
  carried _ _ _ := trivial
  assembled _ _ _ _ := trivial
  crash _ := trivial
  other _ _ _ _ _ _ h := by
    obtain ⟨n, h⟩ := h
    exact ⟨n, h.enabled, h.states⟩
  stored _ h := by
    obtain ⟨n, hn, h⟩ := h
    exact ⟨n, hn, h.enabled, h.states⟩
  ended _ _ _ := trivial
  applied h := by
    obtain ⟨n, -, h⟩ := h
    exact ⟨n, h⟩
  enabled h := by
    obtain ⟨n, h⟩ := h
    exact h.enabled
  start _ h := by
    obtain ⟨n, h⟩ := h
    exact ⟨n, h.opened⟩
  undo _ := Triple.of_exists fun n => (BacksWithin.sessionUndo (n := n) _).conseq (fun _ h => h)
    (fun _ _ h => ⟨n, h⟩) fun _ _ h => h
  merge := Triple.of_exists fun n => (BacksWithin.sessionMerge (n := n)).conseq (fun _ h => h)
    (fun _ _ h => ⟨n, h⟩) fun _ _ h => h.imp (fun hI => ⟨n, hI⟩) id
  pop := Triple.of_exists fun n => (BacksWithin.popUndo (n := n)).conseq (fun _ h => h)
    (fun _ _ h => ⟨n, h⟩) fun _ _ h => h.imp (fun hI => ⟨n, hI⟩) id
  transaction {k trx} _ hk _ := by
    obtain ⟨k, rfl⟩ := Nat.exists_eq_add_of_le' hk
    refine Triple.of_exists fun n => ?_
    have htrx : Upholds (BacksWithin n (k + 1) : Database β ω → Prop) (fun _ => True)
        (Database.applyTransaction R d trx) := by
      exact Upholds.applyTransaction
        (fun op _ => (BacksWithin.operates n k).operation op (op.admitted_true R))
        fun _ h => h.record _
    exact htrx.conseq (fun _ h => h) (fun _ _ h => ⟨n, h⟩) fun _ _ h => h.imp (fun hI => ⟨n, hI⟩) id
  block b skip _ _ := BacksWithin.applyBlock b skip
  commit := Database.BackedBlock.sessionCommit

/-! ### Popping blocks -/

/-- `last_non_undoable_block_num`: the difference of unsigned numbers wraps around below zero. -/
def Database.lastNonUndoableBlockNum (db : Database β ω) : ℕ :=
  if db.undo.size ≤ db.objects.headBlockNumber then db.objects.headBlockNumber - db.undo.size
  else db.objects.headBlockNumber + 2 ^ 32 - db.undo.size

/-- `pop_block` of the fork database, `n` times. -/
def ForkDatabase.popTimes : ℕ → ForkDatabase β → Except ChainError (ForkDatabase β)
  | 0, f => .ok f
  | n + 1, f => do
      let f ← f.popBlock
      popTimes n f

/-- `pop_block`, `n` times. -/
def Database.popTimes (R : Rules β ω) : ℕ → Act β ω Unit
  | 0 => pure ()
  | n + 1 => do
      popBlock R
      popTimes R n

/-- `pop_block` finds the head block of the objects. -/
def Database.Finds (R : Rules β ω) (db : Database β ω) (o : Objects β ω) : Prop :=
  (fetchBlockById R db o.headBlockId).isSome = true

namespace Database

variable {db db' : Database β ω} {id : BlockId} {n : ℕ}

/-- The database after `pop_block`: the fork database is `f`, the objects are those of the newest
state `s`, and the transactions of the block are kept. -/
def popped (db : Database β ω) (b : SignedBlock β) (f : ForkDatabase β) (s : Objects β ω)
    (l : List (Objects β ω)) : Database β ω :=
  { db with
    objects := s
    undo := { db.undo with stack := l, disabled := false }
    undoLog := undoEvent .popCommit db.objects db.undo :: db.undoLog
    forkDb := f
    poppedTx := b.transactions ++ db.poppedTx }

/-- No session is open. -/
structure Closed (db : Database β ω) : Prop where
  pendingTxSession : db.pendingTxSession = false
  activeSessions : db.undo.activeSessions = 0

/-- What `pop_block` does when no session is open. -/
lemma popBlock_eq_ok (h : db.Closed) : popBlock R db = (.ok (), db') ↔
    ∃ b f s l, fetchBlockById R db db.objects.headBlockId = some b ∧ db.forkDb.popBlock = .ok f ∧
      db.undo.stack = s :: l ∧ db' = db.popped b f s l := by
  have hreset : resetPendingSession db = (.ok (), db) := by
    refine (bind_ok (gets_apply _ _)).trans ?_
    rw [h.pendingTxSession]
    rfl
  rw [popBlock]
  rw [bind_ok hreset, bind_ok (gets_apply _ _)]
  cases hb : fetchBlockById R db db.objects.headBlockId with
  | none => simp
  | some b =>
      cases hf : db.forkDb.popBlock with
      | error e => simp [fcLift, Except.mapError, bind_apply]
      | ok f =>
          cases hstack : db.undo.stack with
          | nil =>
              simp [fcLift, Except.mapError, bind_apply, popUndo, noteUndo, onUndo,
                UndoDatabase.popCommit, h.activeSessions, hstack]
          | cons s l =>
              simp [fcLift, Except.mapError, popUndo, noteUndo, onUndo,
                UndoDatabase.popCommit, h.activeSessions, hstack, popped, eq_comm,
                UndoDatabase.restoreSnapshot, bind, Except.bind, pure, Except.pure]

/-- What `pop_block` finds does not change by popping. -/
lemma finds_popped {b : SignedBlock β} {f : ForkDatabase β} {s o : Objects β ω}
    {l : List (Objects β ω)} (hf : db.forkDb.popBlock = .ok f) :
    (db.popped b f s l).Finds R o ↔ db.Finds R o := by
  obtain ⟨h, prev, -, -, rfl⟩ := ForkDatabase.popBlock_eq_ok.mp hf
  exact Iff.rfl

lemma Closed.popped (h : db.Closed) (b : SignedBlock β) (f : ForkDatabase β) (s : Objects β ω)
    (l : List (Objects β ω)) : (db.popped b f s l).Closed := ⟨h.pendingTxSession, h.activeSessions⟩

/-- **`pop_block` returns `n` times** exactly if there are so many undo states, the head blocks are
found and the fork database can go back so far. -/
theorem popTimes_iff (h : db.Closed) (n : ℕ) : (∃ db', popTimes R n db = (.ok (), db')) ↔
    n ≤ db.undo.size ∧ (∀ o ∈ (db.objects :: db.undo.stack).take n, db.Finds R o) ∧
      ∃ f, db.forkDb.popTimes n = .ok f := by
  induction n generalizing db with
  | zero => simp [popTimes, ForkDatabase.popTimes]
  | succ n ih =>
      have hstep : (∃ db', popTimes R (n + 1) db = (.ok (), db')) ↔
          ∃ db₁, popBlock R db = (.ok (), db₁) ∧ ∃ db', popTimes R n db₁ = (.ok (), db') := by
        simp only [popTimes, bind_eq_ok]
        constructor
        · rintro ⟨db', _, db₁, hpop, hrest⟩
          exact ⟨db₁, hpop, db', hrest⟩
        · rintro ⟨db₁, hpop, db', hrest⟩
          exact ⟨db', _, db₁, hpop, hrest⟩
      rw [hstep]
      constructor
      · rintro ⟨db₁, hpop, hrest⟩
        obtain ⟨b, f, s, l, hb, hf, hstack, rfl⟩ := (popBlock_eq_ok h).mp hpop
        obtain ⟨hn, hfinds, f', hf'⟩ := (ih (h.popped b f s l)).mp hrest
        refine ⟨?_, ?_, f', ?_⟩
        · rw [UndoDatabase.size, hstack]
          exact Nat.succ_le_succ hn
        · rw [List.take_succ_cons, hstack]
          refine List.forall_mem_cons.mpr ⟨Option.isSome_of_eq_some hb, fun o ho => ?_⟩
          exact (finds_popped hf).mp (hfinds o ho)
        · rw [ForkDatabase.popTimes, hf]
          exact hf'
      · rintro ⟨hn, hfinds, f', hf'⟩
        obtain ⟨f, hf, hrest⟩ := except_bind_eq_ok.mp hf'
        cases hstack : db.undo.stack with
        | nil => simp [UndoDatabase.size, hstack] at hn
        | cons s l =>
            rw [List.take_succ_cons, hstack, List.forall_mem_cons] at hfinds
            obtain ⟨b, hb⟩ := Option.isSome_iff_exists.mp hfinds.1
            refine ⟨_, (popBlock_eq_ok h).mpr ⟨b, f, s, l, hb, hf, hstack, rfl⟩, ?_⟩
            refine (ih (h.popped b f s l)).mpr ⟨?_, fun o ho => ?_, f', hrest⟩
            · rw [UndoDatabase.size, hstack] at hn
              exact Nat.le_of_succ_le_succ hn
            · exact (finds_popped hf).mpr (hfinds.2 o ho)

/-- The objects after `n` blocks have been popped. -/
lemma popTimes_objects (h : db.Closed) (hpop : popTimes R n db = (.ok (), db')) :
    (db.objects :: db.undo.stack)[n]? = some db'.objects := by
  induction n generalizing db with
  | zero =>
      cases hpop
      rfl
  | succ n ih =>
      obtain ⟨_, db₁, hpop, hrest⟩ := bind_eq_ok.mp hpop
      obtain ⟨b, f, s, l, -, -, hstack, rfl⟩ := (popBlock_eq_ok h).mp hpop
      rw [List.getElem?_cons_succ, hstack]
      exact ih (h.popped b f s l) hrest

/-- The loop of a switch pops the blocks above the one it is to go back to. -/
lemma popUntil_eq_popTimes (h : db.Closed) {j fuel : ℕ}
    (hne : ∀ i < j, ∀ o ∈ (db.objects :: db.undo.stack)[i]?, o.headBlockId ≠ id)
    (heq : ∀ o ∈ (db.objects :: db.undo.stack)[j]?, o.headBlockId = id) (hfuel : j ≤ fuel) :
    popUntil R id fuel db = popTimes R j db := by
  induction j generalizing db fuel with
  | zero =>
      have hid : db.objects.headBlockId = id := heq _ rfl
      cases fuel with
      | zero => simp [popUntil, popTimes, bind_apply, hid]
      | succ fuel => simp [popUntil, popTimes, bind_apply, hid]
  | succ j ih =>
      have hid : db.objects.headBlockId ≠ id := hne 0 (Nat.succ_pos j) _ rfl
      obtain ⟨fuel, rfl⟩ := Nat.exists_eq_add_of_le' (Nat.one_le_of_lt hfuel)
      have hstep : popUntil R id (fuel + 1) db = (popBlock R >>= fun _ => popUntil R id fuel) db := by
        simp [popUntil, bind_apply, hid]
      rw [hstep, popTimes, bind_apply, bind_apply]
      rcases hpop : popBlock R db with ⟨e | _, db₁⟩
      · rfl
      · obtain ⟨b, f, s, l, -, -, hstack, rfl⟩ := (popBlock_eq_ok h).mp hpop
        refine ih (h.popped b f s l) (fun i hi o ho => ?_) (fun o ho => ?_) (Nat.le_of_succ_le_succ hfuel)
        · refine hne (i + 1) (Nat.succ_lt_succ hi) o ?_
          rw [List.getElem?_cons_succ, hstack]
          exact ho
        · refine heq o ?_
          rw [List.getElem?_cons_succ, hstack]
          exact ho

/-- The loop of a switch throws if no undo state has the block it is to go back to. -/
lemma popUntil_ne_ok (h : db.Closed) {fuel : ℕ}
    (hne : ∀ o ∈ db.objects :: db.undo.stack, o.headBlockId ≠ id) (hfuel : db.undo.size ≤ fuel) :
    popUntil R id fuel db ≠ (.ok (), db') := by
  have hid : db.objects.headBlockId ≠ id := hne _ List.mem_cons_self
  induction fuel generalizing db with
  | zero =>
      intro hpop
      have hstep : popUntil R id 0 db = popBlock R db := by simp [popUntil, bind_apply, hid]
      obtain ⟨b, f, s, l, -, -, hstack, -⟩ := (popBlock_eq_ok h).mp (hstep.symm.trans hpop)
      simp [UndoDatabase.size, hstack] at hfuel
  | succ fuel ih =>
      intro hpop
      have hstep : popUntil R id (fuel + 1) db = (popBlock R >>= fun _ => popUntil R id fuel) db := by
        simp [popUntil, bind_apply, hid]
      obtain ⟨_, db₁, hfirst, hrest⟩ := bind_eq_ok.mp (hstep.symm.trans hpop)
      obtain ⟨b, f, s, l, -, -, hstack, rfl⟩ := (popBlock_eq_ok h).mp hfirst
      rw [hstack] at hne
      rw [UndoDatabase.size, hstack] at hfuel
      exact ih (h.popped b f s l) (List.forall_mem_cons.mp hne).2 (Nat.le_of_succ_le_succ hfuel)
        (hne s (List.mem_cons_of_mem _ List.mem_cons_self)) hrest

end Database

/-! ### The main chain under the states -/

/-- The committed states are those between the blocks of the chain, which are numbered. -/
structure Descent (o : Objects β ω) (P : List (Objects β ω)) (m : ℕ) : Prop extends Lineage o P where
  numbered : ∀ s ∈ o :: P, s.dynamic.Numbered

lemma descent_invariant :
    HistoryInvariant UndoEvent.Untrimmed
      (Descent : Objects β ω → List (Objects β ω) → ℕ → Prop) where
  trim {o P m k newest} h hN := by
    refine ⟨hN rfl, h.take _, fun s hs => h.numbered s ?_⟩
    rcases List.mem_cons.mp hs with rfl | hs
    · exact List.mem_cons_self
    · exact List.mem_cons_of_mem _ (List.mem_of_mem_take hs)
  pop h _ := ⟨h.pop, fun s hs => h.numbered s (List.mem_cons_of_mem _ hs)⟩
  resize h _ := ⟨h.toLineage, h.numbered⟩
  commit {o o' P b} h hext := by
    have hs := h.sound o List.mem_cons_self
    have hn := h.numbered o List.mem_cons_self
    exact ⟨h.commit hext, List.forall_mem_cons.mpr ⟨hn.extends_ hs hext, h.numbered⟩⟩

/-- Every state is one block below the one above it. -/
lemma Lineage.headBlockNumber_add {o s : Objects β ω} {P : List (Objects β ω)} {i : ℕ}
    (h : Lineage o P) (hs : (o :: P)[i]? = some s) : s.headBlockNumber + i = o.headBlockNumber := by
  induction P generalizing o i with
  | nil =>
      obtain ⟨hi, rfl⟩ := List.getElem?_eq_some_iff.mp hs
      simp only [List.length_singleton, Nat.lt_one_iff] at hi
      subst hi
      rfl
  | cons s' P ih =>
      cases i with
      | zero =>
          cases hs
          rfl
      | succ i =>
          rw [List.getElem?_cons_succ] at hs
          obtain ⟨b, hext⟩ := h.head
          have hsound := h.sound s' (List.mem_cons_of_mem _ List.mem_cons_self)
          calc s.headBlockNumber + (i + 1) = s'.headBlockNumber + 1 := by rw [← ih h.pop hs]; rfl
            _ = b.blockNum := (hext.blockNum_eq hsound).symm
            _ = o.headBlockNumber := hext.headBlockNumber.symm

namespace Descent

variable {o s : Objects β ω} {P : List (Objects β ω)} {m i : ℕ} {b : SignedBlock β}

lemma pop (h : Descent o (s :: P) m) : Descent s P m :=
  ⟨h.toLineage.pop, fun s' hs => h.numbered s' (List.mem_cons_of_mem _ hs)⟩

/-- The state before a block of the chain is the one of its number. -/
lemma headBlockId_eq_iff (h : Descent o P m) (hb : b ∈ o.chain) (hs : (o :: P)[i]? = some s) :
    s.headBlockId = b.previous ↔ i + b.previous.num = o.headBlockNumber := by
  have hnum := h.headBlockNumber_add hs
  have hsound : s.headBlockId.num = s.headBlockNumber :=
    (h.sound s (List.mem_of_getElem? hs)).headBlockId
  constructor
  · intro hid
    rw [hid] at hsound
    omega
  · intro hi
    induction P generalizing o i with
    | nil =>
        obtain ⟨hlt, rfl⟩ := List.getElem?_eq_some_iff.mp hs
        simp only [List.length_singleton, Nat.lt_one_iff] at hlt
        subst hlt
        have hle : b.previous.num + 1 ≤ o.headBlockNumber :=
          (h.numbered o List.mem_cons_self).le_head b hb
        omega
    | cons s' P ih =>
        obtain ⟨b', hext⟩ := h.head
        have hs' := h.sound s' (List.mem_cons_of_mem _ List.mem_cons_self)
        have hhead : o.headBlockNumber = s'.headBlockNumber + 1 :=
          hext.headBlockNumber.trans (hext.blockNum_eq hs')
        have hchain : o.chain = b' :: s'.chain := hext.chain
        have hprev : s'.headBlockId = b'.previous := hext.previous
        have hle : b.previous.num + 1 ≤ o.headBlockNumber :=
          (h.numbered o List.mem_cons_self).le_head b hb
        cases i with
        | zero => omega
        | succ i =>
            rw [List.getElem?_cons_succ] at hs
            rw [hchain, List.mem_cons] at hb
            rcases hb with rfl | hb
            · -- the newest block: its state is the newest one
              have hnum' : b.previous.num = s'.headBlockNumber := by
                rw [← hprev]
                exact hs'.headBlockId
              obtain rfl : i = 0 := by omega
              cases hs
              exact hprev
            · exact ih h.pop hb hs (by omega) (by omega)

end Descent

/-! ### The horizon -/

namespace Database

variable {db₀ db db' : Database β ω} {l : List (Call β)}

/-- Every call is within bounds that allow everything. -/
lemma within_true (l : List (Call β)) :
    ∀ c ∈ l, c.Within (fun _ => True) (fun _ => True) fun _ => True := by
  intro c _
  cases c <;> simp [Call.Within]

/-- A run leaves the committed states backed. -/
lemma Run.backs (hrun : Run R d db₀ l db) (h₀ : db₀.Begins) :
    Idle (fun _ => True) (fun _ => True) Backs db := by
  refine (backs_chainInvariant R d).run hrun (within_true l) ⟨h₀.toFresh.holds, ?_⟩
  rw [h₀.pendingTxSession]
  exact ⟨0, h₀.enabled, [], [], ⟨h₀.activeSessions, h₀.stack, le_rfl, fun _ => rfl⟩,
    backed_singleton _, le_rfl⟩

lemma sound_chainInvariant (R : Rules β ω) (d : ℕ) :
    ChainInvariant R d (fun _ => True) (fun _ => True) (fun _ => True)
      (fun _ => (Throughout (fun _ _ => True) (·.dynamic.Sound) : Database β ω → Prop))
      (Throughout (fun _ _ => True) (·.dynamic.Sound)) fun _ => True :=
  Throughout.leads_chainInvariant fun _ _ hleads ho => (hleads ho).2

/-- A run leaves the objects and all states sound. -/
lemma Run.sound (hrun : Run R d db₀ l db) (h₀ : db₀.Begins) :
    Idle (fun _ => True) (fun _ => True)
      (fun _ => Throughout (fun _ _ => True) (·.dynamic.Sound)) db := by
  refine (sound_chainInvariant R d).run hrun (within_true l) ⟨h₀.toFresh.holds, trivial, h₀.enabled,
    h₀.sound, ?_⟩
  rw [h₀.stack]
  exact List.forall_mem_nil _

/-- So does `clear_pending` after it. -/
lemma Run.clearPending (hrun : Run R d db₀ l db) (h₀ : db₀.Begins)
    (hclear : Database.clearPending db = (.ok (), db')) :
    db'.Closed ∧ db'.Backs 0 ∧ db'.objects.dynamic.Sound := by
  have hback := ((backs_chainInvariant R d).pending.clearPending (fun _ => True) db
    (settled_iff_idle.mpr (hrun.backs h₀))).1 _ _ hclear
  have hsound := ((sound_chainInvariant R d).pending.clearPending (fun _ => True) db
    (settled_iff_idle.mpr (hrun.sound h₀))).1 _ _ hclear
  obtain ⟨n, hn⟩ := hback.2
  obtain ⟨A, P, hl, -⟩ := hn.states
  exact ⟨⟨hback.1.2.2, hl.activeSessions⟩, hback.2, hsound.2.2.2.1⟩

/-- If no open session has been trimmed, the states are those of the main chain then. -/
lemma Run.descent (hrun : Run R d db₀ l db) (h₀ : db₀.Begins)
    (huntrimmed : ∀ e ∈ db.undoLog, e.Untrimmed)
    (hclear : Database.clearPending db = (.ok (), db')) :
    Descent db'.objects db'.undo.stack db'.undo.maxSize := by
  have hbegin : Descent db₀.objects [] db₀.undo.maxSize := by
    have hchain : db₀.objects.dynamic.chain = [] := h₀.chain
    refine ⟨⟨List.forall_mem_singleton.mpr h₀.sound, List.isChain_singleton _⟩,
      List.forall_mem_singleton.mpr ⟨?_, ?_⟩⟩
    · exact hchain ▸ List.Pairwise.nil
    · exact hchain ▸ List.forall_mem_nil _
  have hdb := descent_invariant.run h₀ hbegin hrun
  have hidle : Idle (fun _ => True) (fun _ => True) (Chronicle UndoEvent.Untrimmed Descent)
      { db with pendingTx := [] } :=
    ⟨⟨fun _ _ => trivial, fun _ _ => trivial, fun _ _ => trivial, fun _ _ => trivial⟩, hdb.2⟩
  obtain ⟨db'', hreset, -, -, P, hstack, hH⟩ := Chronicle.resetPendingSession hidle huntrimmed
  have heq : Database.clearPending db = (.ok (), db'') := (bind_ok (update_apply _ _)).trans hreset
  cases hclear.symm.trans heq
  exact hstack ▸ hH

/-- Backed states are at most as many as blocks. -/
lemma Backs.size_le (h : db.Backs 0) (hsound : db.objects.dynamic.Sound) :
    db.undo.size ≤ db.objects.headBlockNumber := by
  obtain ⟨n, -, A, P, hl, hP, -⟩ := h
  calc db.undo.size = P.length := by rw [UndoDatabase.size, hl.committed]
    _ ≤ (A.getLast?.getD db.objects).headBlockId.num := hP.1
    _ = db.objects.headBlockId.num := by
      rw [List.length_eq_zero_iff.mp (Nat.le_zero.mp hl.length_le)]
      rfl
    _ = db.objects.headBlockNumber := hsound.headBlockId

/-- The difference does not wrap around then. -/
lemma lastNonUndoableBlockNum_of_le (h : db.undo.size ≤ db.objects.headBlockNumber) :
    db.lastNonUndoableBlockNum = db.objects.headBlockNumber - db.undo.size := if_pos h

/-- The loop of a switch gets to the block before a block of the chain exactly if that is not below
the horizon, and the blocks above it can be popped. -/
lemma popBlocksUntil_iff (h : db.Closed) (hdescent : Descent db.objects db.undo.stack db.undo.maxSize)
    (hle : db.undo.size ≤ db.objects.headBlockNumber) {b : SignedBlock β}
    (hb : b ∈ db.objects.chain) :
    (∃ db', popBlocksUntil R b.previous db = (.ok (), db') ∧
        db'.objects.headBlockId = b.previous) ↔
      db.lastNonUndoableBlockNum ≤ b.previous.num ∧
      (∀ o ∈ (db.objects :: db.undo.stack).take (db.objects.headBlockNumber - b.previous.num),
        db.Finds R o) ∧
      ∃ f, db.forkDb.popTimes (db.objects.headBlockNumber - b.previous.num) = .ok f := by
  have hloop : popBlocksUntil R b.previous db = popUntil R b.previous db.undo.size db := rfl
  have hhead : b.previous.num < db.objects.headBlockNumber :=
    (hdescent.numbered _ List.mem_cons_self).le_head b hb
  have hlength : (db.objects :: db.undo.stack).length = db.undo.size + 1 := rfl
  rw [lastNonUndoableBlockNum_of_le hle, hloop]
  by_cases hj : db.objects.headBlockNumber - b.previous.num ≤ db.undo.size
  · -- the state before the block is there
    have hbefore : ∀ o ∈ (db.objects :: db.undo.stack)[db.objects.headBlockNumber - b.previous.num]?,
        o.headBlockId = b.previous :=
      fun o ho => (hdescent.headBlockId_eq_iff hb ho).mpr (by omega)
    rw [popUntil_eq_popTimes h (fun i hi o ho hid => ?_) hbefore hj]
    · have hpops := popTimes_iff (R := R) h (db.objects.headBlockNumber - b.previous.num)
      constructor
      · rintro ⟨db', hpop, -⟩
        exact ⟨by omega, (hpops.mp ⟨db', hpop⟩).2⟩
      · rintro ⟨-, hfinds⟩
        obtain ⟨db', hpop⟩ := hpops.mpr ⟨hj, hfinds⟩
        exact ⟨db', hpop, hbefore _ (popTimes_objects h hpop)⟩
    · have hi' := (hdescent.headBlockId_eq_iff hb ho).mp hid
      omega
  · -- it has been trimmed
    constructor
    · rintro ⟨db', hpop, -⟩
      refine absurd hpop (popUntil_ne_ok h (fun o ho hid => ?_) le_rfl)
      obtain ⟨i, hi⟩ := List.mem_iff_getElem?.mp ho
      have hnum := (hdescent.headBlockId_eq_iff hb hi).mp hid
      obtain ⟨hlt, -⟩ := List.getElem?_eq_some_iff.mp hi
      omega
    · rintro ⟨hlow, -⟩
      omega

end Database

/-- **The undo horizon is exact** where no session is open: there are at most as many undo states as
blocks, and `last_non_undoable_block_num` is the difference. When pending transactions are cleared,
`pop_block` returns so often in a row, if it finds the blocks and the fork database can go back so
far; and if no open session was trimmed, a switch gets back to a block of the main chain exactly if
this is not below the horizon, under the same conditions. -/
theorem undoHorizon_exact (R : Rules β ω) (d : ℕ) {db₀ db : Database β ω} {l : List (Call β)}
    (h₀ : db₀.Begins) (hrun : Database.Run R d db₀ l db) :
    (db.undo.activeSessions = 0 → db.undo.size ≤ db.objects.headBlockNumber ∧
      db.lastNonUndoableBlockNum = db.objects.headBlockNumber - db.undo.size) ∧
    ∀ db', Database.clearPending db = (.ok (), db') →
      db'.undo.activeSessions = 0 ∧ db'.undo.size ≤ db'.objects.headBlockNumber ∧
      db'.lastNonUndoableBlockNum = db'.objects.headBlockNumber - db'.undo.size ∧
      (∀ n, (∃ db'', Database.popTimes R n db' = (.ok (), db'')) ↔
        n ≤ db'.objects.headBlockNumber - db'.lastNonUndoableBlockNum ∧
        (∀ o ∈ (db'.objects :: db'.undo.stack).take n, db'.Finds R o) ∧
        ∃ f, db'.forkDb.popTimes n = .ok f) ∧
      ((∀ e ∈ db.undoLog, e.Untrimmed) → ∀ f, ∀ b ∈ db'.objects.chain,
        ((∃ db'', Database.popBlocksUntil R b.previous { db' with forkDb := f } = (.ok (), db'') ∧
            db''.objects.headBlockId = b.previous) ↔
          db'.lastNonUndoableBlockNum ≤ b.previous.num ∧
          (∀ o ∈ (db'.objects :: db'.undo.stack).take
            (db'.objects.headBlockNumber - b.previous.num),
              Database.Finds R { db' with forkDb := f } o) ∧
          ∃ f', f.popTimes (db'.objects.headBlockNumber - b.previous.num) = .ok f')) := by
  refine ⟨fun hactive => ?_, fun db' hclear => ?_⟩
  · have hback := (hrun.backs h₀).2
    have hsound : db.objects.dynamic.Sound := (hrun.sound h₀).2.2.2.1
    have hp : db.pendingTxSession = false := by
      cases hpending : db.pendingTxSession with
      | false => rfl
      | true =>
          rw [hpending] at hback
          obtain ⟨n, -, A, P, hl, -⟩ := hback
          exact absurd (hl.activeSessions.symm.trans hactive) one_ne_zero
    rw [hp] at hback
    have hle := hback.size_le hsound
    exact ⟨hle, Database.lastNonUndoableBlockNum_of_le hle⟩
  · obtain ⟨hclosed, hback, hsound⟩ := hrun.clearPending h₀ hclear
    have hle := hback.size_le hsound
    have hlast := Database.lastNonUndoableBlockNum_of_le hle
    refine ⟨hclosed.activeSessions, hle, hlast, fun n => ?_, fun huntrimmed f b hb => ?_⟩
    · rw [hlast, Nat.sub_sub_self hle]
      exact Database.popTimes_iff hclosed n
    · have hdescent := hrun.descent h₀ huntrimmed hclear
      have hwith : ({ db' with forkDb := f } : Database β ω).Closed :=
        ⟨hclosed.pendingTxSession, hclosed.activeSessions⟩
      exact Database.popBlocksUntil_iff hwith hdescent hle hb

/-- With two blocks both can be undone, and a switch gets back to the first one with the fork database
that holds a branch off it. -/
theorem undoHorizon_exact_twoBlocks :
    twoBlocks.lastNonUndoableBlockNum = 0 ∧ ∃ db', Database.clearPending twoBlocks = (.ok (), db') ∧
      db'.lastNonUndoableBlockNum = 0 ∧
      ∃ db'', Database.popBlocksUntil calmRules ⟨1, 1⟩ { db' with forkDb := twoBlocks.forkDb } =
        (.ok (), db'') ∧ db''.objects.headBlockId = ⟨1, 1⟩ := by
  have hactive : twoBlocks.undo.activeSessions = 0 := by decide +kernel
  have hzero : twoBlocks.objects.headBlockNumber - twoBlocks.undo.size = 0 := by decide +kernel
  have hclear : (Database.clearPending twoBlocks).1.isOk = true := by decide +kernel
  have huntrimmed : ∀ e ∈ twoBlocks.undoLog, e.call = .start → e.activeSessions ≤ e.maxSize := by
    decide +kernel
  have hblock : ∃ b ∈ (Database.clearPending twoBlocks).2.objects.chain, b.previous = ⟨1, 1⟩ := by
    decide +kernel
  have hlast : (Database.clearPending twoBlocks).2.lastNonUndoableBlockNum = 0 := by decide +kernel
  have hhead : (Database.clearPending twoBlocks).2.objects.headBlockNumber = 2 := by decide +kernel
  have hfinds : ∀ o ∈ ((Database.clearPending twoBlocks).2.objects ::
      (Database.clearPending twoBlocks).2.undo.stack).take 1,
      (Database.fetchBlockById calmRules { (Database.clearPending twoBlocks).2 with
        forkDb := twoBlocks.forkDb } o.headBlockId).isSome = true := by decide +kernel
  have hfork : (twoBlocks.forkDb.popTimes 1).isOk = true := by decide +kernel
  rcases hx : Database.clearPending twoBlocks with ⟨e | u, db'⟩
  · rw [hx] at hclear
    cases hclear
  · rcases hf : twoBlocks.forkDb.popTimes 1 with e | f'
    · rw [hf] at hfork
      cases hfork
    · simp only [hx] at hblock hlast hhead hfinds
      obtain ⟨b, hb, hprev⟩ := hblock
      obtain ⟨hopen, hcleared⟩ := undoHorizon_exact calmRules 1 (newChain_begins _) twoBlocks_run
      obtain ⟨-, -, -, -, hswitch⟩ := hcleared db' hx
      have hback := (hswitch huntrimmed twoBlocks.forkDb b hb).mpr
      rw [hprev, hhead] at hback
      exact ⟨(hopen hactive).2.trans hzero, db', rfl, hlast, hback ⟨hlast.le.trans (Nat.zero_le _),
        hfinds, f', hf⟩⟩

/-- A pending transaction after the first block counts as an undo state, and the difference wraps
around. Without it the first block can be undone by the count, but the fork database cannot go back
over it. -/
theorem not_undoHorizon_exact_oneBlock :
    (Database.Run calmRules 1 (newChain [0, 1, 2])
        [.pushBlock (emptyBlock .zero 1) {},
          .pushTransaction { id := 1, expiration := 1700000010 } {}] oneTransaction ∧
      oneTransaction.undo.size - oneTransaction.undo.activeSessions = 1 ∧
      oneTransaction.objects.headBlockNumber = 1 ∧
      oneTransaction.lastNonUndoableBlockNum = 2 ^ 32 - 1) ∧
    Database.Run calmRules 1 (newChain [0, 1, 2]) [.pushBlock (emptyBlock .zero 1) {}] oneBlock ∧
      oneBlock.undo.activeSessions = 0 ∧ oneBlock.objects.headBlockNumber = 1 ∧
      oneBlock.lastNonUndoableBlockNum = 0 ∧
      (Database.popBlock calmRules (Database.clearPending oneBlock).2).1 =
        .error (.fc .headBlockNull) :=
  ⟨⟨oneTransaction_run, by decide +kernel, by decide +kernel, by decide +kernel⟩, oneBlock_run,
    by decide +kernel, by decide +kernel, by decide +kernel, by decide +kernel⟩

end ZosCore
