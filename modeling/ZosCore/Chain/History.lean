import ZosCore.Chain.Calls

/-!
The undo history across runs: the objects under the open sessions, and the states of the
committed ones.

The stack of the undo database holds the states of the open sessions on top of those of the
committed ones. Only blocks are committed and popped, so what happens in sessions in between does
not matter: an invariant of the history is a property `H o P m` of the objects `o` under the
open sessions, of the committed states `P`, newest first, and of the size `m` to which the stack is
trimmed.

The calls on the undo database are logged. What a call finds may be restricted by `N`: the
invariant holds as long as all calls so far were in `N`.

* `HistoryInvariant`: what an invariant of the history needs.
* **`HistoryInvariant.chainInvariant`**: it is kept by all calls of a node, and no call on the undo
  database fails its assertions or trims the state of an open session.
-/

namespace ZosCore

open Exec

variable {β ω : Type}

/-! ### The log -/

/-- All calls on the undo database so far were in `N`. -/
def Logged (N : UndoEvent → Prop) (db : Database β ω) : Prop := ∀ e ∈ db.undoLog, N e

/-- The call finds the states of all open sessions, does not trim them, and passes its
assertions. -/
def UndoEvent.Safe (e : UndoEvent) : Prop :=
  e.activeSessions ≤ e.size ∧
  match e.call with
  | .start => e.activeSessions ≤ e.maxSize
  | .undo => e.activeSessions ≠ 0 ∧ e.size ≠ 0
  | .merge => e.activeSessions ≠ 0 ∧ (e.activeSessions = 1 ∧ e.size = 1 ∨ 2 ≤ e.size)
  | .commit => e.activeSessions ≠ 0
  | .popCommit => e.activeSessions = 0

/-- The call, with the objects `o` under `k` open sessions, the committed states `P`, the size `m`
and the newest state's last irreversible block. -/
def UndoEvent.of (call : UndoCall) (k : ℕ) (o : Objects β ω) (P : List (Objects β ω)) (m : ℕ)
    (newest : Option ℕ) : UndoEvent where
  call := call
  activeSessions := k
  size := k + P.length
  maxSize := m
  headBlockNumber := o.headBlockNumber
  lastIrreversibleBlockNum := o.lastIrreversibleBlockNum
  newestIrreversible := newest

/-! ### What an invariant of the history needs -/

/-- Opening a session trims committed states only, and `H` goes on to hold. -/
def Trims (N : UndoEvent → Prop) (H : Objects β ω → List (Objects β ω) → ℕ → Prop) : Prop :=
  ∀ {o P m k newest}, H o P m → N (.of .start k o P m newest) → k ≤ m ∧ H o (P.take (m - k)) m

/-- What an invariant of the history needs: sessions trim the committed states, `pop_block` goes
back by one of them, and a block gives the history its size and is committed. -/
structure HistoryInvariant (N : UndoEvent → Prop)
    (H : Objects β ω → List (Objects β ω) → ℕ → Prop) : Prop where
  trim : Trims N H
  pop : ∀ {o s P m}, H o (s :: P) m →
    N (.of .popCommit 0 o (s :: P) m (some s.lastIrreversibleBlockNum)) → H s P m
  resize : ∀ {o P m} {b : SignedBlock β}, H o P m → o.headBlockId = b.previous →
    H o P (b.blockNum - o.lastIrreversibleBlockNum + 1)
  commit : ∀ {o o' P} {b : SignedBlock β},
    H o P (b.blockNum - o.lastIrreversibleBlockNum + 1) → o.dynamic.Extends b o'.dynamic →
    H o' (o :: P) (b.blockNum - o.lastIrreversibleBlockNum + 1)

/-- The stack holds the states `A` of `k` open sessions on top of the committed states `P`. -/
structure Layered (u : UndoDatabase (Objects β ω)) (k : ℕ) (A P : List (Objects β ω)) : Prop where
  activeSessions : u.activeSessions = k
  stack : u.stack = A ++ P
  length : A.length = k

namespace Layered

variable {k : ℕ} {u : UndoDatabase (Objects β ω)} {A P : List (Objects β ω)}

lemma base (h : Layered u k A P) (cur : Objects β ω) : u.base cur = A.getLast?.getD cur := by
  rw [UndoDatabase.base, h.activeSessions, h.stack, List.take_left' h.length]

lemma size (h : Layered u k A P) : u.size = k + P.length := by
  rw [UndoDatabase.size, h.stack, List.length_append, h.length]

/-- What a call finds. -/
lemma event (h : Layered u k A P) (cur : Objects β ω) (call : UndoCall) :
    Database.undoEvent call cur u = .of call k (A.getLast?.getD cur) P u.maxSize
      (u.stack.head?.map (·.lastIrreversibleBlockNum)) := by
  simp only [Database.undoEvent, UndoEvent.of, h.activeSessions, h.size, h.base]

end Layered

/-- There are `k` open sessions, and `H` holds of the history. -/
def View (H : Objects β ω → List (Objects β ω) → ℕ → Prop) (k : ℕ) (cur : Objects β ω)
    (u : UndoDatabase (Objects β ω)) : Prop :=
  ∃ A P, Layered u k A P ∧ H (A.getLast?.getD cur) P u.maxSize

namespace View

variable {N : UndoEvent → Prop} {H : Objects β ω → List (Objects β ω) → ℕ → Prop} {k : ℕ}
  {cur : Objects β ω} {u u' : UndoDatabase (Objects β ω)}

/-- The history, from the objects under the open sessions. -/
lemma base (h : View H k cur u) : ∃ P, H (u.base cur) P u.maxSize ∧ u.size = k + P.length := by
  obtain ⟨A, P, hl, hH⟩ := h
  exact ⟨P, hl.base cur ▸ hH, hl.size⟩

/-- In an open session the objects may change. -/
lemma record (h : View H (k + 1) cur u) (cur' : Objects β ω) :
    View H (k + 1) cur' (u.record cur id) := by
  obtain ⟨A, P, hl, hH⟩ := h
  have hA := hl.length
  cases A with
  | nil => cases hA
  | cons s A =>
      rw [UndoDatabase.record_id (by simp [hl.stack])]
      refine ⟨s :: A, P, ⟨hl.activeSessions, hl.stack, hA⟩, ?_⟩
      rw [List.getLast?_cons] at hH ⊢
      exact hH

/-- A session is opened: the committed states are trimmed. -/
lemma opened (htrim : Trims N H) (h : View H k cur u)
    (hN : N (Database.undoEvent .start cur u)) :
    (Database.undoEvent .start cur u).Safe ∧ View H (k + 1) cur (u.opened cur) := by
  obtain ⟨A, P, hl, hH⟩ := h
  rw [hl.event] at hN ⊢
  obtain ⟨hk, hH⟩ := htrim hH hN
  refine ⟨⟨Nat.le_add_right _ _, hk⟩, cur :: A, P.take (u.maxSize - k), ⟨?_, ?_, ?_⟩, ?_⟩
  · exact congrArg (· + 1) hl.activeSessions
  · have hA := hl.length
    simp only [UndoDatabase.opened, hl.stack, List.cons_append]
    rw [List.take_append, List.take_of_length_le (by omega), hA]
  · exact congrArg (· + 1) hl.length
  · rw [List.getLast?_cons]
    exact hH

/-- A session is undone. -/
lemma undone (h : View H (k + 1) cur u) : (Database.undoEvent .undo cur u).Safe ∧
    ∃ s l, u.stack = s :: l ∧ u.activeSessions ≠ 0 ∧
      View H k s { u with stack := l, activeSessions := u.activeSessions - 1 } := by
  obtain ⟨A, P, hl, hH⟩ := h
  have hA := hl.length
  have hactive := hl.activeSessions
  rw [hl.event]
  cases A with
  | nil => cases hA
  | cons s A =>
      rw [List.getLast?_cons] at hH
      refine ⟨⟨Nat.le_add_right _ _, ?_, ?_⟩, s, A ++ P, hl.stack, by omega, A, P, ⟨?_, rfl, ?_⟩, hH⟩
      · exact Nat.succ_ne_zero k
      · simp only [UndoEvent.of]
        omega
      · simp only [hactive, Nat.add_sub_cancel]
      · simpa using hA

/-- A session is merged into the one before it. -/
lemma merged (h : View H (k + 2) cur u) : (Database.undoEvent .merge cur u).Safe ∧
    ∃ s l, u.stack = s :: l ∧ l ≠ [] ∧ u.activeSessions ≠ 0 ∧
      View H (k + 1) cur { u with stack := l, activeSessions := u.activeSessions - 1 } := by
  obtain ⟨A, P, hl, hH⟩ := h
  have hA := hl.length
  have hactive := hl.activeSessions
  rw [hl.event]
  match A with
  | [] => cases hA
  | [_] => cases hA
  | s :: s' :: A =>
      rw [List.getLast?_cons_cons] at hH
      refine ⟨⟨Nat.le_add_right _ _, Nat.succ_ne_zero _, .inr ?_⟩, s, s' :: A ++ P, hl.stack,
        by simp, by omega, s' :: A, P, ⟨?_, rfl, ?_⟩, hH⟩
      · simp only [UndoEvent.of]
        omega
      · simp only [hactive]
        omega
      · simpa using hA

/-- `pop_block`. -/
lemma popped (hinv : HistoryInvariant N H) (h : View H 0 cur u)
    (hN : N (Database.undoEvent .popCommit cur u)) :
    (Database.undoEvent .popCommit cur u).Safe ∧ ∀ s l, u.stack = s :: l →
      View H 0 s { u with stack := l, disabled := false } := by
  obtain ⟨A, P, hl, hH⟩ := h
  have hA := hl.length
  rw [hl.event] at hN ⊢
  refine ⟨⟨Nat.le_add_right _ _, rfl⟩, fun s l hs => ?_⟩
  cases List.length_eq_zero_iff.mp hA
  have hP : P = s :: l := by simpa [hl.stack] using hs
  subst hP
  simp only [hs, List.head?_cons, Option.map_some] at hN
  exact ⟨[], l, ⟨hl.activeSessions, rfl, rfl⟩, hinv.pop hH hN⟩

/-- A block is committed. -/
lemma committed (hinv : HistoryInvariant N H) (h : View H 1 cur u) {b : SignedBlock β}
    (hsize : u.maxSize = b.blockNum - (u.base cur).lastIrreversibleBlockNum + 1)
    (hext : (u.base cur).dynamic.Extends b cur.dynamic) :
    (Database.undoEvent .commit cur u).Safe ∧ u.activeSessions ≠ 0 ∧
      View H 0 cur { u with activeSessions := u.activeSessions - 1 } := by
  obtain ⟨A, P, hl, hH⟩ := h
  have hA := hl.length
  have hactive := hl.activeSessions
  rw [hl.base] at hsize hext
  rw [hl.event]
  obtain ⟨s, rfl⟩ := List.length_eq_one_iff.mp hA
  refine ⟨⟨Nat.le_add_right _ _, one_ne_zero⟩, by omega, [], s :: P, ⟨?_, hl.stack, rfl⟩, ?_⟩
  · simp only [hactive]
  · rw [hsize] at hH ⊢
    exact hinv.commit hH hext

end View

/-! ### The invariant across calls -/

/-- As long as all calls on the undo database were in `N`, they were safe, and `H` holds of the
history under `k` open sessions. -/
def Chronicle (N : UndoEvent → Prop) (H : Objects β ω → List (Objects β ω) → ℕ → Prop) (k : ℕ)
    (db : Database β ω) : Prop :=
  db.undo.disabled = false ∧
    (Logged N db → Logged UndoEvent.Safe db ∧ View H k db.objects db.undo)

/-- Where the program ends, the calls so far were safe. -/
def SafeSoFar (N : UndoEvent → Prop) (db : Database β ω) : Prop :=
  Logged N db → Logged UndoEvent.Safe db

/-- The open session is that of a block which has been applied. -/
def BlockApplied (N : UndoEvent → Prop) (H : Objects β ω → List (Objects β ω) → ℕ → Prop)
    (db : Database β ω) : Prop :=
  Chronicle N H 1 db ∧ (Logged N db → ∃ b, (db.undo.base db.objects).dynamic.Extends b
    db.objects.dynamic ∧
    db.undo.maxSize = b.blockNum - (db.undo.base db.objects).lastIrreversibleBlockNum + 1)

/-- A call on the undo database, with what is known before it is logged. -/
lemma triple_noteUndo_bind {α : Type} {I : Database β ω → Prop} {x : Act β ω α}
    {Q : α → Database β ω → Prop} {E : Failure → Database β ω → Prop} (call : UndoCall)
    (h : ∀ db, I db → Triple (fun s => s = { db with
      undoLog := Database.undoEvent call db.objects db.undo :: db.undoLog }) x Q E) :
    Triple I (Database.noteUndo call >>= fun _ => x) Q E :=
  fun db hdb => h db hdb _ rfl

namespace Chronicle

variable {R : Rules β ω} {d k : ℕ} {N : UndoEvent → Prop}
  {H : Objects β ω → List (Objects β ω) → ℕ → Prop} {db : Database β ω}

lemma safeSoFar (h : Chronicle N H k db) : SafeSoFar N db := fun hN => (h.2 hN).1

/-- One more call is logged. -/
lemma logged_cons {call : UndoCall} (h : Chronicle N H k db)
    (hN : ∀ e ∈ Database.undoEvent call db.objects db.undo :: db.undoLog, N e) :
    N (Database.undoEvent call db.objects db.undo) ∧ Logged UndoEvent.Safe db ∧
      View H k db.objects db.undo := by
  obtain ⟨he, hl⟩ := List.forall_mem_cons.mp hN
  exact ⟨he, h.2 hl⟩

lemma opened (htrim : Trims N H) (h : Chronicle N H k db) :
    Chronicle N H (k + 1) db.opened := by
  refine ⟨rfl, fun hN => ?_⟩
  obtain ⟨he, hsafe, hview⟩ := h.logged_cons hN
  obtain ⟨hs, hv⟩ := hview.opened htrim he
  exact ⟨List.forall_mem_cons.mpr ⟨hs, hsafe⟩, hv⟩

lemma startUndoSession (htrim : Trims N H) (forceEnable : Bool)
    {E : Failure → Database β ω → Prop} :
    Triple (Chronicle N H k) (Database.startUndoSession forceEnable)
      (fun _ => Chronicle N H (k + 1)) E := by
  intro db hdb
  rw [startUndoSession_eq (by rw [hdb.1]; rfl)]
  refine ⟨fun _ _ hx => ?_, fun _ _ hx => ?_⟩
  · cases hx
    exact hdb.opened htrim
  · cases hx

lemma sessionUndo (J : Database β ω → Prop) :
    Triple (Chronicle N H (k + 1)) Database.sessionUndo (fun _ => Chronicle N H k)
      (OnFailure J (SafeSoFar N)) := by
  refine triple_noteUndo_bind _ fun db hdb => triple_onUndo (fun s o u hs hu => ?_)
    fun s e hs hu => ?_
  · subst hs
    obtain ⟨s, l, hstack, rfl, rfl⟩ := UndoDatabase.undo_restoreSnapshot hu
    refine ⟨hdb.1, fun hN => ?_⟩
    obtain ⟨-, hsafe, hview⟩ := hdb.logged_cons hN
    obtain ⟨hs, s', l', hstack', -, hv⟩ := hview.undone
    cases hstack.symm.trans hstack'
    exact ⟨List.forall_mem_cons.mpr ⟨hs, hsafe⟩, hv⟩
  · subst hs
    intro hN
    obtain ⟨-, hsafe, hview⟩ := hdb.logged_cons hN
    exact List.forall_mem_cons.mpr ⟨hview.undone.1, hsafe⟩

lemma sessionMerge :
    Triple (Chronicle N H (k + 2)) Database.sessionMerge (fun _ => Chronicle N H (k + 1))
      (OnFailure (Chronicle N H (k + 2)) (SafeSoFar N)) := by
  refine triple_noteUndo_bind _ fun db hdb => triple_onUndo (fun s o u hs hu => ?_)
    fun s e hs hu => ?_
  · subst hs
    obtain ⟨u', hmerge, hou⟩ := except_map_eq_ok.mp hu
    obtain ⟨rfl, rfl⟩ := Prod.mk.inj hou
    obtain ⟨-, rfl⟩ := UndoDatabase.merge_combineSnapshot hmerge
    refine ⟨hdb.1, fun hN => ?_⟩
    obtain ⟨-, hsafe, hview⟩ := hdb.logged_cons hN
    obtain ⟨hs, s, l, hstack, -, -, hv⟩ := hview.merged
    refine ⟨List.forall_mem_cons.mpr ⟨hs, hsafe⟩, ?_⟩
    simp only [hstack, List.tail_cons]
    exact hv
  · subst hs
    refine ⟨hdb.1, fun hN => ?_⟩
    obtain ⟨-, hsafe, hview⟩ := hdb.logged_cons hN
    exact ⟨List.forall_mem_cons.mpr ⟨hview.merged.1, hsafe⟩, hview⟩

lemma popUndo (hinv : HistoryInvariant N H) :
    Upholds (Chronicle N H 0) (SafeSoFar N) Database.popUndo := by
  refine triple_noteUndo_bind _ fun db hdb => triple_onUndo (fun s o u hs hu => ?_)
    fun s e hs hu => ?_
  · subst hs
    obtain ⟨s, l, -, hstack, rfl, rfl⟩ := UndoDatabase.popCommit_restoreSnapshot hu
    refine ⟨rfl, fun hN => ?_⟩
    obtain ⟨he, hsafe, hview⟩ := hdb.logged_cons hN
    obtain ⟨hs, hv⟩ := hview.popped hinv he
    exact ⟨List.forall_mem_cons.mpr ⟨hs, hsafe⟩, hv s l hstack⟩
  · subst hs
    refine ⟨hdb.1, fun hN => ?_⟩
    obtain ⟨he, hsafe, hview⟩ := hdb.logged_cons hN
    exact ⟨List.forall_mem_cons.mpr ⟨(hview.popped hinv he).1, hsafe⟩, hview⟩

lemma sessionCommit (hinv : HistoryInvariant N H) :
    Triple (BlockApplied N H) Database.sessionCommit (fun _ => Chronicle N H 0)
      (OnFailure (Chronicle N H 1) (SafeSoFar N)) := by
  refine triple_noteUndo_bind _ fun db hdb => triple_onUndo (fun s o u hs hu => ?_)
    fun s e hs hu => ?_
  · subst hs
    obtain ⟨u', hcommit, hou⟩ := except_map_eq_ok.mp hu
    obtain ⟨rfl, rfl⟩ := Prod.mk.inj hou
    unfold UndoDatabase.commit at hcommit
    split_ifs at hcommit
    cases hcommit
    refine ⟨hdb.1.1, fun hN => ?_⟩
    obtain ⟨-, hsafe, hview⟩ := hdb.1.logged_cons hN
    obtain ⟨b, hext, hsize⟩ := hdb.2 (List.forall_mem_cons.mp hN).2
    obtain ⟨hs, -, hv⟩ := hview.committed hinv hsize hext
    exact ⟨List.forall_mem_cons.mpr ⟨hs, hsafe⟩, hv⟩
  · subst hs
    refine ⟨hdb.1.1, fun hN => ?_⟩
    obtain ⟨-, hsafe, hview⟩ := hdb.1.logged_cons hN
    obtain ⟨b, hext, hsize⟩ := hdb.2 (List.forall_mem_cons.mp hN).2
    exact ⟨List.forall_mem_cons.mpr ⟨(hview.committed hinv hsize hext).1, hsafe⟩, hview⟩

/-- A weaker property of the history. -/
lemma mono {H' : Objects β ω → List (Objects β ω) → ℕ → Prop} (hH : ∀ o P m, H o P m → H' o P m)
    (h : Chronicle N H k db) : Chronicle N H' k db := by
  refine ⟨h.1, fun hN => ⟨(h.2 hN).1, ?_⟩⟩
  obtain ⟨A, P, hl, hv⟩ := (h.2 hN).2
  exact ⟨A, P, hl, hH _ _ _ hv⟩

/-- In an open session the objects may change. -/
lemma record (h : Chronicle N H (k + 1) db) (o : Objects β ω) :
    Chronicle N H (k + 1) { db with undo := db.undo.record db.objects id, objects := o } :=
  ⟨(db.undo.record_disabled _ _).trans h.1, fun hN => ⟨(h.2 hN).1, (h.2 hN).2.record o⟩⟩

lemma operationInvariant (htrim : Trims N H) (n : ℕ) :
    OperationInvariant n (fun _ => True) (fun k => Chronicle N H (k + 1)) (SafeSoFar N) where
  crash h := h.safeSoFar
  proposals _ _ _ := trivial
  modify h _ := h.record _
  applied _ _ h := h
  start _ _ := startUndoSession htrim true
  undo _ _ := sessionUndo _
  merge _ _ := sessionMerge
  exit h hdis _ := by
    rw [h.1] at hdis
    cases hdis

lemma operates (htrim : Trims N H) (k : ℕ) :
    Operates R d (fun _ => True) (Chronicle N H (k + 1)) (SafeSoFar N) := by
  refine (operationInvariant htrim (k + d)).operates le_rfl (fun _ _ op _ => op.admitted_true R)
    fun k => ?_
  exact Triple.bind (Q := fun _ => Chronicle N H (k + 1)) (Triple.update fun _ h => h) fun _ =>
    Triple.raise fun _ h => h.safeSoFar

/-- A block in its session, if `H` stays when the history is given its length. -/
lemma applyBlock_of_trims (htrim : Trims N H) {c : Dynamic β} {b : SignedBlock β}
    (hresize : ∀ {o P m}, c.headBlockId = b.previous → H o P m →
      H o P (b.blockNum - c.lastIrreversibleBlockNum + 1)) (skip : SkipFlags) :
    Triple (fun db => Chronicle N H 1 db ∧ db.objects.dynamic = c)
      (Database.applyBlock R d b skip)
      (fun _ db => Chronicle N H 1 db ∧ c.Extends b db.objects.dynamic ∧
        db.undo.maxSize = b.blockNum - c.lastIrreversibleBlockNum + 1)
      (OnFailure (Chronicle N H 1) (SafeSoFar N)) := by
  have hblock : BlockInvariant R d d (fun _ => True) c b (fun k => Chronicle N H (k + 1))
      (SafeSoFar N) :=
    { operationInvariant htrim d with
      operates := operates htrim 0
      objects := fun h _ _ => h.record _
      other := fun _ _ _ h => h
      ended := fun _ _ h => h
      resize := fun hprev h => by
        refine ⟨h.1, fun hN => ⟨(h.2 hN).1, ?_⟩⟩
        obtain ⟨A, P, hl, hv⟩ := (h.2 hN).2
        exact ⟨A, P, ⟨hl.activeSessions, hl.stack, hl.length⟩, hresize hprev hv⟩ }
  exact hblock.applyBlock (fun _ _ op _ => op.admitted_true R) skip

/-- A block, in its session. -/
lemma applyBlock (hinv : HistoryInvariant N H) (b : SignedBlock β) (skip : SkipFlags) :
    Triple (fun db => Chronicle N H 1 db ∧ ∃ l, db.undo.stack = db.objects :: l)
      (Database.applyBlock R d b skip) (fun _ => BlockApplied N H)
      (OnFailure (Chronicle N H 1) (SafeSoFar N)) := by
  rintro db ⟨hdb, l, hstack⟩
  -- the objects under the session stay those with which the block began
  let H' : Objects β ω → List (Objects β ω) → ℕ → Prop :=
    fun o P m => H o P m ∧ o.dynamic = db.objects.dynamic
  have htrim' : Trims N H' := fun h hN => ⟨(hinv.trim h.1 hN).1, (hinv.trim h.1 hN).2, h.2⟩
  have hbegin : Chronicle N H' 1 db := by
    refine ⟨hdb.1, fun hN => ⟨(hdb.2 hN).1, ?_⟩⟩
    obtain ⟨A, P, hl, hv⟩ := (hdb.2 hN).2
    obtain ⟨s, rfl⟩ := List.length_eq_one_iff.mp hl.length
    cases hl.stack.symm.trans hstack
    exact ⟨_, P, hl, hv, rfl⟩
  have hresize : ∀ {o P m}, db.objects.dynamic.headBlockId = b.previous → H' o P m →
      H' o P (b.blockNum - db.objects.dynamic.lastIrreversibleBlockNum + 1) := by
    rintro o P m hprev ⟨hv, hc⟩
    have hirr : o.lastIrreversibleBlockNum = db.objects.dynamic.lastIrreversibleBlockNum :=
      congrArg Dynamic.lastIrreversibleBlockNum hc
    exact ⟨hirr ▸ hinv.resize hv ((congrArg Dynamic.headBlockId hc).trans hprev), hc⟩
  obtain ⟨hok, herr⟩ := applyBlock_of_trims (R := R) (d := d) htrim' hresize skip db ⟨hbegin, rfl⟩
  have hweaken : ∀ db', Chronicle N H' 1 db' → Chronicle N H 1 db' :=
    fun db' h => h.mono fun _ _ _ h => h.1
  refine ⟨fun a db' hx => ?_, fun e db' hx => ?_⟩
  · obtain ⟨hI, hext, hsize⟩ := hok a db' hx
    refine ⟨hweaken db' hI, fun hN => ⟨b, ?_⟩⟩
    obtain ⟨P, ⟨-, hbase⟩, -⟩ := (hI.2 hN).2.base
    have hirr := congrArg Dynamic.lastIrreversibleBlockNum hbase
    exact ⟨hbase ▸ hext, hsize.trans (by rw [← hirr]; rfl)⟩
  · have h := herr e db' hx
    cases e with
    | fc e => exact hweaken db' h
    | crash => exact h

end Chronicle

/-- **The calls of a node keep an invariant of the history.** -/
theorem HistoryInvariant.chainInvariant {N : UndoEvent → Prop}
    {H : Objects β ω → List (Objects β ω) → ℕ → Prop} (hinv : HistoryInvariant N H)
    (R : Rules β ω) (d : ℕ) :
    ChainInvariant R d (fun _ => True) (fun _ => True) (fun _ => True) (Chronicle N H)
      (BlockApplied N H) (SafeSoFar N) where
  carried _ _ _ := trivial
  assembled _ _ _ _ := trivial
  crash h := h.safeSoFar
  other _ _ _ _ _ _ h := h
  stored _ h := h
  ended _ _ h := h
  applied h := h.1
  enabled h := h.1
  start _ h := h.opened hinv.trim
  undo _ := Chronicle.sessionUndo _
  merge := Chronicle.sessionMerge
  pop := Chronicle.popUndo hinv
  transaction {k trx} _ hk _ := by
    obtain ⟨k, rfl⟩ := Nat.exists_eq_add_of_le' hk
    exact Upholds.applyTransaction
      (fun op _ => (Chronicle.operates hinv.trim k).operation op (op.admitted_true R))
      fun _ h => h.record _
  block b skip _ _ := Chronicle.applyBlock hinv b skip
  commit := Chronicle.sessionCommit hinv

/-! ### Runs -/

/-- A database on which a run begins: it is fresh, no block has been applied yet, and the undo
history may be as long as the blocks above the last irreversible one, and one more. -/
structure Database.Begins (db : Database β ω) : Prop extends db.Fresh where
  undoLog : db.undoLog = []
  sound : db.objects.dynamic.Sound
  chain : db.objects.chain = []
  maxSize : db.objects.headBlockNumber - db.objects.lastIrreversibleBlockNum + 2 ≤ db.undo.maxSize

namespace HistoryInvariant

variable {R : Rules β ω} {d : ℕ} {N : UndoEvent → Prop}
  {H : Objects β ω → List (Objects β ω) → ℕ → Prop} {db₀ db : Database β ω} {l : List (Call β)}

/-- What holds at the beginning holds in every run. -/
theorem run (hinv : HistoryInvariant N H) (h₀ : db₀.Begins)
    (hH : H db₀.objects [] db₀.undo.maxSize) (hrun : Database.Run R d db₀ l db) :
    Idle (fun _ => True) (fun _ => True) (Chronicle N H) db := by
  refine (hinv.chainInvariant R d).run hrun (fun c _ => ?_) ⟨h₀.toFresh.holds, ?_⟩
  · cases c <;> simp [Call.Within]
  · rw [h₀.pendingTxSession]
    refine ⟨h₀.enabled, fun _ => ⟨by simp [Logged, h₀.undoLog], [], [], ⟨?_, h₀.stack, rfl⟩, hH⟩⟩
    exact h₀.activeSessions

/-- And in the call that comes after it. -/
theorem call (hinv : HistoryInvariant N H)
    (hdb : Idle (fun _ => True) (fun _ => True) (Chronicle N H) db) (c : Call β) :
    SafeSoFar N (Database.call R d c db).2 ∧ ((Database.call R d c db).1 ≠ .error .crash →
      Idle (fun _ => True) (fun _ => True) (Chronicle N H) (Database.call R d c db).2) := by
  have hc : c.Within (fun _ => True) (fun _ => True) fun _ => True := by
    cases c <;> simp [Call.Within]
  obtain ⟨hok, herr⟩ := (hinv.chainInvariant R d).node.call hc db hdb
  rcases hx : Database.call R d c db with ⟨e | a, db'⟩
  · have h := herr e db' hx
    cases e with
    | fc e => exact ⟨h.2.safeSoFar, fun _ => h⟩
    | crash => exact ⟨h, fun hne => absurd rfl hne⟩
  · have h := hok a db' hx
    exact ⟨h.2.safeSoFar, fun _ => h⟩

end HistoryInvariant

/-! ### The states of open sessions -/

/-- A session is opened inside two others at most. -/
def UndoEvent.Shallow (e : UndoEvent) : Prop := e.call = .start → e.activeSessions ≤ 2

/-- The undo history may hold two states, and what it holds is sound. -/
def RoomForTwo (o : Objects β ω) (P : List (Objects β ω)) (m : ℕ) : Prop :=
  2 ≤ m ∧ ∀ s ∈ o :: P, s.dynamic.Sound

lemma roomForTwo_invariant :
    HistoryInvariant UndoEvent.Shallow (RoomForTwo : Objects β ω → List (Objects β ω) → ℕ → Prop) where
  trim {o P m k newest} h hN := by
    have hk : k ≤ 2 := hN rfl
    refine ⟨hk.trans h.1, h.1, fun s hs => h.2 s ?_⟩
    rcases List.mem_cons.mp hs with rfl | hs
    · exact List.mem_cons_self
    · exact List.mem_cons_of_mem _ (List.mem_of_mem_take hs)
  pop h _ := ⟨h.1, fun s hs => h.2 s (List.mem_cons_of_mem _ hs)⟩
  resize {o P m b} h hprev := by
    have hs := h.2 o List.mem_cons_self
    have hnum : b.blockNum = o.headBlockNumber + 1 := hs.blockNum_eq hprev
    have hirr : o.lastIrreversibleBlockNum ≤ o.headBlockNumber := hs.irreversible
    exact ⟨by omega, h.2⟩
  commit h hext :=
    ⟨h.1, List.forall_mem_cons.mpr ⟨hext.sound (h.2 _ List.mem_cons_self), h.2⟩⟩

/-- **Active undo sessions are never trimmed.** If no session is opened inside more than two others,
every call on the undo database finds the states of all open sessions, trims none of them and
passes its assertions. -/
theorem activeSessions_never_trimmed (R : Rules β ω) (d : ℕ) {db₀ db : Database β ω}
    {l : List (Call β)} (h₀ : db₀.Begins) (hrun : Database.Run R d db₀ l db) (c : Call β)
    (hshallow : ∀ e ∈ (Database.call R d c db).2.undoLog, e.Shallow) :
    (∀ e ∈ (Database.call R d c db).2.undoLog, e.Safe) ∧
    ((Database.call R d c db).1 ≠ .error .crash →
      (Database.call R d c db).2.undo.activeSessions ≤ (Database.call R d c db).2.undo.size) := by
  have hbegin : RoomForTwo db₀.objects [] db₀.undo.maxSize :=
    ⟨le_trans (Nat.le_add_left 2 _) h₀.maxSize, List.forall_mem_singleton.mpr h₀.sound⟩
  have hdb := roomForTwo_invariant.run h₀ hbegin hrun
  obtain ⟨hsafe, hend⟩ := roomForTwo_invariant.call (R := R) (d := d) hdb c
  refine ⟨hsafe hshallow, fun hne => ?_⟩
  obtain ⟨A, P, hl, -⟩ := ((hend hne).2.2 hshallow).2
  rw [hl.activeSessions, hl.size]
  exact Nat.le_add_right _ _

/-- Rules under which the operations do nothing. -/
def calmRules : Rules Unit Unit := Rules.lenient fun _ _ => []

/-- A new chain with the given active witnesses. -/
def newChain (ws : List ℕ) : Database Unit Unit :=
  { objects := { activeWitnesses := ws, world := (), time := 1700000000 } }

lemma newChain_begins (ws : List ℕ) : (newChain ws).Begins where
  enabled := rfl
  activeSessions := rfl
  stack := rfl
  forkDb := rfl
  blockDb := rfl
  pendingTx := rfl
  poppedTx := rfl
  pendingTxSession := rfl
  stackUsedUp := rfl
  undoLog := rfl
  sound := ⟨rfl, le_rfl, fun _ => le_rfl⟩
  chain := rfl
  maxSize := show 2 ≤ minUndoHistory by decide

/-- A block without transactions, with its hash. -/
def emptyBlock (previous : BlockId) (hash : ℕ) : SignedBlock Unit where
  previous := previous
  timestamp := 1700000000 + 3 * (previous.num + 1)
  digest := hash

/-- A transaction with a proposal that is executed at once. -/
def executing : Transaction Unit where
  id := 1
  expiration := 1700000010
  operations := [.proposalCreate 7 1700700000 none [.basic ()]]

/-- The chain with its first block. -/
def oneBlock : Database Unit Unit :=
  (Database.call calmRules 1 (.pushBlock (emptyBlock .zero 1) {}) (newChain [0, 1, 2])).2

lemma oneBlock_run : Database.Run calmRules 1 (newChain [0, 1, 2])
    [.pushBlock (emptyBlock .zero 1) {}] oneBlock :=
  (Database.Run.nil _).returns (by decide +kernel)

/-- After a block, a transaction executes a proposal in a third session. -/
theorem activeSessions_never_trimmed_executing :
    (Database.call calmRules 1 (.pushTransaction executing {}) oneBlock).2.undoLog.length = 7 ∧
    ∀ e ∈ (Database.call calmRules 1 (.pushTransaction executing {}) oneBlock).2.undoLog,
      e.Safe := by
  have hshallow : ∀ e ∈ (Database.call calmRules 1 (.pushTransaction executing {})
      oneBlock).2.undoLog, e.call = .start → e.activeSessions ≤ 2 := by decide +kernel
  exact ⟨by decide +kernel,
    (activeSessions_never_trimmed calmRules 1 (newChain_begins _) oneBlock_run _ hshallow).1⟩

end ZosCore
