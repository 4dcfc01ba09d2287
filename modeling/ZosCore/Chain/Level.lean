import ZosCore.Chain.History

/-!
What holds of the head of the chain while sessions are open for pending transactions.

These sessions do not move the head, so the states of the open sessions have the dynamic fields that
the objects have, and a property of these fields stays as long as it looks at nothing else that
transactions change. It may be known only as long as the calls on the undo database were in `N`.

* `Level`: the property, with `k` sessions open.
* **`Level.pendingInvariant`**: pending transactions keep it.
-/

namespace ZosCore

open Exec

variable {β ω : Type} {R : Rules β ω} {d : ℕ}

/-- The states of the `k` open sessions have the dynamic fields of the objects, and `F` holds of
these as long as all calls on the undo database were in `N`. -/
structure Level (N : UndoEvent → Prop) (F : Dynamic β → Database β ω → Prop) (k : ℕ)
    (db : Database β ω) : Prop where
  enabled : db.undo.disabled = false
  states : ∀ o ∈ db.undo.stack.take k, o.dynamic = db.objects.dynamic
  holds : Logged N db → F db.objects.dynamic db

namespace Level

variable {N : UndoEvent → Prop} {F : Dynamic β → Database β ω → Prop} {k k' : ℕ}
  {db db' : Database β ω}

/-- Changes that leave the dynamic fields, and what `F` looks at. -/
lemma of_dynamic (h : Level N F k db) (henabled : db'.undo.disabled = false)
    (hdynamic : db'.objects.dynamic = db.objects.dynamic)
    (hstates : ∀ o ∈ db'.undo.stack.take k', o.dynamic = db.objects.dynamic)
    (hholds : F db.objects.dynamic db → F db.objects.dynamic db')
    (hlog : db.undoLog <:+ db'.undoLog) : Level N F k' db' := by
  refine ⟨henabled, hdynamic ▸ hstates, fun hN => hdynamic ▸ hholds (h.holds fun e he => ?_)⟩
  exact hN e (hlog.subset he)

variable (hF : ∀ c, Apart (F c))

include hF

lemma opened (h : Level N F k db) : Level N F (k + 1) db.opened := by
  refine h.of_dynamic rfl rfl ?_ (fun hdb => (hF _).change _ _ _ _ _ _ hdb) (List.suffix_cons _ _)
  simp only [Database.opened, UndoDatabase.opened, List.take_succ_cons, List.forall_mem_cons,
    true_and]
  intro o ho
  rw [List.take_take] at ho
  exact h.states o (List.take_subset_take_left _ (min_le_left _ _) ho)

/-- The dynamic fields stay in a change of the objects. -/
lemma record (h : Level N F k db) {o : Objects β ω} (ho : o.dynamic = db.objects.dynamic) :
    Level N F k { db with undo := db.undo.record db.objects id, objects := o } := by
  refine h.of_dynamic ((db.undo.record_disabled _ _).trans h.enabled) ho (fun s hs => ?_)
    (fun hdb => (hF _).change _ _ _ _ _ _ hdb) List.suffix_rfl
  by_cases hne : db.undo.stack = []
  · have hrecord : db.undo.record db.objects id = { db.undo with stack := [db.objects] } := by
      simp [UndoDatabase.record, h.enabled, hne]
    rw [hrecord] at hs
    rw [List.mem_singleton.mp (List.mem_of_mem_take hs)]
  · rw [UndoDatabase.record_id hne] at hs
    exact h.states s hs

/-- A call on the undo database is noted. -/
lemma noteUndo (call : UndoCall) {E : Failure → Database β ω → Prop} :
    Triple (Level N F k) (Database.noteUndo call) (fun _ => Level N F k) E :=
  Triple.update fun _ h => h.of_dynamic h.enabled rfl h.states
    (fun hdb => (hF _).change _ _ _ _ _ _ hdb) (List.suffix_cons _ _)

lemma startUndoSession (forceEnable : Bool) {E : Failure → Database β ω → Prop} :
    Triple (Level N F k) (Database.startUndoSession forceEnable) (fun _ => Level N F (k + 1)) E := by
  intro db hdb
  rw [startUndoSession_eq (by rw [hdb.enabled]; rfl)]
  refine ⟨fun _ _ hx => ?_, fun _ _ hx => ?_⟩
  · cases hx
    exact hdb.opened hF
  · cases hx

lemma sessionUndo {E : Failure → Database β ω → Prop} (hE : ∀ db, E .crash db) :
    Triple (Level N F (k + 1)) Database.sessionUndo (fun _ => Level N F k) E := by
  refine Triple.bind (noteUndo hF _) fun _ => triple_onUndo (fun db o u h hu => ?_) fun _ _ _ _ => hE _
  obtain ⟨s, l, hstack, rfl, rfl⟩ := UndoDatabase.undo_restoreSnapshot hu
  have hstates := h.states
  rw [hstack, List.take_succ_cons, List.forall_mem_cons] at hstates
  exact h.of_dynamic h.enabled hstates.1 hstates.2 (fun hdb => (hF _).change _ _ _ _ _ _ hdb)
    List.suffix_rfl

lemma sessionMerge :
    Triple (Level N F (k + 1)) Database.sessionMerge (fun _ => Level N F k)
      (OnFailure (Level N F (k + 1)) fun _ : Database β ω => True) := by
  refine Triple.bind (noteUndo hF _) fun _ => triple_onUndo (fun db o u h hu => ?_) fun _ _ h _ => h
  obtain ⟨u', hmerge, hou⟩ := except_map_eq_ok.mp hu
  obtain ⟨rfl, rfl⟩ := Prod.mk.inj hou
  obtain ⟨-, rfl⟩ := UndoDatabase.merge_combineSnapshot hmerge
  refine h.of_dynamic h.enabled rfl (fun o ho => ?_) (fun hdb => (hF _).change _ _ _ _ _ _ hdb)
    List.suffix_rfl
  cases hstack : db.undo.stack with
  | nil => simp [hstack] at ho
  | cons s l =>
      have hstates := h.states
      rw [hstack, List.take_succ_cons, List.forall_mem_cons] at hstates
      simp only [hstack, List.tail_cons] at ho
      exact hstates.2 o ho

/-- Operations leave the dynamic fields. -/
lemma operationInvariant (k n : ℕ) :
    OperationInvariant n (fun _ => True) (fun i => (Level N F (k + i) : Database β ω → Prop))
      fun _ => True where
  crash _ := trivial
  proposals _ _ _ := trivial
  modify h ho := h.record hF ho.dynamic
  applied _ _ h := h.of_dynamic h.enabled rfl h.states (fun hdb => (hF _).change _ _ _ _ _ _ hdb)
    List.suffix_rfl
  start _ _ := startUndoSession hF true
  undo _ _ := sessionUndo hF fun _ => trivial
  merge _ _ := sessionMerge hF
  exit h hdis _ := by
    rw [h.enabled] at hdis
    cases hdis

lemma applyTransaction (k : ℕ) (trx : Transaction β) :
    Upholds (Level N F k) (fun _ : Database β ω => True) (Database.applyTransaction R d trx) := by
  refine Upholds.applyTransaction (fun op _ => ?_) fun _ h => h.record hF rfl
  exact ((operationInvariant hF k (0 + d)).operates_all le_rfl).operation op (op.admitted_true R)

/-- **Pending transactions** leave the head of the chain. -/
lemma pendingInvariant (hother : ∀ c db pendingTx poppedTx pendingTxSession skipFlags, F c db →
      F c { db with pendingTx, poppedTx, pendingTxSession, skipFlags }) :
    PendingInvariant R d (fun _ => True) (fun k => (Level N F k : Database β ω → Prop))
      fun _ => True where
  crash _ := trivial
  other _ _ _ _ h := h.of_dynamic h.enabled rfl h.states (fun hdb => hother _ _ _ _ _ _ hdb)
    List.suffix_rfl
  ended _ _ := trivial
  enabled h := h.enabled
  start _ h := h.opened hF
  undo _ := sessionUndo hF fun _ => trivial
  merge := sessionMerge hF
  transaction _ _ _ := applyTransaction hF _ _

end Level

end ZosCore
