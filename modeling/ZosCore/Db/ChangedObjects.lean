import ZosCore.Db.Sessions

/-!
`database::notify_changed_objects` of `db_notify.cpp`: what is told of the objects that the newest undo
session has created, changed and removed.

The signals are fired from the undo state at the head of the stack. A block and the transactions in it
open sessions, nest them and merge them, and the stack is trimmed when one is opened.

* `Notification`: the arguments of the three signals, each `none` when it is not fired.
* `Notification.Reports`: what is told is the difference between two databases.
* `reports_run`: it is the difference between the present database and the one at the start of the
  innermost active session.
-/

namespace ZosCore

variable {V : Type}

/-- The arguments of `new_objects`, `changed_objects` and `removed_objects`. The removed objects are
passed by pointer, and carry their ids. -/
structure Notification (V : Type) where
  newObjects : Option (List ObjectId × Finset ℕ) := none
  changedObjects : Option (List ObjectId × Finset ℕ) := none
  removedObjects : Option (List ObjectId × List (Σ _ : ObjectId, V) × Finset ℕ) := none

namespace Notification

/-- The ids that `new_objects` is fired with, if it is. -/
def newIds (n : Notification V) : List ObjectId := (n.newObjects.map Prod.fst).getD []

/-- The ids that `changed_objects` is fired with, if it is. -/
def changedIds (n : Notification V) : List ObjectId := (n.changedObjects.map Prod.fst).getD []

/-- The ids that `removed_objects` is fired with, if it is. -/
def removedIds (n : Notification V) : List ObjectId := (n.removedObjects.map Prod.fst).getD []

/-- The objects that `removed_objects` is fired with, if it is. -/
def removed (n : Notification V) : List (Σ _ : ObjectId, V) :=
  (n.removedObjects.map fun r => r.2.1).getD []

/-- The accounts that `new_objects` is fired with, if it is. -/
def newAccounts (n : Notification V) : Finset ℕ := (n.newObjects.map Prod.snd).getD ∅

/-- The accounts that `changed_objects` is fired with, if it is. -/
def changedAccounts (n : Notification V) : Finset ℕ := (n.changedObjects.map Prod.snd).getD ∅

/-- The accounts that `removed_objects` is fired with, if it is. -/
def removedAccounts (n : Notification V) : Finset ℕ := (n.removedObjects.map fun r => r.2.2).getD ∅

end Notification

/-- The accounts that are relevant to the objects of a list, `relevantAccounts` being
`get_relevant_accounts`. -/
def impactedAccounts (relevantAccounts : ObjectId → V → Finset ℕ) (l : List (Σ _ : ObjectId, V)) :
    Finset ℕ :=
  l.foldl (fun accounts e => accounts ∪ relevantAccounts e.1 e.2) ∅

/-- `find_object` of each id, without those that are not found. -/
def ObjectDatabase.findAll (db : ObjectDatabase V) (ids : List ObjectId) : List (Σ _ : ObjectId, V) :=
  ids.filterMap fun id => (db.find id).map (⟨id, ·⟩)

/-- The signals that `notify_changed_objects` fires of an undo state: each one unless it has no id. -/
def UndoState.notification (relevantAccounts : ObjectId → V → Finset ℕ) (objs : ObjectDatabase V)
    (st : UndoState V) : Notification V where
  newObjects :=
    if st.newIds = [] then none
    else some (st.newIds, impactedAccounts relevantAccounts (objs.findAll st.newIds))
  changedObjects :=
    if st.oldValues.entries = [] then none
    else some (st.oldValues.keys, impactedAccounts relevantAccounts st.oldValues.entries)
  removedObjects :=
    if st.removed.entries = [] then none
    else some (st.removed.keys, st.removed.entries,
      impactedAccounts relevantAccounts st.removed.entries)

/-- `database::notify_changed_objects`. `head` asserts that there is an undo state; the exception is
logged. -/
def Store.notifyChangedObjects (ord : HashOrder V) (relevantAccounts : ObjectId → V → Finset ℕ)
    (s : Store V) : Notification V :=
  if s.undo.disabled then {}
  else match s.undo.stack with
    | [] => {}
    | st :: _ => (ord.arrange st).notification relevantAccounts s.objs

/-- What is told is how the database went from `old` to `cur`: the objects that are there now and were
not, those that were and are not, and among those that were and are all that differ; each of them
once. The accounts are those of the values that the objects have now if they are new, and had before if
they are not. -/
structure Notification.Reports (relevantAccounts : ObjectId → V → Finset ℕ) (n : Notification V)
    (cur old : ObjectDatabase V) : Prop where
  new : ∀ id, id ∈ n.newIds ↔ old.find id = none ∧ (cur.find id).isSome
  removed : ∀ id v, ⟨id, v⟩ ∈ n.removed ↔ old.find id = some v ∧ cur.find id = none
  removedIds : n.removedIds = n.removed.map Sigma.fst
  changed : ∀ id, (old.find id).isSome → (cur.find id).isSome → old.find id ≠ cur.find id →
    id ∈ n.changedIds
  kept : ∀ id ∈ n.changedIds, (old.find id).isSome ∧ (cur.find id).isSome
  once : (n.newIds ++ n.changedIds ++ n.removedIds).Nodup
  newAccounts : ∀ account, account ∈ n.newAccounts ↔
    ∃ id v, old.find id = none ∧ cur.find id = some v ∧ account ∈ relevantAccounts id v
  removedAccounts : ∀ account, account ∈ n.removedAccounts ↔
    ∃ id v, old.find id = some v ∧ cur.find id = none ∧ account ∈ relevantAccounts id v
  changedAccounts : ∀ account, account ∈ n.changedAccounts ↔
    ∃ id ∈ n.changedIds, ∃ v, old.find id = some v ∧ account ∈ relevantAccounts id v

/-! ### The head of the stack -/

namespace UndoState

variable {relevantAccounts : ObjectId → V → Finset ℕ} {objs cur old : ObjectDatabase V}
  {st : UndoState V} {id : ObjectId} {l : List (Σ _ : ObjectId, V)} {account : ℕ}

lemma mem_impactedAccounts : account ∈ impactedAccounts relevantAccounts l ↔
    ∃ e ∈ l, account ∈ relevantAccounts e.1 e.2 := by
  have hfold : ∀ accounts : Finset ℕ,
      account ∈ l.foldl (fun accounts e => accounts ∪ relevantAccounts e.1 e.2) accounts ↔
        account ∈ accounts ∨ ∃ e ∈ l, account ∈ relevantAccounts e.1 e.2 := by
    induction l with
    | nil => simp
    | cons e l ih => intro accounts; simp [ih, or_assoc]
  simp [impactedAccounts, hfold]

@[simp] lemma newIds_notification : (st.notification relevantAccounts objs).newIds = st.newIds := by
  by_cases h : st.newIds = [] <;> simp [notification, Notification.newIds, h]

@[simp] lemma changedIds_notification :
    (st.notification relevantAccounts objs).changedIds = st.oldValues.keys := by
  by_cases h : st.oldValues.entries = [] <;>
    simp [notification, Notification.changedIds, AList.keys, h]

@[simp] lemma removed_notification :
    (st.notification relevantAccounts objs).removed = st.removed.entries := by
  by_cases h : st.removed.entries = [] <;> simp [notification, Notification.removed, h]

@[simp] lemma removedIds_notification :
    (st.notification relevantAccounts objs).removedIds = st.removed.keys := by
  by_cases h : st.removed.entries = [] <;>
    simp [notification, Notification.removedIds, AList.keys, h]

@[simp] lemma newAccounts_notification : (st.notification relevantAccounts objs).newAccounts =
    impactedAccounts relevantAccounts (objs.findAll st.newIds) := by
  by_cases h : st.newIds = [] <;>
    simp [notification, Notification.newAccounts, h, ObjectDatabase.findAll, impactedAccounts]

@[simp] lemma changedAccounts_notification :
    (st.notification relevantAccounts objs).changedAccounts =
      impactedAccounts relevantAccounts st.oldValues.entries := by
  by_cases h : st.oldValues.entries = [] <;>
    simp [notification, Notification.changedAccounts, h, impactedAccounts]

@[simp] lemma removedAccounts_notification :
    (st.notification relevantAccounts objs).removedAccounts =
      impactedAccounts relevantAccounts st.removed.entries := by
  by_cases h : st.removed.entries = [] <;>
    simp [notification, Notification.removedAccounts, h, impactedAccounts]

namespace Tracks

/-- An object is *new* exactly if it is there and was not. -/
lemma mem_newIds_iff (h : Tracks st cur old) :
    id ∈ st.newIds ↔ old.find id = none ∧ (cur.find id).isSome := by
  constructor
  · exact fun hid => ⟨h.find_new hid, h.present id (.inl hid)⟩
  · rintro ⟨hold, hcur⟩
    by_contra hnew
    -- neither *upd* nor *del*: those were there
    have hupd : st.oldValues.lookup id = none := by
      cases hl : st.oldValues.lookup id with
      | none => rfl
      | some v => simp [h.upd id v hl] at hold
    have hdel : st.removed.lookup id = none := by
      cases hl : st.removed.lookup id with
      | none => rfl
      | some v => simp [(h.del id v hl).1] at hold
    simp [h.nop id hnew hupd hdel, hold] at hcur

/-- An object is *del* exactly if it was there and is not. -/
lemma lookup_removed_iff (h : Tracks st cur old) {v : V} :
    st.removed.lookup id = some v ↔ old.find id = some v ∧ cur.find id = none := by
  constructor
  · exact h.del id v
  · rintro ⟨hold, hcur⟩
    have hnew : id ∉ st.newIds := fun hid => by simp [h.find_new hid] at hold
    have hupd : st.oldValues.lookup id = none := by
      refine AList.lookup_eq_none.mpr fun hid => ?_
      simpa [hcur] using h.present id (.inr hid)
    cases hl : st.removed.lookup id with
    | none => simp [← h.nop id hnew hupd hl, hcur] at hold
    | some w => rw [← hold, (h.del id w hl).1]

/-- An object that was there, and is there with another value, is *upd*. -/
lemma mem_oldValues (h : Tracks st cur old) (hold : (old.find id).isSome)
    (hcur : (cur.find id).isSome) (hne : old.find id ≠ cur.find id) : id ∈ st.oldValues := by
  by_contra hupd
  have hnew : id ∉ st.newIds := fun hid => by simp [h.find_new hid] at hold
  have hdel : st.removed.lookup id = none := by
    cases hl : st.removed.lookup id with
    | none => rfl
    | some v => simp [(h.del id v hl).2] at hcur
  exact hne (h.nop id hnew (AList.lookup_eq_none.mpr hupd) hdel).symm

/-- An object that is *upd* was there, and is. -/
lemma present_of_mem_oldValues (h : Tracks st cur old) (hid : id ∈ st.oldValues) :
    (old.find id).isSome ∧ (cur.find id).isSome := by
  obtain ⟨v, hv⟩ := Option.isSome_iff_exists.mp (AList.lookup_isSome.mpr hid)
  exact ⟨by simp [h.upd id v hv], h.present id (.inr hid)⟩

/-- In whatever order its entries are met, the state says the same. -/
lemma arrange (h : Tracks st cur old) (ord : HashOrder V) : Tracks (ord.arrange st) cur old where
  toRecords := h.toRecords.arrange ord
  present id hid := by
    refine h.present id (hid.imp (fun hm => (ord.newIds_perm st).mem_iff.mp hm) fun hm => ?_)
    exact AList.mem_keys.mpr (((ord.oldValues_perm st).map Sigma.fst).mem_iff.mp hm)

/-- What is told of a state is how the database has changed. -/
lemma reports (h : Tracks st cur old) :
    (st.notification relevantAccounts cur).Reports relevantAccounts cur old where
  new id := by rw [newIds_notification, h.mem_newIds_iff]
  removed id v := by
    rw [removed_notification, ← h.lookup_removed_iff]
    exact st.removed.mem_lookup_iff.symm
  removedIds := by simp [AList.keys, List.keys]
  changed id hold hcur hne := by
    rw [changedIds_notification]
    exact AList.mem_keys.mp (h.mem_oldValues hold hcur hne)
  kept id hid := by
    rw [changedIds_notification] at hid
    exact h.present_of_mem_oldValues (AList.mem_keys.mpr hid)
  once := by
    simp only [newIds_notification, changedIds_notification, removedIds_notification]
    have hremoved : ∀ id ∈ st.removed.keys, (cur.find id) = none := fun id hid => by
      obtain ⟨v, hv⟩ := Option.isSome_iff_exists.mp (AList.lookup_isSome.mpr hid)
      exact (h.del id v hv).2
    refine List.Nodup.append (h.nodup.append st.oldValues.keys_nodup ?_) st.removed.keys_nodup ?_
    · intro id hnew hupd
      have hold := (h.present_of_mem_oldValues (AList.mem_keys.mpr hupd)).1
      simp [h.find_new hnew] at hold
    · intro id hid hdel
      have hcur : (cur.find id).isSome :=
        h.present id ((List.mem_append.mp hid).imp_right fun hupd => AList.mem_keys.mpr hupd)
      simp [hremoved id hdel] at hcur
  newAccounts account := by
    rw [newAccounts_notification, mem_impactedAccounts]
    simp only [ObjectDatabase.findAll, List.mem_filterMap, Option.map_eq_some_iff]
    constructor
    · rintro ⟨-, ⟨id, hid, v, hv, rfl⟩, haccount⟩
      exact ⟨id, v, h.find_new hid, hv, haccount⟩
    · rintro ⟨id, v, hold, hv, haccount⟩
      have hid : id ∈ st.newIds := h.mem_newIds_iff.mpr ⟨hold, by simp [hv]⟩
      exact ⟨⟨id, v⟩, ⟨id, hid, v, hv, rfl⟩, haccount⟩
  removedAccounts account := by
    rw [removedAccounts_notification, mem_impactedAccounts]
    constructor
    · rintro ⟨⟨id, v⟩, he, haccount⟩
      obtain ⟨hold, hcur⟩ := h.lookup_removed_iff.mp (st.removed.mem_lookup_iff.mpr he)
      exact ⟨id, v, hold, hcur, haccount⟩
    · rintro ⟨id, v, hold, hcur, haccount⟩
      exact ⟨⟨id, v⟩, st.removed.mem_lookup_iff.mp (h.lookup_removed_iff.mpr ⟨hold, hcur⟩), haccount⟩
  changedAccounts account := by
    rw [changedAccounts_notification, mem_impactedAccounts, changedIds_notification]
    constructor
    · rintro ⟨⟨id, v⟩, he, haccount⟩
      exact ⟨id, List.mem_keys_of_mem he, v, h.upd id v (st.oldValues.mem_lookup_iff.mpr he), haccount⟩
    · rintro ⟨id, hid, v, hv, haccount⟩
      obtain ⟨w, hw⟩ := Option.isSome_iff_exists.mp (AList.lookup_isSome.mpr (AList.mem_keys.mpr hid))
      obtain rfl : w = v := Option.some.inj ((h.upd id w hw).symm.trans hv)
      exact ⟨⟨id, w⟩, st.oldValues.mem_lookup_iff.mp hw, haccount⟩

end Tracks

end UndoState

/-! ### Runs -/

section Runs

variable (ord : HashOrder V) {s s' : Store V} {h : Sessions V}
  {a : UndoDatabase (ObjectDatabase V)} {base : List (ObjectDatabase V)}

/-- A start that does not reach into the active sessions when it trims the stack. -/
def TrimsCommitted (s : Store V) (a : Action V) : Prop :=
  a matches .start → s.undo.activeSessions ≤ s.undo.maxSize

instance (s : Store V) (a : Action V) : Decidable (TrimsCommitted s a) :=
  inferInstanceAs (Decidable (_ → _))

namespace Store.Sound

/-- The committed sessions are left out of account. -/
lemma forget (hs : s.Sound h a base) : s.Sound ⟨h.active, []⟩ a (h.committed ++ base) where
  simulates := hs.simulates
  stack_eq := by simpa using hs.stack_eq
  active_eq := hs.active_eq
  fresh := hs.fresh

/-- A start that trims no more than what is under the active sessions. -/
lemma start_trims (hs : s.Sound ⟨h.active, []⟩ a base)
    (htrim : s.undo.activeSessions ≤ s.undo.maxSize) (hstep : s.step noKey ord .start = .ok s') :
    ∃ a' base', s'.Sound ⟨s.objs :: h.active, []⟩ a' base' := by
  simp only [Store.step, Except.ok.injEq] at hstep
  subst hstep
  have hdis : a.disabled = false := hs.simulates.disabled_eq.trans hs.simulates.enabled
  have hstack : a.stack = h.active ++ base := by simpa using hs.stack_eq
  have hactive : a.activeSessions = h.active.length := hs.active_eq
  have htake : a.stack.take a.maxSize = h.active ++ base.take (a.maxSize - h.active.length) := by
    rw [hstack, List.take_append]
    rw [List.take_of_length_le]
    rw [← hactive, hs.simulates.active_eq, hs.simulates.maxSize_eq]
    exact htrim
  refine ⟨_, base.take (a.maxSize - h.active.length), hs.simulates.start {} (.empty hs.fresh) false,
    ?_, ?_, hs.fresh⟩
  · simp [UndoDatabase.startUndoSession, UndoDatabase.trim, hdis, htake]
  · simp [UndoDatabase.startUndoSession, UndoDatabase.trim, hdis, hactive]

/-- What a call does to the active sessions does not depend on the committed ones. -/
lemma active_after (h : Sessions V) (cur : ObjectDatabase V) (act : Action V) :
    (Sessions.after ⟨h.active, []⟩ cur act).active = (h.after cur act).active := by
  cases act <;> rfl

/-- Every step keeps the active sessions on top of the stack. -/
lemma step_active (hs : s.Sound ⟨h.active, []⟩ a base) {act : Action V}
    (htrim : TrimsCommitted s act) (hcommit : CommitsOutermost s act)
    (hstep : s.step noKey ord act = .ok s') :
    ∃ a' base', s'.Sound ⟨(h.after s.objs act).active, []⟩ a' base' := by
  have hother (hnot : NotTrimmed s act) :
      ∃ a' base', s'.Sound ⟨(h.after s.objs act).active, []⟩ a' base' := by
    obtain ⟨a', base', hs'⟩ := hs.step ord hnot hcommit hstep
    rw [← active_after]
    exact ⟨a', _, hs'.forget⟩
  cases act with
  | start => exact hs.start_trims ord (htrim rfl) hstep
  | _ => exact hother (by simp [NotTrimmed])

/-- The newest undo state leads back to the start of the innermost active session. -/
lemma head (hs : s.Sound ⟨h.active, []⟩ a base) {d : ObjectDatabase V} {ds : List (ObjectDatabase V)}
    (hd : h.active = d :: ds) : ∃ st sts, s.undo.stack = st :: sts ∧ st.Tracks s.objs d := by
  have hstack : a.stack = d :: (ds ++ base) := by simpa [hd] using hs.stack_eq
  rcases hs.simulates.stack_cases with ⟨-, hnil⟩ | ⟨st, sts, d', _, hst, hcons, ht, -⟩
  · simp [hstack] at hnil
  · obtain ⟨rfl, -⟩ := List.cons_eq_cons.mp (hcons.symm.trans hstack)
    exact ⟨st, sts, hst, ht⟩

end Store.Sound

lemma exists_sound_of_run_active
    (hrun : Run ord (fun s a => TrimsCommitted s a ∧ CommitsOutermost s a) s h) :
    ∃ a base, s.Sound ⟨h.active, []⟩ a base := by
  induction hrun with
  | init objs fresh maxSize => exact ⟨_, _, .init fresh maxSize⟩
  | step act _ hallowed hstep ih =>
      obtain ⟨a, base, hs⟩ := ih
      exact hs.step_active ord hallowed.1 hallowed.2 hstep

/-- **What is told of a block.** At every moment of a run in which no active session is trimmed, and a
session is committed only when it is the only one, what `notify_changed_objects` tells is how the
objects have changed since the innermost active session was started. -/
theorem reports_run {d : ObjectDatabase V} {ds : List (ObjectDatabase V)}
    (relevantAccounts : ObjectId → V → Finset ℕ)
    (hrun : Run ord (fun s a => TrimsCommitted s a ∧ CommitsOutermost s a) s h)
    (hd : h.active = d :: ds) :
    (s.notifyChangedObjects ord relevantAccounts).Reports relevantAccounts s.objs d := by
  obtain ⟨a, base, hs⟩ := exists_sound_of_run_active ord hrun
  obtain ⟨st, sts, hst, ht⟩ := hs.head hd
  rw [Store.notifyChangedObjects, hs.simulates.enabled, hst]
  exact (ht.arrange ord).reports

/-- A block in which one transaction creates two objects, and a second one removes the first of them and
changes the other, with an undo stack that is full. -/
theorem reports_run_block :
    ∃ (s : Store ℕ) (d : ObjectDatabase ℕ), d.find ⟨⟨1, 2⟩, 0⟩ = some 4 ∧
      s.objs.find ⟨⟨1, 2⟩, 0⟩ = none ∧ s.objs.find ⟨⟨1, 2⟩, 1⟩ = some 8 ∧
      (s.notifyChangedObjects default fun _ _ => {5}).Reports (fun _ _ => {5}) s.objs d := by
  have hrun : Run default (fun s a => TrimsCommitted s a ∧ CommitsOutermost s a) _ _ :=
    .init (⟨∅, fun _ => 0⟩ : ObjectDatabase ℕ) (fun id v hf => by cases hf) 2
  have hrun := hrun.step .start ⟨by decide, by decide⟩ rfl
  have hrun := hrun.step (.op (.create ⟨1, 2⟩ 4)) ⟨by decide, by decide⟩ rfl
  have hrun := hrun.step .commit ⟨by decide, by decide⟩ rfl
  have hrun := hrun.step .start ⟨by decide, by decide⟩ rfl
  have hrun := hrun.step .start ⟨by decide, by decide⟩ rfl
  have hrun := hrun.step (.op (.create ⟨1, 2⟩ 7)) ⟨by decide, by decide⟩ rfl
  have hrun := hrun.step .merge ⟨by decide, by decide⟩ rfl
  have hrun := hrun.step .start ⟨by decide, by decide⟩ rfl
  have hrun := hrun.step (.op (.remove ⟨⟨1, 2⟩, 0⟩)) ⟨by decide, by decide⟩ rfl
  have hrun := hrun.step (.op (.modify ⟨⟨1, 2⟩, 1⟩ 8)) ⟨by decide, by decide⟩ rfl
  have hrun := hrun.step .merge ⟨by decide, by decide⟩ rfl
  exact ⟨_, _, by decide, by decide, by decide, reports_run default _ hrun rfl⟩

end Runs

end ZosCore
