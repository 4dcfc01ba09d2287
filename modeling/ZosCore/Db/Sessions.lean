import ZosCore.Db.UndoRestore

/-!
The object database together with its undo database: the operations with their
hooks, and runs of operations and sessions.

`db/index.hpp` calls the hooks of the undo database around every operation of an
index; `Store.apply` is an operation with its hook. `Store.step` adds the calls
that open and close sessions. `Sessions` keeps, beside a run, the databases from
which the active and the committed sessions were started.

* `Store.Sound`: the undo states lead back through the databases at the start of
  the active sessions, then of the committed ones. Every step keeps it.
* `restoresExactly_of_run`: in every run that trims nothing and commits a session
  only when no other is active, undoing restores exactly the database at the
  start of the innermost active session, and popping restores the one at the
  start of the last committed session.
* `not_restoresExactly_commit_inner`: without the proviso on commits this fails.
-/

namespace ZosCore

/-- An operation on an index, as its caller asks for it. -/
inductive Op (V : Type) where
  | create (i : IndexId) (v : V)
  | modify (id : ObjectId) (v : V)
  | remove (id : ObjectId)

/-- A call on the object database or on its undo database. -/
inductive Action (V : Type) where
  | op (o : Op V)
  | start
  | merge
  | undo
  | commit
  | popCommit

/-- `object_database`: the indexes and the undo database. -/
structure Store (V : Type) where
  objs : ObjectDatabase V
  undo : UndoDatabase (UndoState V)

namespace Store

variable {V κ : Type} [DecidableEq κ] (key : V → Option κ) (ord : HashOrder V)

/-- `primary_index::create`, `modify` and `remove`: the operation, what it returns
and the state it leaves. The hooks of `modify` and `remove` come before the
change, that of `create` after it. -/
def apply (s : Store V) : Op V → Except DbError Unit × Store V
  | .create i v =>
      match s.objs.create key i v with
      | .error e => (.error e, s)
      | .ok objs => (.ok (), ⟨objs, s.undo.record {} (UndoState.onCreate ⟨i, s.objs.nextId i⟩)⟩)
  | .modify id v =>
      match s.objs.find id with
      | none => (.error (.objectNotFound id), s)
      | some w =>
          (if s.objs.KeyTaken key id v then .error .uniqueness else .ok (),
            ⟨s.objs.modifyState key id v, s.undo.record {} (UndoState.onModify id w)⟩)
  | .remove id =>
      match s.objs.find id with
      | none => (.error (.objectNotFound id), s)
      | some w => (.ok (), ⟨s.objs.erase id, s.undo.record {} (UndoState.onRemove id w)⟩)

/-- A call that returns, and the state it leaves. -/
def step (s : Store V) : Action V → Except DbError (Store V)
  | .op o => (s.apply key o).1.map fun _ => (s.apply key o).2
  | .start => .ok ⟨s.objs, s.undo.startUndoSession {} false⟩
  | .merge => (s.undo.merge UndoState.combine).map fun u => ⟨s.objs, u⟩
  | .undo => (s.undo.undo (UndoState.restore key ord) s.objs).map fun r => ⟨r.1, r.2⟩
  | .commit => s.undo.commit.map fun u => ⟨s.objs, u⟩
  | .popCommit => (s.undo.popCommit (UndoState.restore key ord) s.objs).map fun r => ⟨r.1, r.2⟩

end Store

/-! ### Runs -/

/-- The databases from which the active sessions and the committed sessions of a
run were started, newest first. -/
structure Sessions (V : Type) where
  active : List (ObjectDatabase V) := []
  committed : List (ObjectDatabase V) := []

/-- What a call that returns does to the sessions, `cur` being the database before
it. -/
def Sessions.after {V : Type} (h : Sessions V) (cur : ObjectDatabase V) : Action V → Sessions V
  | .op _ => h
  | .start => { h with active := cur :: h.active }
  | .merge => { h with active := h.active.tail }
  | .undo => { h with active := h.active.tail }
  | .commit => ⟨h.active.tail, h.active.head?.toList ++ h.committed⟩
  | .popCommit => { h with committed := h.committed.tail }

section Runs

variable {V : Type} (ord : HashOrder V)

/-- A start that trims nothing. -/
def NotTrimmed (s : Store V) (a : Action V) : Prop :=
  a matches .start → s.undo.size ≤ s.undo.maxSize

/-- A commit ends the only active session. -/
def CommitsOutermost (s : Store V) (a : Action V) : Prop :=
  a matches .commit → s.undo.activeSessions = 1

instance (s : Store V) (a : Action V) : Decidable (NotTrimmed s a) :=
  inferInstanceAs (Decidable (_ → _))

instance (s : Store V) (a : Action V) : Decidable (CommitsOutermost s a) :=
  inferInstanceAs (Decidable (_ → _))

/-- A run of calls that return, each of them allowed, with tracking enabled and
over indexes ordered by id alone, from a database with an empty undo stack. -/
inductive Run (allowed : Store V → Action V → Prop) : Store V → Sessions V → Prop
  | init (objs : ObjectDatabase V) (fresh : objs.Fresh) (maxSize : ℕ) :
      Run allowed ⟨objs, { disabled := false, maxSize }⟩ {}
  | step {s s' : Store V} {h : Sessions V} (a : Action V) :
      Run allowed s h → allowed s a → s.step noKey ord a = .ok s' →
        Run allowed s' (h.after s.objs a)

/-- Undoing restores the database at the start of the innermost active session;
popping with no active session restores the one at the start of the last committed
session. -/
structure RestoresExactly (s : Store V) (h : Sessions V) : Prop where
  active_eq : s.undo.activeSessions = h.active.length
  undo : ∀ d ds, h.active = d :: ds → ∃ u, s.step noKey ord .undo = .ok ⟨d, u⟩
  popCommit : ∀ d ds, h.active = [] → h.committed = d :: ds →
    ∃ u, s.step noKey ord .popCommit = .ok ⟨d, u⟩

/-! ### The invariant -/

/-- The undo states of `s` lead back through the snapshots that `a` keeps: those of
the active sessions, then those of the committed ones, then those of states made
outside any session. -/
structure Store.Sound (s : Store V) (h : Sessions V) (a : UndoDatabase (ObjectDatabase V))
    (base : List (ObjectDatabase V)) : Prop where
  simulates : s.undo.Simulates UndoState.Tracks s.objs a
  stack_eq : a.stack = h.active ++ h.committed ++ base
  active_eq : a.activeSessions = h.active.length
  fresh : s.objs.Fresh

namespace Store.Sound

variable {s s' : Store V} {h : Sessions V} {a : UndoDatabase (ObjectDatabase V)}
  {base : List (ObjectDatabase V)}

/-- An empty undo stack. -/
lemma init {objs : ObjectDatabase V} (fresh : objs.Fresh) (maxSize : ℕ) :
    Store.Sound ⟨objs, { disabled := false, maxSize }⟩ {} { disabled := false, maxSize } [] :=
  ⟨⟨rfl, rfl, rfl, rfl, trivial⟩, rfl, rfl, fresh⟩

/-- A tracked change: the newest state takes it, and a first state is made where
there is none. -/
lemma record (hs : s.Sound h a base) {objs : ObjectDatabase V} {f : UndoState V → UndoState V}
    (hf : ∀ st old, UndoState.Tracks st s.objs old → UndoState.Tracks (f st) objs old)
    (hfresh : objs.Fresh) :
    ∃ base', Store.Sound ⟨objs, s.undo.record {} f⟩ h (a.record s.objs id) base' := by
  have hsim := hs.simulates.record {} f (hf _ _ (.empty hs.fresh)) hf
  have hdis : a.disabled = false := hs.simulates.disabled_eq.trans hs.simulates.enabled
  cases hst : a.stack with
  | nil =>
      have hnil := hs.stack_eq.symm.trans hst
      simp only [List.append_eq_nil_iff] at hnil
      refine ⟨[s.objs], hsim, ?_, ?_, hfresh⟩
      · simp [UndoDatabase.record, hdis, hst, hnil]
      · simpa [UndoDatabase.record, hdis, hst] using hs.active_eq
  | cons d ds =>
      refine ⟨base, hsim, ?_, ?_, hfresh⟩
      · rw [← hs.stack_eq]
        simp [UndoDatabase.record, hdis, hst]
      · simpa [UndoDatabase.record, hdis, hst] using hs.active_eq

/-- An operation that returns is tracked. -/
lemma op (hs : s.Sound h a base) (o : Op V) (hstep : s.step noKey ord (.op o) = .ok s') :
    ∃ a' base', s'.Sound h a' base' := by
  cases o with
  | create i v =>
      have hcreate : s.objs.create noKey i v =
          .ok ((s.objs.set ⟨i, s.objs.nextId i⟩ v).setNextId i (s.objs.nextId i + 1)) := by
        simp [ObjectDatabase.create, ObjectDatabase.insert, hs.fresh.find_next, bind, Except.bind,
          pure, Except.pure]
      simp only [Store.step, Store.apply, hcreate, Except.map, Except.ok.injEq] at hstep
      subst hstep
      exact ⟨_, hs.record (fun st old ht => ht.onCreate i v) (hs.fresh.create i v)⟩
  | modify id v =>
      cases hf : s.objs.find id with
      | none => simp [Store.step, Store.apply, hf, Except.map] at hstep
      | some w =>
          simp only [Store.step, Store.apply, hf, Except.map, ObjectDatabase.not_keyTaken_noKey,
            if_false, ObjectDatabase.modifyState, Except.ok.injEq] at hstep
          subst hstep
          refine ⟨_, hs.record (fun st old ht => ht.onModify hf v) ?_⟩
          exact hs.fresh.set (hs.fresh id w hf) v
  | remove id =>
      cases hf : s.objs.find id with
      | none => simp [Store.step, Store.apply, hf, Except.map] at hstep
      | some w =>
          simp only [Store.step, Store.apply, hf, Except.map, Except.ok.injEq] at hstep
          subst hstep
          exact ⟨_, hs.record (fun st old ht => ht.onRemove hf) (hs.fresh.erase id)⟩

/-- Starting a session puts the present database on the stack. -/
lemma start (hs : s.Sound h a base) (htrim : s.undo.size ≤ s.undo.maxSize)
    (hstep : s.step noKey ord .start = .ok s') :
    ∃ a' base', s'.Sound (h.after s.objs .start) a' base' := by
  simp only [Store.step, Except.ok.injEq] at hstep
  subst hstep
  have hdis : a.disabled = false := hs.simulates.disabled_eq.trans hs.simulates.enabled
  have htake : a.stack.take a.maxSize = a.stack := by
    rw [List.take_of_length_le]
    rw [hs.simulates.maxSize_eq, ← hs.simulates.length_eq]
    exact htrim
  refine ⟨_, base, hs.simulates.start {} (.empty hs.fresh) false, ?_, ?_, hs.fresh⟩
  · simp only [UndoDatabase.startUndoSession, UndoDatabase.trim, hdis, htake, Sessions.after,
      Bool.false_and, Bool.false_eq_true, if_false, List.cons_append, ← hs.stack_eq]
  · simp [UndoDatabase.startUndoSession, UndoDatabase.trim, hdis, Sessions.after, hs.active_eq]

/-- The databases to go back to are in order themselves. -/
lemma fresh_of_stack (hs : s.Sound h a base) {d : ObjectDatabase V}
    {ds : List (ObjectDatabase V)} (hst : a.stack = d :: ds) : d.Fresh := by
  rcases hs.simulates.stack_cases with ⟨-, hnil⟩ | ⟨st, sts, d', ds', -, hcons, ht, -⟩
  · rw [hst] at hnil; cases hnil
  · rw [hst] at hcons
    cases hcons
    exact ht.fresh

/-- Undoing with an active session restores the database at its start. -/
lemma undo_eq (hs : s.Sound h a base) {d : ObjectDatabase V} {ds : List (ObjectDatabase V)}
    (hd : h.active = d :: ds) : ∃ u, s.step noKey ord .undo = .ok ⟨d, u⟩ ∧
      Store.Sound ⟨d, u⟩ (h.after s.objs .undo)
        { a with stack := ds ++ h.committed ++ base, activeSessions := ds.length } base := by
  have hdis : a.disabled = false := hs.simulates.disabled_eq.trans hs.simulates.enabled
  have hst : a.stack = d :: (ds ++ h.committed ++ base) := by rw [hs.stack_eq, hd]; simp
  have hact : a.activeSessions = ds.length + 1 := by rw [hs.active_eq, hd]; rfl
  have hagree := hs.simulates.undo (fun st cur old ht => UndoState.Tracks.restore ht ord)
  have ha : a.undo UndoDatabase.restoreSnapshot s.objs =
      .ok (d, { a with stack := ds ++ h.committed ++ base, activeSessions := ds.length }) := by
    simp [UndoDatabase.undo, hdis, hst, hact, UndoDatabase.restoreSnapshot, bind, Except.bind,
      pure, Except.pure]
  rw [ha] at hagree
  obtain ⟨u, hu, hsim⟩ := hagree.ok_right
  refine ⟨u, by simp [Store.step, hu, Except.map], hsim, ?_, ?_, hs.fresh_of_stack hst⟩
  · simp [Sessions.after, hd]
  · simp [Sessions.after, hd]

/-- Popping with no active session restores the newest snapshot. -/
lemma popCommit_eq (hs : s.Sound h a base) (hact : h.active = []) {d : ObjectDatabase V}
    {ds : List (ObjectDatabase V)} (hst : a.stack = d :: ds) :
    ∃ u, s.step noKey ord .popCommit = .ok ⟨d, u⟩ ∧
      u.Simulates UndoState.Tracks d { a with stack := ds, disabled := false } := by
  have ha0 : a.activeSessions = 0 := by rw [hs.active_eq, hact]; rfl
  have hagree := hs.simulates.popCommit (fun st cur old ht => UndoState.Tracks.restore ht ord)
  have ha : a.popCommit UndoDatabase.restoreSnapshot s.objs =
      .ok (d, { a with stack := ds, disabled := false }) := by
    simp [UndoDatabase.popCommit, hst, ha0, UndoDatabase.restoreSnapshot, bind, Except.bind,
      pure, Except.pure]
  rw [ha] at hagree
  obtain ⟨u, hu, hsim⟩ := hagree.ok_right
  exact ⟨u, by simp [Store.step, hu, Except.map], hsim⟩

/-- Popping a state keeps the rest. -/
lemma popCommit (hs : s.Sound h a base) (hstep : s.step noKey ord .popCommit = .ok s') :
    ∃ a' base', s'.Sound (h.after s.objs .popCommit) a' base' := by
  have hact : h.active = [] := by
    by_contra hne
    have hpos : s.undo.activeSessions ≠ 0 := by
      rw [← hs.simulates.active_eq, hs.active_eq]
      simpa using hne
    simp [Store.step, UndoDatabase.popCommit, hpos, Except.map] at hstep
  cases hst : a.stack with
  | nil =>
      have hnil : s.undo.stack = [] :=
        List.eq_nil_of_length_eq_zero (by rw [hs.simulates.length_eq, hst]; rfl)
      have h0 : s.undo.activeSessions = 0 := by
        rw [← hs.simulates.active_eq, hs.active_eq, hact]; rfl
      simp [Store.step, UndoDatabase.popCommit, hnil, h0, Except.map] at hstep
  | cons d ds =>
      obtain ⟨u, hu, hsim⟩ := hs.popCommit_eq ord hact hst
      rw [hu] at hstep
      cases hstep
      have hstack := hst.symm.trans hs.stack_eq
      rw [hact, List.nil_append] at hstack
      refine ⟨_, if h.committed = [] then base.tail else base, hsim, ?_, ?_, hs.fresh_of_stack hst⟩
      · cases hc : h.committed with
        | nil =>
            rw [hc] at hstack
            simp only [Sessions.after, hact, hc, if_true, List.tail_nil, List.nil_append]
            rw [← List.nil_append base, ← hstack]; rfl
        | cons c cs =>
            rw [hc] at hstack
            simp only [Sessions.after, hact, hc, List.tail_cons, List.nil_append]
            exact (List.cons.inj hstack).2
      · simp [Sessions.after, hact, hs.active_eq]

/-- Merging drops the snapshot of the innermost session. -/
lemma merge (hs : s.Sound h a base) (hstep : s.step noKey ord .merge = .ok s') :
    ∃ a' base', s'.Sound (h.after s.objs .merge) a' base' := by
  obtain ⟨u, hu, rfl⟩ := except_map_eq_ok.mp hstep
  have hagree := hs.simulates.merge (fun e d cur mid old he hd => UndoState.Tracks.combine he hd)
  rw [hu] at hagree
  obtain ⟨a', ha', hsim⟩ := hagree.ok_left
  obtain ⟨a'', ha'', heq⟩ := except_map_eq_ok.mp ha'
  cases heq
  obtain ⟨hpos, hstack⟩ := UndoDatabase.merge_combineSnapshot ha''
  refine ⟨a', base, hsim, ?_, ?_, hs.fresh⟩
  · cases hact : h.active with
    | nil => rw [hs.active_eq, hact] at hpos; simp at hpos
    | cons d ds => simp [hstack, Sessions.after, hs.stack_eq, hact]
  · simp [hstack, Sessions.after, hs.active_eq]

/-- Committing the only active session makes its snapshot the newest committed
one. -/
lemma commit (hs : s.Sound h a base) (hone : s.undo.activeSessions = 1)
    (hstep : s.step noKey ord .commit = .ok s') :
    ∃ a' base', s'.Sound (h.after s.objs .commit) a' base' := by
  obtain ⟨u, hu, rfl⟩ := except_map_eq_ok.mp hstep
  have hagree := hs.simulates.commit
  rw [hu] at hagree
  obtain ⟨a', ha', hsim⟩ := hagree.ok_left
  have hlen : h.active.length = 1 := by rw [← hs.active_eq, hs.simulates.active_eq, hone]
  obtain ⟨d, hd⟩ := List.length_eq_one_iff.mp hlen
  have hact : a.activeSessions = 1 := by rw [hs.simulates.active_eq, hone]
  simp only [UndoDatabase.commit, hact, one_ne_zero, if_false, Except.map, Except.ok.injEq,
    Prod.mk.injEq, true_and] at ha'
  subst ha'
  refine ⟨_, base, hsim, ?_, ?_, hs.fresh⟩
  · simp [Sessions.after, hd, hs.stack_eq]
  · simp [Sessions.after, hd]

/-- Undoing keeps the rest. -/
lemma undo (hs : s.Sound h a base) (hstep : s.step noKey ord .undo = .ok s') :
    ∃ a' base', s'.Sound (h.after s.objs .undo) a' base' := by
  cases hact : h.active with
  | nil =>
      have h0 : s.undo.activeSessions = 0 := by
        rw [← hs.simulates.active_eq, hs.active_eq, hact]; rfl
      simp [Store.step, UndoDatabase.undo, hs.simulates.enabled, h0, Except.map] at hstep
  | cons d ds =>
      obtain ⟨u, hu, hsound⟩ := hs.undo_eq ord hact
      rw [hu] at hstep
      cases hstep
      exact ⟨_, _, hsound⟩

/-- A step keeps the invariant. -/
lemma step (hs : s.Sound h a base) {act : Action V} (htrim : NotTrimmed s act)
    (hcommit : CommitsOutermost s act) (hstep : s.step noKey ord act = .ok s') :
    ∃ a' base', s'.Sound (h.after s.objs act) a' base' := by
  cases act with
  | op o => exact hs.op ord o hstep
  | start => exact hs.start ord (htrim rfl) hstep
  | merge => exact hs.merge ord hstep
  | undo => exact hs.undo ord hstep
  | commit => exact hs.commit ord (hcommit rfl) hstep
  | popCommit => exact hs.popCommit ord hstep

/-- A sound store restores exactly. -/
lemma restoresExactly (hs : s.Sound h a base) : RestoresExactly ord s h where
  active_eq := by rw [← hs.simulates.active_eq, hs.active_eq]
  undo d ds hd := by
    obtain ⟨u, hu, -⟩ := hs.undo_eq ord hd
    exact ⟨u, hu⟩
  popCommit d ds hact hd := by
    have hst : a.stack = d :: (ds ++ base) := by rw [hs.stack_eq, hact, hd]; rfl
    obtain ⟨u, hu, -⟩ := hs.popCommit_eq ord hact hst
    exact ⟨u, hu⟩

end Store.Sound

/-- Every run that trims nothing and commits outermost sessions only is sound. -/
lemma exists_sound_of_run {s : Store V} {h : Sessions V}
    (hrun : Run ord (fun s a => NotTrimmed s a ∧ CommitsOutermost s a) s h) :
    ∃ a base, s.Sound h a base := by
  induction hrun with
  | init objs fresh maxSize => exact ⟨_, _, .init fresh maxSize⟩
  | step act _ hallowed hstep ih =>
      obtain ⟨a, base, hs⟩ := ih
      exact hs.step ord hallowed.1 hallowed.2 hstep

/-- **Undo restores exactly.** In every run with tracking enabled, in which no undo
state is trimmed and a session is committed only when it is the only active one,
undoing an active session restores the objects and next ids at its start, and
`pop_commit` with no active session restores those at the start of the last committed
session. -/
theorem restoresExactly_of_run {s : Store V} {h : Sessions V}
    (hrun : Run ord (fun s a => NotTrimmed s a ∧ CommitsOutermost s a) s h) :
    RestoresExactly ord s h := by
  obtain ⟨a, base, hs⟩ := exists_sound_of_run ord hrun
  exact hs.restoresExactly ord

/-- A session that creates an object, with an inner session that changes it and is
merged, is committed. -/
theorem restoresExactly_merge_commit :
    ∃ (s : Store ℕ) (h : Sessions ℕ), h.active = [] ∧ h.committed = [⟨∅, fun _ => 0⟩] ∧
      s.objs.find ⟨⟨1, 2⟩, 0⟩ = some 8 ∧ RestoresExactly default s h := by
  have hrun : Run default (fun s a => NotTrimmed s a ∧ CommitsOutermost s a) _ _ :=
    .init (⟨∅, fun _ => 0⟩ : ObjectDatabase ℕ) (fun id v hf => by cases hf) 10
  have hrun := hrun.step .start ⟨by decide, by decide⟩ rfl
  have hrun := hrun.step (.op (.create ⟨1, 2⟩ 7)) ⟨by decide, by decide⟩ rfl
  have hrun := hrun.step .start ⟨by decide, by decide⟩ rfl
  have hrun := hrun.step (.op (.modify ⟨⟨1, 2⟩, 0⟩ 8)) ⟨by decide, by decide⟩ rfl
  have hrun := hrun.step .merge ⟨by decide, by decide⟩ rfl
  have hrun := hrun.step .commit ⟨by decide, by decide⟩ rfl
  exact ⟨_, _, rfl, rfl, by decide, restoresExactly_of_run default hrun⟩

/-- An inner session that is committed leaves its undo state on top of that of the
outer session. Undoing the outer session then undoes the inner one, and the object
that the outer session created stays. -/
theorem not_restoresExactly_commit_inner :
    ¬ ∀ (s : Store ℕ) (h : Sessions ℕ), Run default NotTrimmed s h →
      RestoresExactly default s h := by
  intro hall
  have hrun : Run default NotTrimmed _ _ :=
    .init (⟨∅, fun _ => 0⟩ : ObjectDatabase ℕ) (fun id v hf => by cases hf) 10
  have hrun := hrun.step .start (by decide) rfl
  have hrun := hrun.step (.op (.create ⟨1, 2⟩ 7)) (by decide) rfl
  have hrun := hrun.step .start (by decide) rfl
  have hrun := hrun.step .commit (by decide) rfl
  obtain ⟨u, hu⟩ := (hall _ _ hrun).undo _ _ rfl
  have hfind := congrArg (fun r => r.toOption.map fun s => s.objs.find ⟨⟨1, 2⟩, 0⟩) hu
  have : some (some 7) = some (none : Option ℕ) := hfind
  cases this

end Runs

end ZosCore
