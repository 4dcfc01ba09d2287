import ZosCore.Lib.Linked
import ZosCore.Db.ObjectDatabase

/-!
`db/undo_database.hpp`, `db/undo_database.cpp`: the stack of undo states and
the sessions that open and close them.

What a stack entry holds is left open (`δ`): `undo_database` keeps the
`undo_state` of `Db/UndoState.lean`, and the chain is verified over entries that
are plain snapshots of the whole object database. The functions that look inside
an entry take the operation on entries as an argument.

* `startUndoSession`, `undo`, `merge`, `commit`, `popCommit`: the functions of
  `undo_database`, with the trimming loop of `start_undo_session` and every
  `FC_ASSERT`.
* `record`: the common frame of `on_create`, `on_modify` and `on_remove`.
* `Simulates`, `Agree`: entries that lead back to earlier states cannot be told
  from snapshots of these states; `Simulates.start`, `.record`, `.undo`,
  `.merge`, `.commit` and `.popCommit` say so call by call.
-/

namespace ZosCore

/-- `undo_database`. The stack is listed newest state first, so `_stack.back()`
is the head and `_stack.pop_front()` drops the last element. -/
structure UndoDatabase (δ : Type) where
  activeSessions : ℕ := 0
  disabled : Bool := true
  stack : List δ := []
  maxSize : ℕ := 256
  deriving Repr

namespace UndoDatabase

variable {δ σ : Type}

/-- `undo_database::size`. -/
def size (u : UndoDatabase δ) : ℕ := u.stack.length

/-- `undo_database::enable`. -/
def enable (u : UndoDatabase δ) : UndoDatabase δ := { u with disabled := false }

/-- `undo_database::disable`. -/
def disable (u : UndoDatabase δ) : UndoDatabase δ := { u with disabled := true }

/-- `undo_database::set_max_size`. -/
def setMaxSize (u : UndoDatabase δ) (n : ℕ) : UndoDatabase δ := { u with maxSize := n }

/-- `while( size() > max_size() ) _stack.pop_front();` -/
def trim (u : UndoDatabase δ) : UndoDatabase δ := { u with stack := u.stack.take u.maxSize }

/-- `undo_database::start_undo_session`, `d` being the entry it pushes. -/
def startUndoSession (u : UndoDatabase δ) (d : δ) (forceEnable : Bool) : UndoDatabase δ :=
  if u.disabled && !forceEnable then u
  else
    let u := u.trim
    { u with
      disabled := false
      stack := d :: u.stack
      activeSessions := u.activeSessions + 1 }

/-- The undo database after `start_undo_session`, if it does open a session. -/
def opened (u : UndoDatabase δ) (d : δ) : UndoDatabase δ :=
  { u with
    disabled := false
    stack := d :: u.stack.take u.maxSize
    activeSessions := u.activeSessions + 1 }

lemma startUndoSession_eq_opened {u : UndoDatabase δ} {forceEnable : Bool}
    (h : (u.disabled && !forceEnable) = false) (d : δ) :
    u.startUndoSession d forceEnable = u.opened d := by
  simp [startUndoSession, opened, trim, h]

/-- The state under the open sessions: the one with which the oldest of them began. -/
def base (u : UndoDatabase σ) (cur : σ) : σ := (u.stack.take u.activeSessions).getLast?.getD cur

/-- The common frame of `on_create`, `on_modify` and `on_remove`: nothing is
recorded while tracking is off, a first entry is made on an empty stack, and the
newest entry takes the record. -/
def record (u : UndoDatabase δ) (fresh : δ) (f : δ → δ) : UndoDatabase δ :=
  if u.disabled then u
  else match u.stack with
    | [] => { u with stack := [f fresh] }
    | d :: ds => { u with stack := f d :: ds }

@[simp] lemma record_maxSize (u : UndoDatabase δ) (fresh : δ) (f : δ → δ) :
    (u.record fresh f).maxSize = u.maxSize := by
  rw [record]
  split_ifs
  · rfl
  · split <;> rfl

@[simp] lemma record_disabled (u : UndoDatabase δ) (fresh : δ) (f : δ → δ) :
    (u.record fresh f).disabled = u.disabled := by
  rw [record]
  split_ifs
  · rfl
  · split <;> rfl

/-- `undo_database::undo`: `restore` takes the present state back by one
entry. -/
def undo (restore : δ → σ → Except DbError σ) (u : UndoDatabase δ) (cur : σ) :
    Except DbError (σ × UndoDatabase δ) :=
  if u.disabled then .error .undoDisabled
  else if u.activeSessions = 0 then .error .noActiveSession
  else match u.stack with
    | [] => .error .stackTooSmall
    | d :: ds => do
        let old ← restore d cur
        return (old, { u with stack := ds, activeSessions := u.activeSessions - 1 })

/-- `undo_database::merge`: `combine prev top` is the composition of the two
newest entries. -/
def merge (combine : δ → δ → δ) (u : UndoDatabase δ) : Except DbError (UndoDatabase δ) :=
  if u.activeSessions = 0 then .error .noActiveSession
  else match u.stack with
    | d :: e :: ds =>
        .ok { u with stack := combine e d :: ds, activeSessions := u.activeSessions - 1 }
    | [_] =>
        if u.activeSessions = 1 then .ok { u with stack := [], activeSessions := 0 }
        else .error .stackTooSmall
    | [] => .error .stackTooSmall

/-- `undo_database::commit`. -/
def commit (u : UndoDatabase δ) : Except DbError (UndoDatabase δ) :=
  if u.activeSessions = 0 then .error .noActiveSession
  else .ok { u with activeSessions := u.activeSessions - 1 }

/-- `undo_database::pop_commit`. -/
def popCommit (restore : δ → σ → Except DbError σ) (u : UndoDatabase δ) (cur : σ) :
    Except DbError (σ × UndoDatabase δ) :=
  if u.activeSessions ≠ 0 then .error .activeSession
  else match u.stack with
    | [] => .error .stackTooSmall
    | d :: ds => do
        let old ← restore d cur
        return (old, { u with stack := ds, disabled := false })

/-- `undo` takes the newest entry off and restores from it. -/
lemma undo_eq_ok {restore : δ → σ → Except DbError σ} {u u' : UndoDatabase δ} {cur old : σ}
    (h : u.undo restore cur = .ok (old, u')) :
    ∃ d ds, u.disabled = false ∧ u.stack = d :: ds ∧ restore d cur = .ok old ∧
      u' = { u with stack := ds, activeSessions := u.activeSessions - 1 } := by
  unfold undo at h
  split_ifs at h with hdis hactive
  cases hstack : u.stack with
  | nil => rw [hstack] at h; cases h
  | cons d ds =>
      rw [hstack] at h
      cases hr : restore d cur with
      | error e => simp [hr, bind, Except.bind] at h
      | ok old' =>
          simp only [hr, bind, Except.bind, pure, Except.pure, Except.ok.injEq,
            Prod.mk.injEq] at h
          obtain ⟨rfl, rfl⟩ := h
          exact ⟨d, ds, by simpa using hdis, rfl, hr, rfl⟩

/-- So does `pop_commit`. -/
lemma popCommit_eq_ok {restore : δ → σ → Except DbError σ} {u u' : UndoDatabase δ} {cur old : σ}
    (h : u.popCommit restore cur = .ok (old, u')) :
    ∃ d ds, u.activeSessions = 0 ∧ u.stack = d :: ds ∧ restore d cur = .ok old ∧
      u' = { u with stack := ds, disabled := false } := by
  unfold popCommit at h
  split_ifs at h with hactive
  cases hstack : u.stack with
  | nil => rw [hstack] at h; cases h
  | cons d ds =>
      rw [hstack] at h
      cases hr : restore d cur with
      | error e => simp [hr, bind, Except.bind] at h
      | ok old' =>
          simp only [hr, bind, Except.bind, pure, Except.pure, Except.ok.injEq,
            Prod.mk.injEq] at h
          obtain ⟨rfl, rfl⟩ := h
          exact ⟨d, ds, not_not.mp hactive, rfl, hr, rfl⟩

/-! ### Snapshots

An entry that is the whole earlier state: restoring it is returning it, and the
composition of two is the older one. -/

/-- Going back to a snapshot. -/
def restoreSnapshot (old _cur : σ) : Except DbError σ := .ok old

/-- Composing two snapshots. -/
def combineSnapshot (prev _top : σ) : σ := prev

/-- Merging snapshots drops the newest one. -/
lemma merge_combineSnapshot {u u' : UndoDatabase σ} (h : u.merge combineSnapshot = .ok u') :
    u.activeSessions ≠ 0 ∧
      u' = { u with stack := u.stack.tail, activeSessions := u.activeSessions - 1 } := by
  unfold merge at h
  by_cases h0 : u.activeSessions = 0
  · rw [if_pos h0] at h; cases h
  · rw [if_neg h0] at h
    refine ⟨h0, ?_⟩
    match hst : u.stack with
    | [] => rw [hst] at h; cases h
    | [_] =>
        simp only [hst] at h
        split_ifs at h with h1
        cases h
        simp [h1]
    | _ :: _ :: _ =>
        simp only [hst, combineSnapshot] at h
        cases h
        rfl

/-- Snapshots are merged if there are two of them, or if there is one only and one session. -/
lemma merge_combineSnapshot_eq {u : UndoDatabase σ} {d : σ} {l : List σ}
    (hactive : u.activeSessions ≠ 0) (hstack : u.stack = d :: l)
    (hl : l ≠ [] ∨ u.activeSessions = 1) :
    u.merge combineSnapshot =
      .ok { u with stack := l, activeSessions := u.activeSessions - 1 } := by
  rw [merge]
  rw [if_neg hactive, hstack]
  cases l with
  | nil =>
      have h1 : u.activeSessions = 1 := by simpa using hl
      simp [h1]
  | cons e l => rfl

/-- Undoing brings back the newest snapshot. -/
lemma undo_restoreSnapshot {u u' : UndoDatabase σ} {cur old : σ}
    (h : u.undo restoreSnapshot cur = .ok (old, u')) :
    ∃ s l, u.stack = s :: l ∧ s = old ∧
      { u with stack := l, activeSessions := u.activeSessions - 1 } = u' := by
  unfold undo at h
  split_ifs at h
  cases hst : u.stack with
  | nil => rw [hst] at h; cases h
  | cons s l =>
      rw [hst] at h
      cases h
      exact ⟨_, l, rfl, rfl, rfl⟩

/-- So does going back over a committed session. -/
lemma popCommit_restoreSnapshot {u u' : UndoDatabase σ} {cur old : σ}
    (h : u.popCommit restoreSnapshot cur = .ok (old, u')) :
    ∃ s l, u.activeSessions = 0 ∧ u.stack = s :: l ∧ s = old ∧
      { u with stack := l, disabled := false } = u' := by
  unfold popCommit at h
  split_ifs at h with h0
  cases hst : u.stack with
  | nil => rw [hst] at h; cases h
  | cons s l =>
      rw [hst] at h
      cases h
      exact ⟨_, l, not_not.mp h0, rfl, rfl, rfl⟩

/-- A snapshot needs no record of a change, once there is one. -/
lemma record_id {u : UndoDatabase σ} (h : u.stack ≠ []) (fresh : σ) : u.record fresh id = u := by
  obtain ⟨active, disabled, stack, maxSize⟩ := u
  cases disabled <;> cases stack <;> simp_all [record]

/-! ### Entries against snapshots -/

section Simulates

variable {R : δ → σ → σ → Prop} {u : UndoDatabase δ} {a : UndoDatabase σ} {cur : σ}

/-- While tracking is on, the undo database `u` over entries is in step with the
undo database `a` over snapshots: same counters, and the entries lead from the
present state back through the snapshots. -/
structure Simulates (R : δ → σ → σ → Prop) (cur : σ) (u : UndoDatabase δ) (a : UndoDatabase σ) :
    Prop where
  enabled : u.disabled = false
  disabled_eq : a.disabled = u.disabled
  active_eq : a.activeSessions = u.activeSessions
  maxSize_eq : a.maxSize = u.maxSize
  linked : Linked R cur u.stack a.stack

/-- A call on entries and the same call on snapshots both return, in step and
at the same state, or both fail the same assertion. -/
inductive Agree (R : δ → σ → σ → Prop) :
    Except DbError (σ × UndoDatabase δ) → Except DbError (σ × UndoDatabase σ) → Prop
  | ok {s : σ} {u : UndoDatabase δ} {a : UndoDatabase σ} :
      Simulates R s u a → Agree R (.ok (s, u)) (.ok (s, a))
  | error (e : DbError) : Agree R (.error e) (.error e)

/-- If the call on entries returns, so does the call on snapshots. -/
lemma Agree.ok_left {r : Except DbError (σ × UndoDatabase σ)} (h : Agree R (.ok (cur, u)) r) :
    ∃ a, r = .ok (cur, a) ∧ Simulates R cur u a := by
  cases h with
  | ok hs => exact ⟨_, rfl, hs⟩

/-- If the call on snapshots returns, so does the call on entries. -/
lemma Agree.ok_right {r : Except DbError (σ × UndoDatabase δ)} (h : Agree R r (.ok (cur, a))) :
    ∃ u, r = .ok (cur, u) ∧ Simulates R cur u a := by
  cases h with
  | ok hs => exact ⟨_, rfl, hs⟩

namespace Simulates

/-- Starting a session pushes an entry against a snapshot of the present
state. -/
lemma start (h : Simulates R cur u a) (d : δ) (hd : R d cur cur) (forceEnable : Bool) :
    Simulates R cur (u.startUndoSession d forceEnable) (a.startUndoSession cur forceEnable) := by
  have ha : a.disabled = false := h.disabled_eq.trans h.enabled
  simp only [startUndoSession, h.enabled, ha, Bool.false_and, Bool.false_eq_true, if_false, trim]
  refine ⟨rfl, rfl, by simp [h.active_eq], h.maxSize_eq, hd, ?_⟩
  rw [h.maxSize_eq]
  exact h.linked.take _

/-- A tracked change of the present state keeps the entries in step. -/
lemma record {cur' : σ} (h : Simulates R cur u a) (fresh : δ) (f : δ → δ)
    (hfresh : R (f fresh) cur' cur) (hf : ∀ d old, R d cur old → R (f d) cur' old) :
    Simulates R cur' (u.record fresh f) (a.record cur id) := by
  have ha : a.disabled = false := h.disabled_eq.trans h.enabled
  have hl := h.linked
  cases hu : u.stack with
  | nil =>
      have has : a.stack = [] := by
        rw [hu] at hl; exact List.eq_nil_of_length_eq_zero hl.length_eq.symm
      simp only [UndoDatabase.record, h.enabled, ha, hu, has, Bool.false_eq_true, if_false, id_eq]
      exact ⟨rfl, rfl, h.active_eq, h.maxSize_eq, hfresh, trivial⟩
  | cons d ds =>
      rw [hu] at hl
      obtain ⟨s, ss, has, hd, hls⟩ := hl.exists_cons
      simp only [UndoDatabase.record, h.enabled, ha, hu, has, Bool.false_eq_true, if_false, id_eq]
      exact ⟨rfl, rfl, h.active_eq, h.maxSize_eq, hf d s hd, hls⟩

/-- Entries and snapshots are of the same number. -/
lemma length_eq (h : Simulates R cur u a) : u.stack.length = a.stack.length := h.linked.length_eq

/-- Both stacks are empty, or both have a newest entry, which leads back to the
newest snapshot. -/
lemma stack_cases (h : Simulates R cur u a) :
    (u.stack = [] ∧ a.stack = []) ∨
    ∃ d ds s ss, u.stack = d :: ds ∧ a.stack = s :: ss ∧ R d cur s ∧ Linked R s ds ss := by
  have hl := h.linked
  cases hu : u.stack with
  | nil => exact .inl ⟨rfl, List.eq_nil_of_length_eq_zero (by rw [← h.length_eq, hu]; rfl)⟩
  | cons d ds =>
      rw [hu] at hl
      obtain ⟨s, ss, has, hd, hls⟩ := hl.exists_cons
      exact .inr ⟨d, ds, s, ss, rfl, has, hd, hls⟩

/-- `undo` takes both to the same state, or fails the same assertion. -/
lemma undo {restore : δ → σ → Except DbError σ}
    (hR : ∀ d cur old, R d cur old → restore d cur = .ok old) (h : Simulates R cur u a) :
    Agree R (u.undo restore cur) (a.undo restoreSnapshot cur) := by
  have ha : a.disabled = false := h.disabled_eq.trans h.enabled
  simp only [UndoDatabase.undo, h.enabled, ha, h.active_eq, Bool.false_eq_true, if_false]
  split_ifs
  · exact .error _
  · rcases h.stack_cases with ⟨hu, has⟩ | ⟨d, ds, s, ss, hu, has, hd, hls⟩
    · rw [hu, has]; exact .error _
    · rw [hu, has]
      simp only [hR d cur s hd, restoreSnapshot, bind, Except.bind, pure, Except.pure]
      exact .ok ⟨rfl, rfl, rfl, h.maxSize_eq, hls⟩

/-- `pop_commit` takes both to the same state, or fails the same assertion. -/
lemma popCommit {restore : δ → σ → Except DbError σ}
    (hR : ∀ d cur old, R d cur old → restore d cur = .ok old) (h : Simulates R cur u a) :
    Agree R (u.popCommit restore cur) (a.popCommit restoreSnapshot cur) := by
  simp only [UndoDatabase.popCommit, h.active_eq]
  split_ifs
  · exact .error _
  · rcases h.stack_cases with ⟨hu, has⟩ | ⟨d, ds, s, ss, hu, has, hd, hls⟩
    · rw [hu, has]; exact .error _
    · rw [hu, has]
      simp only [hR d cur s hd, restoreSnapshot, bind, Except.bind, pure, Except.pure]
      exact .ok ⟨rfl, rfl, rfl, h.maxSize_eq, hls⟩

/-- `merge` keeps both in step, or fails the same assertion. -/
lemma merge {combine : δ → δ → δ}
    (hC : ∀ e d cur mid old, R e mid old → R d cur mid → R (combine e d) cur old)
    (h : Simulates R cur u a) :
    Agree R ((u.merge combine).map (cur, ·)) ((a.merge combineSnapshot).map (cur, ·)) := by
  simp only [UndoDatabase.merge, h.active_eq]
  by_cases h0 : u.activeSessions = 0
  · rw [if_pos h0, if_pos h0]; exact .error _
  · rw [if_neg h0, if_neg h0]
    rcases h.stack_cases with ⟨hu, has⟩ | ⟨d, ds, s, ss, hu, has, hd, hls⟩
    · rw [hu, has]; exact .error _
    · rw [hu, has]
      cases ds with
      | nil =>
          have hss : ss = [] := List.eq_nil_of_length_eq_zero hls.length_eq.symm
          subst hss
          by_cases h1 : u.activeSessions = 1
          · simp only [h1, if_true]
            exact .ok ⟨h.enabled, h.disabled_eq, rfl, h.maxSize_eq, trivial⟩
          · simp only [h1, if_false]
            exact .error _
      | cons e ds =>
          obtain ⟨t, ss', rfl, he, hls'⟩ := hls.exists_cons
          exact .ok ⟨h.enabled, h.disabled_eq, rfl, h.maxSize_eq, hC e d cur s t he hd, hls'⟩

/-- `commit` changes the count of active sessions only. -/
lemma commit (h : Simulates R cur u a) :
    Agree R (u.commit.map (cur, ·)) (a.commit.map (cur, ·)) := by
  simp only [UndoDatabase.commit, h.active_eq]
  split_ifs
  · exact .error _
  · exact .ok ⟨h.enabled, h.disabled_eq, rfl, h.maxSize_eq, h.linked⟩

end Simulates

end Simulates

end UndoDatabase

end ZosCore
