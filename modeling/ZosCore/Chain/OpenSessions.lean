import ZosCore.Chain.Horizon
import ZosCore.Chain.Ledger

/-!
What operations, transactions and pending transactions do depends on the states of the open sessions
only.

`start_undo_session` trims the stack by its length, so how many states the undo database may keep
decides which of the committed states are left. As long as no session trims the state of an open one,
the computations that open, merge and undo sessions return or throw the same with any other committed
states and with more room.

* `UndoDatabase.SameSessions`: the states of the open sessions are the same, with as much room or more.
* `Confined`: the computations that leave them the same. They compose: `Confined.bind`,
  `Confined.catchFc`, `Confined.forEach`, `Confined.inSession`.
* **`confined_applyTransaction`**, **`confined_restorePending`**: transactions, and the pending
  transactions that are tried again.
-/

namespace ZosCore

open Exec

/-! ### The states of the open sessions -/

/-- The states of the open sessions are the same in `u'`, which may keep at least as many states. -/
structure UndoDatabase.SameSessions {σ : Type} (u u' : UndoDatabase σ) : Prop where
  disabled : u'.disabled = u.disabled
  activeSessions : u'.activeSessions = u.activeSessions
  maxSize : u.maxSize ≤ u'.maxSize
  length : u.activeSessions ≤ u.stack.length
  states : u'.stack.take u.activeSessions = u.stack.take u.activeSessions

namespace UndoDatabase.SameSessions

variable {σ : Type} {u u' : UndoDatabase σ} {s : σ} {k : ℕ}

lemma base (h : u.SameSessions u') (cur : σ) : u'.base cur = u.base cur := by
  rw [UndoDatabase.base, UndoDatabase.base, h.activeSessions, h.states]

/-- A session is opened in both, and trims the state of no open one. -/
lemma opened (h : u.SameSessions u') (hroom : u.activeSessions ≤ u.maxSize) (s : σ) :
    (u.opened s).SameSessions (u'.opened s) where
  disabled := rfl
  activeSessions := congrArg (· + 1) h.activeSessions
  maxSize := h.maxSize
  length := by
    have hlength := h.length
    simp only [UndoDatabase.opened, List.length_cons, List.length_take]
    omega
  states := by
    have hroom' := h.maxSize
    simp only [UndoDatabase.opened, List.take_succ_cons, List.take_take]
    rw [min_eq_left (by omega), min_eq_left hroom, h.states]

/-- The newest state is that of an open session. -/
lemma exists_cons (h : u.SameSessions u') (hk : u.activeSessions = k + 1) :
    ∃ s l l', u.stack = s :: l ∧ u'.stack = s :: l' ∧ k ≤ l.length ∧ l'.take k = l.take k := by
  have hlength := h.length
  have hstates := h.states
  cases hstack : u.stack with
  | nil => simp [hstack, hk] at hlength
  | cons s l =>
      rw [hk, hstack, List.take_succ_cons] at hstates
      cases hstack' : u'.stack with
      | nil => simp [hstack'] at hstates
      | cons s' l' =>
          rw [hstack', List.take_succ_cons] at hstates
          obtain ⟨rfl, hrest⟩ := List.cons.inj hstates
          rw [hk, hstack] at hlength
          exact ⟨s', l, l', rfl, rfl, Nat.le_of_succ_le_succ hlength, hrest⟩

/-- The newest session is closed in both. -/
lemma tail (h : u.SameSessions u') {l l' : List σ} (hk : u.activeSessions = k + 1)
    (hlength : k ≤ l.length) (hstates : l'.take k = l.take k) :
    SameSessions { u with stack := l, activeSessions := u.activeSessions - 1 }
      { u' with stack := l', activeSessions := u'.activeSessions - 1 } where
  disabled := h.disabled
  activeSessions := congrArg (· - 1) h.activeSessions
  maxSize := h.maxSize
  length := by
    simp only [hk, Nat.add_sub_cancel]
    exact hlength
  states := by
    simp only [hk, Nat.add_sub_cancel]
    exact hstates

/-- A record leaves snapshots alone, but on an empty stack. -/
lemma record (h : u.SameSessions u') (cur : σ) : (u.record cur id).SameSessions (u'.record cur id) := by
  cases hdis : u.disabled with
  | true =>
      rw [UndoDatabase.record, UndoDatabase.record, if_pos (h.disabled.trans hdis), if_pos hdis]
      exact h
  | false =>
      have hdis' := h.disabled.trans hdis
      cases hk : u.activeSessions with
      | zero =>
          have hactive : ∀ v : UndoDatabase σ, (v.record cur id).activeSessions = v.activeSessions := by
            intro v
            rw [UndoDatabase.record]
            split_ifs
            · rfl
            · split <;> rfl
          refine ⟨?_, ?_, ?_, ?_, ?_⟩
          · rw [record_disabled, record_disabled, h.disabled]
          · rw [hactive, hactive, h.activeSessions]
          · rw [record_maxSize, record_maxSize]
            exact h.maxSize
          · rw [hactive, hk]
            exact Nat.zero_le _
          · rw [hactive, hk, List.take_zero, List.take_zero]
      | succ k =>
          obtain ⟨s, l, l', hstack, hstack', -⟩ := h.exists_cons hk
          rw [UndoDatabase.record_id (by simp [hstack]), UndoDatabase.record_id (by simp [hstack'])]
          exact h

end UndoDatabase.SameSessions

/-! ### Confined computations -/

section Confined

variable {β ω α γ : Type}

/-- The database with another undo database and another log. -/
def Database.withUndo (db : Database β ω) (u : UndoDatabase (Objects β ω)) (log : List UndoEvent) :
    Database β ω :=
  { db with undo := u, undoLog := log }

/-- The computation depends on the states of the open sessions only, as long as it opens no session
that trims one of them: it does the same where these are the same, and leaves them the same. -/
def Confined (x : Act β ω α) : Prop :=
  ∀ db, ∃ new, (x db).2.undoLog = new ++ db.undoLog ∧
    ((∀ e ∈ new, e.Untrimmed) → ∀ u log, db.undo.SameSessions u →
      ∃ u' log', x (db.withUndo u log) = ((x db).1, (x db).2.withUndo u' log') ∧
        (x db).2.undo.SameSessions u')

namespace Confined

lemma pure (a : α) : Confined (Pure.pure a : Act β ω α) :=
  fun _ => ⟨[], rfl, fun _ u log h => ⟨u, log, rfl, h⟩⟩

lemma raise (e : Failure) : Confined (Exec.raise e : Act β ω α) :=
  fun _ => ⟨[], rfl, fun _ u log h => ⟨u, log, rfl, h⟩⟩

lemma ofExcept (r : Except Failure α) : Confined (Exec.ofExcept r : Act β ω α) :=
  fun _ => ⟨[], rfl, fun _ u log h => ⟨u, log, rfl, h⟩⟩

lemma fcLift (r : Except ChainError α) : Confined (Database.fcLift r : Act β ω α) := ofExcept _

lemma check (c : Prop) [Decidable c] (e : Failure) : Confined (Exec.check c e : Act β ω Unit) := by
  rw [Exec.check]
  split_ifs
  · exact pure ()
  · exact raise e

/-- What is seen does not depend on the committed states. -/
lemma gets {f : Database β ω → α}
    (hf : ∀ db u log, db.undo.SameSessions u → f (Database.withUndo db u log) = f db) :
    Confined (Exec.gets f) :=
  fun db => ⟨[], rfl, fun _ u log h => ⟨u, log, Prod.ext (congrArg Except.ok (hf db u log h)) rfl, h⟩⟩

/-- A change of something else. -/
lemma update {g : Database β ω → Database β ω}
    (hg : ∀ db u log, g (Database.withUndo db u log) = (g db).withUndo u log)
    (hundo : ∀ db, (g db).undo = db.undo) (hlog : ∀ db, (g db).undoLog = db.undoLog) :
    Confined (Exec.update g) :=
  fun db => ⟨[], hlog db, fun _ u log h => ⟨u, log, Prod.ext rfl (hg db u log), by
    rw [update_apply, hundo]
    exact h⟩⟩

/-- What goes on as the result of `x` says: with another result, or with a computation of this kind. -/
lemma goOn {x : Act β ω α} {y : Act β ω γ} (hx : Confined x)
    (hy : ∀ r, (∃ r', ∀ {db db₁}, x db = (r, db₁) → y db = (r', db₁)) ∨
      ∃ k : Act β ω γ, Confined k ∧ ∀ {db db₁}, x db = (r, db₁) → y db = k db₁) : Confined y := by
  intro db
  obtain ⟨new, hnew, hsame⟩ := hx db
  rcases hdb : x db with ⟨r, db₁⟩
  rw [hdb] at hnew hsame
  rcases hy r with ⟨r', hend⟩ | ⟨k, hk, hgo⟩
  · rw [hend hdb]
    refine ⟨new, hnew, fun huntrimmed u log h => ?_⟩
    obtain ⟨u', log', hrun, hu'⟩ := hsame huntrimmed u log h
    exact ⟨u', log', hend hrun, hu'⟩
  · rw [hgo hdb]
    obtain ⟨new₁, hnew₁, hsame₁⟩ := hk db₁
    refine ⟨new₁ ++ new, by rw [hnew₁, hnew, List.append_assoc], fun huntrimmed u log h => ?_⟩
    obtain ⟨huntrimmed₁, huntrimmed⟩ := List.forall_mem_append.mp huntrimmed
    obtain ⟨u₁, log₁, hrun, hu₁⟩ := hsame huntrimmed u log h
    obtain ⟨u', log', hrest, hu'⟩ := hsame₁ huntrimmed₁ u₁ log₁ hu₁
    exact ⟨u', log', (hgo hrun).trans hrest, hu'⟩

/-- Sequencing. -/
lemma bind {x : Act β ω α} {k : α → Act β ω γ} (hx : Confined x) (hk : ∀ a, Confined (k a)) :
    Confined (x >>= k) := by
  refine hx.goOn fun r => ?_
  cases r with
  | error e => exact .inl ⟨.error e, bind_error⟩
  | ok a => exact .inr ⟨k a, hk a, bind_ok⟩

/-- A change of something else, and the rest. -/
lemma update_bind {g : Database β ω → Database β ω} {k : Unit → Act β ω γ} (hk : Confined (k ()))
    (hg : ∀ db u log, g (Database.withUndo db u log) = (g db).withUndo u log)
    (hundo : ∀ db, (g db).undo = db.undo) (hlog : ∀ db, (g db).undoLog = db.undoLog) :
    Confined (Exec.update g >>= k) :=
  (update hg hundo hlog).bind fun _ => hk

/-- A handler of exceptions. -/
lemma catchFc {x : Act β ω α} {k : Failure → Act β ω α} (hx : Confined x)
    (hk : ∀ e, Confined (k e)) : Confined (Database.catchFc x k) := by
  refine hx.goOn fun r => ?_
  cases r with
  | ok a => exact .inl ⟨.ok a, catchIf_ok⟩
  | error e =>
      cases hfc : e.isFc with
      | false => exact .inl ⟨.error e, fun hdb => catchIf_missed hdb hfc⟩
      | true => exact .inr ⟨k e, hk e, fun hdb => catchIf_caught hdb hfc⟩

/-- A loop. -/
lemma forEach {f : γ → Act β ω Unit} (hf : ∀ a, Confined (f a)) (l : List γ) :
    Confined (Exec.forEach f l) := by
  induction l with
  | nil => exact pure ()
  | cons a l ih => exact (hf a).bind fun _ => ih

lemma ite {c : Prop} [Decidable c] {x y : Act β ω α} (hx : Confined x) (hy : Confined y) :
    Confined (if c then x else y) := by
  split_ifs
  · exact hx
  · exact hy

/-! ### Sessions -/

/-- A session is opened. -/
lemma startUndoSession (forceEnable : Bool) :
    Confined (Database.startUndoSession forceEnable : Act β ω Unit) := by
  intro db
  refine ⟨[Database.undoEvent .start db.objects db.undo], rfl, fun huntrimmed u log h => ?_⟩
  have hroom : db.undo.activeSessions ≤ db.undo.maxSize := huntrimmed _ List.mem_cons_self rfl
  refine ⟨_, _, rfl, ?_⟩
  change (db.undo.startUndoSession db.objects forceEnable).SameSessions
    (u.startUndoSession db.objects forceEnable)
  cases hc : (db.undo.disabled && !forceEnable) with
  | true =>
      have hc' : (u.disabled && !forceEnable) = true := by
        rw [h.disabled]
        exact hc
      rw [UndoDatabase.startUndoSession, UndoDatabase.startUndoSession, if_pos hc, if_pos hc']
      exact h
  | false =>
      have hc' : (u.disabled && !forceEnable) = false := by
        rw [h.disabled]
        exact hc
      rw [UndoDatabase.startUndoSession_eq_opened hc, UndoDatabase.startUndoSession_eq_opened hc']
      exact h.opened hroom _

/-- A call on the undo database is noted. -/
lemma noteUndo (call : UndoCall) : Confined (Database.noteUndo call : Act β ω Unit) :=
  fun _ => ⟨[_], rfl, fun _ u _ h => ⟨u, _, rfl, h⟩⟩

/-- A call on the undo database that does the same in both, or fails in both. -/
lemma onUndo {failure : Failure}
    {f : UndoDatabase (Objects β ω) → Objects β ω →
      Except DbError (Objects β ω × UndoDatabase (Objects β ω))}
    (hf : ∀ u u' o, u.SameSessions u' →
      (∃ o' v v', f u o = .ok (o', v) ∧ f u' o = .ok (o', v') ∧ v.SameSessions v') ∨
      ∃ e e', f u o = .error e ∧ f u' o = .error e') :
    Confined (Database.onUndo (fun db : Database β ω => f db.undo db.objects) failure) := by
  intro db
  rcases hr : f db.undo db.objects with e | ⟨o, v⟩
  · have hleft := Database.onUndo_error (f := fun db => f db.undo db.objects) hr failure
    rw [hleft]
    refine ⟨[], rfl, fun _ u log h => ?_⟩
    rcases hf _ _ db.objects h with ⟨o', v, v', hok, -⟩ | ⟨_, e', -, herror⟩
    · cases hr.symm.trans hok
    · have hright : Database.onUndo (fun db : Database β ω => f db.undo db.objects) failure
          (db.withUndo u log) = _ := Database.onUndo_error herror failure
      exact ⟨u, log, hright, h⟩
  · have hleft := Database.onUndo_ok (f := fun db => f db.undo db.objects) hr failure
    rw [hleft]
    refine ⟨[], rfl, fun _ u log h => ?_⟩
    rcases hf _ _ db.objects h with ⟨o', w, w', hok, hok', hw⟩ | ⟨_, e', herror, -⟩
    · cases hr.symm.trans hok
      have hright : Database.onUndo (fun db : Database β ω => f db.undo db.objects) failure
          (db.withUndo u log) = _ := Database.onUndo_ok hok' failure
      exact ⟨w', log, hright, hw⟩
    · cases hr.symm.trans herror

lemma sessionUndo : Confined (Database.sessionUndo : Act β ω Unit) := by
  refine (noteUndo .undo).bind fun _ =>
    onUndo (f := UndoDatabase.undo UndoDatabase.restoreSnapshot) fun u u' o h => ?_
  cases hdis : u.disabled with
  | true =>
      refine .inr ⟨.undoDisabled, .undoDisabled, ?_, ?_⟩
      · rw [UndoDatabase.undo, if_pos hdis]
      · rw [UndoDatabase.undo, if_pos (h.disabled.trans hdis)]
  | false =>
      have hon : ¬ u.disabled = true := by simp [hdis]
      have hon' : ¬ u'.disabled = true := by simp [h.disabled, hdis]
      cases hk : u.activeSessions with
      | zero =>
          refine .inr ⟨.noActiveSession, .noActiveSession, ?_, ?_⟩
          · rw [UndoDatabase.undo, if_neg hon, if_pos hk]
          · rw [UndoDatabase.undo, if_neg hon', if_pos (h.activeSessions.trans hk)]
      | succ k =>
          obtain ⟨s, l, l', hstack, hstack', hlength, hstates⟩ := h.exists_cons hk
          have hne : u.activeSessions ≠ 0 := by omega
          have hne' : u'.activeSessions ≠ 0 := by rw [h.activeSessions]; exact hne
          refine .inl ⟨s, _, _, ?_, ?_, h.tail hk hlength hstates⟩
          · rw [UndoDatabase.undo, if_neg hon, if_neg hne, hstack]
            rfl
          · rw [UndoDatabase.undo, if_neg hon', if_neg hne', hstack']
            rfl

lemma sessionMerge : Confined (Database.sessionMerge : Act β ω Unit) := by
  refine (noteUndo .merge).bind fun _ =>
    onUndo (f := fun u o => (u.merge UndoDatabase.combineSnapshot).map (o, ·)) fun u u' o h => ?_
  cases hk : u.activeSessions with
  | zero =>
      refine .inr ⟨.noActiveSession, .noActiveSession, ?_, ?_⟩
      · rw [UndoDatabase.merge, if_pos hk]
        rfl
      · rw [UndoDatabase.merge, if_pos (h.activeSessions.trans hk)]
        rfl
  | succ k =>
      obtain ⟨s, l, l', hstack, hstack', hlength, hstates⟩ := h.exists_cons hk
      have hne : u.activeSessions ≠ 0 := by omega
      have hne' : u'.activeSessions ≠ 0 := by rw [h.activeSessions]; exact hne
      -- a state is left under it, or it is the only one
      have hunder : ∀ {v : UndoDatabase (Objects β ω)} {m : List (Objects β ω)},
          v.activeSessions = k + 1 → k ≤ m.length → m ≠ [] ∨ v.activeSessions = 1 := by
        intro v m hv hm
        cases m with
        | nil => exact .inr (hv.trans (congrArg (· + 1) (Nat.le_zero.mp hm)))
        | cons _ _ => exact .inl (List.cons_ne_nil _ _)
      have hlength' : k ≤ l'.length := by
        have hlen := congrArg List.length hstates
        simp only [List.length_take] at hlen
        omega
      refine .inl ⟨o, _, _, ?_, ?_, h.tail hk hlength hstates⟩
      · rw [UndoDatabase.merge_combineSnapshot_eq hne hstack (hunder hk hlength)]
        rfl
      · rw [UndoDatabase.merge_combineSnapshot_eq hne' hstack'
          (hunder (h.activeSessions.trans hk) hlength')]
        rfl

/-- Undo is disabled in both. -/
lemma disableOnExit (c : Bool) : Confined (Database.disableOnExit c : Act β ω Unit) := by
  intro db
  rw [disableOnExit_eq]
  refine ⟨[], rfl, fun _ u log h => ⟨{ u with disabled := u.disabled || c }, log, ?_, ?_⟩⟩
  · rw [disableOnExit_eq]
    rfl
  · exact ⟨congrArg (· || c) h.disabled, h.activeSessions, h.maxSize, h.length, h.states⟩

/-- A session with its destructor. -/
lemma inSession (forceEnable : Bool) {body : Act β ω α} (hbody : Confined body) :
    Confined (Database.inSession forceEnable body) := by
  refine bind (gets fun _ _ _ h => h.disabled) fun disabled => (startUndoSession _).bind fun _ => ?_
  refine bind (hbody.catchFc fun e => ?_) fun a => (disableOnExit _).bind fun _ => pure a
  exact sessionUndo.bind fun _ => (disableOnExit _).bind fun _ => raise e

/-! ### Operations -/

/-- The objects are seen. -/
lemma gets_objects : Confined (Exec.gets (·.objects) : Act β ω (Objects β ω)) := gets fun _ _ _ _ => rfl

lemma modifyObjects (f : Objects β ω → Objects β ω) : Confined (Database.modifyObjects f) :=
  fun _ => ⟨[], rfl, fun _ _ log h => ⟨_, log, rfl, h.record _⟩⟩

lemma pushAppliedOperation (op : AppliedOperation β) :
    Confined (Database.pushAppliedOperation op : Act β ω Unit) :=
  update (fun _ _ _ => rfl) (fun _ => rfl) fun _ => rfl

lemma adjustBalance (utype : ℕ) (info : String) (account asset : ℕ) (delta : ℤ) :
    Confined (Database.adjustBalance utype info account asset delta : Act β ω Unit) := by
  rw [Database.adjustBalance]
  refine ite (pure ()) (gets_objects.bind fun o => (fcLift _).bind fun o' => ?_)
  refine (modifyObjects _).bind fun _ => bind (gets fun _ _ _ _ => rfl) fun status => ?_
  refine ite ((check _ _).bind fun _ => ?_) (pure ())
  exact update (fun _ _ _ => rfl) (fun _ => rfl) fun _ => rfl

/-- A step of an evaluator. -/
lemma runEffect (e : Effect β ω) : Confined (Database.runEffect e) := by
  cases e with
  | world f => exact modifyObjects _
  | adjustBalance utype info account asset delta => exact adjustBalance _ _ _ _ _
  | virtualOperation op => exact pushAppliedOperation _
  | activeWitnesses ws => exact modifyObjects _
  | fail e => exact raise _

lemma runEffects (l : List (Effect β ω)) : Confined (Database.runEffects l) := forEach runEffect l

lemma runRule (f : Objects β ω → List (Effect β ω)) : Confined (Database.runRule f) :=
  gets_objects.bind fun _ => runEffects _

lemma modifyProposal (id : ℕ) (f : ProposalObject β → ProposalObject β) :
    Confined (Database.modifyProposal id f : Act β ω Unit) :=
  gets_objects.bind fun _ => (check _ _).bind fun _ => modifyObjects _

lemma removeProposal (id : ℕ) : Confined (Database.removeProposal id : Act β ω Unit) := by
  refine gets_objects.bind fun o => ?_
  cases o.findProposal id with
  | none => exact raise _
  | some p =>
      refine bind (gets fun _ _ _ _ => rfl) fun status => ?_
      split_ifs
      · exact (pushAppliedOperation _).bind fun _ => modifyObjects _
      · exact modifyObjects _

variable {R : Rules β ω} {push : ProposalObject β → Act β ω Unit}

/-- The execution of a proposal. -/
lemma pushProposalWith {apply : Operation β → Act β ω Unit} (happly : ∀ op, Confined (apply op))
    (p : ProposalObject β) : Confined (Database.pushProposalWith apply p) := by
  refine bind (gets fun _ _ _ _ => rfl) fun n => catchFc (inSession true ?_) fun e => ?_
  · refine (forEach (fun op => ?_) _).bind fun _ => (modifyProposal _ _).bind fun _ =>
      (removeProposal _).bind fun _ => sessionMerge
    exact (happly op).bind fun _ => gets_objects.bind fun _ => check _ _
  · exact update_bind (raise e) (fun _ _ _ => rfl) (fun _ => rfl) fun _ => rfl

/-- `proposal_create_evaluator::do_apply`. -/
lemma applyProposalCreate (hpush : ∀ p, Confined (push p)) (fee : Fee β ω) (p : ProposalObject β) :
    Confined (Database.applyProposalCreate R push fee p) := by
  refine (modifyObjects _).bind fun _ => gets_objects.bind fun o => ite ?_ (pure _)
  refine catchFc ((hpush p).bind fun _ => (runEffects _).bind fun _ => pure _) fun _ => ?_
  exact (modifyProposal _ _).bind fun _ => pure _

/-- `proposal_update_evaluator::do_apply`. -/
lemma applyProposalUpdate (hpush : ∀ p, Confined (push p)) (u : ProposalUpdate) :
    Confined (Database.applyProposalUpdate R push u) := by
  refine (modifyProposal _ _).bind fun _ => gets_objects.bind fun o => ?_
  cases o.findProposal u.proposal with
  | none => exact raise _
  | some p =>
      refine ite (ite (modifyProposal _ _) (pure ())) (ite ?_ (pure ()))
      exact catchFc (hpush p) fun _ => modifyProposal _ _

/-- The evaluators. -/
lemma applyOperationWith (hpush : ∀ p, Confined (push p)) (op : Operation β) :
    Confined (Database.applyOperationWith R push op) := by
  refine (pushAppliedOperation _).bind fun _ => ?_
  cases op with
  | basic o => exact runRule _
  | proposalCreate payer expiration review ops =>
      refine gets_objects.bind fun o => (runEffects _).bind fun _ => (fcLift _).bind fun _ => ?_
      refine (runEffects _).bind fun _ => (applyProposalCreate hpush _ _).bind fun paid => ?_
      exact ite (runEffects _) (pure ())
  | proposalUpdate u =>
      refine gets_objects.bind fun o => (runEffects _).bind fun _ => (fcLift _).bind fun _ => ?_
      exact (runEffects _).bind fun _ => (applyProposalUpdate hpush u).bind fun _ => runEffects _
  | proposalDelete u =>
      refine gets_objects.bind fun o => (runEffects _).bind fun _ => (fcLift _).bind fun _ => ?_
      exact (runEffects _).bind fun _ => (modifyObjects _).bind fun _ => runEffects _

end Confined

variable {R : Rules β ω} {d : ℕ}

/-- An operation, with the proposals that it executes. -/
lemma confined_applyOperation (op : Operation β) : Confined (Database.applyOperation R d op) := by
  induction d generalizing op with
  | zero =>
      refine Confined.applyOperationWith (fun _ => ?_) op
      exact Confined.update_bind (Confined.raise _) (fun _ _ _ => rfl) (fun _ => rfl) fun _ => rfl
  | succ d ih => exact Confined.applyOperationWith (Confined.pushProposalWith ih) op

/-- **A transaction** depends on the states of the open sessions only. -/
theorem confined_applyTransaction (trx : Transaction β) :
    Confined (Database.applyTransaction R d trx) := by
  refine Confined.bind (Confined.gets fun _ _ _ _ => rfl) fun skip => ?_
  refine Confined.gets_objects.bind fun o => (Confined.fcLift _).bind fun _ => ?_
  have hrest : Confined (do
      Exec.forEach (Database.applyOperation R d) trx.operations
      let o ← Exec.gets (·.objects)
      Database.fcAssert (Database.tempAccountEmpty o) .tempAccountBalance : Act β ω Unit) :=
    (Confined.forEach confined_applyOperation _).bind fun _ =>
      Confined.gets_objects.bind fun _ => Confined.check _ _
  split_ifs
  · exact (Confined.modifyObjects _).bind fun _ => hrest
  · exact hrest

/-! ### Pending transactions -/

/-- `_push_transaction`. -/
lemma confined_pushTransactionInner (trx : Transaction β) :
    Confined (Database.pushTransactionInner R d trx) := by
  refine Confined.bind (Confined.gets fun _ _ _ _ => rfl) fun opened => ?_
  have hmain : Confined (Database.inSession false (do
      Database.applyTransaction R d trx
      Exec.update fun db => { db with pendingTx := db.pendingTx ++ [trx] }
      Database.sessionMerge)) := by
    refine Confined.inSession false ((confined_applyTransaction trx).bind fun _ => ?_)
    exact Confined.update_bind Confined.sessionMerge (fun _ _ _ => rfl) (fun _ => rfl) fun _ => rfl
  split_ifs
  · refine (Confined.startUndoSession false).bind fun _ => ?_
    exact Confined.update_bind hmain (fun _ _ _ => rfl) (fun _ => rfl) fun _ => rfl
  · exact hmain

/-- **The transactions that are tried again** after a block. -/
theorem confined_restorePending (pending : List (Transaction β)) :
    Confined (Database.restorePending R d pending) := by
  have hretry : ∀ trx, Confined (Database.retryTransaction R d trx) := by
    intro trx
    refine Confined.gets_objects.bind fun o => Confined.ite ?_ (Confined.pure ())
    exact (confined_pushTransactionInner trx).catchFc fun _ => Confined.pure ()
  refine Confined.bind (Confined.gets fun _ _ _ _ => rfl) fun popped => ?_
  refine (Confined.forEach hretry popped).bind fun _ => ?_
  exact Confined.update_bind (Confined.forEach hretry pending) (fun _ _ _ => rfl) (fun _ => rfl)
    fun _ => rfl

end Confined

end ZosCore
