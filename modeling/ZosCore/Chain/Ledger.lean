import ZosCore.Chain.Invariant

/-!
What operations, proposals and transactions mean, with the undo sessions left out.

A `Ledger` computation takes objects to objects or throws. There is no way back to be
recorded: a proposal that fails leaves the objects as they were because the handler goes
on from them. What is kept also of a computation that throws is the list of balance
records it has made, as the code keeps it.

* `Ledger.operation`, `Ledger.proposal`, `Ledger.transaction`: the meaning of an operation,
  of the execution of a proposal and of a transaction.
* `Implements`: a computation over the database does what a ledger computation says, and
  leaves the rest of the database as `Frame` says.
* `implements_applyOperation`, `implements_pushProposal`, `implements_applyTransaction`:
  the code with its undo sessions implements the ledger, as long as the undo database may
  keep as many states as proposals nest.
-/

namespace ZosCore

/-- A computation over the objects that returns or throws, with the balance records it
makes either way. -/
def Ledger (β ω α : Type) : Type :=
  Objects β ω → List BalanceHistory × Except Failure (α × Objects β ω)

namespace Ledger

variable {β ω α : Type}

instance : Monad (Ledger β ω) where
  pure a := fun o => ([], .ok (a, o))
  bind x f := fun o =>
    match x o with
    | (l, .ok (a, o')) => (l ++ (f a o').1, (f a o').2)
    | (l, .error e) => (l, .error e)

/-- `throw`. -/
def raise (e : Failure) : Ledger β ω α := fun _ => ([], .error e)

/-- What the objects show. -/
def gets (f : Objects β ω → α) : Ledger β ω α := fun o => ([], .ok (f o, o))

/-- A change of the objects. -/
def update (f : Objects β ω → Objects β ω) : Ledger β ω Unit := fun o => ([], .ok ((), f o))

/-- A balance record is made. -/
def emit (r : BalanceHistory) : Ledger β ω Unit := fun o => ([r], .ok ((), o))

/-- A result that was computed aside. -/
def ofExcept (r : Except ChainError α) : Ledger β ω α :=
  match r with
  | .ok a => pure a
  | .error e => raise (.fc e)

/-- An assertion. -/
def check (c : Prop) [Decidable c] (e : Failure) : Ledger β ω Unit :=
  if c then pure () else raise e

/-- A loop over a list. -/
def forEach (f : α → Ledger β ω Unit) : List α → Ledger β ω Unit
  | [] => pure ()
  | a :: l => do
      f a
      forEach f l

/-- All or nothing: if `x` returns, `k` goes on; if it throws an `fc::exception`, `h` goes on from
the objects before it. -/
def attempt {γ : Type} (x : Ledger β ω α) (k : α → Ledger β ω γ) (h : Ledger β ω γ) :
    Ledger β ω γ := fun o =>
  match x o with
  | (l, .ok (a, o')) => (l ++ (k a o').1, (k a o').2)
  | (l, .error (.fc _)) => (l ++ (h o).1, (h o).2)
  | (l, .error .crash) => (l, .error .crash)

/-- After a computation that returns comes the rest. -/
lemma bind_returns {γ : Type} {F : Ledger β ω α} {G : α → Ledger β ω γ} {o o' : Objects β ω}
    {l : List BalanceHistory} {a : α} (h : F o = (l, .ok (a, o'))) :
    (F >>= G) o = (l ++ (G a o').1, (G a o').2) := by
  change (match F o with
    | (l, .ok (a, o')) => (l ++ (G a o').1, (G a o').2)
    | (l, .error e) => (l, .error e)) = _
  rw [h]

/-- After a computation that throws nothing comes. -/
lemma bind_throws {γ : Type} {F : Ledger β ω α} {G : α → Ledger β ω γ} {o : Objects β ω}
    {l : List BalanceHistory} {e : Failure} (h : F o = (l, .error e)) :
    (F >>= G) o = (l, .error e) := by
  change (match F o with
    | (l, .ok (a, o')) => (l ++ (G a o').1, (G a o').2)
    | (l, .error e) => (l, .error e)) = _
  rw [h]

/-- A sequence returns exactly if both parts do. -/
lemma bind_eq_returns {γ : Type} {F : Ledger β ω α} {G : α → Ledger β ω γ} {o o'' : Objects β ω}
    {l : List BalanceHistory} {c : γ} (h : (F >>= G) o = (l, .ok (c, o''))) :
    ∃ l₁ a o' l₂, F o = (l₁, .ok (a, o')) ∧ G a o' = (l₂, .ok (c, o'')) ∧ l = l₁ ++ l₂ := by
  rcases hF : F o with ⟨l₁, r⟩
  cases r with
  | ok r =>
      rw [bind_returns hF] at h
      obtain ⟨hl, hr⟩ := Prod.mk.inj h
      exact ⟨l₁, r.1, r.2, (G r.1 r.2).1, rfl, Prod.ext rfl hr, hl.symm⟩
  | error e =>
      rw [bind_throws hF] at h
      cases h

section Attempt

variable {γ : Type} {F : Ledger β ω α} {K : α → Ledger β ω γ} {H : Ledger β ω γ}
  {o o' : Objects β ω} {l : List BalanceHistory}

lemma attempt_returns {a : α} (h : F o = (l, .ok (a, o'))) :
    attempt F K H o = (l ++ (K a o').1, (K a o').2) := by
  simp only [attempt, h]

lemma attempt_throws {e : ChainError} (h : F o = (l, .error (.fc e))) :
    attempt F K H o = (l ++ (H o).1, (H o).2) := by
  simp only [attempt, h]

lemma attempt_crashes (h : F o = (l, .error .crash)) :
    attempt F K H o = (l, .error .crash) := by
  simp only [attempt, h]

end Attempt

/-! ### Effects and proposals -/

/-- `adjust_balance`; `record` says whether balance records are made. -/
def adjustBalance (record : Bool) (utype : ℕ) (info : String) (account asset : ℕ) (delta : ℤ) :
    Ledger β ω Unit :=
  if delta = 0 then pure ()
  else do
    let o ← gets fun o => o
    let o' ← ofExcept (o.adjustBalance account asset delta)
    update fun _ => o'
    if record then
      check (utype < balanceMax) (.fc .badBalanceType)
      emit ⟨account, utype, info, asset, delta, (o'.balances.lookup (account, asset)).getD 0⟩

/-- One step of an evaluator. -/
def effect (record : Bool) : Effect β ω → Ledger β ω Unit
  | .world f => update fun o => { o with world := f o.world }
  | .adjustBalance utype info account asset delta =>
      adjustBalance record utype info account asset delta
  | .virtualOperation _ => pure ()
  | .activeWitnesses ws => update fun o => { o with activeWitnesses := ws }
  | .fail e => raise (.fc e)

/-- The steps one after the other. -/
def effects (record : Bool) (l : List (Effect β ω)) : Ledger β ω Unit := forEach (effect record) l

/-- The steps that `f` finds in the present objects. -/
def rule (record : Bool) (f : Objects β ω → List (Effect β ω)) : Ledger β ω Unit := do
  let o ← gets fun o => o
  effects record (f o)

/-- `modify` of a proposal. -/
def modifyProposal (id : ℕ) (f : ProposalObject β → ProposalObject β) : Ledger β ω Unit := do
  let o ← gets fun o => o
  check (o.findProposal id).isSome .crash
  update (·.modifyProposal id f)

/-- `remove_proposal`. -/
def removeProposal (id : ℕ) : Ledger β ω Unit := do
  let o ← gets fun o => o
  check (o.findProposal id).isSome .crash
  update (·.eraseProposal id)

/-- One operation of a proposal that is executed. -/
def proposed (apply : Operation β → Ledger β ω Unit) (id : ℕ) (op : Operation β) :
    Ledger β ω Unit := do
  apply op
  let o ← gets fun o => o
  check (o.findProposal id).isSome .crash

/-- The operations of a proposal, in order. -/
def proposedOps (apply : Operation β → Ledger β ω Unit) (p : ProposalObject β) :
    Ledger β ω Unit :=
  forEach (proposed apply p.id) p.proposedOps

/-- The execution of a proposal: its operations in order, and its removal. -/
def proposalWith (apply : Operation β → Ledger β ω Unit) (p : ProposalObject β) :
    Ledger β ω Unit := do
  proposedOps apply p
  modifyProposal p.id fun p => { p with status := 3 }
  removeProposal p.id

variable (R : Rules β ω) (record : Bool)

/-- `proposal_create_evaluator::do_apply`. A fee that cannot be taken back is found out
when the proposal is gone already. -/
def proposalCreate (push : ProposalObject β → Ledger β ω Unit) (fee : Fee β ω)
    (p : ProposalObject β) : Ledger β ω Bool := do
  update (Database.addProposal p)
  let o ← gets fun o => o
  if hardfork190309Time < o.time ∧ R.isAuthorizedToExecute p o then
    attempt (push p)
      (fun _ => attempt (effects record fee.rollback) (fun _ => return false) (raise .crash))
      (do
        modifyProposal p.id fun p => { p with status := 2 }
        return true)
  else return true

/-- `proposal_update_evaluator::do_apply`. -/
def proposalUpdate (push : ProposalObject β → Ledger β ω Unit) (u : ProposalUpdate) :
    Ledger β ω Unit := do
  modifyProposal u.proposal (Database.updateApprovals u)
  let o ← gets fun o => o
  match o.findProposal u.proposal with
  | none => raise .crash
  | some p =>
      if p.reviewPeriodTime.isSome ∧ hardfork201201Time < o.time then
        if p.status ≠ 1 ∧ R.isAuthorizedToExecute p o then
          modifyProposal p.id fun p => { p with status := 1 }
      else if R.isAuthorizedToExecute p o then
        attempt (push p) pure (modifyProposal p.id fun p => { p with status := 2 })

/-- The meaning of an operation, `push` being that of the execution of a proposal. -/
def operationWith (push : ProposalObject β → Ledger β ω Unit) : Operation β → Ledger β ω Unit
  | .basic o => rule record (R.evaluate o)
  | .proposalCreate payer expiration review ops => do
      let o ← gets fun o => o
      let fee := R.fee (.proposalCreate payer expiration review ops) o
      effects record fee.check
      let noReview ← ofExcept (Database.evaluateProposalCreate R o payer expiration review ops)
      effects record fee.pay
      let paid ← proposalCreate R record push fee
        (Database.newProposal R o payer expiration review ops noReview)
      if paid then effects record fee.settle
  | .proposalUpdate u => do
      let o ← gets fun o => o
      let fee := R.fee (.proposalUpdate u) o
      effects record fee.check
      let _ ← ofExcept (Database.evaluateProposalUpdate R o u)
      effects record fee.pay
      proposalUpdate R push u
      effects record fee.settle
  | .proposalDelete u => do
      let o ← gets fun o => o
      let fee := R.fee (.proposalDelete u) o
      effects record fee.check
      ofExcept (Database.evaluateProposalDelete R o u)
      effects record fee.pay
      update (·.eraseProposal u.proposal)
      effects record fee.settle

/-- The meaning of an operation in which up to `d` executions of proposals nest. -/
def operation : ℕ → Operation β → Ledger β ω Unit
  | 0 => operationWith R record fun _ => raise .crash
  | d + 1 => operationWith R record (proposalWith (operation d))

/-- The meaning of the execution of a proposal. -/
def proposal : ℕ → ProposalObject β → Ledger β ω Unit
  | 0 => fun _ => raise .crash
  | d + 1 => proposalWith (operation R record d)

/-- The meaning of a transaction. -/
def transaction (skip : SkipFlags) (d : ℕ) (trx : Transaction β) : Ledger β ω Unit := do
  let o ← gets fun o => o
  ofExcept (Database.checkTransaction R skip trx o)
  if !skip.transactionDupeCheck then update (Database.addTransaction trx)
  forEach (operation R record d) trx.operations
  let o ← gets fun o => o
  check (Database.tempAccountEmpty o) (.fc .tempAccountBalance)

end Ledger

/-! ### Implementing a ledger computation -/

section Implements

open Exec

variable {β ω α γ : Type} {d : ℕ} {db db' db'' : Database β ω}

/-- Balance records are made. -/
def Database.recording (db : Database β ω) : Bool :=
  db.appStatus.applyBlock ∧
    (db.appStatus.hasAccountHistoryPlugin ∨ db.appStatus.hasStoreHistoryPlugin)

/-- A session is open and has a state to record changes in, or undo is disabled; and the undo
database may keep `d` states. -/
structure Ready (d : ℕ) (db : Database β ω) : Prop where
  state : (db.undo.disabled = false ∧ db.undo.stack ≠ []) ∨
    (db.undo.disabled = true ∧ db.undo.activeSessions = 0)
  room : d ≤ db.undo.maxSize

/-- What operations that nest `d` executions of proposals may change besides the objects
and the balance records: the oldest undo states are trimmed, and operations are added to
the applied ones. -/
structure Frame (d : ℕ) (db db' : Database β ω) : Prop where
  undo : ∃ n, db.undo.maxSize + 1 ≤ n + d ∧
    db'.undo = { db.undo with stack := db.undo.stack.take n }
  appliedOps : db.appliedOps <+: db'.appliedOps
  forkDb : db'.forkDb = db.forkDb
  blockDb : db'.blockDb = db.blockDb
  pendingTx : db'.pendingTx = db.pendingTx
  poppedTx : db'.poppedTx = db.poppedTx
  pendingTxSession : db'.pendingTxSession = db.pendingTxSession
  checkpoints : db'.checkpoints = db.checkpoints
  skipFlags : db'.skipFlags = db.skipFlags
  appStatus : db'.appStatus = db.appStatus

/-- The computation `x` from `db` does what the ledger result says: it returns the same
value with the same objects, or throws the same exception, and makes the same balance
records. -/
inductive Implements (d : ℕ) (db : Database β ω) (x : Act β ω α) :
    List BalanceHistory × Except Failure (α × Objects β ω) → Prop
  | returns {l : List BalanceHistory} {a : α} {o : Objects β ω} {db' : Database β ω} :
      x db = (.ok a, db') → Frame d db db' → db'.objects = o →
        db'.appliedBalances = db.appliedBalances ++ l → Implements d db x (l, .ok (a, o))
  | throws {l : List BalanceHistory} {e : ChainError} {db' : Database β ω} :
      x db = (.error (.fc e), db') → Frame d db db' →
        db'.appliedBalances = db.appliedBalances ++ l → Implements d db x (l, .error (.fc e))
  | crashes {l : List BalanceHistory} {db' : Database β ω} : x db = (.error .crash, db') →
      Implements d db x (l, .error .crash)

namespace Frame

lemma refl (d : ℕ) (db : Database β ω) : Frame d db db where
  undo := ⟨db.undo.stack.length + db.undo.maxSize + 1, by omega, by
    rw [List.take_of_length_le (by omega)]⟩
  appliedOps := List.prefix_rfl
  forkDb := rfl
  blockDb := rfl
  pendingTx := rfl
  poppedTx := rfl
  pendingTxSession := rfl
  checkpoints := rfl
  skipFlags := rfl
  appStatus := rfl

lemma trans (h : Frame d db db') (h' : Frame d db' db'') : Frame d db db'' where
  undo := by
    obtain ⟨n, hn, hu⟩ := h.undo
    obtain ⟨n', hn', hu'⟩ := h'.undo
    refine ⟨min n n', ?_, ?_⟩
    · rw [hu] at hn'
      simp only at hn'
      omega
    · rw [hu', hu]
      simp only [List.take_take, min_comm]
  appliedOps := h.appliedOps.trans h'.appliedOps
  forkDb := h'.forkDb.trans h.forkDb
  blockDb := h'.blockDb.trans h.blockDb
  pendingTx := h'.pendingTx.trans h.pendingTx
  poppedTx := h'.poppedTx.trans h.poppedTx
  pendingTxSession := h'.pendingTxSession.trans h.pendingTxSession
  checkpoints := h'.checkpoints.trans h.checkpoints
  skipFlags := h'.skipFlags.trans h.skipFlags
  appStatus := h'.appStatus.trans h.appStatus

/-- The undo database stays ready. -/
lemma ready (h : Frame d db db') (hr : Ready d db) : Ready d db' := by
  obtain ⟨n, hn, hu⟩ := h.undo
  have hroom := hr.room
  refine ⟨?_, by rw [hu]; exact hroom⟩
  rw [hu]
  rcases hr.state with ⟨hen, hne⟩ | hdis
  · have hn0 : n ≠ 0 := by omega
    refine .inl ⟨hen, ?_⟩
    simp only [ne_eq, List.take_eq_nil_iff, not_or]
    exact ⟨hn0, hne⟩
  · exact .inr hdis

lemma recording (h : Frame d db db') : db'.recording = db.recording := by
  simp only [Database.recording, h.appStatus]

end Frame

/-- A session is opened, its body is run, and its destructor runs if an exception leaves the body. -/
lemma inSession_apply {forceEnable : Bool} (hforce : (db.undo.disabled && !forceEnable) = false)
    (body : Act β ω α) :
    Database.inSession forceEnable body db =
      (do
        let a ← Database.catchFc body fun e => do
          Database.sessionUndo
          Database.disableOnExit (db.undo.disabled && forceEnable)
          Exec.raise e
        Database.disableOnExit (db.undo.disabled && forceEnable)
        return a) db.opened :=
  (bind_ok (gets_apply _ _)).trans (bind_ok (startUndoSession_eq hforce))

lemma inSession_returns {forceEnable : Bool} {body : Act β ω α} {a : α} {db₁ db₂ : Database β ω}
    (hforce : (db.undo.disabled && !forceEnable) = false) (hbody : body db.opened = (.ok a, db₁))
    (hexit : Database.disableOnExit (db.undo.disabled && forceEnable) db₁ = (.ok (), db₂)) :
    Database.inSession forceEnable body db = (.ok a, db₂) :=
  (inSession_apply hforce body).trans ((bind_ok (catchIf_ok hbody)).trans (bind_ok hexit))

lemma inSession_throws {forceEnable : Bool} {body : Act β ω α} {e : ChainError}
    {db₁ db₂ : Database β ω} (hforce : (db.undo.disabled && !forceEnable) = false)
    (hbody : body db.opened = (.error (.fc e), db₁))
    (hundo : (do
      Database.sessionUndo
      Database.disableOnExit (db.undo.disabled && forceEnable)) db₁ = (.ok (), db₂)) :
    Database.inSession forceEnable body db = (.error (.fc e), db₂) := by
  have hhandler : (do
      Database.sessionUndo
      Database.disableOnExit (db.undo.disabled && forceEnable)
      Exec.raise (.fc e) : Act β ω α) db₁ = (.error (.fc e), db₂) := by
    rw [← bind_assoc]
    exact bind_ok hundo
  exact (inSession_apply hforce body).trans
    (bind_error ((catchIf_caught hbody rfl).trans hhandler))

lemma inSession_crashes {forceEnable : Bool} {body : Act β ω α} {db₁ : Database β ω}
    (hforce : (db.undo.disabled && !forceEnable) = false)
    (hbody : body db.opened = (.error .crash, db₁)) :
    Database.inSession forceEnable body db = (.error .crash, db₁) :=
  (inSession_apply hforce body).trans (bind_error (catchIf_missed hbody rfl))

/-- Undo is disabled again if the session has enabled it. -/
lemma disableOnExit_eq (db : Database β ω) (c : Bool) :
    Database.disableOnExit c db =
      (.ok (), { db with undo := { db.undo with disabled := db.undo.disabled || c } }) := by
  cases c <;> simp [Database.disableOnExit, UndoDatabase.disable]

namespace Frame

variable {forceEnable : Bool}

/-- After a session is undone the objects are those it began with, and the undo database may
have lost one more of its oldest states. -/
lemma sessionUndo (h : Frame d db.opened db')
    (hforce : (db.undo.disabled && !forceEnable) = false) (hroom : d ≤ db.undo.maxSize) :
    ∃ db'', (do
        Database.sessionUndo
        Database.disableOnExit (db.undo.disabled && forceEnable)) db' = (.ok (), db'') ∧
      Frame (d + 1) db db'' ∧ db''.objects = db.objects ∧ db''.appliedOps = db'.appliedOps ∧
      db''.appliedBalances = db'.appliedBalances := by
  obtain ⟨n, hn, hu⟩ := h.undo
  have hm : db.opened.undo.maxSize = db.undo.maxSize := rfl
  obtain ⟨k, rfl⟩ : ∃ k, n = k + 1 := ⟨n - 1, by omega⟩
  have hstack : db'.undo.stack = db.objects :: (db.undo.stack.take db.undo.maxSize).take k := by
    rw [hu]; rfl
  have hundo := sessionUndo_eq (by rw [hu]; rfl) (by rw [hu]; exact Nat.succ_ne_zero _) hstack
  refine ⟨_, (bind_ok hundo).trans (disableOnExit_eq _ _), ⟨⟨min k db.undo.maxSize, by omega, ?_⟩,
    h.appliedOps, h.forkDb, h.blockDb, h.pendingTx, h.poppedTx, h.pendingTxSession, h.checkpoints,
    h.skipFlags, h.appStatus⟩, rfl, rfl, rfl⟩
  have hdis : (db.undo.disabled && forceEnable) = db.undo.disabled := by
    cases hd : db.undo.disabled <;> cases hf : forceEnable <;> simp_all
  simp only [hu, List.take_take, hdis]
  rfl

/-- A session that is merged leaves the objects, and the undo database may have lost one more
of its oldest states. -/
lemma sessionMerge (h : Frame d db.opened db') (hr : Ready (d + 1) db)
    (hforce : (db.undo.disabled && !forceEnable) = false) :
    ∃ db₁ db₂, Database.sessionMerge db' = (.ok (), db₁) ∧
      Database.disableOnExit (db.undo.disabled && forceEnable) db₁ = (.ok (), db₂) ∧
      Frame (d + 1) db db₂ ∧ db₂.objects = db'.objects ∧
      db₂.appliedBalances = db'.appliedBalances := by
  obtain ⟨n, hn, hu⟩ := h.undo
  have hm : db.opened.undo.maxSize = db.undo.maxSize := rfl
  have hroom := hr.room
  obtain ⟨k, rfl⟩ : ∃ k, n = k + 2 := ⟨n - 2, by omega⟩
  have hstack : db'.undo.stack =
      db.objects :: (db.undo.stack.take db.undo.maxSize).take (k + 1) := by
    rw [hu]; rfl
  have hactive : db'.undo.activeSessions = db.undo.activeSessions + 1 := by rw [hu]; rfl
  have hmerge := sessionMerge_eq (by rw [hactive]; exact Nat.succ_ne_zero _) hstack (by
    rcases hr.state with ⟨-, hne⟩ | ⟨-, h0⟩
    · left
      simp only [ne_eq, List.take_eq_nil_iff, not_or]
      exact ⟨Nat.succ_ne_zero _, by omega, hne⟩
    · right
      rw [hactive, h0])
  refine ⟨_, _, hmerge, disableOnExit_eq _ _, ⟨⟨min (k + 1) db.undo.maxSize, by omega, ?_⟩,
    h.appliedOps, h.forkDb, h.blockDb, h.pendingTx, h.poppedTx, h.pendingTxSession, h.checkpoints,
    h.skipFlags, h.appStatus⟩, rfl, rfl⟩
  have hdis : (db.undo.disabled && forceEnable) = db.undo.disabled := by
    cases hd : db.undo.disabled <;> cases hf : forceEnable <;> simp_all
  simp only [hu, List.take_take, hdis]
  rfl

end Frame

/-- Undo is on in a session that was opened. -/
lemma Ready.opened (hroom : d ≤ db.undo.maxSize) : Ready d db.opened :=
  ⟨.inl ⟨rfl, List.cons_ne_nil _ _⟩, hroom⟩

namespace Implements

/-- Returning a value. -/
lemma pure (a : α) : Implements d db (Pure.pure a) ((Pure.pure a : Ledger β ω α) db.objects) :=
  .returns rfl (.refl d db) rfl (by simp)

/-- Throwing. -/
lemma raise (e : Failure) :
    Implements d db (Exec.raise e : Act β ω α) ((Ledger.raise e : Ledger β ω α) db.objects) := by
  cases e with
  | fc e => exact .throws rfl (.refl d db) (by simp)
  | crash => exact .crashes rfl

/-- What comes after a computation that has returned. -/
lemma after {x : Act β ω α} {y : Act β ω α} {l : List BalanceHistory}
    {r : List BalanceHistory × Except Failure (α × Objects β ω)} (hrun : x db = y db')
    (hframe : Frame d db db') (hbal : db'.appliedBalances = db.appliedBalances ++ l)
    (hy : Implements d db' y r) : Implements d db x (l ++ r.1, r.2) := by
  cases hy with
  | returns hdb hframe' hobj hbal' =>
      exact .returns (hrun.trans hdb) (hframe.trans hframe') hobj (by rw [hbal', hbal]; simp)
  | throws hdb hframe' hbal' =>
      exact .throws (hrun.trans hdb) (hframe.trans hframe') (by rw [hbal', hbal]; simp)
  | crashes hdb => exact .crashes (hrun.trans hdb)

/-- Sequencing. -/
lemma bind {x : Act β ω α} {k : α → Act β ω γ} {F : Ledger β ω α} {G : α → Ledger β ω γ}
    (hx : Implements d db x (F db.objects))
    (hk : ∀ a db', Frame d db db' → (F db.objects).2 = .ok (a, db'.objects) →
      Implements d db' (k a) (G a db'.objects)) :
    Implements d db (x >>= k) ((F >>= G) db.objects) := by
  generalize hF : F db.objects = r at hx
  cases hx with
  | returns hdb hframe hobj hbal =>
      rename_i l a o db'
      subst hobj
      rw [Ledger.bind_returns hF]
      exact Implements.after (bind_ok hdb) hframe hbal (hk a db' hframe (by rw [hF]))
  | throws hdb hframe hbal =>
      rw [Ledger.bind_throws hF]
      exact .throws (bind_error hdb) hframe hbal
  | crashes hdb =>
      rw [Ledger.bind_throws hF]
      exact .crashes (bind_error hdb)

/-- A check. -/
lemma check (c : Prop) [Decidable c] (e : Failure) :
    Implements d db (Exec.check c e : Act β ω Unit) ((Ledger.check c e : Ledger β ω Unit) db.objects) := by
  rw [Exec.check, Ledger.check]
  split_ifs
  · exact Implements.pure ()
  · exact Implements.raise e

/-- A check that was made aside. -/
lemma fcLift (r : Except ChainError α) :
    Implements d db (Database.fcLift r) ((Ledger.ofExcept r : Ledger β ω α) db.objects) := by
  cases r with
  | ok a => exact Implements.pure a
  | error e => exact Implements.raise (.fc e)

/-- A change of the objects: the undo database has a state that takes it, or takes none. -/
lemma modifyObjects (hr : Ready d db) (f : Objects β ω → Objects β ω) :
    Implements d db (Database.modifyObjects f) ((Ledger.update f : Ledger β ω Unit) db.objects) := by
  have hrec : db.undo.record db.objects id = db.undo := by
    rcases hr.state with ⟨-, hne⟩ | ⟨hdis, -⟩
    · exact UndoDatabase.record_id hne db.objects
    · rw [UndoDatabase.record, if_pos hdis]
  have hdb : Database.modifyObjects f db = (.ok (), { db with objects := f db.objects }) := by
    rw [Database.modifyObjects]
    rw [update_apply, hrec]
  obtain ⟨n, hn, hu⟩ := (Frame.refl d db).undo
  exact .returns hdb ⟨⟨n, hn, hu⟩, List.prefix_rfl, rfl, rfl, rfl, rfl, rfl, rfl, rfl, rfl⟩ rfl
    (by simp)

/-- A loop. -/
lemma forEach {f : γ → Act β ω Unit} {F : γ → Ledger β ω Unit} (l : List γ)
    (hf : ∀ a ∈ l, ∀ db', Frame d db db' → Implements d db' (f a) (F a db'.objects)) :
    Implements d db (Exec.forEach f l) (Ledger.forEach F l db.objects) := by
  induction l generalizing db with
  | nil => exact Implements.pure ()
  | cons a l ih =>
      refine Implements.bind (hf a List.mem_cons_self db (.refl d db)) fun _ db' hframe _ => ?_
      exact ih fun b hb db'' hframe' => hf b (List.mem_cons_of_mem _ hb) db'' (hframe.trans hframe')

/-- Only a part of the database is read. -/
lemma gets_bind {f : Database β ω → α} {k : α → Act β ω γ}
    {r : List BalanceHistory × Except Failure (γ × Objects β ω)}
    (h : Implements d db (k (f db)) r) : Implements d db (Exec.gets f >>= k) r := by
  have hdb : (Exec.gets f >>= k) db = k (f db) db := rfl
  cases h with
  | returns hk hframe hobj hbal => exact .returns (hdb.trans hk) hframe hobj hbal
  | throws hk hframe hbal => exact .throws (hdb.trans hk) hframe hbal
  | crashes hk => exact .crashes (hdb.trans hk)

/-- The objects are read. -/
lemma gets_objects {f : Objects β ω → α} {k : Objects β ω → Act β ω γ} {G : α → Ledger β ω γ}
    (h : Implements d db (k db.objects) (G (f db.objects) db.objects)) :
    Implements d db (Exec.gets (·.objects) >>= k) ((Ledger.gets f >>= G) db.objects) :=
  Implements.gets_bind h

/-- A change of what the ledger does not see. -/
lemma update {g : Database β ω → Database β ω} (hframe : Frame d db (g db))
    (hobj : (g db).objects = db.objects) (hbal : (g db).appliedBalances = db.appliedBalances) :
    Implements d db (Exec.update g) ((Pure.pure () : Ledger β ω Unit) db.objects) := by
  exact .returns rfl hframe hobj (by rw [hbal, List.append_nil])

lemma ite {c : Prop} [Decidable c] {x y : Act β ω α} {F G : Ledger β ω α}
    (hx : c → Implements d db x (F db.objects)) (hy : ¬ c → Implements d db y (G db.objects)) :
    Implements d db (if c then x else y) ((if c then F else G) db.objects) := by
  split_ifs with hc
  · exact hx hc
  · exact hy hc

/-- An operation is added to the applied ones. -/
lemma pushAppliedOperation (op : AppliedOperation β) :
    Implements d db (Database.pushAppliedOperation op)
      ((Pure.pure () : Ledger β ω Unit) db.objects) := by
  obtain ⟨n, hn, hu⟩ := (Frame.refl d db).undo
  exact Implements.update
    ⟨⟨n, hn, hu⟩, List.prefix_append _ _, rfl, rfl, rfl, rfl, rfl, rfl, rfl, rfl⟩ rfl rfl

/-- A balance record is added. -/
lemma emit (r : BalanceHistory) :
    Implements d db (Exec.update fun db => { db with appliedBalances := db.appliedBalances ++ [r] })
      ((Ledger.emit r : Ledger β ω Unit) db.objects) := by
  obtain ⟨n, hn, hu⟩ := (Frame.refl d db).undo
  have hdb : (Exec.update fun db => { db with appliedBalances := db.appliedBalances ++ [r] } :
      Act β ω Unit) db = (.ok (), { db with appliedBalances := db.appliedBalances ++ [r] }) := rfl
  exact .returns hdb ⟨⟨n, hn, hu⟩, List.prefix_rfl, rfl, rfl, rfl, rfl, rfl, rfl, rfl, rfl⟩ rfl rfl

lemma adjustBalance (hr : Ready d db) (utype : ℕ) (info : String) (account asset : ℕ) (delta : ℤ) :
    Implements d db (Database.adjustBalance utype info account asset delta)
      ((Ledger.adjustBalance db.recording utype info account asset delta : Ledger β ω Unit)
        db.objects) := by
  rw [Database.adjustBalance, Ledger.adjustBalance]
  refine Implements.ite (fun _ => Implements.pure ()) fun _ => ?_
  refine Implements.gets_objects (Implements.bind (Implements.fcLift _) fun o' db₁ hf₁ ho₁ => ?_)
  refine Implements.bind (Implements.modifyObjects (hf₁.ready hr) _) fun _ db₂ hf₂ _ => ?_
  refine Implements.gets_bind ?_
  have hrec : db.recording = db₂.recording := by rw [hf₂.recording, hf₁.recording]
  rw [hrec]
  by_cases hc : db₂.appStatus.applyBlock = true ∧
      (db₂.appStatus.hasAccountHistoryPlugin = true ∨ db₂.appStatus.hasStoreHistoryPlugin = true)
  · have hr₂ : db₂.recording = true := decide_eq_true hc
    rw [if_pos hc, hr₂]
    refine Implements.bind (Implements.check (utype < balanceMax) _) fun _ db₃ _ _ => ?_
    exact Implements.emit _
  · have hr₂ : db₂.recording = false := decide_eq_false hc
    rw [if_neg hc, hr₂]
    exact Implements.pure ()

/-- A step of an evaluator. -/
lemma runEffect (hr : Ready d db) (e : Effect β ω) :
    Implements d db (Database.runEffect e) (Ledger.effect db.recording e db.objects) := by
  cases e with
  | world f => exact Implements.modifyObjects hr fun o => { o with world := f o.world }
  | adjustBalance utype info account asset delta =>
      exact Implements.adjustBalance hr utype info account asset delta
  | virtualOperation op => exact Implements.pushAppliedOperation _
  | activeWitnesses ws => exact Implements.modifyObjects hr fun o => { o with activeWitnesses := ws }
  | fail e => exact Implements.raise _

/-- The steps of an evaluator. -/
lemma runEffects (hr : Ready d db) (l : List (Effect β ω)) :
    Implements d db (Database.runEffects l) (Ledger.effects db.recording l db.objects) := by
  refine Implements.forEach l fun e _ db' hframe => ?_
  rw [← hframe.recording]
  exact Implements.runEffect (hframe.ready hr) e

/-- The steps that a rule finds. -/
lemma runRule (hr : Ready d db) (f : Objects β ω → List (Effect β ω)) :
    Implements d db (Database.runRule f) (Ledger.rule db.recording f db.objects) :=
  Implements.gets_objects (Implements.runEffects hr _)

/-- A proposal changes. -/
lemma modifyProposal (hr : Ready d db) (id : ℕ) (f : ProposalObject β → ProposalObject β) :
    Implements d db (Database.modifyProposal id f)
      ((Ledger.modifyProposal id f : Ledger β ω Unit) db.objects) := by
  refine Implements.gets_objects (Implements.bind (Implements.check _ _) fun _ db' hframe _ => ?_)
  exact Implements.modifyObjects (hframe.ready hr) _

/-- A proposal is removed, with an entry in the history if there is a plugin for it. -/
lemma removeProposal (hr : Ready d db) (id : ℕ) :
    Implements d db (Database.removeProposal id)
      ((Ledger.removeProposal id : Ledger β ω Unit) db.objects) := by
  rw [Database.removeProposal, Ledger.removeProposal]
  refine Implements.gets_objects ?_
  cases hp : db.objects.findProposal id with
  | none => exact .crashes rfl
  | some p =>
      refine Implements.gets_bind ?_
      split_ifs
      · exact Implements.bind (Implements.pushAppliedOperation _) fun _ db' hframe _ =>
          Implements.modifyObjects (hframe.ready hr) _
      · exact Implements.modifyObjects hr _

/-- A computation that throws leaves the objects as they were, so a handler goes on from
them. -/
lemma attempt {x : Act β ω α} {k : α → Act β ω γ} {h : Act β ω γ} {F : Ledger β ω α}
    {K : α → Ledger β ω γ} {H : Ledger β ω γ} (hx : Implements d db x (F db.objects))
    (hback : ∀ e db', x db = (.error (.fc e), db') → db'.objects = db.objects)
    (hk : ∀ a db' l, Frame d db db' → F db.objects = (l, .ok (a, db'.objects)) →
      Implements d db' (Database.catchFc (k a) fun _ => h) (K a db'.objects))
    (hh : ∀ db', Frame d db db' → db'.objects = db.objects →
      Implements d db' h (H db'.objects)) :
    Implements d db (Database.catchFc (x >>= k) fun _ => h)
      (Ledger.attempt F K H db.objects) := by
  generalize hF : F db.objects = r at hx
  cases hx with
  | returns hdb hframe hobj hbal =>
      rename_i l a o db'
      subst hobj
      rw [Ledger.attempt_returns hF]
      exact Implements.after (catchIf_bind_ok hdb) hframe hbal (hk a db' l hframe hF)
  | throws hdb hframe hbal =>
      rename_i l e db'
      have hobj := hback e db' hdb
      rw [Ledger.attempt_throws hF, ← hobj]
      exact Implements.after (catchIf_caught (bind_error hdb) rfl) hframe hbal (hh db' hframe hobj)
  | crashes hdb =>
      rw [Ledger.attempt_crashes hF]
      exact .crashes (catchIf_missed (bind_error hdb) rfl)

/-- A session that its body merges. If the body throws, the objects are brought back. -/
lemma inSession {x : Act β ω Unit} {F : Ledger β ω Unit} {c : Bool} (hr : Ready (d + 1) db)
    (hforce : (db.undo.disabled && !c) = false) (hx : Implements d db.opened x (F db.objects)) :
    Implements (d + 1) db (Database.inSession c (x >>= fun _ => Database.sessionMerge))
      (F db.objects) ∧
    ∀ e db', Database.inSession c (x >>= fun _ => Database.sessionMerge) db =
      (.error (.fc e), db') → db'.objects = db.objects := by
  have hroom := hr.room
  generalize hF : F db.objects = r at hx
  cases hx with
  | returns hdb hframe hobj hbal =>
      obtain ⟨db₁, db₂, hmerge, hexit, hframe', hobj', hbal'⟩ := hframe.sessionMerge hr hforce
      have hbody : (x >>= fun _ => Database.sessionMerge) db.opened = (.ok (), db₁) :=
        (bind_ok hdb).trans hmerge
      have hrun := inSession_returns hforce hbody hexit
      refine ⟨.returns hrun hframe' (hobj'.trans hobj) (hbal'.trans hbal), fun e db' h => ?_⟩
      rw [hrun] at h
      cases h
  | throws hdb hframe hbal =>
      obtain ⟨db₂, hundo, hframe', hobj', -, hbal'⟩ := hframe.sessionUndo hforce (by omega)
      have hbody := bind_error (f := fun _ => Database.sessionMerge) hdb
      have hrun := inSession_throws hforce hbody hundo
      refine ⟨.throws hrun hframe' (hbal'.trans hbal), fun e db' h => ?_⟩
      rw [hrun] at h
      cases h
      exact hobj'
  | crashes hdb =>
      have hbody := bind_error (f := fun _ => Database.sessionMerge) hdb
      have hrun := inSession_crashes hforce hbody
      refine ⟨.crashes hrun, fun e db' h => ?_⟩
      rw [hrun] at h
      cases h

/-- One operation of a proposal. -/
lemma applyProposed {apply : Operation β → Act β ω Unit} {F : Operation β → Ledger β ω Unit}
    {op : Operation β} (happly : Implements d db (apply op) (F op db.objects)) (id : ℕ) :
    Implements d db (Database.applyProposed apply id op) (Ledger.proposed F id op db.objects) := by
  refine Implements.bind happly fun _ db' _ _ => ?_
  exact Implements.gets_objects (Implements.check _ _)

/-- The execution of a proposal: if it throws, the objects and the applied operations are as
they were. -/
lemma pushProposalWith {apply : Operation β → Act β ω Unit} {F : Operation β → Ledger β ω Unit}
    (hr : Ready (d + 1) db)
    (happly : ∀ op db', Ready d db' → db'.recording = db.recording →
      Implements d db' (apply op) (F op db'.objects)) (p : ProposalObject β) :
    Implements (d + 1) db (Database.pushProposalWith apply p) (Ledger.proposalWith F p db.objects) ∧
    ∀ e db', Database.pushProposalWith apply p db = (.error (.fc e), db') →
      db'.objects = db.objects ∧ db'.appliedOps = db.appliedOps := by
  have hroom := hr.room
  have hr₁ : Ready d db.opened := Ready.opened (by omega)
  -- the body of the session, without the merge at its end
  let body : Act β ω Unit := do
    Exec.forEach (Database.applyProposed apply p.id) p.proposedOps
    Database.modifyProposal p.id fun p => { p with status := 3 }
    Database.removeProposal p.id
  have hbody : Implements d db.opened body (Ledger.proposalWith F p db.objects) := by
    refine Implements.bind (Implements.forEach _ fun op _ db' hframe => ?_) fun _ db₁ hf₁ _ => ?_
    · exact applyProposed (happly op db' (hframe.ready hr₁) hframe.recording) p.id
    · refine Implements.bind (Implements.modifyProposal (hf₁.ready hr₁) _ _) fun _ db₂ hf₂ _ => ?_
      exact Implements.removeProposal (hf₂.ready (hf₁.ready hr₁)) _
  obtain ⟨hsession, hback⟩ := Implements.inSession (c := true) hr (by simp) hbody
  have hpush : Database.pushProposalWith apply p db =
      Database.catchFc (Database.inSession true (body >>= fun _ => Database.sessionMerge))
        (fun e => do
          Exec.update fun db' => { db' with appliedOps := db'.appliedOps.take db.appliedOps.length }
          Exec.raise e) db := by
    simp only [body, bind_assoc]
    rfl
  generalize hF : Ledger.proposalWith F p db.objects = r at hsession
  cases hsession with
  | returns hdb hframe hobj hbal =>
      have hrun := hpush.trans (catchIf_ok hdb)
      refine ⟨.returns hrun hframe hobj hbal, fun e db' h => ?_⟩
      rw [hrun] at h
      cases h
  | throws hdb hframe hbal =>
      rename_i l e db'
      have hrun := hpush.trans (catchIf_caught hdb rfl)
      have hops : db'.appliedOps.take db.appliedOps.length = db.appliedOps :=
        List.prefix_iff_eq_take.mp hframe.appliedOps |>.symm
      refine ⟨.throws hrun ⟨hframe.undo, ?_, hframe.forkDb, hframe.blockDb, hframe.pendingTx,
        hframe.poppedTx, hframe.pendingTxSession, hframe.checkpoints, hframe.skipFlags,
        hframe.appStatus⟩ hbal, fun e' db'' h => ?_⟩
      · simp only [hops, List.prefix_rfl]
      · rw [hrun] at h
        cases h
        exact ⟨hback e db' hdb, hops⟩
  | crashes hdb =>
      have hrun := hpush.trans (catchIf_missed hdb rfl)
      refine ⟨.crashes hrun, fun e db' h => ?_⟩
      rw [hrun] at h
      cases h

end Implements

/-! ### The evaluators -/

/-- The steps of an evaluator keep the proposals, also when one of them throws. -/
lemma keeps_proposals_runEffects (ps : List (ProposalObject β)) (l : List (Effect β ω)) :
    Upholds (fun db : Database β ω => db.objects.proposals = ps) (fun _ => True)
      (Database.runEffects l) := by
  refine Upholds.runEffects (fun db o hdb ho => ?_) (fun _ _ _ hdb => hdb) l
  obtain ⟨_, _, _, rfl⟩ := ho
  exact hdb

/-- `push` executes a proposal as `P` says: an exception leaves the objects, and a proposal that
was executed is gone. -/
structure Pushes (d : ℕ) (record : Bool) (push : ProposalObject β → Act β ω Unit)
    (P : ProposalObject β → Ledger β ω Unit) : Prop where
  implements : ∀ p db, Ready d db → db.recording = record →
    Implements d db (push p) (P p db.objects)
  restores : ∀ p db e db', Ready d db → db.recording = record →
    push p db = (.error (.fc e), db') → db'.objects = db.objects
  gone : ∀ p o l o', P p o = (l, .ok ((), o')) → o'.findProposal p.id = none

namespace Implements

variable {R : Rules β ω} {record : Bool} {push : ProposalObject β → Act β ω Unit}
  {P : ProposalObject β → Ledger β ω Unit}

lemma applyProposalUpdate (hp : Pushes d record push P) (hr : Ready d db)
    (hrec : db.recording = record) (u : ProposalUpdate) :
    Implements d db (Database.applyProposalUpdate R push u)
      (Ledger.proposalUpdate R P u db.objects) := by
  rw [Database.applyProposalUpdate, Ledger.proposalUpdate]
  refine Implements.bind (Implements.modifyProposal hr _ _) fun _ db₁ hf₁ _ => ?_
  have hr₁ := hf₁.ready hr
  have hrec₁ := hf₁.recording.trans hrec
  refine Implements.gets_objects ?_
  cases db₁.objects.findProposal u.proposal with
  | none => exact Implements.raise _
  | some p =>
      refine Implements.ite (fun _ => ?_) fun _ => ?_
      · exact Implements.ite (fun _ => Implements.modifyProposal hr₁ _ _) fun _ => Implements.pure ()
      · refine Implements.ite (fun _ => ?_) fun _ => Implements.pure ()
        have hpush := Implements.attempt (k := Pure.pure) (K := Pure.pure)
          (h := Database.modifyProposal p.id fun p => { p with status := 2 })
          (H := Ledger.modifyProposal p.id fun p => { p with status := 2 })
          (hp.implements p db₁ hr₁ hrec₁)
          (fun e db' h => hp.restores p db₁ e db' hr₁ hrec₁ h) (fun _ _ _ _ _ => Implements.pure _)
          fun db₂ hf₂ _ => Implements.modifyProposal (hf₂.ready hr₁) _ _
        rw [Exec.bind_pure] at hpush
        exact hpush

/-- The fee of a proposal that has been executed is taken back; if that fails, the handler looks for
the proposal, which is gone. -/
lemma rollbackFee (hr : Ready d db) (fee : Fee β ω) {id : ℕ}
    (hgone : db.objects.findProposal id = none) :
    Implements d db (Database.catchFc (do
        Database.runEffects fee.rollback
        return false)
      fun _ => do
        Database.modifyProposal id fun p => { p with status := 2 }
        return true)
      (Ledger.attempt (Ledger.effects db.recording fee.rollback) (fun _ => return false)
        (Ledger.raise .crash) db.objects) := by
  have hx := Implements.runEffects hr fee.rollback
  have hkeep := keeps_proposals_runEffects db.objects.proposals fee.rollback db rfl
  generalize hF : Ledger.effects db.recording fee.rollback db.objects = r at hx
  cases hx with
  | returns hdb hframe hobj hbal =>
      rw [Ledger.attempt_returns hF]
      exact .returns (catchIf_ok (bind_ok hdb)) hframe hobj (by rw [hbal]; simp [Pure.pure])
  | throws hdb hframe hbal =>
      rename_i l e db'
      rw [Ledger.attempt_throws hF]
      have hprop : db'.objects.proposals = db.objects.proposals := hkeep.2 _ _ hdb
      have hnone : db'.objects.findProposal id = none := by
        rw [Objects.findProposal, hprop]
        exact hgone
      have hcheck : (Exec.check (db'.objects.findProposal id).isSome Failure.crash : Act β ω Unit) db' =
          (.error .crash, db') := by
        rw [check_apply, hnone]
        rfl
      have hcrash : Database.modifyProposal id (fun p => { p with status := 2 }) db' =
          (.error .crash, db') := (bind_ok (gets_apply _ _)).trans (bind_error hcheck)
      exact .crashes ((catchIf_caught (bind_error hdb) rfl).trans (bind_error hcrash))
  | crashes hdb =>
      rw [Ledger.attempt_crashes hF]
      exact .crashes (catchIf_missed (bind_error hdb) rfl)

/-- `proposal_create_evaluator::do_apply`. -/
lemma applyProposalCreate (hp : Pushes d record push P) (hr : Ready d db)
    (hrec : db.recording = record) (fee : Fee β ω) (p : ProposalObject β) :
    Implements d db (Database.applyProposalCreate R push fee p)
      (Ledger.proposalCreate R record P fee p db.objects) := by
  rw [Database.applyProposalCreate, Ledger.proposalCreate]
  refine Implements.bind (Implements.modifyObjects hr _) fun _ db₁ hf₁ _ => ?_
  have hr₁ := hf₁.ready hr
  have hrec₁ := hf₁.recording.trans hrec
  refine Implements.gets_objects (Implements.ite (fun _ => ?_) fun _ => Implements.pure _)
  refine Implements.attempt (hp.implements p db₁ hr₁ hrec₁)
    (fun e db' h => hp.restores p db₁ e db' hr₁ hrec₁ h) (fun _ db₂ l hf₂ hF => ?_)
    fun db₂ hf₂ _ => ?_
  · rw [← hrec₁, ← hf₂.recording]
    exact rollbackFee (hf₂.ready hr₁) fee (hp.gone p _ _ _ hF)
  · exact Implements.bind (Implements.modifyProposal (hf₂.ready hr₁) _ _) fun _ _ _ _ =>
      Implements.pure _

/-- The evaluators. -/
lemma evaluateWith (hp : Pushes d record push P) (hr : Ready d db) (hrec : db.recording = record)
    (op : Operation β) :
    Implements d db (Database.evaluateWith R push op)
      (Ledger.operationWith R record P op db.objects) := by
  -- the steps of an evaluator, from any state that is reached on the way
  have heffects : ∀ {db' : Database β ω} (l : List (Effect β ω)), Frame d db db' →
      Implements d db' (Database.runEffects l) (Ledger.effects record l db'.objects) := by
    intro db' l hf
    rw [← hrec, ← hf.recording]
    exact Implements.runEffects (hf.ready hr) l
  cases op with
  | basic o =>
      subst hrec
      exact Implements.runRule hr _
  | proposalCreate payer expiration review ops =>
      refine Implements.gets_objects (Implements.bind (heffects _ (.refl d db)) fun _ db₁ hf₁ _ => ?_)
      refine Implements.bind (Implements.fcLift _) fun noReview db₂ hf₂ _ => ?_
      have hf₂' := hf₁.trans hf₂
      refine Implements.bind (heffects _ hf₂') fun _ db₃ hf₃ _ => ?_
      have hf₃' := hf₂'.trans hf₃
      refine Implements.bind (applyProposalCreate hp (hf₃'.ready hr) (hf₃'.recording.trans hrec) _ _)
        fun paid db₄ hf₄ _ => ?_
      exact Implements.ite (fun _ => heffects _ (hf₃'.trans hf₄)) fun _ => Implements.pure ()
  | proposalUpdate u =>
      refine Implements.gets_objects (Implements.bind (heffects _ (.refl d db)) fun _ db₁ hf₁ _ => ?_)
      refine Implements.bind (Implements.fcLift _) fun _ db₂ hf₂ _ => ?_
      have hf₂' := hf₁.trans hf₂
      refine Implements.bind (heffects _ hf₂') fun _ db₃ hf₃ _ => ?_
      have hf₃' := hf₂'.trans hf₃
      refine Implements.bind (applyProposalUpdate hp (hf₃'.ready hr) (hf₃'.recording.trans hrec) u)
        fun _ db₄ hf₄ _ => ?_
      exact heffects _ (hf₃'.trans hf₄)
  | proposalDelete u =>
      refine Implements.gets_objects (Implements.bind (heffects _ (.refl d db)) fun _ db₁ hf₁ _ => ?_)
      refine Implements.bind (Implements.fcLift _) fun _ db₂ hf₂ _ => ?_
      have hf₂' := hf₁.trans hf₂
      refine Implements.bind (heffects _ hf₂') fun _ db₃ hf₃ _ => ?_
      have hf₃' := hf₂'.trans hf₃
      refine Implements.bind (Implements.modifyObjects (hf₃'.ready hr) _) fun _ db₄ hf₄ _ => ?_
      exact heffects _ (hf₃'.trans hf₄)

end Implements

/-! ### Operations, proposals and transactions -/

variable {R : Rules β ω}

lemma Objects.findProposal_eraseProposal (o : Objects β ω) (id : ℕ) :
    (o.eraseProposal id).findProposal id = none := by
  simp [Objects.findProposal, Objects.eraseProposal]

/-- A proposal that was executed is gone. -/
lemma Ledger.proposalWith_gone {F : Operation β → Ledger β ω Unit} {p : ProposalObject β}
    {o o' : Objects β ω} {l : List BalanceHistory}
    (h : Ledger.proposalWith F p o = (l, .ok ((), o'))) : o'.findProposal p.id = none := by
  obtain ⟨_, _, o₁, _, -, h, -⟩ := Ledger.bind_eq_returns h
  obtain ⟨_, _, o₂, _, -, h, -⟩ := Ledger.bind_eq_returns h
  obtain ⟨_, _, o₃, _, -, h, -⟩ := Ledger.bind_eq_returns h
  obtain ⟨_, _, o₄, _, -, h, -⟩ := Ledger.bind_eq_returns h
  cases h
  exact Objects.findProposal_eraseProposal _ _

/-- The execution of a proposal, with the operations it has. -/
lemma pushes_pushProposalWith {apply : Operation β → Act β ω Unit}
    {F : Operation β → Ledger β ω Unit} {record : Bool}
    (happly : ∀ op db, Ready d db → db.recording = record →
      Implements d db (apply op) (F op db.objects)) :
    Pushes (d + 1) record (Database.pushProposalWith apply) (Ledger.proposalWith F) where
  implements p _ hr hrec :=
    (Implements.pushProposalWith hr (fun op db' hr' h => happly op db' hr' (h.trans hrec)) p).1
  restores p _ e db' hr hrec h :=
    ((Implements.pushProposalWith hr (fun op db' hr' h => happly op db' hr' (h.trans hrec)) p).2
      e db' h).1
  gone _ _ _ _ h := Ledger.proposalWith_gone h

lemma implements_applyOperationWith {push : ProposalObject β → Act β ω Unit}
    {P : ProposalObject β → Ledger β ω Unit} (hr : Ready d db) (hp : Pushes d db.recording push P)
    (op : Operation β) :
    Implements d db (Database.applyOperationWith R push op)
      (Ledger.operationWith R db.recording P op db.objects) := by
  have hpush : Ledger.operationWith R db.recording P op db.objects =
      ((Pure.pure () : Ledger β ω Unit) >>= fun _ => Ledger.operationWith R db.recording P op)
        db.objects := rfl
  rw [hpush]
  refine Implements.bind (Implements.pushAppliedOperation _) fun _ db₁ hf₁ _ => ?_
  exact Implements.evaluateWith hp (hf₁.ready hr) hf₁.recording op

/-- **The code implements the ledger**: an operation, with the undo sessions of the proposals it
executes. -/
theorem implements_applyOperation (hr : Ready d db) (op : Operation β) :
    Implements d db (Database.applyOperation R d op)
      (Ledger.operation R db.recording d op db.objects) := by
  induction d generalizing db op with
  | zero =>
      refine implements_applyOperationWith hr ⟨fun _ db _ _ => .crashes db.stackOverflow_apply,
        fun _ _ _ _ _ _ h => ?_, fun _ _ _ _ h => ?_⟩ op
      · rw [Database.stackOverflow_apply] at h
        cases h
      · cases h
  | succ d ih =>
      refine implements_applyOperationWith hr (pushes_pushProposalWith fun op db' hr' hrec => ?_) op
      rw [← hrec]
      exact ih hr' op

/-- **The execution of a proposal implements its meaning**, and an exception leaves the objects and
the applied operations as they were. -/
theorem implements_pushProposal (hr : Ready d db) (p : ProposalObject β) :
    Implements d db (Database.pushProposal R d p)
      (Ledger.proposal R db.recording d p db.objects) ∧
    ∀ e db', Database.pushProposal R d p db = (.error (.fc e), db') →
      db'.objects = db.objects ∧ db'.appliedOps = db.appliedOps := by
  cases d with
  | zero => exact ⟨.crashes db.stackOverflow_apply, fun _ _ h => nomatch h⟩
  | succ d =>
      refine Implements.pushProposalWith hr (fun op db' hr' hrec => ?_) p
      rw [← hrec]
      exact implements_applyOperation hr' op

/-- **The application of a transaction implements its meaning.** -/
theorem implements_applyTransaction (hr : Ready d db) (trx : Transaction β) :
    Implements d db (Database.applyTransaction R d trx)
      (Ledger.transaction R db.recording db.skipFlags d trx db.objects) := by
  rw [Database.applyTransaction, Ledger.transaction]
  refine Implements.gets_bind (Implements.gets_objects ?_)
  refine Implements.bind (Implements.fcLift _) fun _ db₁ hf₁ _ => ?_
  have hrest : ∀ db₂ : Database β ω, Frame d db db₂ →
      Implements d db₂ (do
        Exec.forEach (Database.applyOperation R d) trx.operations
        let o ← Exec.gets (·.objects)
        Database.fcAssert (Database.tempAccountEmpty o) .tempAccountBalance)
      ((do
        Ledger.forEach (Ledger.operation R db.recording d) trx.operations
        let o ← Ledger.gets fun o => o
        Ledger.check (Database.tempAccountEmpty o) (.fc .tempAccountBalance) : Ledger β ω Unit)
        db₂.objects) := by
    intro db₂ hf₂
    refine Implements.bind (Implements.forEach _ fun op _ db₃ hf₃ => ?_) fun _ db₃ hf₃ _ => ?_
    · have hf := hf₂.trans hf₃
      rw [← hf.recording]
      exact implements_applyOperation (hf.ready hr) op
    · exact Implements.gets_objects (Implements.check _ _)
  split_ifs
  · refine Implements.bind (Implements.modifyObjects (hf₁.ready hr) _) fun _ db₂ hf₂ _ => ?_
    exact hrest db₂ (hf₁.trans hf₂)
  · exact hrest db₁ hf₁

end Implements

end ZosCore
