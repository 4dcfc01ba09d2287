import ZosCore.Lib.Exec
import ZosCore.Db.UndoDatabase
import ZosCore.Chain.ForkDatabase
import ZosCore.Chain.BlockDatabase

/-!
`chain/database.hpp`, `db_block.cpp`, `db_update.cpp`, `db_balance.cpp`,
`proposal_evaluator.cpp`: the state of the database, the undo sessions, and the
application of operations, proposals and transactions.

The undo database keeps snapshots of the objects; `Db/UndoDatabase.lean` and
`Db/UndoState.lean` say why these cannot be told from the undo states of the code.

A proposal is executed by an operation and has operations of its own, so
`apply_operation` and `push_proposal` call each other. `applyOperation d` may nest
`d` calls of `push_proposal`; beyond that the call stack is used up and the program
ends.

* `Database`, `Act`: the state, and computations over it.
* `inSession`: an undo session that its destructor undoes if an exception leaves it.
* `applyOperation`, `pushProposal`, `applyTransaction`.
-/

namespace ZosCore

/-! ### The state -/

/-- An entry of `_applied_ops`. -/
inductive AppliedOperation (β : Type) where
  | operation (op : Operation β)
  /-- `fill_object_history_operation` of a proposal. -/
  | fillObjectHistory (id issuer : ℕ)

/-- `balance_history_`. -/
structure BalanceHistory where
  issuer : ℕ
  utype : ℕ
  info : String
  asset : ℕ
  delta : ℤ
  balance : ℤ

/-- `app_status`, as far as it is read. -/
structure AppStatus where
  applyBlock : Bool := false
  hasAccountHistoryPlugin : Bool := false
  hasStoreHistoryPlugin : Bool := false
  hasObjectHistoryPlugin : Bool := false

/-- The calls on the undo database that open or close a session. -/
inductive UndoCall where
  | start
  | undo
  | merge
  | commit
  | popCommit
  deriving DecidableEq

/-- A call on the undo database, with what it found: the counters, the head and the last
irreversible block under the open sessions, and the last irreversible block of the newest undo
state. -/
structure UndoEvent where
  call : UndoCall
  activeSessions : ℕ
  size : ℕ
  maxSize : ℕ
  headBlockNumber : ℕ
  lastIrreversibleBlockNum : ℕ
  newestIrreversible : Option ℕ

/-- `database`. `pendingTxSession` says whether `_pending_tx_session` holds a session.
`undoLog` and `stackUsedUp` are history variables: the calls on the undo database, newest first,
and whether `push_proposal` was called with no room left for it on the call stack. -/
structure Database (β ω : Type) where
  objects : Objects β ω
  undo : UndoDatabase (Objects β ω) := { disabled := false, maxSize := minUndoHistory }
  undoLog : List UndoEvent := []
  forkDb : ForkDatabase β := {}
  blockDb : BlockDatabase β := {}
  pendingTx : List (Transaction β) := []
  poppedTx : List (Transaction β) := []
  pendingTxSession : Bool := false
  appliedOps : List (AppliedOperation β) := []
  appliedBalances : List BalanceHistory := []
  /-- `_checkpoints`, in the order of the block numbers. -/
  checkpoints : List (ℕ × BlockId) := []
  skipFlags : SkipFlags := {}
  appStatus : AppStatus := {}
  stackUsedUp : Bool := false

/-- A computation over the database. -/
abbrev Act (β ω α : Type) : Type := Exec (Database β ω) Failure α

namespace Database

open Exec

variable {β ω : Type}

/-- `catch ( const fc::exception& )`. -/
def catchFc {α : Type} (x : Act β ω α) (h : Failure → Act β ω α) : Act β ω α :=
  catchIf Failure.isFc x h

/-- `FC_ASSERT`. -/
def fcAssert (c : Prop) [Decidable c] (e : ChainError) : Act β ω Unit := check c (.fc e)

/-- A failed assertion of a part of the database. -/
def fcLift {α : Type} (r : Except ChainError α) : Act β ω α := ofExcept (r.mapError .fc)

/-- A change of objects, with the hook that comes before it. -/
def modifyObjects (f : Objects β ω → Objects β ω) : Act β ω Unit :=
  update fun db => { db with undo := db.undo.record db.objects id, objects := f db.objects }

/-- `with_skip_flags`. -/
def withSkipFlags {α : Type} (skip : SkipFlags) (x : Act β ω α) : Act β ω α := fun db =>
  let r := x { db with skipFlags := skip }
  (r.1, { r.2 with skipFlags := db.skipFlags })

/-! ### Undo sessions -/

/-- A call on the undo database, as it is noted. -/
def undoEvent (call : UndoCall) (o : Objects β ω) (u : UndoDatabase (Objects β ω)) : UndoEvent where
  call := call
  activeSessions := u.activeSessions
  size := u.size
  maxSize := u.maxSize
  headBlockNumber := (u.base o).headBlockNumber
  lastIrreversibleBlockNum := (u.base o).lastIrreversibleBlockNum
  newestIrreversible := u.stack.head?.map (·.lastIrreversibleBlockNum)

/-- A call on the undo database is noted. -/
def noteUndo (call : UndoCall) : Act β ω Unit :=
  update fun db => { db with undoLog := undoEvent call db.objects db.undo :: db.undoLog }

/-- `undo_database::start_undo_session`. -/
def startUndoSession (forceEnable : Bool) : Act β ω Unit := do
  noteUndo .start
  update fun db => { db with undo := db.undo.startUndoSession db.objects forceEnable }

/-- A call on the undo database that gives the objects and the undo database after it, or fails
one of its assertions. -/
def onUndo (f : Database β ω → Except DbError (Objects β ω × UndoDatabase (Objects β ω)))
    (failure : Failure) : Act β ω Unit := fun db =>
  match f db with
  | .ok (objects, undo) => (.ok (), { db with objects, undo })
  | .error _ => (.error failure, db)

lemma onUndo_ok {f : Database β ω → Except DbError (Objects β ω × UndoDatabase (Objects β ω))}
    {db : Database β ω} {o : Objects β ω} {u : UndoDatabase (Objects β ω)} (h : f db = .ok (o, u))
    (failure : Failure) : onUndo f failure db = (.ok (), { db with objects := o, undo := u }) := by
  rw [onUndo]
  rw [h]

lemma onUndo_error {f : Database β ω → Except DbError (Objects β ω × UndoDatabase (Objects β ω))}
    {db : Database β ω} {e : DbError} (h : f db = .error e) (failure : Failure) :
    onUndo f failure db = (.error failure, db) := by
  rw [onUndo]
  rw [h]

/-- `undo_database::undo`, called by the destructor of a session: an exception there ends
the program. -/
def sessionUndo : Act β ω Unit := do
  noteUndo .undo
  onUndo (fun db => db.undo.undo UndoDatabase.restoreSnapshot db.objects) .crash

/-- `session::merge`. -/
def sessionMerge : Act β ω Unit := do
  noteUndo .merge
  onUndo (fun db => (db.undo.merge UndoDatabase.combineSnapshot).map (db.objects, ·)) (.fc .undo)

/-- `session::commit`. -/
def sessionCommit : Act β ω Unit := do
  noteUndo .commit
  onUndo (fun db => db.undo.commit.map (db.objects, ·)) (.fc .undo)

/-- `pop_undo`. -/
def popUndo : Act β ω Unit := do
  noteUndo .popCommit
  onUndo (fun db => db.undo.popCommit UndoDatabase.restoreSnapshot db.objects) (.fc .undo)

/-- `if( _disable_on_exit ) _db.disable();` -/
def disableOnExit (c : Bool) : Act β ω Unit :=
  if c then update fun db => { db with undo := db.undo.disable } else pure ()

/-- A scope with an undo session, which `body` merges or commits at its end. If an
exception leaves the scope, the destructor of the session undoes it. A session that had to
enable undo disables it again. -/
def inSession {α : Type} (forceEnable : Bool) (body : Act β ω α) : Act β ω α := do
  let disabled ← gets (·.undo.disabled)
  startUndoSession forceEnable
  let a ← catchFc body fun e => do
    sessionUndo
    disableOnExit (disabled && forceEnable)
    raise e
  disableOnExit (disabled && forceEnable)
  return a

/-- `_pending_tx_session.reset()`. -/
def resetPendingSession : Act β ω Unit := do
  if ← gets (·.pendingTxSession) then
    sessionUndo
    update fun db => { db with pendingTxSession := false }

/-! ### Effects -/

/-- `adjust_balance`. -/
def adjustBalance (utype : ℕ) (info : String) (account asset : ℕ) (delta : ℤ) :
    Act β ω Unit := do
  if delta = 0 then return
  let o ← gets (·.objects)
  let o' ← fcLift (o.adjustBalance account asset delta)
  modifyObjects fun _ => o'
  let status ← gets (·.appStatus)
  if status.applyBlock ∧ (status.hasAccountHistoryPlugin ∨ status.hasStoreHistoryPlugin) then
    fcAssert (utype < balanceMax) .badBalanceType
    let balance := (o'.balances.lookup (account, asset)).getD 0
    update fun db => { db with
      appliedBalances := db.appliedBalances ++ [⟨account, utype, info, asset, delta, balance⟩] }

/-- `push_applied_operation`. -/
def pushAppliedOperation (op : AppliedOperation β) : Act β ω Unit :=
  update fun db => { db with appliedOps := db.appliedOps ++ [op] }

/-- One step of an evaluator or of a task at the end of a block. -/
def runEffect : Effect β ω → Act β ω Unit
  | .world f => modifyObjects fun o => { o with world := f o.world }
  | .adjustBalance utype info account asset delta => adjustBalance utype info account asset delta
  | .virtualOperation op => pushAppliedOperation (.operation op)
  | .activeWitnesses ws => modifyObjects fun o => { o with activeWitnesses := ws }
  | .fail e => raise (.fc e)

/-- The steps one after the other. -/
def runEffects (l : List (Effect β ω)) : Act β ω Unit := forEach runEffect l

/-- The steps that `f` finds in the present objects. -/
def runRule (f : Objects β ω → List (Effect β ω)) : Act β ω Unit := do
  let o ← gets (·.objects)
  runEffects (f o)

/-! ### Proposals -/

/-- `remove` of a proposal. -/
def removeProposalObject (id : ℕ) : Act β ω Unit := modifyObjects (·.eraseProposal id)

/-- `modify` of a proposal through a reference to it: a proposal that is gone is a
dangling reference. -/
def modifyProposal (id : ℕ) (f : ProposalObject β → ProposalObject β) : Act β ω Unit := do
  let o ← gets (·.objects)
  check (o.findProposal id).isSome .crash
  modifyObjects (·.modifyProposal id f)

/-- `remove_proposal`. -/
def removeProposal (id : ℕ) : Act β ω Unit := do
  let o ← gets (·.objects)
  match o.findProposal id with
  | none => raise .crash
  | some p =>
      if (← gets (·.appStatus)).hasObjectHistoryPlugin then
        pushAppliedOperation (.fillObjectHistory p.id p.proposer)
      removeProposalObject id

/-- The loop of `push_proposal` over the operations of the proposal. The loop runs through
the proposal itself, which has to be there still after every operation. -/
def applyProposed (apply : Operation β → Act β ω Unit) (id : ℕ) (op : Operation β) :
    Act β ω Unit := do
  apply op
  let o ← gets (·.objects)
  check (o.findProposal id).isSome .crash

/-- `push_proposal`, with `apply` for `apply_operation`. -/
def pushProposalWith (apply : Operation β → Act β ω Unit) (p : ProposalObject β) :
    Act β ω Unit := do
  let oldAppliedOpsSize ← gets (·.appliedOps.length)
  catchFc
    (inSession true do
      forEach (applyProposed apply p.id) p.proposedOps
      modifyProposal p.id fun p => { p with status := 3 }
      removeProposal p.id
      sessionMerge)
    fun e => do
      update fun db => { db with appliedOps := db.appliedOps.take oldAppliedOpsSize }
      raise e

variable (R : Rules β ω)

/-- `is_must_review_period`. -/
def isMustReviewPeriod : List (Operation β) → Except ChainError Bool
  | [] => .ok false
  | .basic o :: l => if R.mustReview o then .ok true else isMustReviewPeriod l
  | .proposalCreate .. :: _ => .error .noSupportProposal
  | .proposalUpdate _ :: _ => .error .noSupportProposal
  | .proposalDelete _ :: l => isMustReviewPeriod l

/-- `is_no_review_period`. -/
def isNoReviewPeriod (l : List (Operation β)) : Bool :=
  l.any fun
    | .basic o => R.noReview o
    | _ => false

/-- `proposal_create_evaluator::do_evaluate`; it returns `_no_review`. -/
def evaluateProposalCreate (o : Objects β ω) (feePayingAccount expirationTime : ℕ)
    (reviewPeriodSeconds : Option ℕ) (proposedOps : List (Operation β)) :
    Except ChainError Bool := do
  if R.isLockBalance feePayingAccount o then throw .lockedAccount
  if ¬ o.time < expirationTime then throw .proposalExpired
  if ¬ expirationTime ≤ o.time + R.maximumProposalLifetime o then throw .proposalTooLong
  match reviewPeriodSeconds with
  | some r => if ¬ r < expirationTime - o.time then throw .reviewTooLong
  | none => pure ()
  let mustReview ← isMustReviewPeriod R proposedOps
  let noReview := !mustReview && isNoReviewPeriod R proposedOps
  if R.otherRequired proposedOps then throw .otherAuthority
  if !noReview && (mustReview || R.committeeRequired proposedOps) then
    match reviewPeriodSeconds with
    | none => throw .reviewRequired
    | some r => if r < R.committeeProposalReviewPeriod o then throw .reviewInsufficient
  if !R.validateProposed proposedOps then throw .invalidTransaction
  return noReview

/-- The proposal that `proposal_create_evaluator::do_apply` creates. -/
def newProposal (o : Objects β ω) (feePayingAccount expirationTime : ℕ)
    (reviewPeriodSeconds : Option ℕ) (proposedOps : List (Operation β)) (noReview : Bool) :
    ProposalObject β :=
  { id := o.nextProposalId
    proposedOps := proposedOps
    expirationTime := expirationTime
    reviewPeriodTime := if noReview then none else reviewPeriodSeconds.map (o.time + ·)
    proposer := feePayingAccount
    requiredActiveApprovals := R.requiredActiveApprovals proposedOps
    requiredOwnerApprovals := R.requiredOwnerApprovals proposedOps
    availableActiveApprovals := [feePayingAccount] }

/-- `create` of a proposal. -/
def addProposal (p : ProposalObject β) (o : Objects β ω) : Objects β ω :=
  { o with proposals := o.proposals ++ [p], nextProposalId := o.nextProposalId + 1 }

/-- `proposal_update_evaluator::do_evaluate`. -/
def evaluateProposalUpdate (o : Objects β ω) (u : ProposalUpdate) :
    Except ChainError (ProposalObject β) := do
  let some p := o.findProposal u.proposal | throw .proposalNotFound
  if R.isLockBalance u.feePayingAccount o then throw .lockedAccount
  match p.reviewPeriodTime with
  | some t =>
      if o.time < t ∧ hardfork201201Time < o.time ∧
          ¬ (u.activeApprovalsToAdd = [] ∧ u.ownerApprovalsToAdd = []) then throw .inReview
  | none => pure ()
  if ¬ ∀ a ∈ u.activeApprovalsToRemove, a ∈ p.availableActiveApprovals then
    throw .approvalNotFound
  if ¬ ∀ a ∈ u.ownerApprovalsToRemove, a ∈ p.availableOwnerApprovals then
    throw .approvalNotFound
  return p

/-- The change of the approvals in `proposal_update_evaluator::do_apply`. -/
def updateApprovals (u : ProposalUpdate) (p : ProposalObject β) : ProposalObject β :=
  { p with
    status := 0
    availableActiveApprovals :=
      (p.availableActiveApprovals ∪ u.activeApprovalsToAdd).filter (· ∉ u.activeApprovalsToRemove)
    availableOwnerApprovals :=
      (p.availableOwnerApprovals ∪ u.ownerApprovalsToAdd).filter (· ∉ u.ownerApprovalsToRemove)
    availableKeyApprovals :=
      (p.availableKeyApprovals ∪ u.keyApprovalsToAdd).filter (· ∉ u.keyApprovalsToRemove) }

/-- `proposal_delete_evaluator::do_evaluate`. -/
def evaluateProposalDelete (o : Objects β ω) (u : ProposalDelete) : Except ChainError Unit := do
  let some p := o.findProposal u.proposal | throw .proposalNotFound
  let required :=
    if u.usingOwnerAuthority then p.requiredOwnerApprovals else p.requiredActiveApprovals
  if ¬ (p.proposer = u.feePayingAccount ∨ u.feePayingAccount ∈ required) then
    throw .notAuthoritative
  if R.isLockBalance u.feePayingAccount o then throw .lockedAccount

/-- `proposal_create_evaluator::do_apply`; it returns whether the fee is still to be
paid. -/
def applyProposalCreate (push : ProposalObject β → Act β ω Unit) (fee : Fee β ω)
    (p : ProposalObject β) : Act β ω Bool := do
  modifyObjects (addProposal p)
  let o ← gets (·.objects)
  if hardfork190309Time < o.time ∧ R.isAuthorizedToExecute p o then
    catchFc
      (do
        push p
        runEffects fee.rollback
        return false)
      fun _ => do
        modifyProposal p.id fun p => { p with status := 2 }
        return true
  else return true

/-- `proposal_update_evaluator::do_apply`. -/
def applyProposalUpdate (push : ProposalObject β → Act β ω Unit) (u : ProposalUpdate) :
    Act β ω Unit := do
  modifyProposal u.proposal (updateApprovals u)
  let o ← gets (·.objects)
  match o.findProposal u.proposal with
  | none => raise .crash
  | some p =>
      if p.reviewPeriodTime.isSome ∧ hardfork201201Time < o.time then
        if p.status ≠ 1 ∧ R.isAuthorizedToExecute p o then
          modifyProposal p.id fun p => { p with status := 1 }
      else if R.isAuthorizedToExecute p o then
        catchFc (push p) fun _ => modifyProposal p.id fun p => { p with status := 2 }

/-- The evaluators, with `push` for `push_proposal`. -/
def evaluateWith (push : ProposalObject β → Act β ω Unit) : Operation β → Act β ω Unit
  | .basic o => runRule (R.evaluate o)
  | .proposalCreate payer expiration review ops => do
      let o ← gets (·.objects)
      let fee := R.fee (.proposalCreate payer expiration review ops) o
      runEffects fee.check
      let noReview ← fcLift (evaluateProposalCreate R o payer expiration review ops)
      runEffects fee.pay
      let paid ← applyProposalCreate R push fee (newProposal R o payer expiration review ops noReview)
      if paid then runEffects fee.settle
  | .proposalUpdate u => do
      let o ← gets (·.objects)
      let fee := R.fee (.proposalUpdate u) o
      runEffects fee.check
      let _ ← fcLift (evaluateProposalUpdate R o u)
      runEffects fee.pay
      applyProposalUpdate R push u
      runEffects fee.settle
  | .proposalDelete u => do
      let o ← gets (·.objects)
      let fee := R.fee (.proposalDelete u) o
      runEffects fee.check
      fcLift (evaluateProposalDelete R o u)
      runEffects fee.pay
      removeProposalObject u.proposal
      runEffects fee.settle

/-- `apply_operation`, with `push` for `push_proposal`. -/
def applyOperationWith (push : ProposalObject β → Act β ω Unit) (op : Operation β) :
    Act β ω Unit := do
  pushAppliedOperation (.operation op)
  evaluateWith R push op

/-- The call stack is used up: the program ends. -/
def stackOverflow : Act β ω Unit := do
  update fun db => { db with stackUsedUp := true }
  raise .crash

lemma stackOverflow_apply (db : Database β ω) :
    stackOverflow db = (.error .crash, { db with stackUsedUp := true }) := rfl

/-- `apply_operation`, with `d` calls of `push_proposal` left on the call stack. -/
def applyOperation : ℕ → Operation β → Act β ω Unit
  | 0 => applyOperationWith R fun _ => stackOverflow
  | d + 1 => applyOperationWith R (pushProposalWith (applyOperation d))

/-- `push_proposal`. -/
def pushProposal : ℕ → ProposalObject β → Act β ω Unit
  | 0 => fun _ => stackOverflow
  | d + 1 => pushProposalWith (applyOperation R d)

/-! ### Transactions -/

/-- The checks of `_apply_transaction` that come before anything is changed. -/
def checkTransaction (skip : SkipFlags) (trx : Transaction β) (o : Objects β ω) :
    Except ChainError Unit := do
  if !R.validate trx then throw .invalidTransaction
  if !skip.transactionDupeCheck && o.isKnownTransaction trx.id then throw .duplicateTransaction
  if !skip.transactionSignatures && !skip.authorityCheck && !R.verifyAuthority trx o then
    throw .missingAuthority
  if 0 < o.headBlockNumber then
    if !skip.taposCheck &&
        trx.refBlockPrefix ≠ R.hashPrefix (o.blockSummaries (trx.refBlockNum % 65536)) then
      throw .taposMismatch
    if ¬ trx.expiration ≤ o.time + R.maximumTimeUntilExpiration o then throw .expirationTooFar
    if ¬ o.time ≤ trx.expiration then throw .expired

/-- `create<transaction_object>`. -/
def addTransaction (trx : Transaction β) (o : Objects β ω) : Objects β ω :=
  { o with transactions := ⟨trx.id, trx.expiration⟩ :: o.transactions }

/-- The temp account has no balance left. -/
def tempAccountEmpty (o : Objects β ω) : Bool :=
  o.balances.entries.all fun e => e.1.1 ≠ tempAccount ∨ e.2 = 0

/-- `_apply_transaction`. -/
def applyTransaction (d : ℕ) (trx : Transaction β) : Act β ω Unit := do
  let skip ← gets (·.skipFlags)
  let o ← gets (·.objects)
  fcLift (checkTransaction R skip trx o)
  if !skip.transactionDupeCheck then modifyObjects (addTransaction trx)
  forEach (applyOperation R d) trx.operations
  let o ← gets (·.objects)
  fcAssert (tempAccountEmpty o) .tempAccountBalance

end Database

end ZosCore
