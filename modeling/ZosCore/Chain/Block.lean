import ZosCore.Chain.Database

/-!
`db_block.cpp`, `db_update.cpp`, `db_with.hpp`: the application of blocks, the fork
switch, the pending transactions, and the calls of the database that a node makes.

* `applyBlock`: a block is checked and applied to the objects.
* `pushBlockInner` (`_push_block`): the block goes to the fork database; it is
  applied, or the chain switches to its branch, or nothing happens.
* `pushBlock`, `pushTransaction`, `validateTransaction`, `generateBlock`: the calls of
  a node. `Call` lists them and `Database.call` makes one.
-/

namespace ZosCore

namespace Database

open Exec

variable {β ω : Type} (R : Rules β ω) (d : ℕ)

/-! ### Applying a block -/

/-- `validate_block_header`. -/
def validateBlockHeader (skip : SkipFlags) (b : SignedBlock β) (o : Objects β ω) :
    Except ChainError Unit := do
  if o.headBlockId ≠ b.previous then throw .previousMismatch
  if ¬ o.time < b.timestamp then throw .timestampNotLater
  if !R.witnessExists b.witness o then throw .unknownWitness
  if !skip.witnessSignature && !R.validateSignee b o then throw .badSignee
  if !skip.witnessScheduleCheck then
    let slotNum := R.getSlotAtTime b.timestamp o
    if slotNum = 0 then throw .slotZero
    if b.witness ≠ R.getScheduledWitness slotNum o then throw .wrongWitness

/-- The change of the dynamic global properties in `update_global_dynamic_data`. -/
def setHeadBlock (b : SignedBlock β) (o : Objects β ω) : Objects β ω :=
  { o with
    headBlockNumber := b.blockNum
    headBlockId := b.id
    time := b.timestamp
    chain := b :: o.chain }

/-- `update_global_dynamic_data`. -/
def updateGlobalDynamicData (b : SignedBlock β) : Act β ω Unit := do
  runRule (R.updateMissed b)
  modifyObjects (setHeadBlock b)
  let o ← gets (·.objects)
  let skip ← gets (·.skipFlags)
  if !skip.undoHistoryCheck then
    fcAssert (o.headBlockNumber - o.lastIrreversibleBlockNum < maxUndoHistory)
      .notEnoughUndoHistory
  let size := o.headBlockNumber - o.lastIrreversibleBlockNum + 1
  update fun db => { db with
    undo := db.undo.setMaxSize size
    forkDb := db.forkDb.setMaxSize size }

/-- `update_signing_witness`. -/
def updateSigningWitness (b : SignedBlock β) : Act β ω Unit := do
  runRule (R.payWitness b)
  modifyObjects fun o =>
    { o with lastConfirmed := Function.update o.lastConfirmed b.witness b.blockNum }

/-- The last confirmed block that so many of the active witnesses have reached: the element
that `nth_element` puts at the place `offset`. -/
def confirmedByThreshold (o : Objects β ω) : Option ℕ :=
  let nums := (o.activeWitnesses.map o.lastConfirmed).insertionSort (· ≤ ·)
  let offset := (hundredPercent - irreversibleThreshold) * nums.length / hundredPercent
  nums[offset]?

/-- `update_last_irreversible_block`. Without active witnesses there is no element at the
place `offset`. -/
def updateLastIrreversibleBlock : Act β ω Unit := do
  let o ← gets (·.objects)
  match confirmedByThreshold o with
  | none => raise .crash
  | some n =>
      if o.lastIrreversibleBlockNum < n then
        modifyObjects fun o => { o with lastIrreversibleBlockNum := n }

/-- `create_block_summary`. -/
def createBlockSummary (b : SignedBlock β) : Act β ω Unit :=
  modifyObjects fun o =>
    { o with blockSummaries := Function.update o.blockSummaries (b.blockNum % 65536) b.id }

/-- `clear_expired_transactions`. -/
def clearExpiredTransactions : Act β ω Unit :=
  modifyObjects fun o => { o with transactions := o.transactions.filter (o.time ≤ ·.expiration) }

/-- The first proposal in the order of expiration. -/
def firstToExpire : List (ProposalObject β) → Option (ProposalObject β)
  | [] => none
  | p :: l =>
      match firstToExpire l with
      | none => some p
      | some q => if q.expirationTime < p.expirationTime then some q else some p

/-- The body of the loop of `clear_expired_proposals`. -/
def clearProposal (p : ProposalObject β) : Act β ω Unit := do
  let o ← gets (·.objects)
  let executed ← catchFc
    (if R.isAuthorizedToExecute p o then do
        pushProposal R d p
        return true
      else do
        modifyProposal p.id fun p => { p with status := 4 }
        return false)
    fun _ => do
      modifyProposal p.id fun p => { p with status := 2 }
      return false
  if !executed then removeProposal p.id

/-- The loop of `clear_expired_proposals`. A round removes the proposal it is about, and none
makes a proposal that has expired already, so the number of proposals is fuel enough. -/
def clearExpiredProposalsLoop : ℕ → Act β ω Unit
  | 0 => pure ()
  | fuel + 1 => do
      let o ← gets (·.objects)
      match firstToExpire o.proposals with
      | none => pure ()
      | some p =>
          if p.expirationTime ≤ o.time then
            clearProposal R d p
            clearExpiredProposalsLoop fuel

/-- `clear_expired_proposals`. -/
def clearExpiredProposals : Act β ω Unit := do
  let o ← gets (·.objects)
  clearExpiredProposalsLoop R d o.proposals.length

/-- `_applied_ops.clear(); _applied_balances.clear();` -/
def clearApplied : Act β ω Unit :=
  update fun db => { db with appliedOps := [], appliedBalances := [] }

/-- `notify_changed_objects` looks at the newest undo state. -/
def notifyChangedObjects : Act β ω Unit := do
  let db ← gets fun db => db
  fcAssert (db.undo.disabled = true ∨ db.undo.stack ≠ []) .undo

/-- `_apply_block` after the lock of `app_status` is taken. -/
def applyBlockLocked (b : SignedBlock β) : Act β ω Unit := do
  let skip ← gets (·.skipFlags)
  fcAssert (skip.merkleCheck = true ∨ b.transactionMerkleRoot = R.calculateMerkleRoot b.transactions)
    .merkleMismatch
  let o ← gets (·.objects)
  fcLift (validateBlockHeader R skip b o)
  let maintNeeded := R.maintenanceNeeded b.timestamp o
  forEach (applyTransaction R d) b.transactions
  updateGlobalDynamicData R b
  updateSigningWitness R b
  updateLastIrreversibleBlock
  if maintNeeded then
    runRule (R.performChainMaintenance b)
    let o ← gets (·.objects)
    update fun db => { db with
      blockDb := { db.blockDb with maxBlockSize := R.maximumBlockSize o * 11 / 10 } }
  createBlockSummary b
  clearExpiredTransactions
  clearExpiredProposals R d
  runRule (R.endOfBlock b)
  clearApplied
  notifyChangedObjects

/-- `app_apply_block`: the lock that says in `_app_status` that a block is being applied. -/
def appApplyBlock {α : Type} (x : Act β ω α) : Act β ω α := fun db =>
  let r := x { db with appStatus := { db.appStatus with applyBlock := true } }
  (r.1, { r.2 with appStatus := { r.2.appStatus with applyBlock := false } })

/-- `_apply_block`. -/
def applyBlockInner (b : SignedBlock β) : Act β ω Unit := do
  clearApplied
  appApplyBlock (applyBlockLocked R d b)

/-- The flags of `apply_block`: before the last checkpoint almost everything is skipped. -/
def checkpointFlags (checkpoints : List (ℕ × BlockId)) (skip : SkipFlags) (b : SignedBlock β) :
    Except ChainError SkipFlags :=
  match checkpoints.getLast? with
  | none => .ok skip
  | some (n, id) =>
      if id = .zero then .ok skip
      else if ∃ c ∈ checkpoints, c.1 = b.blockNum ∧ c.2 ≠ b.id then .error .checkpointMismatch
      else .ok (if b.blockNum ≤ n then .all else skip)

/-- `apply_block`. -/
def applyBlock (b : SignedBlock β) (skip : SkipFlags) : Act β ω Unit := do
  let db ← gets fun db => db
  let skip ← fcLift (checkpointFlags db.checkpoints skip b)
  withSkipFlags skip (applyBlockInner R d b)

/-! ### The fork switch -/

/-- `_block_id_to_block.store`. -/
def storeBlock (id : BlockId) (b : SignedBlock β) : Act β ω Unit := do
  let db ← gets (·.blockDb)
  let db' ← fcLift (db.store R.packBlock id b)
  update fun db => { db with blockDb := db' }

/-- A block is applied in a session of its own, stored under `id` and committed. -/
def applyAndStore (b : SignedBlock β) (id : BlockId) (skip : SkipFlags) : Act β ω Unit :=
  inSession false do
    applyBlock R d b skip
    storeBlock R id b
    sessionCommit

/-- `fetch_block_by_id`. -/
def fetchBlockById (db : Database β ω) (id : BlockId) : Option (SignedBlock β) :=
  match db.forkDb.fetchBlock id with
  | some it => some it.data
  | none => db.blockDb.fetchOptional R.packBlock id

/-- `get_block_id_for_num`; `none` stands for an exception. -/
def getBlockIdForNum (db : Database β ω) (num : ℕ) : Option BlockId := db.blockDb.fetchBlockId num

/-- `fetch_block_by_number`: the only block of that number in the fork database, or the one of the
block database. -/
def fetchBlockByNumber (db : Database β ω) (num : ℕ) : Option (SignedBlock β) :=
  match db.forkDb.fetchBlockByNumber num with
  | [it] => some it.data
  | _ => db.blockDb.fetchByNumber R.packBlock num

/-- `pop_block`. -/
def popBlock : Act β ω Unit := do
  resetPendingSession
  let db ← gets fun db => db
  match fetchBlockById R db db.objects.headBlockId with
  | none => raise (.fc .popEmptyChain)
  | some b =>
      let f ← fcLift db.forkDb.popBlock
      update fun db => { db with forkDb := f }
      popUndo
      update fun db => { db with poppedTx := b.transactions ++ db.poppedTx }

/-- `while( head_block_id() != id ) pop_block();` Every round lowers the number of undo
states, and `pop_undo` throws when there is none. -/
def popUntil (id : BlockId) : ℕ → Act β ω Unit
  | 0 => do
      let o ← gets (·.objects)
      if o.headBlockId ≠ id then popBlock R
  | fuel + 1 => do
      let o ← gets (·.objects)
      if o.headBlockId ≠ id then
        popBlock R
        popUntil id fuel

/-- `popUntil` with as much fuel as there are undo states. -/
def popBlocksUntil (id : BlockId) : Act β ω Unit := do
  let n ← gets (·.undo.size)
  popUntil R id n

/-- The recovery of a switch that fails: `bad` are the items of the new branch from the one
that failed on, `old` is the old branch, newest item first. -/
def recover (newBlock : SignedBlock β) (bad old : List (ForkItem β)) (forkPoint : BlockId)
    (skip : SkipFlags) : Act β ω Unit := do
  update fun db => { db with forkDb := bad.foldl (fun f it => f.remove it.id) db.forkDb }
  match old.head? with
  | none => raise .crash
  | some h => update fun db => { db with forkDb := db.forkDb.setHead h }
  popBlocksUntil R forkPoint
  forEach (fun it => applyAndStore R d it.data newBlock.id skip) old.reverse

/-- The loop of a switch over the new branch, oldest item first. -/
def switchLoop (newBlock : SignedBlock β) (old : List (ForkItem β)) (forkPoint : BlockId)
    (skip : SkipFlags) : List (ForkItem β) → Act β ω Unit
  | [] => pure ()
  | it :: rest => do
      catchFc (applyAndStore R d it.data it.id skip) fun e => do
        recover R d newBlock (it :: rest) old forkPoint skip
        raise e
      switchLoop newBlock old forkPoint skip rest

/-- The branches are held by the local variable `branches` until the switch is over. -/
def pinning {α : Type} (items : List (ForkItem β)) (x : Act β ω α) : Act β ω α := fun db =>
  let r := x { db with forkDb := { db.forkDb with pinned := items } }
  (r.1, { r.2 with forkDb := { r.2.forkDb with pinned := db.forkDb.pinned } })

/-- The switch to the branch of `newHead`. -/
def switchForks (newBlock : SignedBlock β) (newHead : ForkItem β) (skip : SkipFlags) :
    Act β ω Unit := do
  let db ← gets fun db => db
  let (new, old) ← fcLift (db.forkDb.fetchBranchFrom newHead.id db.objects.headBlockId)
  match old.getLast? with
  | none => raise .crash
  | some last =>
      let forkPoint := last.data.previous
      pinning (new ++ old) do
        popBlocksUntil R forkPoint
        switchLoop R d newBlock old forkPoint skip new.reverse

/-- The end of `_push_block`: the block extends the chain. -/
def extendChain (b : SignedBlock β) (skip : SkipFlags) : Act β ω Unit :=
  catchFc (applyAndStore R d b b.id skip) fun e => do
    update fun db => { db with forkDb := db.forkDb.remove b.id }
    raise e

/-- `_push_block`; it returns whether the chain has switched forks. -/
def pushBlockInner (b : SignedBlock β) : Act β ω Bool := do
  let skip ← gets (·.skipFlags)
  if skip.forkDb then
    extendChain R d b skip
    return false
  let f ← gets (·.forkDb)
  let f ← fcLift (f.pushBlock b)
  update fun db => { db with forkDb := f }
  match f.head with
  | none => raise .crash
  | some newHead =>
      let o ← gets (·.objects)
      if newHead.data.previous ≠ o.headBlockId then
        if o.headBlockNumber < newHead.data.blockNum then
          switchForks R d b newHead skip
          return true
        else return false
      else
        extendChain R d b skip
        return false

/-! ### Pending transactions -/

/-- `_push_transaction`. -/
def pushTransactionInner (trx : Transaction β) : Act β ω Unit := do
  if !(← gets (·.pendingTxSession)) then
    startUndoSession false
    update fun db => { db with pendingTxSession := true }
  inSession false do
    applyTransaction R d trx
    update fun db => { db with pendingTx := db.pendingTx ++ [trx] }
    sessionMerge

/-- `clear_pending`. -/
def clearPending : Act β ω Unit := do
  update fun db => { db with pendingTx := [] }
  resetPendingSession

/-- A transaction that `~pending_transactions_restorer` tries again. -/
def retryTransaction (trx : Transaction β) : Act β ω Unit := do
  let o ← gets (·.objects)
  if !o.isKnownTransaction trx.id then
    catchFc (pushTransactionInner R d trx) fun _ => pure ()

/-- `~pending_transactions_restorer`. -/
def restorePending (pending : List (Transaction β)) : Act β ω Unit := do
  let popped ← gets (·.poppedTx)
  forEach (retryTransaction R d) popped
  update fun db => { db with poppedTx := [] }
  forEach (retryTransaction R d) pending

/-- `without_pending_transactions`: the restorer runs whether `x` returns or throws. -/
def withoutPendingTransactions {α : Type} (x : Act β ω α) : Act β ω α := do
  let pending ← gets (·.pendingTx)
  clearPending
  let a ← catchFc x fun e => do
    restorePending R d pending
    raise e
  restorePending R d pending
  return a

/-! ### The calls of a node -/

/-- `push_block`. -/
def pushBlock (b : SignedBlock β) (skip : SkipFlags) : Act β ω Bool :=
  withSkipFlags skip (withoutPendingTransactions R d (pushBlockInner R d b))

/-- `push_transaction`. -/
def pushTransaction (trx : Transaction β) (skip : SkipFlags) : Act β ω Unit :=
  withSkipFlags skip (pushTransactionInner R d trx)

/-- `validate_transaction`: the session is undone in any case. -/
def validateTransaction (trx : Transaction β) : Act β ω Unit := do
  inSession false (applyTransaction R d trx)
  sessionUndo

/-- The loop of `_generate_block`: the transactions that go into the block. -/
def collectTransactions : List (Transaction β) → ℕ → List (Transaction β) →
    Act β ω (List (Transaction β))
  | [], _, acc => return acc.reverse
  | trx :: l, total, acc => do
      let o ← gets (·.objects)
      let size := R.packTransaction trx
      if R.maximumBlockSize o ≤ total + size ∨ R.maximumTransactionSize o ≤ size then
        collectTransactions l total acc
      else do
        let ok ← catchFc
          (do
            inSession false do
              applyTransaction R d trx
              sessionMerge
            return true)
          fun _ => return false
        if ok then collectTransactions l (total + size) (trx :: acc)
        else collectTransactions l total acc

/-- The block that `_generate_block` makes of the transactions. -/
def assembleBlock (time witness : ℕ) (trxs : List (Transaction β)) (o : Objects β ω) :
    SignedBlock β :=
  let b : SignedBlock β :=
    { previous := o.headBlockId
      timestamp := time
      witness := witness
      transactionMerkleRoot := R.calculateMerkleRoot trxs
      transactions := trxs
      digest := 0 }
  { b with digest := R.sign b }

/-- `_generate_block`. -/
def generateBlockInner (time witness : ℕ) : Act β ω (SignedBlock β) := do
  let skip ← gets (·.skipFlags)
  let o ← gets (·.objects)
  fcAssert (R.mayGenerate time witness o) .wrongWitness
  resetPendingSession
  startUndoSession false
  update fun db => { db with pendingTxSession := true }
  let pending ← gets (·.pendingTx)
  let trxs ← collectTransactions R d pending R.maxBlockHeaderSize []
  resetPendingSession
  let o ← gets (·.objects)
  let b := assembleBlock R time witness trxs o
  let _ ← pushBlock R d b skip
  return b

/-- `generate_block`. -/
def generateBlock (time witness : ℕ) (skip : SkipFlags) : Act β ω (SignedBlock β) :=
  withSkipFlags skip (generateBlockInner R d time witness)

end Database

/-- A call of a node. -/
inductive Call (β : Type) where
  | pushBlock (b : SignedBlock β) (skip : SkipFlags)
  | pushTransaction (trx : Transaction β) (skip : SkipFlags)
  | validateTransaction (trx : Transaction β)
  | generateBlock (time witness : ℕ) (skip : SkipFlags)

namespace Database

open Exec

variable {β ω : Type} (R : Rules β ω) (d : ℕ)

/-- Making a call. -/
def call : Call β → Act β ω Unit
  | .pushBlock b skip => do
      let _ ← pushBlock R d b skip
  | .pushTransaction trx skip => pushTransaction R d trx skip
  | .validateTransaction trx => validateTransaction R d trx
  | .generateBlock time witness skip => do
      let _ ← generateBlock R d time witness skip

/-- A call that ends, by returning or by an exception, and the state after it. A call in which
the program ends has no state after it. -/
def Calls (db : Database β ω) (c : Call β) (db' : Database β ω) : Prop :=
  (call R d c db).2 = db' ∧ (call R d c db).1 ≠ .error .crash

end Database

end ZosCore
