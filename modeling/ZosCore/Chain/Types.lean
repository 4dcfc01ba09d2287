import Mathlib.Tactic
import Mathlib.Data.List.AList
import Mathlib.Data.List.Sort

/-!
`chain/protocol/block.hpp`, `transaction.hpp`, `proposal.hpp` and the objects of
the chain: blocks, transactions, operations, and the part of the object database
that the database itself reads and writes.

The evaluators of the many operations, the maintenance and the other tasks at the
end of a block are not modelled here. They enter as the functions of a `Rules`
record, and change what they change by `Effect`s: the balances (through
`adjust_balance`), the list of active witnesses, and the rest of the objects,
which is a type `ω` of its own. None of them writes the head of the chain, the
transaction index, the block summaries, the proposals or the witnesses' last
confirmed blocks; these are modelled one by one.

* `SignedBlock`, `Transaction`, `Operation`: what a peer may send.
* `Objects`: the object database, as the chain sees it.
* `Rules`: the evaluators and parameters.
-/

namespace ZosCore

/-! ### Blocks, transactions and operations -/

/-- `block_id_type`: the number of the block, stored in the first bytes of its
hash, and the rest of the hash. -/
structure BlockId where
  num : ℕ
  hash : ℕ
  deriving DecidableEq, Repr

/-- `block_id_type()`. -/
def BlockId.zero : BlockId := ⟨0, 0⟩

/-- `proposal_update_operation`. -/
structure ProposalUpdate where
  feePayingAccount : ℕ
  proposal : ℕ
  activeApprovalsToAdd : List ℕ := []
  activeApprovalsToRemove : List ℕ := []
  ownerApprovalsToAdd : List ℕ := []
  ownerApprovalsToRemove : List ℕ := []
  keyApprovalsToAdd : List ℕ := []
  keyApprovalsToRemove : List ℕ := []

/-- `proposal_delete_operation`. -/
structure ProposalDelete where
  feePayingAccount : ℕ
  usingOwnerAuthority : Bool := false
  proposal : ℕ

/-- `operation`: those on proposals, and the others, `β`. -/
inductive Operation (β : Type) where
  | basic (o : β)
  | proposalCreate (feePayingAccount expirationTime : ℕ) (reviewPeriodSeconds : Option ℕ)
      (proposedOps : List (Operation β))
  | proposalUpdate (o : ProposalUpdate)
  | proposalDelete (o : ProposalDelete)

/-- `signed_transaction`, with its id. The results that make it a
`processed_transaction` are an output only and are left out. -/
structure Transaction (β : Type) where
  id : ℕ
  expiration : ℕ
  refBlockNum : ℕ := 0
  refBlockPrefix : ℕ := 0
  operations : List (Operation β) := []

/-- `signed_block`; `digest` is the hash of the header without the number. -/
structure SignedBlock (β : Type) where
  previous : BlockId
  timestamp : ℕ
  witness : ℕ := 0
  transactionMerkleRoot : ℕ := 0
  transactions : List (Transaction β) := []
  digest : ℕ

namespace SignedBlock

variable {β : Type}

/-- `block_header::block_num`. -/
def blockNum (b : SignedBlock β) : ℕ := b.previous.num + 1

/-- `signed_block_header::id`. -/
def id (b : SignedBlock β) : BlockId := ⟨b.blockNum, b.digest⟩

@[simp] lemma id_num (b : SignedBlock β) : b.id.num = b.blockNum := rfl

end SignedBlock

/-! ### Exceptions -/

/-- The exceptions of the chain, one for each check of the modelled functions. -/
inductive ChainError where
  /-- "attempting to push a block that is too old" -/
  | blockTooOld
  /-- "block does not link to known chain" -/
  | unlinkableBlock
  /-- "no blocks to pop" -/
  | noBlocksToPop
  /-- "poping block would leave head block null" -/
  | headBlockNull
  /-- `FC_ASSERT(first_branch_itr != ...end())` in `fetch_branch_from`. -/
  | unknownBranch
  /-- `FC_ASSERT(first_branch)` in `fetch_branch_from`. -/
  | brokenBranch
  /-- "there are no blocks to pop" -/
  | popEmptyChain
  /-- A failed assertion of the undo database. -/
  | undo
  /-- `FC_ASSERT(e.block_size < max_block_size)` in `block_database::store`. -/
  | blockTooLarge
  /-- "Block did not match checkpoint" -/
  | checkpointMismatch
  /-- `transaction_merkle_root == calculate_merkle_root()` -/
  | merkleMismatch
  /-- `head_block_id() == next_block.previous` -/
  | previousMismatch
  /-- `head_block_time() < next_block.timestamp` -/
  | timestampNotLater
  /-- The witness of the block is not found. -/
  | unknownWitness
  /-- `next_block.validate_signee( witness.signing_key )` -/
  | badSignee
  /-- `slot_num > 0` -/
  | slotZero
  /-- "Witness produced block at wrong time" -/
  | wrongWitness
  /-- "The database does not have enough undo history ..." -/
  | notEnoughUndoHistory
  /-- `trx.validate()` -/
  | invalidTransaction
  /-- The transaction is in the transaction index already. -/
  | duplicateTransaction
  /-- `trx.verify_authority(...)` -/
  | missingAuthority
  /-- `trx.ref_block_prefix == tapos_block_summary.block_id._hash[1]` -/
  | taposMismatch
  /-- `trx.expiration <= now + maximum_time_until_expiration` -/
  | expirationTooFar
  /-- `now <= trx.expiration` -/
  | expired
  /-- The temp account has a balance. -/
  | tempAccountBalance
  /-- "Insufficient Balance" -/
  | insufficientBalance
  /-- `balance_max > utype` -/
  | badBalanceType
  /-- The proposal is not found. -/
  | proposalNotFound
  /-- `!fee_paying_account(d).is_lock_balance()` -/
  | lockedAccount
  /-- "Proposal has already expired on creation." -/
  | proposalExpired
  /-- "Proposal expiration time is too far in the future." -/
  | proposalTooLong
  /-- "Proposal review period must be less than its overall lifetime." -/
  | reviewTooLong
  /-- "no support proposal " -/
  | noSupportProposal
  /-- `other.size() == 0` -/
  | otherAuthority
  /-- "Review period not given, but at least ${min} required" -/
  | reviewRequired
  /-- "Review period of ${t} specified, but at least ${min} required" -/
  | reviewInsufficient
  /-- "This proposal is in its review period. No new approvals may be added." -/
  | inReview
  /-- An approval to be removed is not there. -/
  | approvalNotFound
  /-- "Provided authority is not authoritative for this proposal." -/
  | notAuthoritative
  /-- A check of an evaluator that is not modelled. -/
  | evaluator (code : ℕ)
  deriving DecidableEq

/-- How a computation ends that does not return: by an `fc::exception`, or by the
end of the program (a dangling reference, an exception in a destructor, a call
stack that is used up). -/
inductive Failure where
  | fc (e : ChainError)
  | crash
  deriving DecidableEq

/-- `catch ( const fc::exception& )` catches it. -/
def Failure.isFc : Failure → Bool
  | .fc _ => true
  | .crash => false

/-! ### Objects -/

/-- `transaction_object`: the transaction index keeps an id until it expires. -/
structure TransactionObject where
  trxId : ℕ
  expiration : ℕ
  deriving DecidableEq, Repr

/-- `proposal_object`. `status` is 0 while approvals are collected, 1 if it waits for
the end of its review, 2 if it failed, 3 if it was executed and 4 if it expired. -/
structure ProposalObject (β : Type) where
  id : ℕ
  proposedOps : List (Operation β)
  expirationTime : ℕ
  reviewPeriodTime : Option ℕ := none
  proposer : ℕ
  status : ℕ := 0
  requiredActiveApprovals : List ℕ := []
  requiredOwnerApprovals : List ℕ := []
  availableActiveApprovals : List ℕ := []
  availableOwnerApprovals : List ℕ := []
  availableKeyApprovals : List ℕ := []

/-- The object database as the chain sees it. `chain` is a history variable: the
blocks that have been applied to these objects, newest first. -/
structure Objects (β ω : Type) where
  /-- `dynamic_global_property_object` -/
  headBlockNumber : ℕ := 0
  headBlockId : BlockId := .zero
  time : ℕ := 0
  lastIrreversibleBlockNum : ℕ := 0
  chain : List (SignedBlock β) := []
  /-- `transaction_index` -/
  transactions : List TransactionObject := []
  /-- `block_summary_object::block_id`, by the number of the summary. -/
  blockSummaries : ℕ → BlockId := fun _ => .zero
  /-- `proposal_index` -/
  proposals : List (ProposalObject β) := []
  nextProposalId : ℕ := 0
  /-- `witness_object::last_confirmed_block_num` -/
  lastConfirmed : ℕ → ℕ := fun _ => 0
  /-- `global_property_object::active_witnesses` -/
  activeWitnesses : List ℕ
  /-- `account_balance_object`, by account and asset. -/
  balances : AList (fun _ : ℕ × ℕ => ℤ) := ∅
  /-- All other objects. -/
  world : ω

namespace Objects

variable {β ω : Type}

/-- `is_known_transaction`. -/
def isKnownTransaction (o : Objects β ω) (id : ℕ) : Bool := o.transactions.any (·.trxId = id)

/-- The proposal with the given id. -/
def findProposal (o : Objects β ω) (id : ℕ) : Option (ProposalObject β) :=
  o.proposals.find? (·.id = id)

/-- `modify` on a proposal. -/
def modifyProposal (o : Objects β ω) (id : ℕ) (f : ProposalObject β → ProposalObject β) :
    Objects β ω :=
  { o with proposals := o.proposals.map fun p => if p.id = id then f p else p }

/-- `remove` on a proposal. -/
def eraseProposal (o : Objects β ω) (id : ℕ) : Objects β ω :=
  { o with proposals := o.proposals.filter (·.id ≠ id) }

/-- `adjust_balance` on the objects. -/
def adjustBalance (o : Objects β ω) (account asset : ℕ) (delta : ℤ) :
    Except ChainError (Objects β ω) :=
  if delta = 0 then .ok o
  else match o.balances.lookup (account, asset) with
    | none =>
        if 0 < delta then .ok { o with balances := o.balances.insert (account, asset) delta }
        else .error .insufficientBalance
    | some balance =>
        if delta < 0 ∧ ¬ -delta ≤ balance then .error .insufficientBalance
        else .ok { o with balances := o.balances.insert (account, asset) (balance + delta) }

end Objects

/-! ### Rules -/

/-- What an evaluator or a task at the end of a block does, step by step. -/
inductive Effect (β ω : Type) where
  /-- The other objects change. -/
  | world (f : ω → ω)
  /-- `adjust_balance` -/
  | adjustBalance (utype : ℕ) (info : String) (account asset : ℕ) (delta : ℤ)
  /-- `push_applied_operation` of a virtual operation. -/
  | virtualOperation (op : Operation β)
  /-- The maintenance elects witnesses. -/
  | activeWitnesses (ws : List ℕ)
  /-- A check fails. -/
  | fail (e : ChainError)

/-- How `generic_evaluator` treats the fee of an operation: the checks, the payment,
the payment taken back, and the change of the balance at the end. -/
structure Fee (β ω : Type) where
  check : List (Effect β ω) := []
  pay : List (Effect β ω) := []
  rollback : List (Effect β ω) := []
  settle : List (Effect β ω) := []

/-- The evaluators, the tasks at the end of a block and the chain parameters. -/
structure Rules (β ω : Type) where
  /-- `trx.validate()` -/
  validate : Transaction β → Bool
  /-- `trx.verify_authority(...)` -/
  verifyAuthority : Transaction β → Objects β ω → Bool
  /-- The second word of a block id. -/
  hashPrefix : BlockId → ℕ
  maximumTimeUntilExpiration : Objects β ω → ℕ
  /-- `evaluate` and `apply` of the evaluators, fees included. -/
  evaluate : β → Objects β ω → List (Effect β ω)
  /-- The fee of an operation on proposals. -/
  fee : Operation β → Objects β ω → Fee β ω
  isLockBalance : ℕ → Objects β ω → Bool
  maximumProposalLifetime : Objects β ω → ℕ
  committeeProposalReviewPeriod : Objects β ω → ℕ
  /-- The operation is listed in `is_must_review_period`. -/
  mustReview : β → Bool
  /-- The operation is listed in `is_no_review_period`. -/
  noReview : β → Bool
  /-- The committee account's authority is required. -/
  committeeRequired : List (Operation β) → Bool
  /-- `other.size() != 0` -/
  otherRequired : List (Operation β) → Bool
  requiredActiveApprovals : List (Operation β) → List ℕ
  requiredOwnerApprovals : List (Operation β) → List ℕ
  /-- `_proposed_trx.validate()` -/
  validateProposed : List (Operation β) → Bool
  /-- `proposal_object::is_authorized_to_execute` -/
  isAuthorizedToExecute : ProposalObject β → Objects β ω → Bool
  calculateMerkleRoot : List (Transaction β) → ℕ
  witnessExists : ℕ → Objects β ω → Bool
  validateSignee : SignedBlock β → Objects β ω → Bool
  getSlotAtTime : ℕ → Objects β ω → ℕ
  getScheduledWitness : ℕ → Objects β ω → ℕ
  /-- The missed witnesses and the slot fields in `update_global_dynamic_data`. -/
  updateMissed : SignedBlock β → Objects β ω → List (Effect β ω)
  /-- The pay in `update_signing_witness`. -/
  payWitness : SignedBlock β → Objects β ω → List (Effect β ω)
  maintenanceNeeded : ℕ → Objects β ω → Bool
  performChainMaintenance : SignedBlock β → Objects β ω → List (Effect β ω)
  /-- What `_apply_block` does after `clear_expired_proposals`. -/
  endOfBlock : SignedBlock β → Objects β ω → List (Effect β ω)
  maximumBlockSize : Objects β ω → ℕ
  maximumTransactionSize : Objects β ω → ℕ
  /-- `fc::raw::pack_size` of a block and of a transaction. -/
  packBlock : SignedBlock β → ℕ
  packTransaction : Transaction β → ℕ
  /-- The size of an empty block in `_generate_block`. -/
  maxBlockHeaderSize : ℕ
  /-- The checks of `_generate_block` on the slot, the witness and its key. -/
  mayGenerate : ℕ → ℕ → Objects β ω → Bool
  /-- The signature of a block that is generated, as far as it enters its id. -/
  sign : SignedBlock β → ℕ

/-- Rules under which every check passes and nothing happens besides the operations; they are
those of a chain with the one witness 0. -/
def Rules.lenient {β ω : Type} (evaluate : β → Objects β ω → List (Effect β ω)) : Rules β ω where
  validate _ := true
  verifyAuthority _ _ := true
  hashPrefix id := id.hash
  maximumTimeUntilExpiration _ := 86400
  evaluate := evaluate
  fee _ _ := {}
  isLockBalance _ _ := false
  maximumProposalLifetime _ := 2419200
  committeeProposalReviewPeriod _ := 0
  mustReview _ := false
  noReview _ := false
  committeeRequired _ := false
  otherRequired _ := false
  requiredActiveApprovals _ := []
  requiredOwnerApprovals _ := []
  validateProposed _ := true
  isAuthorizedToExecute _ _ := true
  calculateMerkleRoot _ := 0
  witnessExists _ _ := true
  validateSignee _ _ := true
  getSlotAtTime _ _ := 1
  getScheduledWitness _ _ := 0
  updateMissed _ _ := []
  payWitness _ _ := []
  maintenanceNeeded _ _ := false
  performChainMaintenance _ _ := []
  endOfBlock _ _ := []
  maximumBlockSize _ := 2000000
  maximumTransactionSize _ := 2000000
  packBlock _ := 100
  packTransaction _ := 100
  maxBlockHeaderSize := 100
  mayGenerate _ _ _ := true
  sign b := b.timestamp

/-! ### Constants -/

/-- `GRAPHENE_MIN_UNDO_HISTORY` -/
def minUndoHistory : ℕ := 10

/-- `GRAPHENE_MAX_UNDO_HISTORY` -/
def maxUndoHistory : ℕ := 10000

/-- `GRAPHENE_100_PERCENT` -/
def hundredPercent : ℕ := 10000

/-- `GRAPHENE_IRREVERSIBLE_THRESHOLD` -/
def irreversibleThreshold : ℕ := 7000

/-- `GRAPHENE_TEMP_ACCOUNT` -/
def tempAccount : ℕ := 4

/-- `balance_max` -/
def balanceMax : ℕ := 121

/-- `HARDFORK_190309_TIME` -/
def hardfork190309Time : ℕ := 1552060800

/-- `HARDFORK_201201_TIME` -/
def hardfork201201Time : ℕ := 1606752000

/-- The `skip_` flags of the database that the modelled functions read. -/
structure SkipFlags where
  witnessSignature : Bool := false
  transactionSignatures : Bool := false
  transactionDupeCheck : Bool := false
  forkDb : Bool := false
  blockSizeCheck : Bool := false
  taposCheck : Bool := false
  authorityCheck : Bool := false
  merkleCheck : Bool := false
  undoHistoryCheck : Bool := false
  witnessScheduleCheck : Bool := false
  deriving DecidableEq, Repr

/-- `~0`. -/
def SkipFlags.all : SkipFlags := ⟨true, true, true, true, true, true, true, true, true, true⟩

end ZosCore
