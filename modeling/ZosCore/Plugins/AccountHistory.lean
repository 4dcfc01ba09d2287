import ZosCore.Lib.Exec
import ZosCore.Db.Sessions

/-!
`account_history_plugin.cpp`: `update_account_histories` and `add_account_history`.

The plugin keeps three kinds of objects. For an applied operation it makes an
`operation_history_object`; for each account that the operation concerns, an
`account_transaction_history_object`, which is a node in the linked list of the account;
and the head of that list with its counters stands in the `account_statistics_object`.
The statistics object of an account has the instance of the account, since the chain
creates the two together.

* `HistoryConfig`: the options of the plugin, and the functions on operations that it
  calls (`operation_get_required_authorities`, `operation_get_impacted_accounts`).
* `addAccountHistory`, `processOperation`, `updateAccountHistories`: the plugin. It runs
  on the object database with its undo database, and may throw.
* `applyBlock`: a block with the plugin connected to `applied_block`. The macro
  `GRAPHENE_TRY_NOTIFY` catches what the plugin throws, so what it has done until then
  stays; the plugin throws nothing of the one kind that the macro passes on.
-/

namespace ZosCore.AccountHistory

/-! ### Objects -/

/-- `operation_history_object`. -/
structure OperationHistory (α ρ : Type) where
  op : α
  result : ρ
  trxid : ℕ := 0
  blockNum : ℕ := 0
  trxInBlock : ℕ := 0
  opInTrx : ℕ := 0
  /-- By default `fc::time_point_sec::max()`. -/
  blockTime : ℕ := 2 ^ 32 - 1
  virtualOp : ℕ := 0
  deriving DecidableEq, Repr

/-- `account_transaction_history_object`; ids are given by their instances. -/
structure AccountTransactionHistory where
  account : ℕ
  operationId : ℕ
  operationType : ℕ
  sequence : ℕ
  next : ℕ
  deriving DecidableEq, Repr

/-- The part of `account_statistics_object` that the plugin reads and writes. -/
structure HistoryStatistics where
  mostRecentOp : ℕ := 0
  totalOps : ℕ := 0
  removedOps : ℕ := 0
  deriving DecidableEq, Repr

/-- An object of the three indexes of the plugin. -/
inductive HistoryObject (α ρ : Type) where
  | operation (h : OperationHistory α ρ)
  | transaction (e : AccountTransactionHistory)
  | statistics (s : HistoryStatistics)
  deriving DecidableEq, Repr

/-- `operation_history_object_type` of the protocol ids. -/
def operationIndex : IndexId := ⟨1, 11⟩

/-- `impl_account_transaction_history_object_type` of the implementation ids. -/
def transactionIndex : IndexId := ⟨2, 9⟩

/-- `impl_account_statistics_object_type` of the implementation ids. -/
def statisticsIndex : IndexId := ⟨2, 6⟩

/-- `account_transaction_history_id_type()`: the id that ends a list. -/
def nullId : ℕ := 0

/-! ### Configuration -/

/-- `operation::tag<account_create_operation>::value`. -/
def accountCreateTag : ℕ := 5

/-- The operations of which no history is kept: `fill_object_history_operation`,
`bitlender_test_operation`, `bitlender_publish_feed_operation` and
`issue_fundraise_publish_feed_operation`. -/
def unrecordedTags : List ℕ := [66, 88, 86, 90]

/-- The options of the plugin, over operations `α` with results `ρ`. -/
structure HistoryConfig (α ρ : Type) where
  /-- `max-ops-per-account`, a `uint32_t`. -/
  maxOpsPerAccount : ℕ
  maxOps_lt : maxOpsPerAccount < 2 ^ 32
  partialOperations : Bool
  /-- `track-account`, a `flat_set`. -/
  trackedAccounts : List ℕ
  trackedAccounts_sorted : trackedAccounts.Pairwise (· < ·)
  /-- `track-operations`. -/
  trackedOperations : List ℕ
  /-- `operation::which`. -/
  which : α → ℕ
  /-- `operation_result::get<object_id_type>`: a throw if the result is of another type. -/
  resultObject : ρ → Option ℕ
  /-- The accounts that `operation_get_required_authorities` names. -/
  requiredAuthorities : α → List ℕ
  /-- The accounts in the authorities that it returns. -/
  otherAuthorities : α → List (List ℕ)
  /-- `operation_get_impacted_accounts`. -/
  impactedAccounts : α → List ℕ

/-- What the plugin may throw. -/
inductive HistoryError where
  | db (e : DbError)
  /-- `static_variant::get` on a value of another type. -/
  | resultType
  deriving DecidableEq, Repr

/-- A computation of the plugin. -/
abbrev HistoryExec (α ρ : Type) := Exec (Store (HistoryObject α ρ)) HistoryError

variable {α ρ : Type}

/-! ### Calls on the object database -/

section Calls

/-- `create`, `modify` or `remove`. -/
def callOp (o : Op (HistoryObject α ρ)) : HistoryExec α ρ Unit :=
  Exec.liftError .db fun s => s.apply noKey o

/-- `database::create`; it returns the instance of the new object. -/
def createObject (i : IndexId) (v : HistoryObject α ρ) : HistoryExec α ρ ℕ := do
  let n ← Exec.gets fun s => s.objs.nextId i
  callOp (.create i v)
  pure n

/-- `primary_index::use_next_id` of the operation history index. No hook of the undo
database is called. -/
def useNextId : HistoryExec α ρ Unit :=
  Exec.update fun s =>
    { s with objs := s.objs.setNextId operationIndex (s.objs.nextId operationIndex + 1) }

/-- `account_id(db).statistics(db)`. -/
def getStatistics (account : ℕ) : HistoryExec α ρ HistoryStatistics := do
  match ← Exec.gets fun s => s.objs.find ⟨statisticsIndex, account⟩ with
  | some (.statistics st) => pure st
  | _ => Exec.raise (.db (.objectNotFound ⟨statisticsIndex, account⟩))

/-- The `account_transaction_history_object`s with their instances, by id. -/
def transactions (db : ObjectDatabase (HistoryObject α ρ)) :
    List (ℕ × AccountTransactionHistory) :=
  (List.range (db.nextId transactionIndex)).filterMap fun n =>
    match db.find ⟨transactionIndex, n⟩ with
    | some (.transaction e) => some (n, e)
    | _ => none

/-- The part of the index `by_seq` that belongs to an account. -/
def bySeq (db : ObjectDatabase (HistoryObject α ρ)) (account : ℕ) :
    List (ℕ × AccountTransactionHistory) :=
  ((transactions db).filter fun x => x.2.account = account).insertionSort
    fun x y => x.2.sequence ≤ y.2.sequence

/-- The index `by_opid` has an entry for the operation. -/
def Referenced (db : ObjectDatabase (HistoryObject α ρ)) (opId : ℕ) : Prop :=
  ∃ x ∈ transactions db, x.2.operationId = opId

instance (db : ObjectDatabase (HistoryObject α ρ)) (opId : ℕ) : Decidable (Referenced db opId) :=
  inferInstanceAs (Decidable (∃ x ∈ transactions db, _))

/-- One of the unique indexes `by_seq` and `by_op` has a place taken. -/
def Clash (db : ObjectDatabase (HistoryObject α ρ)) (e : AccountTransactionHistory) : Prop :=
  ∃ x ∈ transactions db, x.2.account = e.account ∧
    (x.2.sequence = e.sequence ∨ x.2.operationId = e.operationId)

instance (db : ObjectDatabase (HistoryObject α ρ)) (e : AccountTransactionHistory) :
    Decidable (Clash db e) :=
  inferInstanceAs (Decidable (∃ x ∈ transactions db, _))

/-- `database::create` of an `account_transaction_history_object`. -/
def createTransaction (e : AccountTransactionHistory) : HistoryExec α ρ ℕ := do
  let db ← Exec.gets fun s => s.objs
  Exec.check (¬ Clash db e) (.db .uniqueness)
  createObject transactionIndex (.transaction e)

end Calls

/-! ### What the calls do -/

section Spec

variable {s : Store (HistoryObject α ρ)}

/-- The store after a `create`. -/
def created (s : Store (HistoryObject α ρ)) (i : IndexId) (v : HistoryObject α ρ) :
    Store (HistoryObject α ρ) :=
  ⟨(s.objs.set ⟨i, s.objs.nextId i⟩ v).setNextId i (s.objs.nextId i + 1),
    s.undo.record {} (UndoState.onCreate ⟨i, s.objs.nextId i⟩)⟩

/-- The store after a `modify` of an object with the value `w`. -/
def modified (s : Store (HistoryObject α ρ)) (id : ObjectId) (w v : HistoryObject α ρ) :
    Store (HistoryObject α ρ) :=
  ⟨s.objs.set id v, s.undo.record {} (UndoState.onModify id w)⟩

/-- The store after a `remove` of an object with the value `w`. -/
def removed (s : Store (HistoryObject α ρ)) (id : ObjectId) (w : HistoryObject α ρ) :
    Store (HistoryObject α ρ) :=
  ⟨s.objs.erase id, s.undo.record {} (UndoState.onRemove id w)⟩

/-- Where every object was created by its index a new one finds its id free. -/
lemma createObject_eq (h : s.objs.Fresh) (i : IndexId) (v : HistoryObject α ρ) :
    createObject i v s = (.ok (s.objs.nextId i), created s i v) := by
  have hcreate : s.objs.create noKey i v =
      .ok ((s.objs.set ⟨i, s.objs.nextId i⟩ v).setNextId i (s.objs.nextId i + 1)) := by
    simp [ObjectDatabase.create, ObjectDatabase.insert, h.find_next, bind, Except.bind,
      pure, Except.pure]
  have hcall : callOp (.create i v) s = (.ok (), created s i v) := by
    simp [callOp, Exec.liftError, Store.apply, hcreate, Except.mapError, created]
  exact Exec.bind_ok hcall

lemma modify_eq {id : ObjectId} {w : HistoryObject α ρ} (h : s.objs.find id = some w)
    (v : HistoryObject α ρ) : callOp (.modify id v) s = (.ok (), modified s id w v) := by
  simp [callOp, Exec.liftError, Store.apply, h, ObjectDatabase.modifyState, Except.mapError,
    modified]

lemma remove_eq {id : ObjectId} {w : HistoryObject α ρ} (h : s.objs.find id = some w) :
    callOp (.remove id) s = (.ok (), removed s id w) := by
  simp [callOp, Exec.liftError, Store.apply, h, Except.mapError, removed]

/-- A change or a removal of an object that is not there changes nothing. -/
lemma modify_missing {id : ObjectId} (h : s.objs.find id = none) (v : HistoryObject α ρ) :
    callOp (.modify id v) s = (.error (.db (.objectNotFound id)), s) := by
  simp [callOp, Exec.liftError, Store.apply, h, Except.mapError]

lemma remove_missing {id : ObjectId} (h : s.objs.find id = none) :
    callOp (.remove id) s = (.error (.db (.objectNotFound id)), s) := by
  simp [callOp, Exec.liftError, Store.apply, h, Except.mapError]

lemma getStatistics_eq {account : ℕ} {st : HistoryStatistics}
    (h : s.objs.find ⟨statisticsIndex, account⟩ = some (.statistics st)) :
    getStatistics account s = (.ok st, s) := by
  have hget : (Exec.gets fun s => s.objs.find ⟨statisticsIndex, account⟩ : HistoryExec α ρ _) s =
      (.ok (some (.statistics st)), s) := by rw [Exec.gets_apply, h]
  exact Exec.bind_ok hget

/-- The entries are the objects of their index. -/
lemma mem_transactions {db : ObjectDatabase (HistoryObject α ρ)} (hfresh : db.Fresh)
    {n : ℕ} {e : AccountTransactionHistory} :
    (n, e) ∈ transactions db ↔ db.find ⟨transactionIndex, n⟩ = some (.transaction e) := by
  simp only [transactions, List.mem_filterMap, List.mem_range]
  constructor
  · rintro ⟨k, -, hk⟩
    split at hk
    next e' he =>
      obtain ⟨rfl, rfl⟩ := Prod.mk.inj (Option.some.inj hk)
      exact he
    · cases hk
  · intro h
    exact ⟨n, hfresh _ _ h, by rw [h]⟩

lemma nodup_transactions (db : ObjectDatabase (HistoryObject α ρ)) : (transactions db).Nodup := by
  refine List.nodup_range.filterMap fun n n' x hn hn' => ?_
  simp only [Option.mem_def] at hn hn'
  split at hn
  · split at hn'
    · cases hn
      cases hn'
      rfl
    · cases hn'
  · cases hn

end Spec

/-! ### The plugin -/

variable (cfg : HistoryConfig α ρ)

/-- The removal of an operation that no list refers to, with `partial_operations`. -/
def removeUnreferenced (opId : ℕ) : HistoryExec α ρ Unit := do
  let db ← Exec.gets fun s => s.objs
  if Referenced db opId then pure () else callOp (.remove ⟨operationIndex, opId⟩)

/-- The end of `add_account_history`: the oldest entry of an account that has too many is
removed, unless it is `ath`, the one just added. -/
def trimHistory (account ath : ℕ) (stats : HistoryStatistics) : HistoryExec α ρ Unit := do
  let entries ← Exec.gets fun s => bySeq s.objs account
  match entries with
  | [] => pure ()
  | (oldest, e) :: rest =>
      if oldest = ath then pure ()
      else do
        callOp (.remove ⟨transactionIndex, oldest⟩)
        callOp (.modify ⟨statisticsIndex, account⟩
          (.statistics { stats with removedOps := (stats.removedOps + 1) % 2 ^ 32 }))
        match rest with
        | [] => pure ()
        | (second, e') :: _ =>
            callOp (.modify ⟨transactionIndex, second⟩ (.transaction { e' with next := nullId }))
        if cfg.partialOperations then removeUnreferenced e.operationId else pure ()

/-- `add_account_history`. The counters are `uint32_t`s. -/
def addAccountHistory (account opId opType : ℕ) : HistoryExec α ρ Unit := do
  let stats ← getStatistics account
  let sequence := (stats.totalOps + 1) % 2 ^ 32
  let ath ← createTransaction
    { account, operationId := opId, operationType := opType, sequence, next := stats.mostRecentOp }
  let stats := { stats with mostRecentOp := ath, totalOps := sequence }
  callOp (.modify ⟨statisticsIndex, account⟩ (.statistics stats))
  if cfg.maxOpsPerAccount < (stats.totalOps + 2 ^ 32 - stats.removedOps) % 2 ^ 32 then
    trimHistory cfg account ath stats
  else pure ()

/-- A `flat_set`: ascending, without repetition. -/
def flatSet (l : List ℕ) : List ℕ := l.dedup.insertionSort (· ≤ ·)

/-- The accounts that an applied operation concerns: `none` is the throw for the creation of
an account whose result is not an object id. -/
def impacted (h : OperationHistory α ρ) : Option (List ℕ) :=
  let required := cfg.requiredAuthorities h.op
  let others := (cfg.otherAuthorities h.op).flatten
  if cfg.which h.op = accountCreateTag then
    (cfg.resultObject h.result).map fun a => flatSet (required ++ [a] ++ others)
  else some (flatSet (required ++ cfg.impactedAccounts h.op ++ others))

/-- `create_oho`. -/
def createOperation (timestamp : ℕ) (h : OperationHistory α ρ) : HistoryExec α ρ ℕ :=
  createObject operationIndex (.operation { h with blockTime := timestamp })

/-- The accounts to whose lists an operation is added. -/
def recordingAccounts (impacted : List ℕ) : List ℕ :=
  if cfg.trackedAccounts = [] then impacted
  else cfg.trackedAccounts.filter fun a => a ∈ impacted

/-- No history is kept of the operation. -/
def Unrecorded (h : OperationHistory α ρ) : Prop :=
  cfg.trackedOperations ≠ [] ∧ cfg.which h.op ∉ cfg.trackedOperations ∨
    cfg.which h.op ∈ unrecordedTags

instance (h : OperationHistory α ρ) : Decidable (Unrecorded cfg h) :=
  inferInstanceAs (Decidable (_ ∨ _))

/-- The loop over the accounts, the operation having the instance `oho`. -/
def addToLists (accounts : List ℕ) (oho opType : ℕ) : HistoryExec α ρ Unit :=
  Exec.forEach (fun a => addAccountHistory cfg a oho opType) accounts

/-- The body of the loop of `update_account_histories`. With `partial_operations` the object of
the operation is created when the first account needs it, and where none does the
index counts an id as used. -/
def processOperation (timestamp : ℕ) : Option (OperationHistory α ρ) → HistoryExec α ρ Unit
  | none => pure ()
  | some h =>
      if Unrecorded cfg h then pure ()
      else if cfg.maxOpsPerAccount = 0 ∧ cfg.partialOperations then useNextId
      else if cfg.partialOperations then
        match impacted cfg h with
        | none => Exec.raise .resultType
        | some accounts =>
            let accounts := recordingAccounts cfg accounts
            if accounts = [] then useNextId
            else do
              let oho ← createOperation timestamp h
              addToLists cfg accounts oho (cfg.which h.op)
      else do
        let oho ← createOperation timestamp h
        match impacted cfg h with
        | none => Exec.raise .resultType
        | some accounts =>
            if cfg.maxOpsPerAccount = 0 then pure ()
            else addToLists cfg (recordingAccounts cfg accounts) oho (cfg.which h.op)

/-- What the plugin reads of a block: its timestamp, the applied operations (none in the place
of one that was taken back) and the number of accounts that it creates. -/
structure AppliedBlock (α ρ : Type) where
  timestamp : ℕ
  newAccounts : ℕ
  appliedOperations : List (Option (OperationHistory α ρ))

/-- `update_account_histories`. -/
def updateAccountHistories (b : AppliedBlock α ρ) : HistoryExec α ρ Unit :=
  Exec.forEach (processOperation cfg b.timestamp) b.appliedOperations

/-- The statistics objects of the accounts that a block creates. -/
def createAccounts : ℕ → HistoryExec α ρ Unit
  | 0 => pure ()
  | n + 1 => do
      let _ ← createObject statisticsIndex (.statistics {})
      createAccounts n

/-- A block is applied, and the plugin is told. What the plugin throws is caught. -/
def applyBlock (b : AppliedBlock α ρ) : HistoryExec α ρ Unit := do
  createAccounts b.newAccounts
  Exec.catchIf (fun _ => true) (updateAccountHistories cfg b) fun _ => pure ()

/-- `push_block` with the undo session of the block. -/
def pushBlock (s : Store (HistoryObject α ρ)) (b : AppliedBlock α ρ) :
    Store (HistoryObject α ρ) :=
  let started : Store (HistoryObject α ρ) := ⟨s.objs, s.undo.startUndoSession {} false⟩
  let applied := (applyBlock cfg b started).2
  match applied.undo.commit with
  | .ok u => ⟨applied.objs, u⟩
  | .error _ => applied

end ZosCore.AccountHistory
