import ZosCore.Lib.Runs
import ZosCore.Plugins.HistoryExact

/-!
The ids of the operation history objects on a node that follows forks.

An operation that is not recorded may still use up an id (`use_next_id`). The undo database learns
the next id of an index from the first object that is created in a session, so the ids that a
block uses up before it creates its first operation object stay used when the block is
undone: `leadingUses` counts them.

* `InBlock`: what the session of a block has recorded; `applyBlock_inBlock` says that
  undoing it leads back to the database before the block, with that many ids less to give.
* `nodeStep`: a node pushes, aborts and pops blocks.
* **`same_ids_iff`**: along a run the node has the operation objects and the next id of a node that
  applied only its main chain, exactly as long as each block that it undoes uses up no id
  before it creates its first operation object.
-/

namespace ZosCore.AccountHistory

variable {α ρ : Type} (cfg : HistoryConfig α ρ)

/-! ### The ids that a block uses -/

/-- What an applied operation does to the index of the operation history. -/
inductive IdUse where
  /-- It is not looked at. -/
  | skip
  /-- It uses up an id. -/
  | use
  /-- Its object is created. -/
  | create
  /-- It throws before it does either. -/
  | throw
  deriving DecidableEq, Repr

/-- What an applied operation does to the index, by the branches of `update_account_histories`. -/
def idUse : Option (OperationHistory α ρ) → IdUse
  | none => .skip
  | some h =>
      if Unrecorded cfg h then .skip
      else if cfg.maxOpsPerAccount = 0 ∧ cfg.partialOperations then .use
      else if cfg.partialOperations then
        match impacted cfg h with
        | none => .throw
        | some accounts => if recordingAccounts cfg accounts = [] then .use else .create
      else .create

/-- The number of ids that are used up before the first operation object is created. -/
def leadingUses : List (Option (OperationHistory α ρ)) → ℕ
  | [] => 0
  | o :: ops =>
      match idUse cfg o with
      | .skip => leadingUses ops
      | .use => leadingUses ops + 1
      | .create => 0
      | .throw => 0

/-- The database with `k` ids of the operation history index used up. -/
def useIds (k : ℕ) (db : ObjectDatabase (HistoryObject α ρ)) : ObjectDatabase (HistoryObject α ρ) :=
  db.setNextId operationIndex (db.nextId operationIndex + k)

@[simp] lemma useIds_zero (db : ObjectDatabase (HistoryObject α ρ)) : useIds 0 db = db := by
  refine ObjectDatabase.ext (fun id => rfl) fun i => ?_
  rw [useIds, ObjectDatabase.nextId_setNextId]
  split_ifs with hi
  · rw [hi, Nat.add_zero]
  · rfl

lemma nextId_useIds (k : ℕ) (db : ObjectDatabase (HistoryObject α ρ)) :
    (useIds k db).nextId operationIndex = db.nextId operationIndex + k := by
  rw [useIds, ObjectDatabase.nextId_setNextId, if_pos rfl]

/-! ### What the session of a block records -/

section Session

/-- A session has been opened on the undo database `u`, where the database was `old`. Since then
the newest state leads back to `old` with `k` ids used up, and `made` tells whether an operation
object has been created. -/
structure InBlock (u : UndoDatabase (UndoState (HistoryObject α ρ)))
    (old : ObjectDatabase (HistoryObject α ρ)) (k : ℕ) (made : Bool)
    (s : Store (HistoryObject α ρ)) : Prop where
  fresh : s.objs.Fresh
  enabled : u.disabled = false
  session : ∃ st, s.undo = { u with stack := st :: u.stack } ∧
    UndoState.Tracks st s.objs (useIds k old) ∧
    ((st.oldIndexNextIds.lookup operationIndex).isSome = made)

variable {cfg} {u : UndoDatabase (UndoState (HistoryObject α ρ))}
  {old : ObjectDatabase (HistoryObject α ρ)} {k : ℕ} {made : Bool}
  {s : Store (HistoryObject α ρ)}

/-- A change that a hook records. -/
lemma InBlock.record (h : InBlock u old k made s) {objs : ObjectDatabase (HistoryObject α ρ)}
    {f : UndoState (HistoryObject α ρ) → UndoState (HistoryObject α ρ)} {made' : Bool}
    (hfresh : objs.Fresh)
    (hf : ∀ st, UndoState.Tracks st s.objs (useIds k old) →
      UndoState.Tracks (f st) objs (useIds k old))
    (hmade : ∀ st : UndoState (HistoryObject α ρ),
      (st.oldIndexNextIds.lookup operationIndex).isSome = made →
        ((f st).oldIndexNextIds.lookup operationIndex).isSome = made') :
    InBlock u old k made' ⟨objs, s.undo.record {} f⟩ := by
  obtain ⟨st, hu, htracks, hst⟩ := h.session
  refine ⟨hfresh, h.enabled, f st, ?_, hf st htracks, hmade st hst⟩
  simp [hu, UndoDatabase.record, h.enabled]

lemma lookup_onModify (st : UndoState (HistoryObject α ρ)) (id : ObjectId)
    (v : HistoryObject α ρ) : (st.onModify id v).oldIndexNextIds = st.oldIndexNextIds := by
  rw [UndoState.onModify]
  split_ifs <;> rfl

lemma lookup_onRemove (st : UndoState (HistoryObject α ρ)) (id : ObjectId)
    (v : HistoryObject α ρ) : (st.onRemove id v).oldIndexNextIds = st.oldIndexNextIds := by
  rw [UndoState.onRemove]
  cases st.oldValues.lookup id <;> split_ifs <;> rfl

lemma InBlock.modify (h : InBlock u old k made s) (id : ObjectId) (v : HistoryObject α ρ) :
    InBlock u old k made (callOp (.modify id v) s).2 := by
  cases hfind : s.objs.find id with
  | none => rwa [modify_missing hfind]
  | some w =>
      rw [modify_eq hfind]
      refine h.record (h.fresh.set (h.fresh _ _ hfind) _) (fun st ht => ht.onModify hfind v)
        fun st hst => ?_
      rwa [lookup_onModify]

lemma InBlock.remove (h : InBlock u old k made s) (id : ObjectId) :
    InBlock u old k made (callOp (.remove id) s).2 := by
  cases hfind : s.objs.find id with
  | none => rwa [remove_missing hfind]
  | some w =>
      rw [remove_eq hfind]
      refine h.record (h.fresh.erase _) (fun st ht => ht.onRemove hfind) fun st hst => ?_
      rwa [lookup_onRemove]

/-- The creation of an object that is not an operation. -/
lemma InBlock.create (h : InBlock u old k made s) {i : IndexId} (hi : i ≠ operationIndex)
    (v : HistoryObject α ρ) : InBlock u old k made (createObject i v s).2 := by
  rw [createObject_eq h.fresh]
  refine h.record (h.fresh.create i v) (fun st ht => ht.onCreate i v) fun st hst => ?_
  rw [UndoState.onCreate]
  simp only
  split_ifs
  · exact hst
  · rwa [AList.lookup_insert_ne hi.symm]

/-- The creation of an operation object. -/
lemma InBlock.createOperation (h : InBlock u old k made s) (timestamp : ℕ)
    (x : OperationHistory α ρ) : InBlock u old k true (createOperation timestamp x s).2 := by
  rw [AccountHistory.createOperation, createObject_eq h.fresh]
  refine h.record (h.fresh.create _ _) (fun st ht => ht.onCreate _ _) fun st hst => ?_
  rw [UndoState.onCreate]
  simp only
  split_ifs with hmem
  · exact AList.lookup_isSome.mpr hmem
  · rw [AList.lookup_insert]
    rfl

/-- An id that is used up: undoing the session leaves it used, unless the session knows the next id
by now. -/
lemma InBlock.useNextId (h : InBlock u old k made s) :
    InBlock u old (if made then k else k + 1) made
      ⟨s.objs.setNextId operationIndex (s.objs.nextId operationIndex + 1), s.undo⟩ := by
  obtain ⟨st, hu, ht, hst⟩ := h.session
  have hfresh : (s.objs.setNextId operationIndex (s.objs.nextId operationIndex + 1)).Fresh := by
    intro id v hv
    have hlt := h.fresh id v hv
    rw [ObjectDatabase.nextId_setNextId]
    split_ifs with hi
    · rw [hi] at hlt
      omega
    · exact hlt
  refine ⟨hfresh, h.enabled, st, hu, ?_, hst⟩
  have hnext : ∀ i, i ≠ operationIndex →
      (s.objs.setNextId operationIndex (s.objs.nextId operationIndex + 1)).nextId i =
        s.objs.nextId i := by
    intro i hi
    rw [ObjectDatabase.nextId_setNextId, if_neg hi]
  cases made with
  | true =>
      obtain ⟨n, hn⟩ := Option.isSome_iff_exists.mp hst
      refine ⟨⟨ht.new, ht.upd, ht.del, ht.nop, ht.next_upd, fun i hi => ?_, fun i => ?_, ht.fresh,
        ht.nodup⟩, ht.present⟩
      · have hne : i ≠ operationIndex := by
          rintro rfl
          rw [hn] at hi
          cases hi
        rw [hnext i hne]
        exact ht.next_nop i hi
      · refine (ht.next_mono i).trans ?_
        rw [ObjectDatabase.nextId_setNextId]
        split_ifs with hi
        · rw [hi]
          omega
        · exact le_rfl
  | false =>
      have hnone : st.oldIndexNextIds.lookup operationIndex = none := by simpa using hst
      have hold := ht.next_nop operationIndex hnone
      have hother : ∀ i, i ≠ operationIndex →
          (useIds (k + 1) old).nextId i = (useIds k old).nextId i := by
        intro i hi
        rw [useIds, useIds, ObjectDatabase.nextId_setNextId, ObjectDatabase.nextId_setNextId,
          if_neg hi, if_neg hi]
      have hop : (useIds (k + 1) old).nextId operationIndex =
          (useIds k old).nextId operationIndex + 1 := by
        rw [nextId_useIds, nextId_useIds, Nat.add_assoc]
      simp only [Bool.false_eq_true, if_false]
      refine ⟨⟨fun id hid => ?_, ht.upd, ht.del, ht.nop, fun i n hi => ?_, fun i hi => ?_, fun i => ?_,
        fun id v hv => ?_, ht.nodup⟩, ht.present⟩
      · have hle := ht.new id hid
        have hne : id.index ≠ operationIndex := by
          -- an operation object that is new has made the next id known
          intro heq
          obtain ⟨v, hv⟩ := Option.isSome_iff_exists.mp (ht.present id (.inl hid))
          have hlt := h.fresh id v hv
          rw [heq] at hle hlt
          omega
        rw [hother _ hne]
        exact hle
      · have hne : i ≠ operationIndex := by
          rintro rfl
          rw [hnone] at hi
          cases hi
        rw [hother i hne]
        exact ht.next_upd i n hi
      · by_cases hi' : i = operationIndex
        · rw [hi', hop, ← hold, ObjectDatabase.nextId_setNextId, if_pos rfl]
        · rw [hnext i hi', hother i hi']
          exact ht.next_nop i hi
      · by_cases hi' : i = operationIndex
        · rw [hi', hop, ← hold, ObjectDatabase.nextId_setNextId, if_pos rfl]
        · rw [hnext i hi', hother i hi']
          exact ht.next_mono i
      · have hlt := ht.fresh id v hv
        by_cases hi' : id.index = operationIndex
        · rw [hi'] at hlt ⊢
          rw [hop]
          omega
        · rw [hother _ hi']
          exact hlt

/-! ### The calls of the plugin -/

/-- Whether it returns or throws, a computation leaves the session as `InBlock` has it. -/
lemma keeps_of_inBlock {β : Type} {x : HistoryExec α ρ β}
    (h : ∀ s, InBlock u old k made s → InBlock u old k made (x s).2) :
    Exec.Keeps (InBlock u old k made) (fun _ => InBlock u old k made) x :=
  Exec.keeps_of_snd h

lemma getStatistics_keeps (account : ℕ) : Exec.Keeps (InBlock u old k made)
    (fun _ => InBlock u old k made) (getStatistics (α := α) (ρ := ρ) account) := by
  refine Exec.Keeps.bind (Exec.Keeps.gets _) fun o => ?_
  split
  · exact Exec.Keeps.pure _
  · exact Exec.Triple.raise fun _ h => h

lemma createTransaction_keeps (e : AccountTransactionHistory) : Exec.Keeps (InBlock u old k made)
    (fun _ => InBlock u old k made) (createTransaction (α := α) (ρ := ρ) e) := by
  refine Exec.Keeps.bind (Exec.Keeps.gets _) fun db => ?_
  refine Exec.Keeps.bind (Exec.Triple.check (fun _ h _ => h) fun _ h _ => h) fun _ => ?_
  exact keeps_of_inBlock fun s h => h.create (by decide) _

lemma removeUnreferenced_keeps (opId : ℕ) : Exec.Keeps (InBlock u old k made)
    (fun _ => InBlock u old k made) (removeUnreferenced (α := α) (ρ := ρ) opId) := by
  refine Exec.Keeps.bind (Exec.Keeps.gets _) fun db => ?_
  exact Exec.Triple.ite (fun _ => Exec.Keeps.pure _) fun _ => keeps_of_inBlock fun s h => h.remove _

lemma trimHistory_keeps (account ath : ℕ) (stats : HistoryStatistics) :
    Exec.Keeps (InBlock u old k made) (fun _ => InBlock u old k made)
      (trimHistory cfg account ath stats) := by
  refine Exec.Keeps.bind (Exec.Keeps.gets _) fun entries => ?_
  cases entries with
  | nil => exact Exec.Keeps.pure _
  | cons x rest =>
      refine Exec.Triple.ite (fun _ => Exec.Keeps.pure _) fun _ => ?_
      refine Exec.Keeps.bind (keeps_of_inBlock fun s h => h.remove _) fun _ => ?_
      refine Exec.Keeps.bind (keeps_of_inBlock fun s h => h.modify _ _) fun _ => ?_
      have hrest : Exec.Keeps (InBlock u old k made) (fun _ => InBlock u old k made)
          (if cfg.partialOperations then removeUnreferenced x.2.operationId
            else (pure () : HistoryExec α ρ Unit)) :=
        Exec.Triple.ite (fun _ => removeUnreferenced_keeps _) fun _ => Exec.Keeps.pure _
      cases rest with
      | nil => exact hrest
      | cons y _ => exact Exec.Keeps.bind (keeps_of_inBlock fun s h => h.modify _ _) fun _ => hrest

lemma addAccountHistory_keeps (account opId opType : ℕ) :
    Exec.Keeps (InBlock u old k made) (fun _ => InBlock u old k made)
      (addAccountHistory cfg account opId opType) := by
  refine Exec.Keeps.bind (getStatistics_keeps account) fun stats => ?_
  refine Exec.Keeps.bind (createTransaction_keeps _) fun ath => ?_
  refine Exec.Keeps.bind (keeps_of_inBlock fun s h => h.modify _ _) fun _ => ?_
  exact Exec.Triple.ite (fun _ => trimHistory_keeps _ _ _) fun _ => Exec.Keeps.pure _

lemma addToLists_keeps (accounts : List ℕ) (oho opType : ℕ) :
    Exec.Keeps (InBlock u old k made) (fun _ => InBlock u old k made)
      (addToLists cfg accounts oho opType) :=
  Exec.Keeps.forEach accounts fun a _ => addAccountHistory_keeps a oho opType

variable (cfg) in
/-- What the processing of an operation is, by what it does to the index. -/
lemma processOperation_cases (timestamp : ℕ) (o : Option (OperationHistory α ρ)) :
    (idUse cfg o = .skip ∧ processOperation cfg timestamp o = pure ()) ∨
    (idUse cfg o = .use ∧ processOperation cfg timestamp o = useNextId) ∨
    (idUse cfg o = .throw ∧ processOperation cfg timestamp o = Exec.raise .resultType) ∨
    (idUse cfg o = .create ∧ ∃ h rest,
      processOperation cfg timestamp o = createOperation timestamp h >>= rest ∧
      ∀ oho, rest oho = pure () ∨ rest oho = Exec.raise .resultType ∨
        ∃ accounts opType, rest oho = addToLists cfg accounts oho opType) := by
  cases o with
  | none => exact .inl ⟨rfl, rfl⟩
  | some h =>
      simp only [idUse, processOperation]
      by_cases hun : Unrecorded cfg h
      · rw [if_pos hun, if_pos hun]
        exact .inl ⟨rfl, rfl⟩
      rw [if_neg hun, if_neg hun]
      by_cases hnone : cfg.maxOpsPerAccount = 0 ∧ cfg.partialOperations = true
      · rw [if_pos hnone, if_pos hnone]
        exact .inr (.inl ⟨rfl, rfl⟩)
      rw [if_neg hnone, if_neg hnone]
      by_cases hpart : cfg.partialOperations = true
      · rw [if_pos hpart, if_pos hpart]
        cases himpacted : impacted cfg h with
        | none => exact .inr (.inr (.inl ⟨rfl, rfl⟩))
        | some accounts =>
            simp only
            by_cases hempty : recordingAccounts cfg accounts = []
            · rw [if_pos hempty, if_pos hempty]
              exact .inr (.inl ⟨rfl, rfl⟩)
            · rw [if_neg hempty, if_neg hempty]
              exact .inr (.inr (.inr ⟨rfl, h, _, rfl, fun oho => .inr (.inr ⟨_, _, rfl⟩)⟩))
      · rw [if_neg hpart, if_neg hpart]
        refine .inr (.inr (.inr ⟨rfl, h, _, rfl, fun oho => ?_⟩))
        cases himpacted : impacted cfg h with
        | none => exact .inr (.inl rfl)
        | some accounts =>
            simp only
            split_ifs
            · exact .inl rfl
            · exact .inr (.inr ⟨_, _, rfl⟩)

/-- What comes after the creation of the operation object. -/
lemma rest_keeps {x : HistoryExec α ρ Unit} {oho : ℕ}
    (h : x = pure () ∨ x = Exec.raise .resultType ∨
      ∃ accounts opType, x = addToLists cfg accounts oho opType) :
    Exec.Keeps (InBlock u old k made) (fun _ => InBlock u old k made) x := by
  rcases h with rfl | rfl | ⟨accounts, opType, rfl⟩
  · exact Exec.Keeps.pure _
  · exact Exec.Triple.raise fun _ h => h
  · exact addToLists_keeps accounts oho opType

/-- The creation of an operation object, and what comes after it. -/
lemma createOperation_rest {timestamp : ℕ} {x : OperationHistory α ρ}
    {rest : ℕ → HistoryExec α ρ Unit}
    (h : ∀ oho, rest oho = pure () ∨ rest oho = Exec.raise .resultType ∨
      ∃ accounts opType, rest oho = addToLists cfg accounts oho opType) :
    Exec.Triple (InBlock u old k made) (createOperation timestamp x >>= rest)
      (fun _ => InBlock u old k true) fun _ => InBlock u old k true := by
  refine Exec.Triple.bind (Q := fun _ => InBlock u old k true) (fun s hs => ?_)
    fun oho => rest_keeps (h oho)
  have hcreate := hs.createOperation timestamp x
  refine ⟨fun a s' heq => ?_, fun e s' heq => ?_⟩
  · rwa [heq] at hcreate
  · rwa [heq] at hcreate

/-- Once an operation object has been created the session knows the next id. -/
lemma processOperation_made (timestamp : ℕ) (o : Option (OperationHistory α ρ)) :
    Exec.Keeps (InBlock u old k true) (fun _ => InBlock u old k true)
      (processOperation cfg timestamp o) := by
  rcases processOperation_cases cfg timestamp o with
    ⟨-, h⟩ | ⟨-, h⟩ | ⟨-, h⟩ | ⟨-, x, rest, h, hrest⟩ <;> rw [h]
  · exact Exec.Keeps.pure _
  · exact Exec.Keeps.update fun s hs => hs.useNextId
  · exact Exec.Triple.raise fun _ h => h
  · exact createOperation_rest hrest

/-- What undoing the session leaves used, whether or not it knows the next id. -/
def Within (u : UndoDatabase (UndoState (HistoryObject α ρ)))
    (old : ObjectDatabase (HistoryObject α ρ)) (k : ℕ) (s : Store (HistoryObject α ρ)) : Prop :=
  ∃ made, InBlock u old k made s

variable (cfg) in
/-- **The operations of a block.** Undoing them leaves the ids used that were used up before the first
object was created. -/
lemma operations_within (timestamp : ℕ) (ops : List (Option (OperationHistory α ρ))) :
    Exec.Triple (InBlock u old k false) (Exec.forEach (processOperation cfg timestamp) ops)
      (fun _ => Within u old (k + leadingUses cfg ops))
      fun _ => Within u old (k + leadingUses cfg ops) := by
  induction ops generalizing k with
  | nil => exact Exec.Triple.pure fun s hs => ⟨false, hs⟩
  | cons o ops ih =>
      rw [Exec.forEach_cons]
      rcases processOperation_cases cfg timestamp o with
        ⟨hu, h⟩ | ⟨hu, h⟩ | ⟨hu, h⟩ | ⟨hu, x, rest, h, hrest⟩ <;>
        rw [h] <;> simp only [leadingUses, hu]
      · exact Exec.Triple.bind (Exec.Triple.pure fun s hs => hs) fun _ => ih
      · rw [show k + (leadingUses cfg ops + 1) = k + 1 + leadingUses cfg ops by omega]
        refine Exec.Triple.bind (Q := fun _ => InBlock u old (k + 1) false)
          (Exec.Triple.update fun s hs => ?_) fun _ => ih
        simpa using hs.useNextId
      · exact Exec.Triple.bind (Q := fun _ _ => False)
          (Exec.Triple.raise fun s hs => ⟨false, hs⟩) fun _ s hs => hs.elim
      · refine Exec.Triple.bind
          ((createOperation_rest hrest).conseq (fun _ h => h) (fun _ _ h => h)
            fun _ s hs => ⟨true, hs⟩) fun _ => ?_
        have hmade : Exec.Keeps (InBlock u old k true) (fun _ => InBlock u old k true)
            (Exec.forEach (processOperation cfg timestamp) ops) :=
          Exec.Keeps.forEach ops fun o _ => processOperation_made timestamp o
        exact hmade.conseq (fun _ h => h) (fun _ s hs => ⟨true, hs⟩) fun _ s hs => ⟨true, hs⟩

lemma createAccounts_inBlock (n : ℕ) (h : InBlock u old k made s) :
    ∃ s', createAccounts n s = (.ok (), s') ∧ InBlock u old k made s' := by
  induction n generalizing s with
  | zero => exact ⟨s, rfl, h⟩
  | succ n ih =>
      have hcreate := createObject_eq h.fresh statisticsIndex (.statistics {})
      have hin : InBlock u old k made (created s statisticsIndex (.statistics {})) := by
        have hin := h.create (i := statisticsIndex) (by decide) (.statistics {})
        rwa [hcreate] at hin
      obtain ⟨s', hrest, hs'⟩ := ih hin
      exact ⟨s', (Exec.bind_ok hcreate).trans hrest, hs'⟩

/-- What is left by a handler that does nothing. -/
lemma catchIf_pure_snd (x : HistoryExec α ρ Unit) (s : Store (HistoryObject α ρ)) :
    (Exec.catchIf (fun _ => true) x (fun _ => pure ()) s).2 = (x s).2 := by
  rcases hx : x s with ⟨e | a, s'⟩
  · rw [Exec.catchIf_caught hx rfl]
    rfl
  · rw [Exec.catchIf_ok hx]

/-- **A block**, in whose session nothing has been recorded yet. -/
theorem applyBlock_within (b : AppliedBlock α ρ) (h : InBlock u old 0 false s) :
    Within u old (leadingUses cfg b.appliedOperations) (applyBlock cfg b s).2 := by
  obtain ⟨s₁, hcreate, h₁⟩ := createAccounts_inBlock b.newAccounts h
  obtain ⟨hok, herr⟩ := operations_within cfg b.timestamp b.appliedOperations s₁ h₁
  rw [Nat.zero_add] at hok herr
  rw [applyBlock, Exec.bind_ok hcreate, catchIf_pure_snd]
  rcases hx : updateAccountHistories cfg b s₁ with ⟨e | a, s'⟩
  · exact herr e s' hx
  · exact hok a s' hx

end Session

/-! ### The undo database is not looked at -/

/-- What the computation returns, and the objects that it leaves, follow from the objects. -/
def Blind {β : Type} (x : HistoryExec α ρ β) : Prop :=
  ∀ s t, s.objs = t.objs → (x s).1 = (x t).1 ∧ (x s).2.objs = (x t).2.objs

namespace Blind

variable {cfg} {β γ : Type}

lemma pure (b : β) : Blind (Pure.pure b : HistoryExec α ρ β) := fun _ _ h => ⟨rfl, h⟩

lemma raise (e : HistoryError) : Blind (Exec.raise e : HistoryExec α ρ β) := fun _ _ h => ⟨rfl, h⟩

lemma gets (f : ObjectDatabase (HistoryObject α ρ) → β) :
    Blind (Exec.gets fun s => f s.objs : HistoryExec α ρ β) :=
  fun s t h => ⟨by rw [Exec.gets_apply, Exec.gets_apply, h], h⟩

lemma bind {x : HistoryExec α ρ β} {f : β → HistoryExec α ρ γ} (hx : Blind x)
    (hf : ∀ b, Blind (f b)) : Blind (x >>= f) := by
  intro s t hst
  obtain ⟨hr, ho⟩ := hx s t hst
  rw [Exec.bind_apply, Exec.bind_apply]
  rcases hs : x s with ⟨e | b, s'⟩ <;> rcases ht : x t with ⟨e' | b', t'⟩ <;>
    rw [hs, ht] at hr ho
  · exact ⟨by cases hr; rfl, ho⟩
  · cases hr
  · cases hr
  · cases hr
    exact hf b s' t' ho

lemma ite {c : Prop} [Decidable c] {x y : HistoryExec α ρ β} (hx : Blind x) (hy : Blind y) :
    Blind (if c then x else y) := by
  split_ifs
  · exact hx
  · exact hy

lemma forEach {f : β → HistoryExec α ρ Unit} (h : ∀ b, Blind (f b)) (l : List β) :
    Blind (Exec.forEach f l) := by
  induction l with
  | nil => exact pure ()
  | cons b l ih => exact bind (h b) fun _ => ih

lemma callOp (o : Op (HistoryObject α ρ)) : Blind (callOp o) := by
  intro s t hst
  cases o with
  | create i v =>
      simp only [AccountHistory.callOp, Exec.liftError, Store.apply, hst]
      cases t.objs.create noKey i v <;> exact ⟨rfl, by simp [hst]⟩
  | modify id v =>
      simp only [AccountHistory.callOp, Exec.liftError, Store.apply, hst]
      cases t.objs.find id <;> exact ⟨rfl, by simp [hst]⟩
  | remove id =>
      simp only [AccountHistory.callOp, Exec.liftError, Store.apply, hst]
      cases t.objs.find id <;> exact ⟨rfl, by simp [hst]⟩

lemma check (c : Prop) [Decidable c] (e : HistoryError) :
    Blind (Exec.check c e : HistoryExec α ρ Unit) := ite (pure ()) (raise e)

lemma createObject (i : IndexId) (v : HistoryObject α ρ) : Blind (createObject i v) :=
  bind (gets fun db => db.nextId i) fun _ => bind (callOp _) fun _ => pure _

lemma useNextId : Blind (useNextId (α := α) (ρ := ρ)) :=
  fun _ _ h => ⟨rfl, by simp [AccountHistory.useNextId, h]⟩

lemma addAccountHistory (account opId opType : ℕ) :
    Blind (addAccountHistory cfg account opId opType) := by
  refine bind (bind (gets fun db => db.find _) fun o => ?_) fun stats => ?_
  · split
    · exact pure _
    · exact raise _
  refine bind (bind (gets fun db => db) fun db => bind (check _ _) fun _ => createObject _ _)
    fun ath => bind (callOp _) fun _ => ite ?_ (pure _)
  refine bind (gets fun db => bySeq db account) fun entries => ?_
  cases entries with
  | nil => exact pure _
  | cons x rest =>
      have hrest : Blind (if cfg.partialOperations then removeUnreferenced x.2.operationId
          else (Pure.pure () : HistoryExec α ρ Unit)) :=
        ite (bind (gets fun db => db) fun db => ite (pure _) (callOp _)) (pure _)
      refine ite (pure _) (bind (callOp _) fun _ => bind (callOp _) fun _ => ?_)
      cases rest with
      | nil => exact hrest
      | cons y _ => exact bind (callOp _) fun _ => hrest

lemma processOperation (timestamp : ℕ) (o : Option (OperationHistory α ρ)) :
    Blind (processOperation cfg timestamp o) := by
  rcases processOperation_cases cfg timestamp o with
    ⟨-, h⟩ | ⟨-, h⟩ | ⟨-, h⟩ | ⟨-, x, rest, h, hrest⟩ <;> rw [h]
  · exact pure _
  · exact useNextId
  · exact raise _
  · refine bind (createObject _ _) fun oho => ?_
    rcases hrest oho with h | h | ⟨accounts, opType, h⟩ <;> rw [h]
    · exact pure _
    · exact raise _
    · exact forEach (fun a => addAccountHistory a oho opType) accounts

lemma createAccounts (n : ℕ) : Blind (createAccounts (α := α) (ρ := ρ) n) := by
  induction n with
  | zero => exact pure _
  | succ n ih => exact bind (createObject _ _) fun _ => ih

/-- What a block does to the objects follows from the objects. -/
lemma applyBlock (b : AppliedBlock α ρ) : Blind (applyBlock cfg b) := by
  refine bind (createAccounts _) fun _ => fun s t hst => ?_
  have hupdate : Blind (updateAccountHistories cfg b) :=
    forEach (fun o => processOperation b.timestamp o) _
  obtain ⟨hr, ho⟩ := hupdate s t hst
  refine ⟨?_, by rw [catchIf_pure_snd, catchIf_pure_snd, ho]⟩
  rcases hs : updateAccountHistories cfg b s with ⟨e | a, s'⟩ <;>
    rcases ht : updateAccountHistories cfg b t with ⟨e' | a', t'⟩ <;> rw [hs, ht] at hr
  · rw [Exec.catchIf_caught hs rfl, Exec.catchIf_caught ht rfl]
    rfl
  · cases hr
  · cases hr
  · rw [Exec.catchIf_ok hs, Exec.catchIf_ok ht]

end Blind

/-- The objects after a block. -/
lemma objs_pushBlock (s : Store (HistoryObject α ρ)) (b : AppliedBlock α ρ) :
    (pushBlock cfg s b).objs = (applyBlock cfg b ⟨s.objs, s.undo.startUndoSession {} false⟩).2.objs := by
  simp only [pushBlock]
  split <;> rfl

lemma objs_pushBlock_congr {s t : Store (HistoryObject α ρ)} (h : s.objs = t.objs)
    (b : AppliedBlock α ρ) : (pushBlock cfg s b).objs = (pushBlock cfg t b).objs := by
  rw [objs_pushBlock, objs_pushBlock]
  refine (Blind.applyBlock b _ _ ?_).2
  exact h

/-! ### A node -/

/-- What happens to the blocks of a node. A fork switch pops blocks and pushes others. -/
inductive ForkEvent (α ρ : Type) where
  /-- A block is applied and its session committed. -/
  | push (b : AppliedBlock α ρ)
  /-- A block fails after the plugin has been told of it, and its session is undone. -/
  | abort (b : AppliedBlock α ρ)
  /-- `pop_block`: the newest block is undone. -/
  | pop
  /-- The number of undo states that are kept changes with the irreversible block. -/
  | resize (n : ℕ)

/-- A node: its store, and the blocks that it has applied and not undone, newest first. -/
structure HistoryNode (α ρ : Type) where
  store : Store (HistoryObject α ρ)
  main : List (AppliedBlock α ρ)

/-- The session of a block that fails. -/
def abortBlock (ord : HashOrder (HistoryObject α ρ)) (s : Store (HistoryObject α ρ))
    (b : AppliedBlock α ρ) : Store (HistoryObject α ρ) :=
  let applied := (applyBlock cfg b ⟨s.objs, s.undo.startUndoSession {} false⟩).2
  match applied.undo.undo (UndoState.restore noKey ord) applied.objs with
  | .ok (objs, u) => ⟨objs, u⟩
  | .error _ => applied

/-- What an event does to a node. Where there is nothing to undo `pop_block` throws. -/
def nodeStep (ord : HashOrder (HistoryObject α ρ)) (node : HistoryNode α ρ) :
    ForkEvent α ρ → HistoryNode α ρ
  | .push b => ⟨pushBlock cfg node.store b, b :: node.main⟩
  | .abort b => ⟨abortBlock cfg ord node.store b, node.main⟩
  | .pop =>
      match node.store.undo.popCommit (UndoState.restore noKey ord) node.store.objs with
      | .ok (objs, u) => ⟨⟨objs, u⟩, node.main.tail⟩
      | .error _ => node
  | .resize n => { node with store := ⟨node.store.objs, node.store.undo.setMaxSize n⟩ }

/-- The node that applies only the blocks of a chain, newest first, from the same start. -/
def replay (s₀ : Store (HistoryObject α ρ)) (main : List (AppliedBlock α ρ)) :
    Store (HistoryObject α ρ) :=
  main.foldr (fun b s => pushBlock cfg s b) s₀

/-- The operation history is that of a node that applied only the main chain: the same objects with
the same ids, and the same next id. -/
structure SameHistory (s₀ : Store (HistoryObject α ρ)) (node : HistoryNode α ρ) : Prop where
  find : ∀ k, node.store.objs.find ⟨operationIndex, k⟩ =
    (replay cfg s₀ node.main).objs.find ⟨operationIndex, k⟩
  next : node.store.objs.nextId operationIndex =
    (replay cfg s₀ node.main).objs.nextId operationIndex

/-- The block that an event undoes, if it undoes one, uses up no id before it creates its first
operation object. -/
def UndoesNoUse (node : HistoryNode α ρ) : ForkEvent α ρ → Prop
  | .push _ => True
  | .abort b => leadingUses cfg b.appliedOperations = 0
  | .pop => node.store.undo.stack = [] ∨
      ∀ b ∈ node.main.head?, leadingUses cfg b.appliedOperations = 0
  | .resize _ => True

/-- The undo states of the newest blocks, each of which leads back to the chain without its block,
but for the ids that its block used up before it created its first operation object. -/
def Entries (s₀ : Store (HistoryObject α ρ)) :
    List (UndoState (HistoryObject α ρ)) → List (AppliedBlock α ρ) → Prop
  | [], _ => True
  | _ :: _, [] => False
  | st :: sts, b :: main =>
      UndoState.Tracks st (replay cfg s₀ (b :: main)).objs
        (useIds (leadingUses cfg b.appliedOperations) (replay cfg s₀ main).objs) ∧
      Entries s₀ sts main

/-- The node is where its main chain leads, and its undo states lead back along it. -/
structure Follows (s₀ : Store (HistoryObject α ρ)) (node : HistoryNode α ρ) : Prop where
  objs_eq : node.store.objs = (replay cfg s₀ node.main).objs
  fresh : node.store.objs.Fresh
  enabled : node.store.undo.disabled = false
  inactive : node.store.undo.activeSessions = 0
  entries : Entries cfg s₀ node.store.undo.stack node.main

section Node

variable {cfg} {s₀ : Store (HistoryObject α ρ)} {node : HistoryNode α ρ}
  (ord : HashOrder (HistoryObject α ρ))

lemma Entries.take {sts : List (UndoState (HistoryObject α ρ))} {main : List (AppliedBlock α ρ)}
    (h : Entries cfg s₀ sts main) (n : ℕ) : Entries cfg s₀ (sts.take n) main := by
  induction sts generalizing main n with
  | nil => simpa using h
  | cons st sts ih =>
      cases n with
      | zero => trivial
      | succ n =>
          cases main with
          | nil => exact h.elim
          | cons b main => exact ⟨h.1, ih h.2 n⟩

/-- What the session of a block has recorded when the block is applied. -/
lemma Follows.applied (h : Follows cfg s₀ node) (b : AppliedBlock α ρ) :
    Within { node.store.undo with
        stack := node.store.undo.stack.take node.store.undo.maxSize
        activeSessions := 1 }
      node.store.objs (leadingUses cfg b.appliedOperations)
      (applyBlock cfg b ⟨node.store.objs, node.store.undo.startUndoSession {} false⟩).2 := by
  refine applyBlock_within b ⟨h.fresh, h.enabled, {}, ?_, ?_, rfl⟩
  · rw [UndoDatabase.startUndoSession_eq_opened (by simp [h.enabled])]
    simp [UndoDatabase.opened, h.enabled, h.inactive]
  · rw [useIds_zero]
    exact .empty h.fresh

/-- A pushed block. -/
lemma Follows.push (h : Follows cfg s₀ node) (b : AppliedBlock α ρ) :
    Follows cfg s₀ (nodeStep cfg ord node (.push b)) := by
  obtain ⟨made, hfresh, henabled, st, hu, ht, -⟩ := h.applied b
  have hobjs : (pushBlock cfg node.store b).objs = (replay cfg s₀ (b :: node.main)).objs :=
    objs_pushBlock_congr cfg h.objs_eq b
  have hpush : pushBlock cfg node.store b = ⟨(pushBlock cfg node.store b).objs,
      { node.store.undo with
        stack := st :: node.store.undo.stack.take node.store.undo.maxSize
        activeSessions := 0 }⟩ := by
    rw [objs_pushBlock]
    simp only [pushBlock, hu, UndoDatabase.commit, one_ne_zero, if_false]
  rw [← objs_pushBlock, hobjs, h.objs_eq] at ht
  rw [nodeStep, hpush]
  refine ⟨hobjs, ?_, h.enabled, rfl, ht, h.entries.take _⟩
  rw [objs_pushBlock]
  exact hfresh

/-- A block that fails. -/
lemma Follows.abort_eq (h : Follows cfg s₀ node) (b : AppliedBlock α ρ) :
    abortBlock cfg ord node.store b = ⟨useIds (leadingUses cfg b.appliedOperations) node.store.objs,
      { node.store.undo with
        stack := node.store.undo.stack.take node.store.undo.maxSize
        activeSessions := 0 }⟩ := by
  obtain ⟨made, hfresh, henabled, st, hu, ht, -⟩ := h.applied b
  simp only [abortBlock, hu, UndoDatabase.undo, h.enabled, ht.restore ord, one_ne_zero, if_false,
    Bool.false_eq_true, bind, Except.bind, pure, Except.pure]

/-- `pop_block` where there is something to undo. -/
lemma Follows.pop_eq (h : Follows cfg s₀ node) {st : UndoState (HistoryObject α ρ)}
    {sts : List (UndoState (HistoryObject α ρ))} (hst : node.store.undo.stack = st :: sts) :
    ∃ b main, node.main = b :: main ∧ Entries cfg s₀ sts main ∧
      (useIds (leadingUses cfg b.appliedOperations) (replay cfg s₀ main).objs).Fresh ∧
      nodeStep cfg ord node .pop =
        ⟨⟨useIds (leadingUses cfg b.appliedOperations) (replay cfg s₀ main).objs,
          { node.store.undo with stack := sts }⟩, main⟩ := by
  have hentries := h.entries
  rw [hst] at hentries
  cases hmain : node.main with
  | nil => rw [hmain] at hentries; exact hentries.elim
  | cons b main =>
      rw [hmain] at hentries
      obtain ⟨ht, hrest⟩ := hentries
      rw [← hmain, ← h.objs_eq] at ht
      refine ⟨b, main, rfl, hrest, ht.fresh, ?_⟩
      simp only [nodeStep, UndoDatabase.popCommit, h.inactive, h.enabled, hst, ht.restore ord, hmain,
        ne_eq, not_true_eq_false, if_false, bind, Except.bind, pure, Except.pure, List.tail_cons]

/-- `pop_block` where there is nothing to undo. -/
lemma Follows.pop_nil (h : Follows cfg s₀ node) (hst : node.store.undo.stack = []) :
    nodeStep cfg ord node .pop = node := by
  simp only [nodeStep, UndoDatabase.popCommit, h.inactive, hst, ne_eq, not_true_eq_false, if_false]

/-- **One event that undoes no use** keeps the node with its main chain. -/
theorem Follows.step (h : Follows cfg s₀ node) {e : ForkEvent α ρ} (he : UndoesNoUse cfg node e) :
    Follows cfg s₀ (nodeStep cfg ord node e) := by
  cases e with
  | push b => exact h.push ord b
  | abort b =>
      have hzero : leadingUses cfg b.appliedOperations = 0 := he
      rw [nodeStep, h.abort_eq, hzero, useIds_zero]
      exact ⟨h.objs_eq, h.fresh, h.enabled, rfl, h.entries.take _⟩
  | pop =>
      cases hst : node.store.undo.stack with
      | nil => rwa [h.pop_nil ord hst]
      | cons st sts =>
          obtain ⟨b, main, hmain, hentries, hfresh, hpop⟩ := h.pop_eq ord hst
          have hzero : leadingUses cfg b.appliedOperations = 0 := by
            refine he.resolve_left (by simp [hst]) b ?_
            rw [hmain]
            rfl
          rw [hzero, useIds_zero] at hfresh
          rw [hpop, hzero, useIds_zero]
          exact ⟨rfl, hfresh, h.enabled, h.inactive, hentries⟩
  | resize n => exact ⟨h.objs_eq, h.fresh, h.enabled, h.inactive, h.entries⟩

/-- **One event that undoes a use** leaves ids used that the main chain has not used. -/
theorem Follows.break (h : Follows cfg s₀ node) {e : ForkEvent α ρ}
    (he : ¬ UndoesNoUse cfg node e) : ¬ SameHistory cfg s₀ (nodeStep cfg ord node e) := by
  intro hsame
  cases e with
  | push b => exact he trivial
  | abort b =>
      have hnext := hsame.next
      rw [nodeStep, h.abort_eq, nextId_useIds, h.objs_eq] at hnext
      exact he (Nat.add_eq_left.mp hnext)
  | pop =>
      cases hst : node.store.undo.stack with
      | nil => exact he (.inl hst)
      | cons st sts =>
          obtain ⟨b, main, hmain, -, -, hpop⟩ := h.pop_eq ord hst
          have hnext := hsame.next
          rw [hpop, nextId_useIds] at hnext
          refine he (.inr fun b' hb' => ?_)
          rw [hmain] at hb'
          obtain rfl := Option.some.inj hb'
          exact Nat.add_eq_left.mp hnext
  | resize n => exact he trivial

end Node

/-- **When the ids do not depend on forks.** Over every run of blocks that are pushed, aborted and
popped, from any database with an empty undo stack: in all states the operation history is
that of a node that applied only the main chain, if and only if no event undoes a block that uses up
ids before it creates its first operation object. -/
theorem same_ids_iff (ord : HashOrder (HistoryObject α ρ)) {s₀ : Store (HistoryObject α ρ)}
    (hfresh : s₀.objs.Fresh) (henabled : s₀.undo.disabled = false) (hstack : s₀.undo.stack = [])
    (hactive : s₀.undo.activeSessions = 0) (events : List (ForkEvent α ρ)) :
    Runs.Always (nodeStep cfg ord) (SameHistory cfg s₀) ⟨s₀, []⟩ events ↔
      Runs.Each (nodeStep cfg ord) (UndoesNoUse cfg) ⟨s₀, []⟩ events := by
  refine Runs.always_iff_of_breaks (T := Follows cfg s₀) (fun node h => ?_)
    (fun node e h he => h.step ord he) (fun node e h he => h.break ord he) ?_
  · exact ⟨fun k => by rw [h.objs_eq], by rw [h.objs_eq]⟩
  · refine ⟨rfl, hfresh, henabled, hactive, ?_⟩
    rw [hstack]
    trivial

/-- A block that creates its operation object at once is replaced by another one. -/
theorem same_ids_replaced :
    Runs.Always (nodeStep (tagConfig 10 (by decide) true) default)
      (SameHistory (tagConfig 10 (by decide) true) oneAccount) ⟨oneAccount, []⟩
      [.push (transfers 1), .pop, .push (transfers 2)] :=
  (same_ids_iff (tagConfig 10 (by decide) true) default emptyHistory_oneAccount.fresh rfl rfl rfl
    _).mpr ⟨trivial, .inr fun b hb => by
      obtain rfl : transfers 1 = b := Option.some.inj hb
      decide, trivial, trivial⟩

/-- With `max_ops_per_account` 0 and `partial_operations` each operation uses up an id; when its block
is popped the id stays used. -/
theorem not_sameHistory : ¬ ∀ (cfg : HistoryConfig ℕ Unit) (ord : HashOrder (HistoryObject ℕ Unit))
    (s₀ : Store (HistoryObject ℕ Unit)), s₀.objs.Fresh → s₀.undo.disabled = false →
      s₀.undo.stack = [] → s₀.undo.activeSessions = 0 → ∀ events : List (ForkEvent ℕ Unit),
        Runs.Always (nodeStep cfg ord) (SameHistory cfg s₀) ⟨s₀, []⟩ events := by
  intro hall
  have h := hall (tagConfig 0 (by decide) true) default oneAccount emptyHistory_oneAccount.fresh rfl
    rfl rfl [.push (transfers 1), .pop]
  have hnext : (nodeStep (tagConfig 0 (by decide) true) default
      (nodeStep (tagConfig 0 (by decide) true) default ⟨oneAccount, []⟩ (.push (transfers 1)))
        .pop).store.objs.nextId operationIndex = 1 := by decide +kernel
  have hsame := h.2.2.next
  rw [hnext] at hsame
  revert hsame
  decide +kernel

end ZosCore.AccountHistory
