import ZosCore.Lib.Drain
import ZosCore.Net.ItemsToGet

/-!
The backlog of blocks that have come in for the synchronization.

`process_backlog_of_sync_blocks` hands a block to the delegate when it is the next one to get from a
peer, and goes on with the blocks that this makes the next ones.

* `Drains`: what it is to have done when it returns before the limit of blocks in progress is reached.
* `dueIds`: the blocks of the backlog that become due, in their order.
* `Drainable`: none of them counts as accepted already, as the search then ends there and the block
  stays; and none is in the backlog twice.
* **`processBacklog_drains_iff`**: the function returns, and the backlog is drained exactly if it is
  drainable.
-/

namespace ZosCore.Net.NodeImpl

variable {β : Type}

/-! ### What is to be done -/

/-- The ids of the backlog, in the order of the search. -/
def waitingIds (s : NodeImpl β) : List ItemHash := s.moveNewItems.receivedSyncItems.map (·.blockId)

/-- What is to be got from the active peers. -/
def lists (s : NodeImpl β) : List (List ItemHash) :=
  s.activeConnections.map fun p => (s.peer p).idsOfItemsToGet

/-- A block has been taken from the front of a peer's list. -/
def Takes (s s' : NodeImpl β) (id : ItemHash) : Prop :=
  ∃ p ∈ s.activeConnections, ∃ taken,
    (s.peer p).idsOfItemsToGet = taken ++ (s'.peer p).idsOfItemsToGet ∧ id ∈ taken

/-- The blocks that have been handed to `send_sync_block_to_node_delegate`; the calls that were over
have been thrown away. -/
def handedIds (s s' : NodeImpl β) : List ItemHash :=
  (s'.handleMessageCallsInProgress.drop s.collectCalls.handleMessageCallsInProgress.length).map
    (·.message.blockId)

/-- No block that is left is due; what was taken was handed to the delegate once, or counts as accepted
already, and is not left. -/
structure Drains (s s' : NodeImpl β) : Prop where
  noneDue : ∀ m ∈ s'.receivedSyncItems, ¬ s'.isDue m
  handedOnce : ∀ id, s.Takes s' id →
    (s.handedIds s').count id = 1 ∨ id ∈ s.mostRecentBlocksAccepted
  removed : ∀ id, s.Takes s' id → ∀ m ∈ s'.receivedSyncItems, m.blockId ≠ id

/-! ### When it is done -/

/-- So many more blocks may be in progress. -/
def freeCalls (s : NodeImpl β) : ℕ :=
  s.maximumNumberOfBlocksToHandleAtOneTime - s.handleMessageCallsInProgress.length

/-- The blocks of the backlog that become due, in their order, until the limit is reached. -/
def dueIds (s : NodeImpl β) : List ItemHash :=
  Drain.due s.collectCalls.freeCalls s.waitingIds s.lists

/-- No block that becomes due counts as accepted already, and unless the limit is reached, none is in
the backlog twice. -/
structure Drainable (s : NodeImpl β) : Prop where
  fresh : ∀ id ∈ s.dueIds, id ∉ s.mostRecentBlocksAccepted
  single : s.dueIds.length < s.collectCalls.freeCalls → ∀ id ∈ s.dueIds, s.waitingIds.count id = 1

instance (s : NodeImpl β) : Decidable s.Drainable :=
  decidable_of_iff (_ ∧ _) ⟨fun h => ⟨h.1, h.2⟩, fun h => ⟨h.fresh, h.single⟩⟩

/-! ### One round -/

variable {s s' s'' : NodeImpl β} {d : Delegate β} {m : BlockMessage β} {id : ItemHash}

lemma isDue_eq (m : BlockMessage β) : s.isDue m = Drain.isDue s.lists m.blockId := by
  simp [isDue, Drain.isDue, lists, List.any_map, Function.comp_def]

lemma find?_isDue : (s.receivedSyncItems.map (·.blockId)).find? (Drain.isDue s.lists) =
    (s.receivedSyncItems.find? s.isDue).map (·.blockId) := by
  rw [List.find?_map]
  congr 2
  funext m
  exact (isDue_eq m).symm

lemma takeDue_toGet (id : ItemHash) {p : ℕ} (hp : p ∈ s.activeConnections) :
    ((s.takeDue id).peer p).idsOfItemsToGet = Drain.pop id (s.peer p).idsOfItemsToGet := by
  by_cases hdue : (s.peer p).idsOfItemsToGet.head? = some id <;>
    simp [takeDue, modifyActive, Drain.pop, hp, hdue]

lemma isBusy_iff : s.isBusy = true ↔ s.freeCalls = 0 := by
  simp [isBusy, freeCalls, Nat.sub_eq_zero_iff_le]

/-- Blocks have been taken and handed to the delegate, one after the other. -/
structure Handed (ids : List ItemHash) (s s' : NodeImpl β) : Prop where
  received : s'.receivedSyncItems.map (·.blockId) = s.waitingIds.diff ids
  activeConnections : s'.activeConnections = s.activeConnections
  toGet : ∀ p ∈ s.activeConnections,
    (s'.peer p).idsOfItemsToGet = Drain.popAll ids (s.peer p).idsOfItemsToGet
  calls : ∃ l, s'.handleMessageCallsInProgress = s.handleMessageCallsInProgress ++ l ∧
    l.map (·.message.blockId) = ids
  maximum : s'.maximumNumberOfBlocksToHandleAtOneTime = s.maximumNumberOfBlocksToHandleAtOneTime

/-- A block that counts as accepted was taken, and is left. -/
structure Leaves (s s' : NodeImpl β) : Prop where
  notBusy : s'.isBusy = false
  left : ∃ id, s.Takes s' id ∧ ∃ m ∈ s'.receivedSyncItems, m.blockId = id

/-- The round that hands a block to the delegate. -/
def handOver (m : BlockMessage β) (s : NodeImpl β) : NodeImpl β :=
  { s.takeDue m.blockId with
    receivedSyncItems := s.receivedSyncItems.eraseP s.isDue
    handleMessageCallsInProgress := s.handleMessageCallsInProgress ++ [⟨m, false⟩] }

lemma processNext_of_none (h : s.receivedSyncItems.find? s.isDue = none) :
    s.processNext d = (false, s) := by
  rw [processNext, h]

lemma processNext_of_accepted (h : s.receivedSyncItems.find? s.isDue = some m)
    (hm : m.blockId ∈ s.mostRecentBlocksAccepted) :
    s.processNext d = (false, (s.takeDue m.blockId).treatAsAccepted d m) := by
  rw [processNext, h]
  simp [hm]

lemma processNext_of_new (h : s.receivedSyncItems.find? s.isDue = some m)
    (hm : m.blockId ∉ s.mostRecentBlocksAccepted) : s.processNext d = (true, s.handOver m) := by
  rw [processNext, h]
  simp [hm, handOver]

lemma isDue_of_find? (h : s.receivedSyncItems.find? s.isDue = some m) :
    ∃ p ∈ s.activeConnections, (s.peer p).idsOfItemsToGet.head? = some m.blockId := by
  have hdue := List.find?_some h
  simpa [isDue] using hdue

/-- The fetching of the next batch changes no list. -/
lemma toGet_fetchNextBatchFromAll (l : List ℕ) (p : ℕ) :
    ((s.fetchNextBatchFromAll d l).peer p).idsOfItemsToGet = (s.peer p).idsOfItemsToGet := by
  induction l generalizing s with
  | nil => rfl
  | cons q l ih =>
      refine (ih (s := s.fetchNextBatchOfItemIdsFromPeer d q)).trans ?_
      rw [fetchNextBatchOfItemIdsFromPeer]
      cases d.synopsisForPeer (s.peer q) with
      | none => rfl
      | some synopsis => by_cases hp : p = q <;> simp [modifyPeer, hp]

lemma fetchNextBatchFromAll_same (l : List ℕ) :
    (s.fetchNextBatchFromAll d l).receivedSyncItems = s.receivedSyncItems ∧
      (s.fetchNextBatchFromAll d l).freeCalls = s.freeCalls := by
  induction l generalizing s with
  | nil => exact ⟨rfl, rfl⟩
  | cons q l ih =>
      have hstep : (s.fetchNextBatchOfItemIdsFromPeer d q).receivedSyncItems = s.receivedSyncItems ∧
          (s.fetchNextBatchOfItemIdsFromPeer d q).freeCalls = s.freeCalls := by
        rw [fetchNextBatchOfItemIdsFromPeer]
        cases d.synopsisForPeer (s.peer q) <;> exact ⟨rfl, rfl⟩
      obtain ⟨hreceived, hfree⟩ := ih (s := s.fetchNextBatchOfItemIdsFromPeer d q)
      exact ⟨hreceived.trans hstep.1, hfree.trans hstep.2⟩

/-- **A block that counts as accepted** is taken from the lists, and left in the backlog. -/
lemma leaves_treatAsAccepted (hbusy : s.isBusy = false)
    (hfind : s.receivedSyncItems.find? s.isDue = some m) :
    Leaves s ((s.takeDue m.blockId).treatAsAccepted d m) := by
  obtain ⟨p, hp, hhead⟩ := isDue_of_find? hfind
  have htoGet : (((s.takeDue m.blockId).treatAsAccepted d m).peer p).idsOfItemsToGet =
      Drain.pop m.blockId (s.peer p).idsOfItemsToGet := by
    rw [treatAsAccepted, toGet_fetchNextBatchFromAll, ← takeDue_toGet m.blockId hp]
    by_cases hq : p ∈ (s.takeDue m.blockId).activeConnections <;> simp [modifyActive, hq]
  obtain ⟨hreceived, hfree⟩ := fetchNextBatchFromAll_same (d := d)
    (s := (s.takeDue m.blockId).modifyActive fun c =>
      { c with idsOfItemsBeingProcessed := c.idsOfItemsBeingProcessed.erase m.blockId })
    (((s.takeDue m.blockId).activeConnections.filter ((s.takeDue m.blockId).isProcessing m)).filter
      ((s.takeDue m.blockId).modifyActive fun c =>
        { c with idsOfItemsBeingProcessed := c.idsOfItemsBeingProcessed.erase m.blockId }).isDone)
  refine ⟨?_, m.blockId, ⟨p, hp, [m.blockId], ?_, List.mem_singleton_self _⟩, m, ?_, rfl⟩
  · rw [Bool.eq_false_iff, ne_eq, isBusy_iff] at hbusy ⊢
    exact fun hzero => hbusy (hfree.symm.trans hzero)
  · rw [htoGet]
    exact Drain.pop_of_head hhead
  · rw [treatAsAccepted, hreceived]
    exact List.mem_of_find?_eq_some hfind

/-- **A new block** is taken from the lists and from the backlog, and handed to the delegate. -/
lemma handed_handOver (hnew : s.newReceivedSyncItems = [])
    (hfind : s.receivedSyncItems.find? s.isDue = some m) :
    Handed [m.blockId] s (s.handOver m) where
  received := by
    have hdue : s.isDue = fun m => Drain.isDue s.lists m.blockId := funext isDue_eq
    rw [handOver, waitingIds, moveNewItems]
    simp only [hnew, List.reverse_nil, List.nil_append, List.diff_cons, List.diff_nil, hdue]
    exact Drain.map_eraseP_of_find? (hdue ▸ hfind)
  activeConnections := rfl
  toGet _ hp := takeDue_toGet m.blockId hp
  calls := ⟨[⟨m, false⟩], rfl, rfl⟩
  maximum := rfl

lemma Handed.trans {ids ids' : List ItemHash} (h : Handed ids s s') (h' : Handed ids' s' s'')
    (hnew : s'.newReceivedSyncItems = []) : Handed (ids ++ ids') s s'' where
  received := by
    have hwaiting : s'.waitingIds = s'.receivedSyncItems.map (·.blockId) := by
      simp [waitingIds, moveNewItems, hnew]
    rw [h'.received, hwaiting, h.received, List.diff_append]
  activeConnections := h'.activeConnections.trans h.activeConnections
  toGet p hp := by
    rw [h'.toGet p (h.activeConnections ▸ hp), h.toGet p hp, Drain.popAll, Drain.popAll, Drain.popAll,
      List.foldl_append]
  calls := by
    obtain ⟨l, hl, rfl⟩ := h.calls
    obtain ⟨l', hl', rfl⟩ := h'.calls
    exact ⟨l ++ l', by rw [hl', hl, List.append_assoc], List.map_append⟩
  maximum := h'.maximum.trans h.maximum

/-- What is left after some blocks have been handed over is left. -/
lemma Leaves.of_handed {ids : List ItemHash} (h : Handed ids s s') (h' : Leaves s' s'') :
    Leaves s s'' := by
  obtain ⟨hbusy, id, ⟨p, hp, taken, hsplit, hid⟩, hleft⟩ := h'
  have hp := h.activeConnections ▸ hp
  obtain ⟨before, hbefore, -⟩ := Drain.popAll_split ids (s.peer p).idsOfItemsToGet
  refine ⟨hbusy, id, ⟨p, hp, before ++ taken, ?_, List.mem_append_right _ hid⟩, hleft⟩
  rw [List.append_assoc, ← hsplit, h.toGet p hp]
  exact hbefore

/-! ### The loop -/

@[simp] lemma waitingIds_moveNewItems : s.moveNewItems.waitingIds = s.waitingIds := by
  simp [waitingIds, moveNewItems]

lemma Handed.of_moveNewItems {ids : List ItemHash} (h : Handed ids s.moveNewItems s') :
    Handed ids s s' :=
  ⟨by rw [h.received, waitingIds_moveNewItems], h.activeConnections, h.toGet, h.calls, h.maximum⟩

lemma lists_handOver : (s.handOver m).lists = s.lists.map (Drain.pop m.blockId) := by
  rw [lists, lists, List.map_map]
  exact List.map_congr_left fun p hp => takeDue_toGet m.blockId hp

lemma freeCalls_handOver : (s.handOver m).freeCalls = s.freeCalls - 1 := by
  simp only [freeCalls, handOver, takeDue, modifyActive, List.length_append, List.length_singleton]
  omega

/-- **The loop.** It ends, and has handed over all blocks that become due, unless one of them counts as
accepted already. -/
lemma processBacklogLoop_spec {fuel : ℕ} (hfuel : s.waitingIds.length < fuel)
    (hbusy : s.isBusy = false) :
    ∃ s', s.processBacklogLoop d fuel = some s' ∧
      ((∀ id ∈ Drain.due s.freeCalls s.waitingIds s.lists, id ∉ s.mostRecentBlocksAccepted) →
        Handed (Drain.due s.freeCalls s.waitingIds s.lists) s s') ∧
      ((∃ id ∈ Drain.due s.freeCalls s.waitingIds s.lists, id ∈ s.mostRecentBlocksAccepted) →
        Leaves s s') := by
  induction fuel generalizing s with
  | zero => simp at hfuel
  | succ fuel ih =>
      obtain ⟨k, hk⟩ : ∃ k, s.freeCalls = k + 1 := by
        refine Nat.exists_eq_succ_of_ne_zero fun hzero => ?_
        simp [isBusy_iff.mpr hzero] at hbusy
      have hmoved : s.moveNewItems.isBusy = false := hbusy
      rw [processBacklogLoop]
      cases hfind : s.moveNewItems.receivedSyncItems.find? s.moveNewItems.isDue with
      | none =>
          -- nothing is due
          have hdue : Drain.due s.freeCalls s.waitingIds s.lists = [] := by
            refine Drain.due_of_none ?_
            have hids := find?_isDue (s := s.moveNewItems)
            rw [hfind] at hids
            exact hids
          refine ⟨s.moveNewItems, ?_, fun _ => ?_, fun h => ?_⟩
          · simp [processNext_of_none hfind, hmoved]
          · rw [hdue]
            exact ⟨by simp [waitingIds], rfl, fun _ _ => rfl, ⟨[], by simp [moveNewItems], rfl⟩, rfl⟩
          · simp [hdue] at h
      | some m =>
          have hdue : Drain.due s.freeCalls s.waitingIds s.lists =
              m.blockId :: Drain.due k (s.waitingIds.erase m.blockId)
                (s.lists.map (Drain.pop m.blockId)) := by
            rw [hk]
            refine Drain.due_of_some ?_
            have hids := find?_isDue (s := s.moveNewItems)
            rw [hfind] at hids
            exact hids
          by_cases hm : m.blockId ∈ s.mostRecentBlocksAccepted
          · -- the block counts as accepted already
            have hleaves := leaves_treatAsAccepted (d := d) hmoved hfind
            refine ⟨_, ?_, fun h => ?_, fun _ => ⟨hleaves.notBusy, hleaves.left⟩⟩
            · simp [processNext_of_accepted hfind hm, hleaves.notBusy]
            · exact absurd hm (h m.blockId (by simp [hdue]))
          · -- the block is handed to the delegate
            have hhanded := (handed_handOver (s := s.moveNewItems) rfl hfind).of_moveNewItems
            have hwaiting : (s.moveNewItems.handOver m).waitingIds = s.waitingIds.erase m.blockId := by
              have hreceived := hhanded.received
              simpa [waitingIds, moveNewItems, handOver, takeDue, modifyActive] using hreceived
            have hlists : (s.moveNewItems.handOver m).lists =
                s.lists.map (Drain.pop m.blockId) := lists_handOver
            have hfree : (s.moveNewItems.handOver m).freeCalls = k := by
              have hmove : s.moveNewItems.freeCalls = k + 1 := hk
              rw [freeCalls_handOver, hmove, Nat.add_sub_cancel]
            have hmem : m.blockId ∈ s.waitingIds :=
              List.mem_map_of_mem (List.mem_of_find?_eq_some hfind)
            have hrest : ∀ id, id ∈ m.blockId :: Drain.due k (s.waitingIds.erase m.blockId)
                  (s.lists.map (Drain.pop m.blockId)) ∧ id ∈ s.mostRecentBlocksAccepted →
                id ∈ Drain.due k (s.waitingIds.erase m.blockId)
                  (s.lists.map (Drain.pop m.blockId)) := by
              rintro id ⟨hid, hrecent⟩
              exact (List.mem_cons.mp hid).resolve_left fun heq => hm (heq ▸ hrecent)
            rw [hdue]
            by_cases hlast : (s.moveNewItems.handOver m).isBusy
            · obtain rfl : k = 0 := hfree.symm.trans (isBusy_iff.mp hlast)
              refine ⟨_, by simp only [processNext_of_new hfind hm, hlast, if_true]; rfl, fun _ => ?_,
                fun hany => ?_⟩
              · split_ifs <;>
                  exact ⟨hhanded.received, hhanded.activeConnections, hhanded.toGet, hhanded.calls,
                    hhanded.maximum⟩
              · obtain ⟨id, hid, hrecent⟩ := hany
                simpa [Drain.due] using hrest id ⟨hid, hrecent⟩
            · obtain ⟨s', hrun, hfresh, hstale⟩ := ih (s := s.moveNewItems.handOver m)
                (by
                  have hpos := List.length_pos_of_mem hmem
                  rw [hwaiting, List.length_erase_of_mem hmem]
                  omega) (by simpa using hlast)
              rw [hfree, hwaiting, hlists] at hfresh hstale
              refine ⟨s', ?_, fun h => ?_, fun hany => ?_⟩
              · simpa [processNext_of_new hfind hm, hlast] using hrun
              · exact hhanded.trans (hfresh fun id hid => h id (List.mem_cons_of_mem _ hid)) rfl
              · obtain ⟨id, hid, hrecent⟩ := hany
                exact (hstale ⟨id, hrest id ⟨hid, hrecent⟩, hrecent⟩).of_handed hhanded

/-! ### The backlog is drained -/

/-- **The function returns**, and has handed over all blocks that become due, unless one of them counts
as accepted already. -/
lemma processBacklog_spec (d : Delegate β) (hbusy : s.collectCalls.isBusy = false) :
    ∃ s', s.processBacklogOfSyncBlocks d s.backlogFuel = some s' ∧
      ((∀ id ∈ s.dueIds, id ∉ s.mostRecentBlocksAccepted) → Handed s.dueIds s.collectCalls s') ∧
      ((∃ id ∈ s.dueIds, id ∈ s.mostRecentBlocksAccepted) → Leaves s s') := by
  have hfuel : s.waitingIds.length < s.backlogFuel := by
    simp [waitingIds, moveNewItems, backlogFuel]
  obtain ⟨s', hrun, hfresh, hstale⟩ := processBacklogLoop_spec (d := d)
    (s := { s.collectCalls with suspendFetchingSyncBlocks := false }) hfuel hbusy
  refine ⟨s', by simpa [processBacklogOfSyncBlocks, hbusy] using hrun, fun h => ?_, fun h => ?_⟩
  · obtain ⟨hreceived, hactive, htoGet, hcalls, hmaximum⟩ := hfresh h
    exact ⟨hreceived, hactive, htoGet, hcalls, hmaximum⟩
  · obtain ⟨hbusy', hleft⟩ := hstale h
    exact ⟨hbusy', hleft⟩

/-- What has been handed over are the blocks that became due, and fewer than the limit if the function
has not reached it. -/
lemma Handed.handedIds_eq (h : Handed s.dueIds s.collectCalls s') :
    s.handedIds s' = s.dueIds ∧ (s'.isBusy = false ↔ s.dueIds.length < s.collectCalls.freeCalls) := by
  obtain ⟨l, hcalls, hl⟩ := h.calls
  refine ⟨by rw [handedIds, hcalls, List.drop_left, hl], ?_⟩
  have hlength : l.length = s.dueIds.length := by rw [← hl, List.length_map]
  have hle : s.dueIds.length ≤ s.collectCalls.freeCalls := Drain.due_length_le _ _ _
  have hfree : s'.freeCalls = s.collectCalls.freeCalls - s.dueIds.length := by
    rw [freeCalls, freeCalls, hcalls, h.maximum, List.length_append, hlength]
    omega
  rw [Bool.eq_false_iff, ne_eq, isBusy_iff, hfree]
  omega

/-- A block is taken from the lists exactly if it became due. -/
lemma Handed.takes_iff (h : Handed s.dueIds s.collectCalls s') (id : ItemHash) :
    s.Takes s' id ↔ id ∈ s.dueIds := by
  constructor
  · rintro ⟨p, hp, taken, hsplit, hid⟩
    rw [h.toGet p hp] at hsplit
    exact Drain.taken_subset hsplit hid
  · intro hid
    obtain ⟨l, hl, taken, hsplit, htaken⟩ := Drain.exists_taken hid
    obtain ⟨p, hp, rfl⟩ := List.mem_map.mp hl
    refine ⟨p, hp, taken, ?_, htaken⟩
    rw [h.toGet p hp]
    exact hsplit

/-- What is left of the backlog: every block as often as it was in it, less the times that it became
due. -/
lemma Handed.mem_received_iff (h : Handed s.dueIds s.collectCalls s') (id : ItemHash) :
    (∃ m ∈ s'.receivedSyncItems, m.blockId = id) ↔ s.dueIds.count id < s.waitingIds.count id := by
  have hmem : (∃ m ∈ s'.receivedSyncItems, m.blockId = id) ↔
      id ∈ s'.receivedSyncItems.map (·.blockId) := by simp
  have hwaiting : s.collectCalls.waitingIds = s.waitingIds := rfl
  rw [hmem, h.received, hwaiting, ← List.count_pos_iff, List.count_diff]
  omega

lemma Handed.noneDue (h : Handed s.dueIds s.collectCalls s')
    (hfew : s.dueIds.length < s.collectCalls.freeCalls) :
    ∀ m ∈ s'.receivedSyncItems, ¬ s'.isDue m := by
  intro m hm
  have hid : m.blockId ∈ s.waitingIds.diff s.dueIds :=
    h.received ▸ List.mem_map_of_mem (f := fun m : BlockMessage β => m.blockId) hm
  have hlists : s'.lists = s.lists.map (Drain.popAll s.dueIds) := by
    rw [lists, lists, List.map_map, h.activeConnections]
    exact List.map_congr_left fun p hp => h.toGet p hp
  rw [isDue_eq, hlists]
  exact Drain.due_complete hfew m.blockId hid

/-- **The backlog**: `process_backlog_of_sync_blocks` returns, and unless it has reached the limit of
blocks in progress, it has drained the backlog exactly if that is drainable. -/
theorem processBacklog_drains_iff (d : Delegate β) (s : NodeImpl β) :
    ∃ s', s.processBacklogOfSyncBlocks d s.backlogFuel = some s' ∧
      ((s'.isBusy = false → s.Drains s') ↔ s.Drainable) := by
  cases hbusy : s.collectCalls.isBusy with
  | true =>
      have hdue : s.dueIds = [] := by
        rw [dueIds, isBusy_iff.mp hbusy]
        rfl
      refine ⟨s.collectCalls, by simp [processBacklogOfSyncBlocks, hbusy], ?_⟩
      refine iff_of_true (fun h => ?_) ⟨by simp [hdue], by simp [hdue]⟩
      simp [hbusy] at h
  | false =>
      obtain ⟨s', hrun, hfresh, hstale⟩ := processBacklog_spec d hbusy
      refine ⟨s', hrun, fun hdrains => ?_, fun hdrainable hfree => ?_⟩
      · have hnew : ∀ id ∈ s.dueIds, id ∉ s.mostRecentBlocksAccepted := by
          intro id hid hrecent
          obtain ⟨hbusy', id, htakes, m, hm, hleft⟩ := hstale ⟨id, hid, hrecent⟩
          exact (hdrains hbusy').removed id htakes m hm hleft
        have hhanded := hfresh hnew
        refine ⟨hnew, fun hfew id hid => ?_⟩
        have hdone := hdrains (hhanded.handedIds_eq.2.mpr hfew)
        have htakes := (hhanded.takes_iff id).mpr hid
        have honce : s.dueIds.count id = 1 :=
          hhanded.handedIds_eq.1 ▸ (hdone.handedOnce id htakes).resolve_right (hnew id hid)
        have hgone : ¬ s.dueIds.count id < s.waitingIds.count id := by
          rw [← hhanded.mem_received_iff]
          rintro ⟨m, hm, hid⟩
          exact hdone.removed id htakes m hm hid
        have hle : s.dueIds.count id ≤ s.waitingIds.count id := (Drain.due_subperm _ _ _).count_le id
        omega
      · have hhanded := hfresh hdrainable.fresh
        have hfew := hhanded.handedIds_eq.2.mp hfree
        have hcount : ∀ id ∈ s.dueIds, s.dueIds.count id = 1 ∧ s.waitingIds.count id = 1 := by
          intro id hid
          have hsingle := hdrainable.single hfew id hid
          have hle : s.dueIds.count id ≤ s.waitingIds.count id :=
            (Drain.due_subperm _ _ _).count_le id
          have hpos := List.count_pos_iff.mpr hid
          omega
        refine ⟨hhanded.noneDue hfew, fun id htakes => ?_, fun id htakes m hm hid => ?_⟩
        · rw [hhanded.handedIds_eq.1]
          exact .inl (hcount id ((hhanded.takes_iff id).mp htakes)).1
        · obtain ⟨hdue, hwaiting⟩ := hcount id ((hhanded.takes_iff id).mp htakes)
          have hleft := (hhanded.mem_received_iff id).mp ⟨m, hm, hid⟩
          omega

/-- A block of the backlog has come in as a new one too, and counts as accepted. -/
def acceptedTwice : NodeImpl Unit where
  activeConnections := [0]
  peer _ := { idsOfItemsToGet := [⟨1, 1⟩] }
  receivedSyncItems := [.ofBlock blockOne]
  mostRecentBlocksAccepted := [⟨1, 1⟩]

/-- The block is taken from the list, and stays in the backlog. -/
theorem not_processBacklog_drains :
    ¬ ∀ (d : Delegate Unit) (s : NodeImpl Unit), ∃ s',
      s.processBacklogOfSyncBlocks d s.backlogFuel = some s' ∧ (s'.isBusy = false → s.Drains s') := by
  intro h
  obtain ⟨s', hrun, hdrains⟩ := h listSynopsis acceptedTwice
  obtain ⟨t, hrun', -, hstale⟩ := processBacklog_spec (s := acceptedTwice) listSynopsis rfl
  obtain rfl := Option.some.inj (hrun.symm.trans hrun')
  obtain ⟨hbusy, id, htakes, m, hm, hleft⟩ :=
    hstale ⟨⟨1, 1⟩, by decide +kernel, List.mem_singleton_self _⟩
  exact (hdrains hbusy).removed id htakes m hm hleft

end ZosCore.Net.NodeImpl
