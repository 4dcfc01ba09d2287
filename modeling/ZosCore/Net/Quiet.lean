import ZosCore.Net.Node

/-!
What most of a node's handlers leave alone.

A restart of the synchronization, a disconnection, a block that is accepted or rejected: none of them
requests a block or takes a request back, and a peer's list of blocks to get stays or is cleared.

* `SameRequests s s'`: no request was made or taken back, and no connection was made or closed.
* `Quiet s s'`: nor has a peer's list changed, unless it was cleared.
* `Quiet.startSynchronizingWithPeer`, `Quiet.processBlockDuringNormalOperation`,
  `Quiet.sendSyncBlockToNodeDelegate`: the handlers that are quiet.
-/

namespace ZosCore.Net.NodeImpl

variable {β : Type}

/-- No request was made or taken back, and no connection was made or closed. -/
structure SameRequests (s s' : NodeImpl β) : Prop where
  activeSyncRequests : s'.activeSyncRequests = s.activeSyncRequests
  connections : ∀ p, p ∈ s'.connections ↔ p ∈ s.connections
  syncItemsRequestedFromPeer : ∀ p,
    (s'.peer p).syncItemsRequestedFromPeer = (s.peer p).syncItemsRequestedFromPeer

/-- No request was made or taken back, no connection was made or closed, and the lists of the peers
have at most been cleared. -/
structure Quiet (s s' : NodeImpl β) : Prop extends SameRequests s s' where
  idsOfItemsToGet : ∀ p,
    (s'.peer p).idsOfItemsToGet = (s.peer p).idsOfItemsToGet ∨ (s'.peer p).idsOfItemsToGet = []
  idsOfItemsBeingProcessed : ∀ p,
    (s'.peer p).idsOfItemsBeingProcessed ⊆ (s.peer p).idsOfItemsBeingProcessed

/-- The same of one peer. -/
structure QuietPeer (c c' : PeerConnection) : Prop where
  syncItemsRequestedFromPeer : c'.syncItemsRequestedFromPeer = c.syncItemsRequestedFromPeer
  idsOfItemsToGet : c'.idsOfItemsToGet = c.idsOfItemsToGet ∨ c'.idsOfItemsToGet = []
  idsOfItemsBeingProcessed : c'.idsOfItemsBeingProcessed ⊆ c.idsOfItemsBeingProcessed

lemma QuietPeer.refl (c : PeerConnection) : QuietPeer c c := ⟨rfl, .inl rfl, subset_rfl⟩

/-- An active peer is connected. -/
lemma mem_connections_of_active {s : NodeImpl β} {p : ℕ} (h : p ∈ s.activeConnections) :
    p ∈ s.connections := List.mem_append_left _ h

/-- A disconnected peer stays connected until the connection is closed. -/
lemma mem_connections_disconnectFromPeer {s : NodeImpl β} {p q : ℕ} :
    q ∈ (s.disconnectFromPeer p).connections ↔ q = p ∨ q ∈ s.connections := by
  by_cases hq : q = p <;> simp [connections, disconnectFromPeer, hq]

namespace SameRequests

variable {s s' s'' : NodeImpl β}

lemma refl (s : NodeImpl β) : SameRequests s s := ⟨rfl, fun _ => .rfl, fun _ => rfl⟩

lemma trans (h : SameRequests s s') (h' : SameRequests s' s'') : SameRequests s s'' where
  activeSyncRequests := h'.activeSyncRequests.trans h.activeSyncRequests
  connections p := (h'.connections p).trans (h.connections p)
  syncItemsRequestedFromPeer p :=
    (h'.syncItemsRequestedFromPeer p).trans (h.syncItemsRequestedFromPeer p)

lemma modifyPeer {f : PeerConnection → PeerConnection} (p : ℕ)
    (hf : ∀ c, (f c).syncItemsRequestedFromPeer = c.syncItemsRequestedFromPeer) :
    SameRequests s (s.modifyPeer p f) := by
  refine ⟨rfl, fun _ => .rfl, fun q => ?_⟩
  by_cases hq : q = p
  · subst hq
    simp [NodeImpl.modifyPeer, hf]
  · simp [NodeImpl.modifyPeer, hq]

lemma modifyActive {f : PeerConnection → PeerConnection}
    (hf : ∀ c, (f c).syncItemsRequestedFromPeer = c.syncItemsRequestedFromPeer) :
    SameRequests s (s.modifyActive f) := by
  refine ⟨rfl, fun _ => .rfl, fun q => ?_⟩
  by_cases hq : q ∈ s.activeConnections <;> simp [NodeImpl.modifyActive, hq, hf]

end SameRequests

namespace Quiet

variable {s s' s'' : NodeImpl β} {d : Delegate β} {p : ℕ} {m : BlockMessage β} {hash : ItemHash}

lemma refl (s : NodeImpl β) : Quiet s s :=
  ⟨.refl s, fun _ => .inl rfl, fun _ => subset_rfl⟩

lemma trans (h : Quiet s s') (h' : Quiet s' s'') : Quiet s s'' where
  toSameRequests := h.toSameRequests.trans h'.toSameRequests
  idsOfItemsToGet p := by
    rcases h'.idsOfItemsToGet p with h' | h'
    · rw [h']
      exact h.idsOfItemsToGet p
    · exact .inr h'
  idsOfItemsBeingProcessed p :=
    (h'.idsOfItemsBeingProcessed p).trans (h.idsOfItemsBeingProcessed p)

/-- A state with the same requests and connections, and other values of the peers. -/
lemma of_peers (hactive : s'.activeSyncRequests = s.activeSyncRequests)
    (hconnections : s'.connections = s.connections)
    (hpeer : ∀ p, QuietPeer (s.peer p) (s'.peer p)) : Quiet s s' where
  activeSyncRequests := hactive
  connections _ := by rw [hconnections]
  syncItemsRequestedFromPeer p := (hpeer p).syncItemsRequestedFromPeer
  idsOfItemsToGet p := (hpeer p).idsOfItemsToGet
  idsOfItemsBeingProcessed p := (hpeer p).idsOfItemsBeingProcessed

lemma modifyPeer {f : PeerConnection → PeerConnection} (p : ℕ)
    (hf : QuietPeer (s.peer p) (f (s.peer p))) : Quiet s (s.modifyPeer p f) := by
  refine of_peers rfl rfl fun q => ?_
  by_cases hq : q = p
  · subst hq
    simpa [NodeImpl.modifyPeer] using hf
  · simpa [NodeImpl.modifyPeer, hq] using QuietPeer.refl (s.peer q)

lemma modifyActive {f : PeerConnection → PeerConnection}
    (hf : ∀ p ∈ s.activeConnections, QuietPeer (s.peer p) (f (s.peer p))) :
    Quiet s (s.modifyActive f) := by
  refine of_peers rfl rfl fun q => ?_
  by_cases hq : q ∈ s.activeConnections
  · simpa [NodeImpl.modifyActive, hq] using hf q hq
  · simpa [NodeImpl.modifyActive, hq] using QuietPeer.refl (s.peer q)

lemma disconnectFromPeer (hp : p ∈ s.connections) : Quiet s (s.disconnectFromPeer p) where
  activeSyncRequests := rfl
  connections q := by
    rw [mem_connections_disconnectFromPeer]
    exact or_iff_right_of_imp fun h => h ▸ hp
  syncItemsRequestedFromPeer _ := rfl
  idsOfItemsToGet _ := .inl rfl
  idsOfItemsBeingProcessed _ := subset_rfl

/-- The fields that are left alone do not change with those that are not mentioned. -/
lemma of_same (h : Quiet s' s'') (hactive : s'.activeSyncRequests = s.activeSyncRequests)
    (hconnections : s'.connections = s.connections) (hpeer : s'.peer = s.peer) : Quiet s s'' :=
  (of_peers hactive hconnections fun _ => hpeer ▸ QuietPeer.refl _).trans h

/-- A loop over connected peers. -/
lemma foldl {f : NodeImpl β → ℕ → NodeImpl β} {l : List ℕ}
    (hf : ∀ s p, p ∈ s.connections → Quiet s (f s p)) (hl : ∀ p ∈ l, p ∈ s.connections) :
    Quiet s (l.foldl f s) := by
  induction l generalizing s with
  | nil => exact refl s
  | cons p l ih =>
      obtain ⟨hp, hl⟩ := List.forall_mem_cons.mp hl
      have hstep := hf s p hp
      exact hstep.trans (ih fun q hq => (hstep.connections q).mpr (hl q hq))

lemma disconnectAll {l : List ℕ} (hl : ∀ p ∈ l, p ∈ s.connections) : Quiet s (s.disconnectAll l) :=
  foldl (fun _ _ hp => disconnectFromPeer hp) hl

lemma fetchNextBatchOfItemIdsFromPeer (hp : p ∈ s.connections) :
    Quiet s (s.fetchNextBatchOfItemIdsFromPeer d p) := by
  rw [NodeImpl.fetchNextBatchOfItemIdsFromPeer]
  cases d.synopsisForPeer (s.peer p) with
  | some synopsis => exact modifyPeer p ⟨rfl, .inl rfl, subset_rfl⟩
  | none => exact disconnectFromPeer hp

lemma fetchNextBatchFromAll {l : List ℕ} (hl : ∀ p ∈ l, p ∈ s.connections) :
    Quiet s (s.fetchNextBatchFromAll d l) :=
  foldl (fun _ _ hp => fetchNextBatchOfItemIdsFromPeer hp) hl

lemma startSynchronizingWithPeer (hp : p ∈ s.connections) :
    Quiet s (s.startSynchronizingWithPeer d p) := by
  have hclear : Quiet s (s.modifyPeer p fun c =>
      { c with
        idsOfItemsToGet := []
        numberOfUnfetchedItemIds := 0
        weNeedSyncItemsFromPeer := true
        lastBlockDelegateHasSeen := .zero
        lastBlockTimeDelegateHasSeen := d.getBlockTime .zero
        inhibitFetchingSyncBlocks := false }) := modifyPeer p ⟨rfl, .inr rfl, subset_rfl⟩
  exact hclear.trans (fetchNextBatchOfItemIdsFromPeer ((hclear.connections p).mpr hp))

lemma startSynchronizingWithAll {l : List ℕ} (hl : ∀ p ∈ l, p ∈ s.connections) :
    Quiet s (s.startSynchronizingWithAll d l) :=
  foldl (fun _ _ hp => startSynchronizingWithPeer hp) hl

lemma advertiseBlock : Quiet s (s.advertiseBlock m hash) := by
  have hseen : Quiet s (((s.noteSeen m hash).pushRecent m.blockId).record [.recent m.blockId]) := by
    have hactive := modifyActive (s := s) (f := fun c =>
      if ⟨.block, hash⟩ ∈ c.inventoryPeerAdvertisedToUs then
        { c with
          lastBlockDelegateHasSeen := m.blockId
          lastBlockTimeDelegateHasSeen := m.block.timestamp }
      else c) fun q _ => by split_ifs <;> exact ⟨rfl, .inl rfl, subset_rfl⟩
    exact ⟨⟨rfl, fun _ => .rfl, hactive.syncItemsRequestedFromPeer⟩, hactive.idsOfItemsToGet,
      hactive.idsOfItemsBeingProcessed⟩
  exact hseen.trans (disconnectAll fun q hq => (hseen.connections q).mpr
    (mem_connections_of_active (List.mem_of_mem_filter hq)))

lemma processBlockDuringNormalOperation (hp : p ∈ s.connections) :
    Quiet s (s.processBlockDuringNormalOperation d p m hash) := by
  have hreject : Quiet s (s.disconnectAll (p :: s.activeConnections.filter fun q =>
      (s.peer q).idsOfItemsToGet.head? = some m.blockId)) :=
    disconnectAll (List.forall_mem_cons.mpr ⟨hp, fun q hq =>
      mem_connections_of_active (List.mem_of_mem_filter hq)⟩)
  rw [NodeImpl.processBlockDuringNormalOperation]
  split_ifs
  · exact advertiseBlock
  · cases d.handleBlock m with
    | accepted => exact (advertiseBlock (s := s.noteAccepted m)).of_same rfl rfl rfl
    | unlinkable => exact startSynchronizingWithPeer hp
    | olderThanUndoHistory => exact hreject
    | rejected => exact hreject

lemma takeProcessed : Quiet s (s.takeProcessed m) := by
  have hactive := modifyActive (s := s) (f := fun c =>
    if !s.needsUpgrade m.block.blockNum c && m.blockId ∈ c.idsOfItemsBeingProcessed then
      { c with
        lastBlockDelegateHasSeen := m.blockId
        lastBlockTimeDelegateHasSeen := m.block.timestamp
        idsOfItemsBeingProcessed := c.idsOfItemsBeingProcessed.erase m.blockId }
    else c) fun q _ => by
      split_ifs
      · exact ⟨rfl, .inl rfl, Finset.erase_subset _ _⟩
      · exact QuietPeer.refl _
  exact ⟨⟨rfl, fun _ => .rfl, hactive.syncItemsRequestedFromPeer⟩, hactive.idsOfItemsToGet,
    hactive.idsOfItemsBeingProcessed⟩

lemma acceptSyncBlock : Quiet s (s.acceptSyncBlock d m) := by
  have hmem : ∀ f : ℕ → Bool, ∀ q ∈ s.activeConnections.filter f, q ∈ s.connections :=
    fun f q hq => mem_connections_of_active (List.mem_of_mem_filter hq)
  have htaken : Quiet s (((s.noteAccepted m).countDown).takeProcessed m) :=
    takeProcessed.of_same rfl rfl rfl
  have hupgraded := htaken.trans (disconnectAll fun q hq => (htaken.connections q).mpr
    (hmem (fun q => s.needsUpgrade m.block.blockNum (s.peer q)) q hq))
  have hrest : ∀ {l l' : List ℕ} {t : NodeImpl β}, Quiet s t → (∀ q ∈ l, q ∈ s.connections) →
      (∀ q ∈ l', q ∈ s.connections) →
      Quiet s ((t.fetchNextBatchFromAll d l).startSynchronizingWithAll d l') := by
    intro l l' t ht hl hl'
    have hfetched := ht.trans (fetchNextBatchFromAll (d := d) fun q hq =>
      (ht.connections q).mpr (hl q hq))
    exact hfetched.trans (startSynchronizingWithAll fun q hq => (hfetched.connections q).mpr (hl' q hq))
  exact hrest hupgraded
    (fun q hq => hmem _ q (List.mem_of_mem_filter (List.mem_of_mem_filter hq)))
    fun q hq => hmem _ q (List.mem_of_mem_filter hq)

lemma sendSyncBlockToNodeDelegate : Quiet s (s.sendSyncBlockToNodeDelegate d m) := by
  have hreject : Quiet s (s.disconnectAll (s.activeConnections.filter (s.isProcessing m))) :=
    disconnectAll fun q hq => mem_connections_of_active (List.mem_of_mem_filter hq)
  rw [NodeImpl.sendSyncBlockToNodeDelegate]
  cases d.handleBlock m with
  | accepted => exact acceptSyncBlock
  | olderThanUndoHistory =>
      refine modifyActive fun q _ => ?_
      split_ifs <;> exact ⟨rfl, .inl rfl, subset_rfl⟩
  | unlinkable => exact hreject
  | rejected => exact hreject

lemma finishCall (i : ℕ) : Quiet s (s.finishCall d i) := by
  rw [NodeImpl.finishCall]
  cases s.handleMessageCallsInProgress[i]? with
  | none => exact refl s
  | some call =>
      by_cases hready : call.ready
      · simpa [hready] using refl s
      · simp only [hready, Bool.false_eq_true, if_false]
        exact sendSyncBlockToNodeDelegate.of_same rfl rfl rfl

lemma treatAsAccepted : Quiet s (s.treatAsAccepted d m) := by
  have herase : Quiet s (s.modifyActive fun c =>
      { c with idsOfItemsBeingProcessed := c.idsOfItemsBeingProcessed.erase m.blockId }) :=
    modifyActive fun q _ => ⟨rfl, .inl rfl, Finset.erase_subset _ _⟩
  exact herase.trans (fetchNextBatchFromAll fun q hq => (herase.connections q).mpr
    (mem_connections_of_active (List.mem_of_mem_filter (List.mem_of_mem_filter hq))))

end Quiet

end ZosCore.Net.NodeImpl
