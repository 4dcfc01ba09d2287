import ZosCore.Lib.Runs
import ZosCore.Net.Quiet

/-!
The blocks that a node has requested from its peers and not received.

The node keeps them twice: in a map of its own, and in a set for each peer. The map is what
`fetch_sync_items_loop` looks at before it requests a block, the set is what an answer is checked
against.

* `Tracked`: the map has the blocks that are outstanding at a connected peer, and each is outstanding
  at one peer only.
* `Denies`: a peer says that it does not have a block that was requested from it.
  `on_item_not_available_message` takes the block from the set alone, and from then on nobody is
  asked for it any more.
* **`syncRequests_tracked_iff`**: the map is right in all states of a run exactly if no peer ever
  does.
-/

namespace ZosCore.Net

variable {β : Type}

/-- The map of the node has the requests that are outstanding at its peers, and no two peers have the
same one. -/
structure NodeImpl.Tracked (s : NodeImpl β) : Prop where
  outstanding : ∀ id, id ∈ s.activeSyncRequests ↔
    ∃ p ∈ s.connections, id ∈ (s.peer p).syncItemsRequestedFromPeer
  disjoint : ∀ p ∈ s.connections, ∀ q ∈ s.connections, p ≠ q →
    Disjoint (s.peer p).syncItemsRequestedFromPeer (s.peer q).syncItemsRequestedFromPeer

/-- A peer does not have a block that was requested from it for the synchronization. -/
def NodeImpl.Denies (s : NodeImpl β) : Event β → Prop
  | .itemNotAvailable p item =>
      p ∈ s.connections ∧ item ∉ (s.peer p).itemsRequestedFromPeer ∧
        item.itemHash ∈ (s.peer p).syncItemsRequestedFromPeer
  | _ => False

namespace NodeImpl.Tracked

variable {s s' : NodeImpl β} {d : Delegate β} {p : ℕ} {m : BlockMessage β} {hash id : ItemHash}

/-- An outstanding request is outstanding at one peer. -/
lemma eq_of_mem (h : s.Tracked) {q : ℕ} (hp : p ∈ s.connections) (hq : q ∈ s.connections)
    (hidp : id ∈ (s.peer p).syncItemsRequestedFromPeer)
    (hidq : id ∈ (s.peer q).syncItemsRequestedFromPeer) : p = q := by
  by_contra hne
  exact Finset.disjoint_left.mp (h.disjoint p hp q hq hne) hidp hidq

/-- A request that the map has and no peer. -/
lemma not_of_lost (hactive : id ∈ s.activeSyncRequests)
    (hnone : ∀ p ∈ s.connections, id ∉ (s.peer p).syncItemsRequestedFromPeer) : ¬ s.Tracked := by
  intro h
  obtain ⟨p, hp, hid⟩ := (h.outstanding id).mp hactive
  exact hnone p hp hid

/-- Whatever makes no request and takes none back leaves the map right. -/
lemma of_same (h : s.Tracked) (hsame : SameRequests s s') : s'.Tracked where
  outstanding id := by
    rw [hsame.activeSyncRequests, h.outstanding]
    simp only [hsame.connections, hsame.syncItemsRequestedFromPeer]
  disjoint p hp q hq hne := by
    rw [hsame.syncItemsRequestedFromPeer, hsame.syncItemsRequestedFromPeer]
    exact h.disjoint p ((hsame.connections p).mp hp) q ((hsame.connections q).mp hq) hne

/-- A new connection, or one that gets active, has no requests or keeps its own. -/
lemma of_peers (h : s.Tracked) (hactive : s'.activeSyncRequests = s.activeSyncRequests)
    (hkept : ∀ q ∈ s.connections, q ∈ s'.connections ∧
      (s'.peer q).syncItemsRequestedFromPeer = (s.peer q).syncItemsRequestedFromPeer)
    (hnew : ∀ q ∈ s'.connections, q ∉ s.connections → (s'.peer q).syncItemsRequestedFromPeer = ∅) :
    s'.Tracked where
  outstanding id := by
    rw [hactive, h.outstanding]
    constructor
    · rintro ⟨q, hq, hid⟩
      exact ⟨q, (hkept q hq).1, (hkept q hq).2 ▸ hid⟩
    · rintro ⟨q, hq, hid⟩
      by_cases hold : q ∈ s.connections
      · exact ⟨q, hold, (hkept q hold).2 ▸ hid⟩
      · simp [hnew q hq hold] at hid
  disjoint p hp q hq hne := by
    by_cases hpold : p ∈ s.connections
    · by_cases hqold : q ∈ s.connections
      · rw [(hkept p hpold).2, (hkept q hqold).2]
        exact h.disjoint p hpold q hqold hne
      · simp [hnew q hq hqold]
    · simp [hnew p hp hpold]

/-! ### The fetch loop -/

/-- What the loop over one peer's items adds is requested from nobody yet. -/
lemma scheduleItems_spec (ids toRequest mine : List ItemHash) :
    ∃ new, (s.scheduleItems ids toRequest mine).2 = mine ++ new ∧
      (∀ id, id ∈ (s.scheduleItems ids toRequest mine).1 ↔ id ∈ new ∨ id ∈ toRequest) ∧
      ∀ id ∈ new, id ∉ toRequest ∧ id ∉ s.activeSyncRequests := by
  induction ids generalizing toRequest mine with
  | nil => exact ⟨[], by simp [scheduleItems]⟩
  | cons id ids ih =>
      rw [scheduleItems]
      split_ifs with hfree hfull
      · simp only [Bool.and_eq_true, Bool.not_eq_true', decide_eq_true_eq] at hfree
        exact ⟨[id], rfl, by simp, by simpa using ⟨hfree.1.2, hfree.2⟩⟩
      · simp only [Bool.and_eq_true, Bool.not_eq_true', decide_eq_true_eq] at hfree
        obtain ⟨new, hmine, hset, hnew⟩ := ih (id :: toRequest) (mine ++ [id])
        refine ⟨id :: new, by simpa using hmine, fun x => ?_, ?_⟩
        · rw [hset]
          simp only [List.mem_cons]
          tauto
        · refine List.forall_mem_cons.mpr ⟨⟨hfree.1.2, hfree.2⟩, fun x hx => ?_⟩
          exact ⟨fun h => (hnew x hx).1 (List.mem_cons_of_mem _ h), (hnew x hx).2⟩
      · exact ih toRequest mine

/-- What is to be requested: from connected peers, no item from two of them, and none that is
outstanding. -/
structure Plan (s : NodeImpl β) (toRequest : List ItemHash) (requests : List (ℕ × List ItemHash)) :
    Prop where
  connected : ∀ r ∈ requests, r.1 ∈ s.connections
  scheduled : ∀ r ∈ requests, ∀ id ∈ r.2, id ∈ toRequest
  free : ∀ r ∈ requests, ∀ id ∈ r.2, id ∉ s.activeSyncRequests
  apart : requests.Pairwise fun r r' => r.2.Disjoint r'.2

lemma scheduleRequests_plan (ps : List ℕ) (hps : ∀ p ∈ ps, p ∈ s.connections)
    (toRequest : List ItemHash) (requests : List (ℕ × List ItemHash)) (h : Plan s toRequest requests) :
    ∃ toRequest', Plan s toRequest' (s.scheduleRequests ps toRequest requests) := by
  induction ps generalizing toRequest requests with
  | nil => exact ⟨toRequest, h⟩
  | cons p ps ih =>
      obtain ⟨hp, hps⟩ := List.forall_mem_cons.mp hps
      rw [scheduleRequests]
      simp only
      split_ifs with hidle hnone
      · obtain ⟨new, -, hset, -⟩ := scheduleItems_spec (s := s) (s.peer p).idsOfItemsToGet toRequest []
        exact ih hps _ _ ⟨h.connected, fun r hr id hid => (hset id).mpr (.inr (h.scheduled r hr id hid)),
          h.free, h.apart⟩
      · obtain ⟨new, hmine, hset, hnew⟩ :=
          scheduleItems_spec (s := s) (s.peer p).idsOfItemsToGet toRequest []
        rw [List.nil_append] at hmine
        rw [hmine]
        refine ih hps _ _ ⟨?_, ?_, ?_, ?_⟩
        · simpa [or_imp, forall_and] using ⟨fun a l => h.connected (a, l), hp⟩
        · intro r hr id hid
          rcases List.mem_append.mp hr with hr | hr
          · exact (hset id).mpr (.inr (h.scheduled r hr id hid))
          · obtain rfl := List.mem_singleton.mp hr
            exact (hset id).mpr (.inl hid)
        · intro r hr id hid
          rcases List.mem_append.mp hr with hr | hr
          · exact h.free r hr id hid
          · obtain rfl := List.mem_singleton.mp hr
            exact (hnew id hid).2
        · refine List.pairwise_append.mpr ⟨h.apart, List.pairwise_singleton _ _, fun r hr r' hr' => ?_⟩
          obtain rfl := List.mem_singleton.mp hr'
          exact fun id hid hid' => (hnew id hid').1 (h.scheduled r hr id hid)
      · exact ih hps _ _ h

/-- One request of the fetch loop. -/
lemma requestSyncItemsFromPeer (h : s.Tracked) {r : ℕ × List ItemHash} (hr : r.1 ∈ s.connections)
    (hfree : ∀ id ∈ r.2, id ∉ s.activeSyncRequests) : (s.requestSyncItemsFromPeer r).Tracked := by
  have hpeer : ∀ q, ((s.requestSyncItemsFromPeer r).peer q).syncItemsRequestedFromPeer =
      if q = r.1 then (s.peer q).syncItemsRequestedFromPeer ∪ r.2.toFinset
      else (s.peer q).syncItemsRequestedFromPeer := by
    intro q
    by_cases hq : q = r.1
    · subst hq
      simp [NodeImpl.requestSyncItemsFromPeer, modifyPeer]
    · simp [NodeImpl.requestSyncItemsFromPeer, modifyPeer, hq]
  -- an item that is requested now was outstanding at no peer
  have hnone : ∀ q ∈ s.connections, ∀ id ∈ r.2, id ∉ (s.peer q).syncItemsRequestedFromPeer :=
    fun q hq id hid hmem => hfree id hid ((h.outstanding id).mpr ⟨q, hq, hmem⟩)
  refine ⟨fun id => ?_, fun p hp q hq hne => ?_⟩
  · have hactive : id ∈ (s.requestSyncItemsFromPeer r).activeSyncRequests ↔
        id ∈ s.activeSyncRequests ∨ id ∈ r.2 := by
      simp [NodeImpl.requestSyncItemsFromPeer, modifyPeer]
    rw [hactive, h.outstanding]
    constructor
    · rintro (⟨q, hq, hid⟩ | hid)
      · refine ⟨q, hq, ?_⟩
        rw [hpeer]
        split_ifs
        · exact Finset.mem_union_left _ hid
        · exact hid
      · exact ⟨r.1, hr, by rw [hpeer, if_pos rfl]; exact Finset.mem_union_right _ (by simpa using hid)⟩
    · rintro ⟨q, hq, hid⟩
      rw [hpeer] at hid
      split_ifs at hid
      · rcases Finset.mem_union.mp hid with hid | hid
        · exact .inl ⟨q, hq, hid⟩
        · exact .inr (by simpa using hid)
      · exact .inl ⟨q, hq, hid⟩
  · have hold := h.disjoint p hp q hq hne
    rw [hpeer, hpeer]
    split_ifs with hpr hqr hqr
    · exact absurd (hpr.trans hqr.symm) hne
    · refine Finset.disjoint_union_left.mpr ⟨hold, Finset.disjoint_left.mpr fun id hid => ?_⟩
      exact hnone q hq id (by simpa using hid)
    · refine Finset.disjoint_union_right.mpr ⟨hold, Finset.disjoint_right.mpr fun id hid => ?_⟩
      exact hnone p hp id (by simpa using hid)
    · exact hold

/-- The requests of a plan, one after the other. -/
lemma foldl_requestSyncItemsFromPeer {requests : List (ℕ × List ItemHash)} (h : s.Tracked)
    (hconnected : ∀ r ∈ requests, r.1 ∈ s.connections)
    (hfree : ∀ r ∈ requests, ∀ id ∈ r.2, id ∉ s.activeSyncRequests)
    (hapart : requests.Pairwise fun r r' => r.2.Disjoint r'.2) :
    (requests.foldl NodeImpl.requestSyncItemsFromPeer s).Tracked := by
  induction requests generalizing s with
  | nil => exact h
  | cons r requests ih =>
      obtain ⟨hr, hconnected⟩ := List.forall_mem_cons.mp hconnected
      obtain ⟨hrfree, hfree⟩ := List.forall_mem_cons.mp hfree
      obtain ⟨hrapart, hapart⟩ := List.pairwise_cons.mp hapart
      refine ih (h.requestSyncItemsFromPeer hr hrfree) hconnected (fun r' hr' id hid => ?_) hapart
      have hold := hfree r' hr' id hid
      have hnew : id ∉ r.2 := fun h => hrapart r' hr' h hid
      simpa [NodeImpl.requestSyncItemsFromPeer, modifyPeer] using ⟨hold, hnew⟩

lemma fetchSyncItems (h : s.Tracked) : s.fetchSyncItems.Tracked := by
  rw [NodeImpl.fetchSyncItems]
  split_ifs
  · exact h
  · obtain ⟨_, hplan⟩ := scheduleRequests_plan s.activeConnections
      (fun p hp => mem_connections_of_active hp) [] [] ⟨by simp, by simp, by simp, .nil⟩
    exact h.foldl_requestSyncItemsFromPeer hplan.connected hplan.free hplan.apart

/-! ### Answers -/

/-- A request that is answered is taken from both. -/
lemma eraseRequest (h : s.Tracked) (hp : p ∈ s.connections)
    (hid : id ∈ (s.peer p).syncItemsRequestedFromPeer)
    (hactive : s'.activeSyncRequests = s.activeSyncRequests.erase id)
    (hconnections : ∀ q, q ∈ s'.connections ↔ q ∈ s.connections)
    (hpeer : ∀ q, (s'.peer q).syncItemsRequestedFromPeer =
      if q = p then (s.peer p).syncItemsRequestedFromPeer.erase id
      else (s.peer q).syncItemsRequestedFromPeer) : s'.Tracked := by
  have hsub : ∀ q, (s'.peer q).syncItemsRequestedFromPeer ⊆ (s.peer q).syncItemsRequestedFromPeer := by
    intro q
    rw [hpeer]
    split_ifs with hq
    · exact hq ▸ Finset.erase_subset _ _
    · exact subset_rfl
  refine ⟨fun x => ?_, fun a ha b hb hne => ?_⟩
  · rw [hactive, Finset.mem_erase, h.outstanding]
    constructor
    · rintro ⟨hx, q, hq, hmem⟩
      refine ⟨q, (hconnections q).mpr hq, ?_⟩
      rw [hpeer]
      split_ifs with heq
      · exact Finset.mem_erase.mpr ⟨hx, heq ▸ hmem⟩
      · exact hmem
    · rintro ⟨q, hq, hmem⟩
      have hq := (hconnections q).mp hq
      refine ⟨?_, q, hq, hsub q hmem⟩
      rintro rfl
      -- only `p` had the item, and it has it no more
      obtain rfl := h.eq_of_mem hq hp (hsub q hmem) hid
      rw [hpeer, if_pos rfl] at hmem
      exact absurd rfl (Finset.ne_of_mem_erase hmem)
  · exact (h.disjoint a ((hconnections a).mp ha) b ((hconnections b).mp hb) hne).mono (hsub a) (hsub b)

lemma processBlockMessage (h : s.Tracked) (hp : p ∈ s.connections) :
    (s.processBlockMessage d p m hash).Tracked := by
  rw [NodeImpl.processBlockMessage]
  simp only
  split_ifs with hregular hsync hmore
  · have hsame : SameRequests s (s.modifyPeer p fun c =>
        { c with itemsRequestedFromPeer := c.itemsRequestedFromPeer.erase ⟨.block, hash⟩ }) :=
      .modifyPeer p fun _ => rfl
    exact (h.of_same hsame).of_same
      (Quiet.processBlockDuringNormalOperation ((hsame.connections p).mpr hp)).toSameRequests
  · refine Tracked.of_same ?_ (Quiet.fetchNextBatchOfItemIdsFromPeer ?_).toSameRequests
    · exact h.eraseRequest hp hsync rfl (fun _ => .rfl) fun q => by
        by_cases hq : q = p
        · subst hq
          simp [processBlockDuringSync, modifyPeer]
        · simp [processBlockDuringSync, modifyPeer, hq]
    · exact hp
  · exact h.eraseRequest hp hsync rfl (fun _ => .rfl) fun q => by
      by_cases hq : q = p
      · subst hq
        simp [processBlockDuringSync, modifyPeer]
      · simp [processBlockDuringSync, modifyPeer, hq]
  · exact h.of_same (Quiet.disconnectFromPeer hp).toSameRequests

lemma onConnectionClosed (h : s.Tracked) (hp : p ∈ s.connections) :
    (s.onConnectionClosed p).Tracked := by
  have hconnections : ∀ q, q ∈ (s.onConnectionClosed p).connections ↔ q ∈ s.connections ∧ q ≠ p := by
    intro q
    simp only [NodeImpl.onConnectionClosed, connections, List.mem_append, List.mem_filter,
      decide_eq_true_eq]
    tauto
  refine ⟨fun id => ?_, fun a ha b hb hne => ?_⟩
  · have hactive : id ∈ (s.onConnectionClosed p).activeSyncRequests ↔
        id ∈ s.activeSyncRequests ∧ id ∉ (s.peer p).syncItemsRequestedFromPeer := Finset.mem_sdiff
    rw [hactive, h.outstanding]
    constructor
    · rintro ⟨⟨q, hq, hid⟩, hnot⟩
      refine ⟨q, (hconnections q).mpr ⟨hq, ?_⟩, hid⟩
      rintro rfl
      exact hnot hid
    · rintro ⟨q, hq, hid⟩
      obtain ⟨hq, hne⟩ := (hconnections q).mp hq
      exact ⟨⟨q, hq, hid⟩, fun hidp => hne (h.eq_of_mem hq hp hid hidp)⟩
  · exact h.disjoint a ((hconnections a).mp ha).1 b ((hconnections b).mp hb).1 hne

/-- **A peer that does not have an item.** The item leaves the map right exactly if it was not
requested for the synchronization. -/
lemma onItemNotAvailableMessage_iff (h : s.Tracked) (hp : p ∈ s.connections) {item : ItemId} :
    (s.onItemNotAvailableMessage p item).Tracked ↔
      ¬ (item ∉ (s.peer p).itemsRequestedFromPeer ∧
        item.itemHash ∈ (s.peer p).syncItemsRequestedFromPeer) := by
  rw [NodeImpl.onItemNotAvailableMessage]
  simp only
  by_cases hregular : item ∈ (s.peer p).itemsRequestedFromPeer
  · rw [if_pos hregular]
    exact iff_of_true (h.of_same (.modifyPeer p fun _ => rfl)) (by simp [hregular])
  · by_cases hsync : item.itemHash ∈ (s.peer p).syncItemsRequestedFromPeer
    · rw [if_neg hregular, if_pos hsync]
      -- the item is in the map still, but in no peer's set
      have hstays : ∀ s' : NodeImpl β, s'.activeSyncRequests = s.activeSyncRequests →
          (∀ q, q ∈ s'.connections ↔ q ∈ s.connections) →
          (∀ q, (s'.peer q).syncItemsRequestedFromPeer =
            if q = p then (s.peer p).syncItemsRequestedFromPeer.erase item.itemHash
            else (s.peer q).syncItemsRequestedFromPeer) → ¬ s'.Tracked := by
        intro s' hactive hconnections hpeer
        refine not_of_lost (hactive ▸ (h.outstanding _).mpr ⟨p, hp, hsync⟩) fun q hq hid => ?_
        have hq := (hconnections q).mp hq
        rw [hpeer] at hid
        split_ifs at hid with heq
        · exact absurd rfl (Finset.ne_of_mem_erase hid)
        · exact heq (h.eq_of_mem hq hp hid hsync)
      refine iff_of_false ?_ (by simp [hregular, hsync])
      split_ifs
      · refine hstays _ rfl (fun _ => .rfl) fun q => ?_
        by_cases hq : q = p
        · subst hq
          simp [modifyPeer]
        · simp [modifyPeer, hq]
      · refine hstays _ rfl (fun q => ?_) fun q => ?_
        · rw [mem_connections_disconnectFromPeer]
          exact or_iff_right_of_imp fun h => h ▸ hp
        · by_cases hq : q = p
          · subst hq
            simp [modifyPeer, disconnectFromPeer]
          · simp [modifyPeer, disconnectFromPeer, hq]
    · rw [if_neg hregular, if_neg hsync]
      exact iff_of_true h (by simp [hsync])

end NodeImpl.Tracked

/-! ### Handlers that request nothing -/

namespace NodeImpl.SameRequests

variable {s : NodeImpl β} {d : Delegate β} {p : ℕ}

lemma mergeItemIds (isFirst : Bool) (ids : List ItemHash) (c : PeerConnection) :
    (NodeImpl.mergeItemIds d isFirst ids c).syncItemsRequestedFromPeer =
      c.syncItemsRequestedFromPeer := by
  cases ids with
  | nil => rfl
  | cons first rest =>
      rw [NodeImpl.mergeItemIds]
      split_ifs
      · rfl
      · rcases dropSeen d (first :: rest) with ⟨_ | last, remaining⟩ <;> rfl
      · cases popBackUntil first c.idsOfItemsToGet <;> rfl

lemma continueFetching (hp : p ∈ s.connections) (m : BlockchainItemIds) :
    SameRequests s (s.continueFetching d p m) := by
  have hfetch : Quiet s (s.countUnfetchedItems.fetchNextBatchOfItemIdsFromPeer d p) :=
    (Quiet.fetchNextBatchOfItemIdsFromPeer (s := s.countUnfetchedItems) hp).of_same rfl rfl rfl
  rw [NodeImpl.continueFetching]
  split_ifs
  · exact (Quiet.disconnectFromPeer hp).toSameRequests
  · exact ⟨rfl, fun _ => .rfl, fun _ => rfl⟩
  · exact hfetch.toSameRequests

lemma acceptItemIds (hp : p ∈ s.connections) (m : BlockchainItemIds) :
    SameRequests s (s.acceptItemIds d p m) := by
  have hreset : SameRequests s (s.resetRequest p) := modifyPeer p fun _ => rfl
  rw [NodeImpl.acceptItemIds]
  refine hreset.trans ?_
  split_ifs
  · have hdone := modifyPeer (s := s.resetRequest p) p
      (f := fun c => { c with weNeedSyncItemsFromPeer := false }) fun _ => rfl
    exact ⟨rfl, fun _ => .rfl, hdone.syncItemsRequestedFromPeer⟩
  · have hmerge : SameRequests (s.resetRequest p) ((s.resetRequest p).mergeReply d p m) := by
      rw [NodeImpl.mergeReply]
      exact modifyPeer p fun c => by simp only [mergeItemIds]
    have hp' := (hmerge.connections p).mpr ((hreset.connections p).mpr hp)
    exact hmerge.trans (continueFetching hp' m)

lemma onBlockchainItemIdsInventoryMessage (hp : p ∈ s.connections) (m : BlockchainItemIds) :
    SameRequests s (s.onBlockchainItemIdsInventoryMessage d p m) := by
  rw [NodeImpl.onBlockchainItemIdsInventoryMessage]
  cases (s.peer p).itemIdsRequestedFromPeer with
  | none => exact .refl s
  | some synopsis =>
      simp only
      split_ifs
      · exact acceptItemIds hp m
      · exact (Quiet.disconnectFromPeer hp).toSameRequests

/-- A round of the search in the backlog. -/
lemma processNext : SameRequests s (s.moveNewItems.processNext d).2 := by
  have hmove : SameRequests s s.moveNewItems := ⟨rfl, fun _ => .rfl, fun _ => rfl⟩
  refine hmove.trans ?_
  have htake : ∀ m : BlockMessage β, SameRequests s.moveNewItems (s.moveNewItems.takeDue m.blockId) :=
    fun m => modifyActive fun c => by split_ifs <;> rfl
  rw [NodeImpl.processNext]
  cases s.moveNewItems.receivedSyncItems.find? s.moveNewItems.isDue with
  | none => exact .refl _
  | some m =>
      simp only
      split_ifs
      · exact (htake m).trans Quiet.treatAsAccepted.toSameRequests
      · exact ⟨rfl, fun _ => .rfl, (htake m).syncItemsRequestedFromPeer⟩

lemma processBacklogLoop {s' : NodeImpl β} (fuel : ℕ) (h : s.processBacklogLoop d fuel = some s') :
    SameRequests s s' := by
  induction fuel generalizing s with
  | zero => simp [NodeImpl.processBacklogLoop] at h
  | succ fuel ih =>
      have hround := processNext (s := s) (d := d)
      simp only [NodeImpl.processBacklogLoop] at h
      split_ifs at h with hbusy hsuspend hagain
      · obtain rfl := Option.some.inj h
        exact ⟨hround.activeSyncRequests, hround.connections, hround.syncItemsRequestedFromPeer⟩
      · exact Option.some.inj h ▸ hround
      · exact hround.trans (ih h)
      · exact Option.some.inj h ▸ hround

lemma processBacklogOfSyncBlocks {s' : NodeImpl β} {fuel : ℕ}
    (h : s.processBacklogOfSyncBlocks d fuel = some s') : SameRequests s s' := by
  rw [NodeImpl.processBacklogOfSyncBlocks] at h
  split_ifs at h
  · obtain rfl := Option.some.inj h
    exact ⟨rfl, fun _ => .rfl, fun _ => rfl⟩
  · have hloop := processBacklogLoop fuel h
    exact ⟨hloop.activeSyncRequests, hloop.connections, hloop.syncItemsRequestedFromPeer⟩

end NodeImpl.SameRequests

/-! ### Runs -/

namespace NodeImpl

/-- **One event.** It leaves the map right exactly if it is not a peer that denies a request. -/
lemma tracked_handle_iff {s : NodeImpl β} (h : s.Tracked) (e : Event β) :
    (s.handle e).Tracked ↔ ¬ s.Denies e := by
  -- an event of a peer, if the peer is connected
  have hpeer : ∀ (p : ℕ) (f : NodeImpl β → NodeImpl β), (p ∈ s.connections → (f s).Tracked) →
      (s.fromPeer p f).Tracked := by
    intro p f hf
    rw [fromPeer]
    split_ifs with hp
    · exact hf hp
    · exact h
  have hmodify : ∀ (p : ℕ) (f : PeerConnection → PeerConnection),
      (∀ c, (f c).syncItemsRequestedFromPeer = c.syncItemsRequestedFromPeer) →
      (s.fromPeer p (modifyPeer p f)).Tracked := fun p f hf =>
    hpeer p _ fun _ => h.of_same (.modifyPeer p hf)
  cases e with
  | itemNotAvailable p item =>
      by_cases hp : p ∈ s.connections
      · simpa [handle, fromPeer, hp, Denies] using h.onItemNotAvailableMessage_iff hp
      · simpa [handle, fromPeer, hp, Denies] using h
  | connect p =>
      refine iff_of_true ?_ id
      rw [handle]
      split_ifs with hp
      · exact h
      · have hmem : ∀ q, q ∈ ({ s with
            inactiveConnections := s.inactiveConnections.insert p
            peer := Function.update s.peer p {} } : NodeImpl β).connections ↔
              q = p ∨ q ∈ s.connections := by
          intro q
          simp only [connections, List.mem_append, List.mem_insert_iff]
          tauto
        refine h.of_peers rfl (fun q hq => ⟨(hmem q).mpr (.inr hq), ?_⟩) fun q hq hnew => ?_
        · have hne : q ≠ p := fun h => hp (h ▸ hq)
          simp [hne]
        · obtain rfl := ((hmem q).mp hq).resolve_right hnew
          simp
  | activate d p =>
      refine iff_of_true ?_ id
      rw [handle]
      split_ifs with hp
      · have hmem : ∀ q, q ∈ ({ s with
            activeConnections := s.activeConnections.insert p
            inactiveConnections := s.inactiveConnections.filter (· ≠ p) } : NodeImpl β).connections ↔
              q ∈ s.connections := by
          intro q
          by_cases hq : q = p
          · subst hq
            simp [connections, hp]
          · simp [connections, hq]
        refine Tracked.of_same ?_ (Quiet.startSynchronizingWithPeer ?_).toSameRequests
        · exact h.of_peers rfl (fun q hq => ⟨(hmem q).mpr hq, rfl⟩)
            fun q hq hnew => absurd ((hmem q).mp hq) hnew
        · exact (hmem p).mpr (List.mem_append_right _ hp)
      · exact h
  | reorder l =>
      refine iff_of_true ?_ id
      rw [handle]
      split_ifs with hl
      · refine h.of_same ⟨rfl, fun q => ?_, fun _ => rfl⟩
        simp only [connections, List.mem_append, hl.mem_iff]
      · exact h
  | connectionClosed p => exact iff_of_true (hpeer p _ h.onConnectionClosed) id
  | disconnect p =>
      exact iff_of_true (hpeer p _ fun hp => h.of_same (Quiet.disconnectFromPeer hp).toSameRequests) id
  | startSynchronizing d p =>
      exact iff_of_true (hpeer p _ fun hp =>
        h.of_same (Quiet.startSynchronizingWithPeer hp).toSameRequests) id
  | peerNeedsSyncItems p needs => exact iff_of_true (hmodify p _ fun _ => rfl) id
  | blockSent d p id => exact iff_of_true (hmodify p _ fun _ => rfl) fun h => h
  | advertised p item => exact iff_of_true (hmodify p _ fun _ => rfl) id
  | inventoryExpired p item => exact iff_of_true (hmodify p _ fun _ => rfl) id
  | itemsRequested p items =>
      exact iff_of_true (hmodify p _ fun c => by split_ifs <;> rfl) id
  | fetchSyncItems => exact iff_of_true h.fetchSyncItems id
  | blockchainItemIds d p m =>
      exact iff_of_true (hpeer p _ fun hp =>
        h.of_same (SameRequests.onBlockchainItemIdsInventoryMessage hp m)) id
  | block d p m hash => exact iff_of_true (hpeer p _ h.processBlockMessage) id
  | processBacklog d =>
      refine iff_of_true ?_ id
      rw [handle]
      cases hrun : s.processBacklogOfSyncBlocks d s.backlogFuel with
      | none => exact h
      | some s' => exact h.of_same (SameRequests.processBacklogOfSyncBlocks hrun)
  | callReturns d i => exact iff_of_true (h.of_same (Quiet.finishCall i).toSameRequests) id
  | syncFrom id => exact iff_of_true (h.of_same ⟨rfl, fun _ => .rfl, fun _ => rfl⟩) fun h => h
  | broadcast m => exact iff_of_true (h.of_same ⟨rfl, fun _ => .rfl, fun _ => rfl⟩) id

/-- **The requests are tracked** in all states of a run exactly if no peer ever denies a block that was
requested from it for the synchronization. -/
theorem syncRequests_tracked_iff {s : NodeImpl β} (h : s.connections = [])
    (hactive : s.activeSyncRequests = ∅) (es : List (Event β)) :
    Runs.Always handle Tracked s es ↔ Runs.Each handle (fun s e => ¬ s.Denies e) s es := by
  have hbegin : s.Tracked := by constructor <;> simp [h, hactive]
  exact Runs.always_iff (W := fun _ => True) (fun _ _ _ => trivial)
    (fun s e _ hs => tracked_handle_iff hs e) trivial hbegin

/-! ### A run -/

/-- The delegate of a node that has no block yet. -/
def noBlocks : Delegate Unit where
  hasItem _ := false
  getBlockTime _ := 0
  handleBlock _ := .accepted
  synopsisForPeer _ := some []
  now := 0

/-- A peer announces two blocks, and both are requested from it. -/
def requestTwo : List (Event Unit) :=
  [.connect 0, .activate noBlocks 0, .blockchainItemIds noBlocks 0 ⟨0, [⟨1, 1⟩, ⟨2, 2⟩]⟩,
    .fetchSyncItems]

/-- Two blocks are requested, and the requests are tracked. -/
theorem syncRequests_tracked_requestTwo :
    (requestTwo.foldl handle {}).activeSyncRequests = {⟨1, 1⟩, ⟨2, 2⟩} ∧
      Runs.Always handle Tracked ({} : NodeImpl Unit) requestTwo :=
  ⟨by decide +kernel, (syncRequests_tracked_iff rfl rfl requestTwo).mpr ⟨id, id, id, id, trivial⟩⟩

/-- The peer does not have the first block. -/
def denyOne : List (Event Unit) := requestTwo ++ [.itemNotAvailable 0 ⟨.block, ⟨1, 1⟩⟩]

/-- The block is taken from the peer's set and stays in the map, so that it is never requested
again. -/
theorem not_syncRequests_tracked :
    ¬ ∀ es : List (Event Unit), Runs.Always handle Tracked ({} : NodeImpl Unit) es := by
  intro h
  have hlast := Runs.always_iff_foldl.mp (h denyOne) denyOne List.prefix_rfl
  have hactive : ⟨1, 1⟩ ∈ (denyOne.foldl handle {}).activeSyncRequests := by decide +kernel
  have hnone : ∀ p ∈ (denyOne.foldl handle {}).connections,
      ⟨1, 1⟩ ∉ ((denyOne.foldl handle {}).peer p).syncItemsRequestedFromPeer := by decide +kernel
  exact Tracked.not_of_lost hactive hnone hlast

end NodeImpl

end ZosCore.Net
