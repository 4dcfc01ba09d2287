import ZosCore.Net.ItemsToGet

/-!
The id that comes beside a block.

A `block_message` carries a block and an id, and nothing compares the two: requests are answered, and
blocks are counted as accepted, under the id that the peer has sent.

* `Named`: an id that is noted as accepted or seen is that of a block which the delegate has accepted,
  and a block that has answered a request came with its own id.
* `NamesBlock`: a message that leaves it so.
* **`blockIds_named_iff`**: this holds in all states of a run exactly if all its messages do.
-/

namespace ZosCore.Net.NodeImpl

variable {β : Type}

/-- The blocks that have answered a request, until the delegate is done with them. -/
def backlog (s : NodeImpl β) : List (BlockMessage β) :=
  s.newReceivedSyncItems ++ s.receivedSyncItems ++ s.handleMessageCallsInProgress.map (·.message)

/-- `handle_block` has accepted a block with this id. -/
def HasAccepted (s : NodeImpl β) (id : ItemHash) : Prop :=
  ∃ b : SignedBlock β, .accepted b ∈ s.deeds ∧ b.id = id

/-- The ids that have been noted are those of blocks that were accepted, and the blocks that have
answered a request came with their own ids. -/
structure Named (s : NodeImpl β) : Prop where
  recent : ∀ id, .recent id ∈ s.deeds → s.HasAccepted id
  seen : ∀ id, .seen id ∈ s.deeds → s.HasAccepted id
  backlog : ∀ m ∈ s.backlog, m.blockId = m.block.id

/-- The message of a peer comes with the id of its block: always, if it answers a request of the
synchronization. Otherwise it must do so if the delegate accepts the block, unless a block with that id
has been accepted before, as it must have been if the id counts as accepted. -/
def NamesBlock (s : NodeImpl β) : Event β → Prop
  | .block d p m hash => p ∈ s.connections →
      if ⟨.block, hash⟩ ∈ (s.peer p).itemsRequestedFromPeer then
        if m.blockId ∈ s.mostRecentBlocksAccepted then s.HasAccepted m.blockId
        else d.handleBlock m = .accepted → m.blockId = m.block.id ∨ s.HasAccepted m.blockId
      else m.blockId ∈ (s.peer p).syncItemsRequestedFromPeer → m.blockId = m.block.id
  | _ => True

/-- A message that comes with the id of its block, if that does not count as accepted already. -/
lemma namesBlock_of_own {s : NodeImpl β} {d : Delegate β} {p : ℕ} {m : BlockMessage β}
    {hash : ItemHash} (hown : m.blockId = m.block.id) (hnew : m.blockId ∉ s.mostRecentBlocksAccepted) :
    s.NamesBlock (.block d p m hash) := by
  intro hp
  rw [if_neg hnew]
  split_ifs
  · exact fun _ => .inl hown
  · exact fun _ => hown

/-! ### Handlers that note nothing -/

/-- Nothing has been noted, and no block has come in. -/
structure SameDeeds (s s' : NodeImpl β) : Prop where
  deeds : s'.deeds = s.deeds
  backlog : s'.backlog ⊆ s.backlog

namespace SameDeeds

variable {s s' s'' : NodeImpl β} {d : Delegate β} {p : ℕ}

lemma refl (s : NodeImpl β) : SameDeeds s s := ⟨rfl, List.Subset.refl _⟩

lemma trans (h : SameDeeds s s') (h' : SameDeeds s' s'') : SameDeeds s s'' :=
  ⟨h'.deeds.trans h.deeds, List.Subset.trans h'.backlog h.backlog⟩

/-- The queues are those that they were. -/
lemma of_eq (hdeeds : s'.deeds = s.deeds) (hbacklog : s'.backlog = s.backlog) : SameDeeds s s' :=
  ⟨hdeeds, hbacklog ▸ List.Subset.refl _⟩

/-- What is not mentioned changes with the rest. -/
lemma of_same (h : SameDeeds s' s'') (hdeeds : s'.deeds = s.deeds)
    (hbacklog : s'.backlog = s.backlog) : SameDeeds s s'' :=
  (of_eq hdeeds hbacklog).trans h

lemma disconnectFromPeer (s : NodeImpl β) (p : ℕ) : SameDeeds s (s.disconnectFromPeer p) :=
  .of_eq rfl rfl

lemma foldl {f : NodeImpl β → ℕ → NodeImpl β} (hf : ∀ s p, SameDeeds s (f s p)) (l : List ℕ) :
    SameDeeds s (l.foldl f s) := by
  induction l generalizing s with
  | nil => exact refl s
  | cons p l ih => exact (hf s p).trans ih

lemma fetchNextBatchOfItemIdsFromPeer (s : NodeImpl β) (p : ℕ) :
    SameDeeds s (s.fetchNextBatchOfItemIdsFromPeer d p) := by
  rw [NodeImpl.fetchNextBatchOfItemIdsFromPeer]
  cases d.synopsisForPeer (s.peer p) <;> exact .of_eq rfl rfl

lemma startSynchronizingWithPeer (s : NodeImpl β) (p : ℕ) :
    SameDeeds s (s.startSynchronizingWithPeer d p) :=
  (fetchNextBatchOfItemIdsFromPeer _ p).of_same rfl rfl

lemma disconnectAll (l : List ℕ) : SameDeeds s (s.disconnectAll l) :=
  foldl disconnectFromPeer l

lemma fetchNextBatchFromAll (l : List ℕ) : SameDeeds s (s.fetchNextBatchFromAll d l) :=
  foldl fetchNextBatchOfItemIdsFromPeer l

lemma startSynchronizingWithAll (l : List ℕ) : SameDeeds s (s.startSynchronizingWithAll d l) :=
  foldl startSynchronizingWithPeer l

lemma fetchSyncItems : SameDeeds s s.fetchSyncItems := by
  have hfold : ∀ (l : List (ℕ × List ItemHash)) (s : NodeImpl β),
      SameDeeds s (l.foldl requestSyncItemsFromPeer s) := by
    intro l
    induction l with
    | nil => exact refl
    | cons r l ih => exact fun s => (ih (s.requestSyncItemsFromPeer r)).of_same rfl rfl
  rw [NodeImpl.fetchSyncItems]
  split_ifs
  · exact refl s
  · exact hfold _ s

lemma onBlockchainItemIdsInventoryMessage (m : BlockchainItemIds) :
    SameDeeds s (s.onBlockchainItemIdsInventoryMessage d p m) := by
  rw [NodeImpl.onBlockchainItemIdsInventoryMessage]
  cases (s.peer p).itemIdsRequestedFromPeer with
  | none => exact refl s
  | some synopsis =>
      simp only [acceptItemIds, continueFetching]
      split_ifs
      · exact .of_eq rfl rfl
      · exact .of_eq rfl rfl
      · exact .of_eq rfl rfl
      · exact (fetchNextBatchOfItemIdsFromPeer _ p).of_same rfl rfl
      · exact .of_eq rfl rfl

lemma onItemNotAvailableMessage (item : ItemId) :
    SameDeeds s (s.onItemNotAvailableMessage p item) := by
  simp only [NodeImpl.onItemNotAvailableMessage]
  split_ifs <;> exact .of_eq rfl rfl

/-! #### The backlog -/

lemma processNext : SameDeeds s (s.moveNewItems.processNext d).2 := by
  have hmove : SameDeeds s s.moveNewItems := ⟨rfl, fun m hm => by
    simpa [NodeImpl.backlog, moveNewItems] using hm⟩
  refine hmove.trans ?_
  rw [NodeImpl.processNext]
  cases hfind : s.moveNewItems.receivedSyncItems.find? s.moveNewItems.isDue with
  | none => exact refl _
  | some m =>
      simp only
      split_ifs
      · exact (fetchNextBatchFromAll _).of_same rfl rfl
      · have hm := List.mem_of_find?_eq_some hfind
        refine ⟨rfl, fun x hx => ?_⟩
        simp only [NodeImpl.backlog, List.mem_append, List.map_append, List.map_cons, List.map_nil,
          List.mem_singleton] at hx ⊢
        rcases hx with (hx | hx) | hx | rfl
        · exact .inl (.inl hx)
        · exact .inl (.inr (List.mem_of_mem_eraseP hx))
        · exact .inr hx
        · exact .inl (.inr hm)

lemma processBacklogLoop (fuel : ℕ) (h : s.processBacklogLoop d fuel = some s') :
    SameDeeds s s' := by
  induction fuel generalizing s with
  | zero => simp [NodeImpl.processBacklogLoop] at h
  | succ fuel ih =>
      have hround := processNext (s := s) (d := d)
      simp only [NodeImpl.processBacklogLoop] at h
      split_ifs at h with hbusy hsuspend hagain
      · exact Option.some.inj h ▸ hround.trans (.of_eq rfl rfl)
      · exact Option.some.inj h ▸ hround
      · exact hround.trans (ih h)
      · exact Option.some.inj h ▸ hround

lemma processBacklogOfSyncBlocks {fuel : ℕ} (h : s.processBacklogOfSyncBlocks d fuel = some s') :
    SameDeeds s s' := by
  have hcollect : SameDeeds s s.collectCalls := by
    refine ⟨rfl, fun m hm => ?_⟩
    simp only [NodeImpl.backlog, collectCalls, List.mem_append, List.mem_map] at hm ⊢
    rcases hm with hm | ⟨call, hcall, rfl⟩
    · exact .inl hm
    · exact .inr ⟨call, List.mem_of_mem_filter hcall, rfl⟩
  rw [NodeImpl.processBacklogOfSyncBlocks] at h
  split_ifs at h
  · exact Option.some.inj h ▸ hcollect
  · exact hcollect.trans ((processBacklogLoop fuel h).of_same rfl rfl)

end SameDeeds

variable {s s' s'' : NodeImpl β} {d : Delegate β} {p : ℕ} {m : BlockMessage β} {hash : ItemHash}

lemma Named.of_same (h : s.Named) (hsame : SameDeeds s s') : s'.Named where
  recent id hid := by
    rw [HasAccepted, hsame.deeds]
    exact h.recent id (hsame.deeds ▸ hid)
  seen id hid := by
    rw [HasAccepted, hsame.deeds]
    exact h.seen id (hsame.deeds ▸ hid)
  backlog m hm := h.backlog m (hsame.backlog hm)

/-! ### Handlers that note an id -/

/-- The id of a message has been noted; `accepted` says whether its block was accepted just then. -/
structure Notes (accepted : Prop) (m : BlockMessage β) (s s' : NodeImpl β) : Prop where
  new : ∀ x ∈ s'.deeds, x ∈ s.deeds ∨ x = .recent m.blockId ∨ x = .seen m.blockId ∨
    accepted ∧ x = .accepted m.block
  kept : s.deeds ⊆ s'.deeds
  recent : .recent m.blockId ∈ s'.deeds
  block : accepted → .accepted m.block ∈ s'.deeds
  backlog : s'.backlog ⊆ s.backlog

namespace Notes

variable {accepted : Prop}

lemma trans (h : Notes accepted m s s') (h' : SameDeeds s' s'') : Notes accepted m s s'' where
  new x hx := h.new x (h'.deeds ▸ hx)
  kept _ hx := h'.deeds ▸ h.kept hx
  recent := h'.deeds ▸ h.recent
  block hacc := h'.deeds ▸ h.block hacc
  backlog := List.Subset.trans h'.backlog h.backlog

lemma hasAccepted_iff (h : Notes accepted m s s') (id : ItemHash) :
    s'.HasAccepted id ↔ accepted ∧ m.block.id = id ∨ s.HasAccepted id := by
  constructor
  · rintro ⟨b, hb, hid⟩
    rcases h.new _ hb with hb | hb | hb | ⟨hacc, hb⟩
    · exact .inr ⟨b, hb, hid⟩
    · cases hb
    · cases hb
    · obtain rfl := Deed.accepted.inj hb
      exact .inl ⟨hacc, hid⟩
  · rintro (⟨hacc, hid⟩ | ⟨b, hb, hid⟩)
    · exact ⟨m.block, h.block hacc, hid⟩
    · exact ⟨b, h.kept hb, hid⟩

/-- The ids are named after it exactly if this one is. -/
lemma named_iff (h : Notes accepted m s s') (hs : s.Named) :
    s'.Named ↔ accepted ∧ m.block.id = m.blockId ∨ s.HasAccepted m.blockId := by
  rw [← h.hasAccepted_iff]
  refine ⟨fun h' => h'.recent _ h.recent, fun hid => ?_⟩
  have hold : ∀ {id}, s.HasAccepted id → s'.HasAccepted id :=
    fun hid => (h.hasAccepted_iff _).mpr (.inr hid)
  refine ⟨fun id hmem => ?_, fun id hmem => ?_, fun m' hm' => hs.backlog m' (h.backlog hm')⟩
  · rcases h.new _ hmem with hmem | hmem | hmem | ⟨-, hmem⟩
    · exact hold (hs.recent id hmem)
    · exact Deed.recent.inj hmem ▸ hid
    · cases hmem
    · cases hmem
  · rcases h.new _ hmem with hmem | hmem | hmem | ⟨-, hmem⟩
    · exact hold (hs.seen id hmem)
    · cases hmem
    · exact Deed.seen.inj hmem ▸ hid
    · cases hmem

/-- The block is advertised: it counts as accepted. -/
lemma advertiseBlock : Notes False m s (s.advertiseBlock m hash) := by
  suffices hnoted : Notes False m s
      (((s.noteSeen m hash).pushRecent m.blockId).record [.recent m.blockId]) from
    hnoted.trans (.disconnectAll _)
  refine ⟨fun x hx => ?_, fun x hx => ?_, by simp [record], False.elim, List.Subset.refl _⟩
  · simp only [record, noteSeen, pushRecent, modifyActive, List.mem_append, List.mem_singleton,
      List.mem_map] at hx
    rcases hx with rfl | ⟨q, -, rfl⟩ | hx
    · exact .inr (.inl rfl)
    · exact .inr (.inr (.inl rfl))
    · exact .inl hx
  · simp [record, noteSeen, pushRecent, modifyActive, hx]

/-- The delegate has accepted the block, and what is noted thereafter has the same id. -/
lemma of_accepted (h : Notes False m (s.noteAccepted m) s') : Notes True m s s' where
  new x hx := by
    rcases h.new x hx with hx | hx | hx | ⟨hfalse, -⟩
    · simp only [noteAccepted, record, pushRecent, List.mem_append, List.mem_cons,
        List.not_mem_nil, or_false] at hx
      rcases hx with (rfl | rfl) | hx
      · exact .inr (.inl rfl)
      · exact .inr (.inr (.inr ⟨trivial, rfl⟩))
      · exact .inl hx
    · exact .inr (.inl hx)
    · exact .inr (.inr (.inl hx))
    · exact hfalse.elim
  kept x hx := h.kept (by simp [noteAccepted, record, pushRecent, hx])
  recent := h.recent
  block _ := h.kept (by simp [noteAccepted, record])
  backlog := h.backlog

/-- A block of the backlog is accepted. -/
lemma acceptSyncBlock : Notes True m s (s.acceptSyncBlock d m) := by
  have htaken : Notes True m s (((s.noteAccepted m).countDown).takeProcessed m) := by
    refine ⟨fun x hx => ?_, fun x hx => ?_, ?_, fun _ => ?_, List.Subset.refl _⟩
    · simp only [takeProcessed, countDown, noteAccepted, record, pushRecent, modifyActive,
        List.mem_append, List.mem_cons, List.mem_map, List.not_mem_nil, or_false] at hx
      rcases hx with ⟨q, -, rfl⟩ | (rfl | rfl) | hx
      · exact .inr (.inr (.inl rfl))
      · exact .inr (.inl rfl)
      · exact .inr (.inr (.inr ⟨trivial, rfl⟩))
      · exact .inl hx
    all_goals simp [takeProcessed, countDown, noteAccepted, record, pushRecent, modifyActive, *]
  rw [NodeImpl.acceptSyncBlock]
  exact ((htaken.trans (.disconnectAll _)).trans (.fetchNextBatchFromAll _)).trans
    (.startSynchronizingWithAll _)

end Notes

/-! ### Messages -/

namespace Named

/-- **A new block**: the ids are named exactly if it comes with its own, or the id is known. -/
lemma processBlockDuringNormalOperation_iff (h : s.Named) :
    (s.processBlockDuringNormalOperation d p m hash).Named ↔
      if m.blockId ∈ s.mostRecentBlocksAccepted then s.HasAccepted m.blockId
      else d.handleBlock m = .accepted → m.blockId = m.block.id ∨ s.HasAccepted m.blockId := by
  rw [NodeImpl.processBlockDuringNormalOperation]
  split_ifs with hrecent
  · simpa using Notes.advertiseBlock.named_iff h
  · cases hresult : d.handleBlock m with
    | accepted =>
        have hnotes : Notes True m s ((s.noteAccepted m).advertiseBlock m hash) :=
          Notes.of_accepted Notes.advertiseBlock
        simpa [eq_comm] using hnotes.named_iff h
    | unlinkable => exact iff_of_true (h.of_same (.startSynchronizingWithPeer s p)) (by simp)
    | olderThanUndoHistory => exact iff_of_true (h.of_same (.disconnectAll _)) (by simp)
    | rejected => exact iff_of_true (h.of_same (.disconnectAll _)) (by simp)

/-- A block that answers a request is put into the backlog. -/
lemma processBlockDuringSync_iff (h : s.Named) (hdeeds : s'.deeds = s.deeds)
    (hbacklog : s'.backlog = m :: s.backlog) : s'.Named ↔ m.blockId = m.block.id := by
  have haccepted : ∀ id, s'.HasAccepted id ↔ s.HasAccepted id := fun id => by
    rw [HasAccepted, HasAccepted, hdeeds]
  refine ⟨fun h' => h'.backlog m (by simp [hbacklog]), fun hid => ⟨?_, ?_, ?_⟩⟩
  · exact fun id hmem => (haccepted id).mpr (h.recent id (hdeeds ▸ hmem))
  · exact fun id hmem => (haccepted id).mpr (h.seen id (hdeeds ▸ hmem))
  · rw [hbacklog]
    exact List.forall_mem_cons.mpr ⟨hid, h.backlog⟩

/-- A message of a peer, a block. -/
lemma processBlockMessage_iff (h : s.Named) (hp : p ∈ s.connections) :
    (s.processBlockMessage d p m hash).Named ↔ s.NamesBlock (.block d p m hash) := by
  simp only [NodeImpl.processBlockMessage, NamesBlock, hp, forall_const]
  by_cases hregular : ⟨.block, hash⟩ ∈ (s.peer p).itemsRequestedFromPeer
  · simp only [hregular, if_true]
    refine (processBlockDuringNormalOperation_iff ?_).trans Iff.rfl
    exact h.of_same (.of_eq rfl rfl)
  · simp only [hregular, if_false]
    by_cases hsync : m.blockId ∈ (s.peer p).syncItemsRequestedFromPeer
    · simp only [hsync, if_true, forall_const]
      split_ifs
      · rw [NodeImpl.fetchNextBatchOfItemIdsFromPeer]
        cases d.synopsisForPeer _ <;> exact h.processBlockDuringSync_iff rfl rfl
      · exact h.processBlockDuringSync_iff rfl rfl
    · simp only [hsync, if_false, false_implies, iff_true]
      exact h.of_same (.disconnectFromPeer s p)

/-- The delegate is done with a block that has answered a request. -/
lemma finishCall (h : s.Named) (i : ℕ) : (s.finishCall d i).Named := by
  rw [NodeImpl.finishCall]
  cases hcall : s.handleMessageCallsInProgress[i]? with
  | none => exact h
  | some call =>
      by_cases hready : call.ready
      · simpa [hready] using h
      simp only [hready, Bool.false_eq_true, if_false]
      set t : NodeImpl β := { s with
        handleMessageCallsInProgress := s.handleMessageCallsInProgress.set i { call with ready := true } }
        with ht
      have hmem : call ∈ s.handleMessageCallsInProgress := List.mem_of_getElem? hcall
      have hown : call.message.blockId = call.message.block.id :=
        h.backlog _ (List.mem_append_right _ (List.mem_map_of_mem hmem))
      -- the call that is over has the same message
      have hsame : SameDeeds s t := by
        refine ⟨rfl, fun x hx => ?_⟩
        simp only [NodeImpl.backlog, ht, List.mem_append, List.mem_map] at hx ⊢
        rcases hx with hx | ⟨call', hcall', rfl⟩
        · exact .inl hx
        · rcases List.mem_or_eq_of_mem_set hcall' with hcall' | rfl
          · exact .inr ⟨call', hcall', rfl⟩
          · exact .inr ⟨call, hmem, rfl⟩
      have ht := h.of_same hsame
      rw [sendSyncBlockToNodeDelegate]
      cases d.handleBlock call.message with
      | accepted => exact (Notes.acceptSyncBlock.named_iff ht).mpr (.inl ⟨trivial, hown.symm⟩)
      | olderThanUndoHistory => exact ht.of_same (.of_eq rfl rfl)
      | unlinkable => exact ht.of_same (.disconnectAll _)
      | rejected => exact ht.of_same (.disconnectAll _)

end Named

/-! ### Runs -/

/-- **One event.** -/
lemma named_handle_iff (h : s.Named) (e : Event β) : (s.handle e).Named ↔ s.NamesBlock e := by
  -- an event of a peer, if the peer is connected
  have hpeer : ∀ (p : ℕ) (f : NodeImpl β → NodeImpl β), SameDeeds s (f s) →
      (s.fromPeer p f).Named := by
    intro p f hf
    rw [fromPeer]
    split_ifs
    · exact h.of_same hf
    · exact h
  cases e with
  | block d p m hash =>
      by_cases hp : p ∈ s.connections
      · simpa only [handle, fromPeer, hp, if_true] using h.processBlockMessage_iff hp
      · simpa [handle, fromPeer, hp, NamesBlock] using h
  | connect p =>
      refine iff_of_true ?_ trivial
      rw [handle]
      split_ifs
      · exact h
      · exact h.of_same (.of_eq rfl rfl)
  | activate d p =>
      refine iff_of_true ?_ trivial
      rw [handle]
      split_ifs
      · exact h.of_same ((SameDeeds.startSynchronizingWithPeer _ p).of_same rfl rfl)
      · exact h
  | reorder l =>
      refine iff_of_true ?_ trivial
      rw [handle]
      split_ifs <;> exact h.of_same (.of_eq rfl rfl)
  | connectionClosed p => exact iff_of_true (hpeer p _ (.of_eq rfl rfl)) trivial
  | disconnect p => exact iff_of_true (hpeer p _ (.disconnectFromPeer s p)) trivial
  | startSynchronizing d p => exact iff_of_true (hpeer p _ (.startSynchronizingWithPeer s p)) trivial
  | peerNeedsSyncItems p needs => exact iff_of_true (hpeer p _ (.of_eq rfl rfl)) trivial
  | blockSent d p id => exact iff_of_true (hpeer p _ (.of_eq rfl rfl)) trivial
  | advertised p item => exact iff_of_true (hpeer p _ (.of_eq rfl rfl)) trivial
  | inventoryExpired p item => exact iff_of_true (hpeer p _ (.of_eq rfl rfl)) trivial
  | itemsRequested p items => exact iff_of_true (hpeer p _ (.of_eq rfl rfl)) trivial
  | fetchSyncItems => exact iff_of_true (h.of_same .fetchSyncItems) trivial
  | blockchainItemIds d p m =>
      exact iff_of_true (hpeer p _ (.onBlockchainItemIdsInventoryMessage m)) trivial
  | itemNotAvailable p item => exact iff_of_true (hpeer p _ (.onItemNotAvailableMessage item)) trivial
  | processBacklog d =>
      refine iff_of_true ?_ trivial
      rw [handle]
      cases hrun : s.processBacklogOfSyncBlocks d s.backlogFuel with
      | none => exact h
      | some s' => exact h.of_same (SameDeeds.processBacklogOfSyncBlocks hrun)
  | callReturns d i => exact iff_of_true (h.finishCall i) trivial
  | syncFrom id => exact iff_of_true (h.of_same (.of_eq rfl rfl)) trivial
  | broadcast m => exact iff_of_true (h.of_same (.of_eq rfl rfl)) trivial

/-- **The ids that are noted are those of accepted blocks** in all states of a run, and the blocks that
answer requests come with their own, exactly if every message of a peer names its block. -/
theorem blockIds_named_iff {s : NodeImpl β} (hdeeds : s.deeds = []) (hbacklog : s.backlog = [])
    (es : List (Event β)) :
    Runs.Always handle Named s es ↔ Runs.Each handle NamesBlock s es := by
  have hbegin : s.Named := by constructor <;> simp [hdeeds, hbacklog]
  exact Runs.always_iff (W := fun _ => True) (fun _ _ _ => trivial)
    (fun s e _ hs => named_handle_iff hs e) trivial hbegin

/-! ### A run -/

/-- A peer announces a block under this id, and sends the first block with it when it is requested; the
delegate accepts the block. -/
def sendOne (id : ItemHash) : List (Event Unit) :=
  [.connect 0, .activate listSynopsis 0, .blockchainItemIds listSynopsis 0 ⟨0, [id]⟩, .fetchSyncItems,
    .block listSynopsis 0 ⟨blockOne, id⟩ ⟨0, 7⟩, .processBacklog listSynopsis,
    .callReturns listSynopsis 0]

/-- The block comes under its own id. -/
theorem blockIds_named_sendOne :
    ((sendOne ⟨1, 1⟩).foldl handle {}).mostRecentBlocksAccepted = [⟨1, 1⟩] ∧
      Runs.Always handle Named ({} : NodeImpl Unit) (sendOne ⟨1, 1⟩) := by
  refine ⟨by decide +kernel, (blockIds_named_iff rfl rfl _).mpr ?_⟩
  exact ⟨trivial, trivial, trivial, trivial, namesBlock_of_own rfl (by decide +kernel), trivial,
    trivial, trivial⟩

/-- The block comes under an id that the peer has made up: the request is satisfied, and the id counts
as accepted. -/
theorem not_blockIds_named :
    ¬ ∀ es : List (Event Unit), Runs.Always handle Named ({} : NodeImpl Unit) es := by
  intro h
  have hlast := Runs.always_iff_foldl.mp (h (sendOne ⟨1, 9⟩)) (sendOne ⟨1, 9⟩) List.prefix_rfl
  have hdeeds : ((sendOne ⟨1, 9⟩).foldl handle {}).deeds =
      [.seen ⟨1, 9⟩, .recent ⟨1, 9⟩, .accepted blockOne] := rfl
  obtain ⟨b, hb, hid⟩ := hlast.recent ⟨1, 9⟩ (by simp [hdeeds])
  obtain rfl : b = blockOne := by simpa [hdeeds] using hb
  exact absurd hid (by decide)

end ZosCore.Net.NodeImpl
