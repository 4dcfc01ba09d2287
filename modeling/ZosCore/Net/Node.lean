import Mathlib.Data.Finset.Lattice.Fold
import ZosCore.Chain.Types

/-!
`net/node.cpp`, `net/peer_connection.hpp`: how a node learns which blocks its peers have, fetches
them and hands them to its delegate, the chain.

The fibers of a node take turns on one thread, and an event here is what one of them does: a message
of a peer, a round of a loop, a task. What the delegate answers while it does is part of the event,
so that nothing is assumed of the chain. Sending is left out, and with it what is sent; so are the
message cache and the advertising of new items, which no function here looks at.

* `PeerConnection`, `NodeImpl`: the state of the synchronization.
* `fetchSyncItems`, `processBlockMessage`, `processBacklogOfSyncBlocks`,
  `sendSyncBlockToNodeDelegate`, `onBlockchainItemIdsInventoryMessage`,
  `onItemNotAvailableMessage`, `onConnectionClosed`: the handlers.
* `Event`, `NodeImpl.handle`: what may happen, in any order.
-/

namespace ZosCore.Net

/-! ### Messages and peers -/

/-- `item_hash_t`: the id of a block, or the hash of a message. -/
abbrev ItemHash := BlockId

/-- The types of the items that peers advertise. -/
inductive ItemType where
  | trx
  | block
  deriving DecidableEq, Repr

/-- `item_id`. -/
structure ItemId where
  itemType : ItemType
  itemHash : ItemHash
  deriving DecidableEq, Repr

/-- `block_message`: a block, and the id that the sender has put beside it. -/
structure BlockMessage (β : Type) where
  block : SignedBlock β
  blockId : ItemHash

/-- `block_message(const signed_block&)`. -/
def BlockMessage.ofBlock {β : Type} (b : SignedBlock β) : BlockMessage β := ⟨b, b.id⟩

/-- `blockchain_item_ids_inventory_message`. -/
structure BlockchainItemIds where
  totalRemainingItemCount : ℕ
  itemHashesAvailable : List ItemHash

/-- `peer_connection`, with the values of its constructor. -/
structure PeerConnection where
  idsOfItemsToGet : List ItemHash := []
  idsOfItemsBeingProcessed : Finset ItemHash := ∅
  numberOfUnfetchedItemIds : ℕ := 0
  peerNeedsSyncItemsFromUs : Bool := true
  weNeedSyncItemsFromPeer : Bool := true
  /-- The synopsis that was sent, while the reply is awaited. -/
  itemIdsRequestedFromPeer : Option (List ItemHash) := none
  syncItemsRequestedFromPeer : Finset ItemHash := ∅
  lastBlockDelegateHasSeen : ItemHash := .zero
  lastBlockTimeDelegateHasSeen : ℕ := 0
  inhibitFetchingSyncBlocks : Bool := false
  itemsRequestedFromPeer : Finset ItemId := ∅
  inventoryPeerAdvertisedToUs : Finset ItemId := ∅
  lastKnownForkBlockNumber : ℕ := 0

/-- `peer_connection::idle`. -/
def PeerConnection.idle (p : PeerConnection) : Bool :=
  p.itemsRequestedFromPeer = ∅ && p.syncItemsRequestedFromPeer = ∅ &&
    p.itemIdsRequestedFromPeer.isNone

/-- What becomes of `handle_block`: it returns, or throws one of the exceptions that are told apart. -/
inductive HandleBlockResult where
  | accepted
  | olderThanUndoHistory
  | unlinkable
  | rejected
  deriving DecidableEq, Repr

/-- What the delegate and the clock answer while a handler runs. -/
structure Delegate (β : Type) where
  hasItem : ItemHash → Bool
  getBlockTime : ItemHash → ℕ
  handleBlock : BlockMessage β → HandleBlockResult
  /-- `create_blockchain_synopsis_for_peer`; `none` if it throws `block_older_than_undo_history`. -/
  synopsisForPeer : PeerConnection → Option (List ItemHash)
  now : ℕ

/-- What the handlers do with a block that has come in. -/
inductive Deed (β : Type) where
  /-- `handle_block` has accepted the block. -/
  | accepted (b : SignedBlock β)
  /-- The id has been put into `_most_recent_blocks_accepted`. -/
  | recent (id : ItemHash)
  /-- The id has been stored as a peer's `last_block_delegate_has_seen`. -/
  | seen (id : ItemHash)

/-- A task of `_handle_message_calls_in_progress`: the block that is handed to the delegate, and
whether the call is over. -/
structure HandleMessageCall (β : Type) where
  message : BlockMessage β
  ready : Bool := false

/-- `node_impl`. -/
structure NodeImpl (β : Type) where
  /-- `_active_connections`, in the order in which a loop goes over them. -/
  activeConnections : List ℕ := []
  /-- `_handshaking_connections`, `_closing_connections` and `_terminating_connections`. -/
  inactiveConnections : List ℕ := []
  peer : ℕ → PeerConnection := fun _ => {}
  activeSyncRequests : Finset ItemHash := ∅
  newReceivedSyncItems : List (BlockMessage β) := []
  receivedSyncItems : List (BlockMessage β) := []
  mostRecentBlocksAccepted : List ItemHash := []
  handleMessageCallsInProgress : List (HandleMessageCall β) := []
  suspendFetchingSyncBlocks : Bool := false
  totalNumberOfUnfetchedItems : ℕ := 0
  hardForkBlockNumbers : List ℕ := []
  maximumNumberOfConnections : ℕ := 200
  maximumNumberOfBlocksToHandleAtOneTime : ℕ := 200
  maximumNumberOfSyncBlocksToPrefetch : ℕ := 2000
  maximumBlocksPerPeerDuringSyncing : ℕ := 200
  /-- Not in the source: what `send_sync_block_to_node_delegate` and
  `process_block_during_normal_operation` have done, the last deed first. -/
  deeds : List (Deed β) := []

namespace NodeImpl

variable {β : Type}

/-- The peers whose connections are not closed. -/
def connections (s : NodeImpl β) : List ℕ := s.activeConnections ++ s.inactiveConnections

/-- A change of one peer. -/
def modifyPeer (p : ℕ) (f : PeerConnection → PeerConnection) (s : NodeImpl β) : NodeImpl β :=
  { s with peer := Function.update s.peer p (f (s.peer p)) }

/-- A loop over the active peers that changes each of them. -/
def modifyActive (f : PeerConnection → PeerConnection) (s : NodeImpl β) : NodeImpl β :=
  { s with peer := fun p => if p ∈ s.activeConnections then f (s.peer p) else s.peer p }

/-- What the handlers have done with a block. -/
def record (l : List (Deed β)) (s : NodeImpl β) : NodeImpl β := { s with deeds := l ++ s.deeds }

/-- `_most_recent_blocks_accepted.push_back`: a ring that forgets the oldest ids. -/
def pushRecent (id : ItemHash) (s : NodeImpl β) : NodeImpl β :=
  { s with
    mostRecentBlocksAccepted := (id :: s.mostRecentBlocksAccepted).take s.maximumNumberOfConnections }

/-- `disconnect_from_peer`: the peer is moved to the closing list. -/
def disconnectFromPeer (p : ℕ) (s : NodeImpl β) : NodeImpl β :=
  { s with
    activeConnections := s.activeConnections.filter (· ≠ p)
    inactiveConnections := s.inactiveConnections.insert p }

/-- `is_hard_fork_block`. -/
def isHardForkBlock (s : NodeImpl β) (n : ℕ) : Bool := n ∈ s.hardForkBlockNumbers

/-- `get_next_known_hard_fork_block_number`; the numbers are in order. -/
def getNextKnownHardForkBlockNumber (s : NodeImpl β) (n : ℕ) : ℕ :=
  (s.hardForkBlockNumbers.find? (n < ·)).getD 0

/-- The peer runs a client that does not know of the hard fork at this block. -/
def needsUpgrade (s : NodeImpl β) (n : ℕ) (p : PeerConnection) : Bool :=
  let next := s.getNextKnownHardForkBlockNumber p.lastKnownForkBlockNumber
  s.isHardForkBlock n && p.lastKnownForkBlockNumber ≠ 0 && next ≠ 0 && next ≤ n

/-! ### Lists of items -/

/-- `fetch_next_batch_of_item_ids_from_peer`. -/
def fetchNextBatchOfItemIdsFromPeer (d : Delegate β) (p : ℕ) (s : NodeImpl β) : NodeImpl β :=
  match d.synopsisForPeer (s.peer p) with
  | some synopsis => s.modifyPeer p fun c => { c with itemIdsRequestedFromPeer := some synopsis }
  | none => s.disconnectFromPeer p

/-- `start_synchronizing_with_peer`. -/
def startSynchronizingWithPeer (d : Delegate β) (p : ℕ) (s : NodeImpl β) : NodeImpl β :=
  fetchNextBatchOfItemIdsFromPeer d p (s.modifyPeer p fun c =>
    { c with
      idsOfItemsToGet := []
      numberOfUnfetchedItemIds := 0
      weNeedSyncItemsFromPeer := true
      lastBlockDelegateHasSeen := .zero
      lastBlockTimeDelegateHasSeen := d.getBlockTime .zero
      inhibitFetchingSyncBlocks := false })

/-- The loop over the peers to disconnect, at the end of a handler. -/
def disconnectAll (l : List ℕ) (s : NodeImpl β) : NodeImpl β :=
  l.foldl (fun s q => s.disconnectFromPeer q) s

/-- The loop over the peers to ask for the next batch. -/
def fetchNextBatchFromAll (d : Delegate β) (l : List ℕ) (s : NodeImpl β) : NodeImpl β :=
  l.foldl (fun s q => s.fetchNextBatchOfItemIdsFromPeer d q) s

/-- The loop over the peers to synchronize with again. -/
def startSynchronizingWithAll (d : Delegate β) (l : List ℕ) (s : NodeImpl β) : NodeImpl β :=
  l.foldl (fun s q => s.startSynchronizingWithPeer d q) s

/-- `calculate_unsynced_block_count_from_all_peers`; the sums are of type `uint32_t`. -/
def calculateUnsyncedBlockCountFromAllPeers (s : NodeImpl β) : ℕ :=
  (s.activeConnections.map fun p =>
    ((s.peer p).idsOfItemsToGet.length + (s.peer p).numberOfUnfetchedItemIds) % 2 ^ 32).foldr max 0

/-- The numbers in a reply follow one another; `expected_num` is a `uint32_t`. -/
def sequential : List ItemHash → Bool
  | [] => true
  | first :: rest => rest.zipIdx.all fun (id, i) => id.num = (first.num + (i + 1)) % 2 ^ 32

/-- A reply starts with one of the ids that were asked about, or with the first block. -/
def buildsOn (synopsis : List ItemHash) : List ItemHash → Bool
  | [] => true
  | first :: _ => if synopsis = [] then first.num = 1 else first ∈ synopsis

/-- "The peer's list is flushed of what the delegate has": the loop over the front of the reply. The
ids that stay are returned with the last one that was dropped. -/
def dropSeen (d : Delegate β) : List ItemHash → Option ItemHash × List ItemHash
  | [] => (none, [])
  | id :: ids =>
      if d.hasItem id then
        let (last, rest) := dropSeen d ids
        (some (last.getD id), rest)
      else (none, id :: ids)

/-- "Pop items off the back of our existing list until we find our first item." -/
def popBackUntil (id : ItemHash) : List ItemHash → List ItemHash
  | [] => []
  | x :: l =>
      match popBackUntil id l with
      | [] => if x = id then [x] else []
      | y :: l' => x :: y :: l'

/-- `last_block_delegate_has_seen` and its time. -/
def sawBlock (d : Delegate β) (id : ItemHash) (c : PeerConnection) : PeerConnection :=
  { c with lastBlockDelegateHasSeen := id, lastBlockTimeDelegateHasSeen := d.getBlockTime id }

/-- What a reply does to the list of the peer that has sent it; `isFirst` says whether its first item
is the next one to get from another peer. -/
def mergeItemIds (d : Delegate β) (isFirst : Bool) (ids : List ItemHash) (c : PeerConnection) :
    PeerConnection :=
  match ids with
  | [] => c
  | first :: rest =>
      if c.idsOfItemsToGet = [] then
        if isFirst then { c with idsOfItemsToGet := ids }
        else
          let (last, remaining) := dropSeen d ids
          let c := { c with idsOfItemsToGet := remaining }
          last.elim c (sawBlock d · c)
      else
        match popBackUntil first c.idsOfItemsToGet with
        | [] => sawBlock d first { c with idsOfItemsToGet := rest }
        -- the last element is popped, as the reply starts with it
        | x :: l => { c with idsOfItemsToGet := (x :: l).dropLast ++ ids }

/-- Another peer's next item to get is this one. -/
def isFirstItemForOtherPeer (s : NodeImpl β) (p : ℕ) (id : ItemHash) : Bool :=
  s.activeConnections.any fun q => q ≠ p && (s.peer q).idsOfItemsToGet.head? = some id

/-- `GRAPHENE_NET_MIN_BLOCK_IDS_TO_PREFETCH`. -/
def minBlockIdsToPrefetch : ℕ := 10000

/-- `GRAPHENE_NET_FUTURE_SYNC_BLOCKS_GRACE_PERIOD_SEC`. -/
def futureSyncBlocksGracePeriodSec : ℕ := 3600

/-- `GRAPHENE_MIN_BLOCK_INTERVAL`. -/
def minBlockInterval : ℕ := 1

/-- `item_ids_requested_from_peer.reset()`. -/
def resetRequest (p : ℕ) (s : NodeImpl β) : NodeImpl β :=
  s.modifyPeer p fun c => { c with itemIdsRequestedFromPeer := none }

/-- The peer has no items after the one that was asked for. -/
def isUpToDate (d : Delegate β) (m : BlockchainItemIds) (c : PeerConnection) : Bool :=
  m.totalRemainingItemCount = 0 &&
    (m.itemHashesAvailable = [] ||
      m.itemHashesAvailable.length = 1 && m.itemHashesAvailable.all d.hasItem) &&
    c.idsOfItemsToGet = [] && c.numberOfUnfetchedItemIds = 0

/-- `_total_number_of_unfetched_items = calculate_unsynced_block_count_from_all_peers()`. -/
def countUnfetchedItems (s : NodeImpl β) : NodeImpl β :=
  { s with totalNumberOfUnfetchedItems := s.calculateUnsyncedBlockCountFromAllPeers }

/-- "Peer said we're up-to-date, entering normal operation with this peer." -/
def enterNormalOperation (p : ℕ) (s : NodeImpl β) : NodeImpl β :=
  (s.modifyPeer p fun c => { c with weNeedSyncItemsFromPeer := false }).countUnfetchedItems

/-- The list of the peer, and how many items it has beyond it. -/
def mergeReply (d : Delegate β) (p : ℕ) (m : BlockchainItemIds) (s : NodeImpl β) : NodeImpl β :=
  let isFirst := m.itemHashesAvailable.head?.elim false (s.isFirstItemForOtherPeer p)
  s.modifyPeer p fun c =>
    { mergeItemIds d isFirst m.itemHashesAvailable c with
      numberOfUnfetchedItemIds := m.totalRemainingItemCount }

/-- The last block that the peer offers would be in the future; `time_point_sec` counts in a
`uint32_t`. -/
def offersTooMany (d : Delegate β) (c : PeerConnection) : Bool :=
  (d.now + futureSyncBlocksGracePeriodSec) % 2 ^ 32 <
    (c.lastBlockTimeDelegateHasSeen + c.numberOfUnfetchedItemIds * minBlockInterval) % 2 ^ 32

/-- The peer has sent ids enough to fetch their blocks first, or all that it has. -/
def hasIdsToFetch (m : BlockchainItemIds) (c : PeerConnection) : Bool :=
  if m.totalRemainingItemCount ≠ 0 then minBlockIdsToPrefetch < c.idsOfItemsToGet.length
  else c.idsOfItemsToGet ≠ []

/-- The peer is asked for more ids, or the fetch loop goes on with those that it has sent. -/
def continueFetching (d : Delegate β) (p : ℕ) (m : BlockchainItemIds) (s : NodeImpl β) : NodeImpl β :=
  if offersTooMany d (s.peer p) then s.disconnectFromPeer p
  else if hasIdsToFetch m (s.peer p) then s.countUnfetchedItems
  else s.countUnfetchedItems.fetchNextBatchOfItemIdsFromPeer d p

/-- `on_blockchain_item_ids_inventory_message`, from the reset of the request on. -/
def acceptItemIds (d : Delegate β) (p : ℕ) (m : BlockchainItemIds) (s : NodeImpl β) : NodeImpl β :=
  let s := s.resetRequest p
  if isUpToDate d m (s.peer p) then s.enterNormalOperation p
  else (s.mergeReply d p m).continueFetching d p m

/-- The checks of `on_blockchain_item_ids_inventory_message`. -/
def passesChecks (synopsis : List ItemHash) (m : BlockchainItemIds) : Bool :=
  sequential m.itemHashesAvailable && buildsOn synopsis m.itemHashesAvailable

/-- `on_blockchain_item_ids_inventory_message`. -/
def onBlockchainItemIdsInventoryMessage (d : Delegate β) (p : ℕ) (m : BlockchainItemIds)
    (s : NodeImpl β) : NodeImpl β :=
  match (s.peer p).itemIdsRequestedFromPeer with
  | none => s
  | some synopsis =>
      if passesChecks synopsis m then s.acceptItemIds d p m else s.disconnectFromPeer p

/-! ### Requests for blocks -/

/-- `have_already_received_sync_item`. -/
def haveAlreadyReceivedSyncItem (s : NodeImpl β) (id : ItemHash) : Bool :=
  s.receivedSyncItems.any (·.blockId = id) || s.newReceivedSyncItems.any (·.blockId = id)

/-- The loop over the items of one peer: `toRequest` are the items that are to be requested from any
peer, `mine` those from this one. -/
def scheduleItems (s : NodeImpl β) :
    List ItemHash → List ItemHash → List ItemHash → List ItemHash × List ItemHash
  | [], toRequest, mine => (toRequest, mine)
  | id :: ids, toRequest, mine =>
      if !s.haveAlreadyReceivedSyncItem id && id ∉ toRequest && id ∉ s.activeSyncRequests then
        if s.maximumBlocksPerPeerDuringSyncing ≤ mine.length + 1 then
          (id :: toRequest, mine ++ [id])
        else scheduleItems s ids (id :: toRequest) (mine ++ [id])
      else scheduleItems s ids toRequest mine

/-- The loop over the peers: what is to be requested, and from whom. -/
def scheduleRequests (s : NodeImpl β) :
    List ℕ → List ItemHash → List (ℕ × List ItemHash) → List (ℕ × List ItemHash)
  | [], _, requests => requests
  | p :: ps, toRequest, requests =>
      let c := s.peer p
      if c.weNeedSyncItemsFromPeer && (requests.lookup p).isNone && c.idle &&
          !c.inhibitFetchingSyncBlocks then
        let (toRequest, mine) := s.scheduleItems c.idsOfItemsToGet toRequest []
        scheduleRequests s ps toRequest (if mine = [] then requests else requests ++ [(p, mine)])
      else scheduleRequests s ps toRequest requests

/-- `request_sync_items_from_peer`. -/
def requestSyncItemsFromPeer (s : NodeImpl β) (request : ℕ × List ItemHash) : NodeImpl β :=
  { s with activeSyncRequests := s.activeSyncRequests ∪ request.2.toFinset }.modifyPeer request.1
    fun c => { c with
      syncItemsRequestedFromPeer := c.syncItemsRequestedFromPeer ∪ request.2.toFinset }

/-- A round of `fetch_sync_items_loop`. -/
def fetchSyncItems (s : NodeImpl β) : NodeImpl β :=
  if s.suspendFetchingSyncBlocks then s
  else (s.scheduleRequests s.activeConnections [] []).foldl requestSyncItemsFromPeer s

/-- `on_item_not_available_message`. -/
def onItemNotAvailableMessage (p : ℕ) (item : ItemId) (s : NodeImpl β) : NodeImpl β :=
  let c := s.peer p
  if item ∈ c.itemsRequestedFromPeer then
    s.modifyPeer p fun c =>
      { c with
        itemsRequestedFromPeer := c.itemsRequestedFromPeer.erase item
        inventoryPeerAdvertisedToUs := c.inventoryPeerAdvertisedToUs.erase item }
  else if item.itemHash ∈ c.syncItemsRequestedFromPeer then
    let s := s.modifyPeer p fun c =>
      { c with syncItemsRequestedFromPeer := c.syncItemsRequestedFromPeer.erase item.itemHash }
    if c.peerNeedsSyncItemsFromUs then
      s.modifyPeer p fun c => { c with inhibitFetchingSyncBlocks := true }
    else s.disconnectFromPeer p
  else s

/-- `on_connection_closed`. -/
def onConnectionClosed (p : ℕ) (s : NodeImpl β) : NodeImpl β :=
  { s with
    activeConnections := s.activeConnections.filter (· ≠ p)
    inactiveConnections := s.inactiveConnections.filter (· ≠ p)
    activeSyncRequests := s.activeSyncRequests \ (s.peer p).syncItemsRequestedFromPeer }

/-! ### Blocks that come in -/

/-- The active peers that have advertised a message. -/
def offering (hash : ItemHash) (s : NodeImpl β) : List ℕ :=
  s.activeConnections.filter fun q => ⟨.block, hash⟩ ∈ (s.peer q).inventoryPeerAdvertisedToUs

/-- The active peers that do not know of the hard fork at a block. -/
def upgrading (n : ℕ) (s : NodeImpl β) : List ℕ :=
  s.activeConnections.filter fun q => s.needsUpgrade n (s.peer q)

/-- The delegate has accepted a block under this id. -/
def noteAccepted (m : BlockMessage β) (s : NodeImpl β) : NodeImpl β :=
  (s.pushRecent m.blockId).record [.recent m.blockId, .accepted m.block]

/-- The loop over the peers that have advertised the block. -/
def noteSeen (m : BlockMessage β) (hash : ItemHash) (s : NodeImpl β) : NodeImpl β :=
  (s.modifyActive fun c =>
    if ⟨.block, hash⟩ ∈ c.inventoryPeerAdvertisedToUs then
      { c with
        lastBlockDelegateHasSeen := m.blockId
        lastBlockTimeDelegateHasSeen := m.block.timestamp }
    else c).record ((s.offering hash).map fun _ => .seen m.blockId)

/-- `process_block_during_normal_operation`, once the block counts as accepted; `broadcast` puts the
id among the recent ones too. -/
def advertiseBlock (m : BlockMessage β) (hash : ItemHash) (s : NodeImpl β) : NodeImpl β :=
  (((s.noteSeen m hash).pushRecent m.blockId).record [.recent m.blockId]).disconnectAll
    (s.upgrading m.block.blockNum)

/-- `process_block_during_normal_operation`. -/
def processBlockDuringNormalOperation (d : Delegate β) (p : ℕ) (m : BlockMessage β)
    (hash : ItemHash) (s : NodeImpl β) : NodeImpl β :=
  if m.blockId ∈ s.mostRecentBlocksAccepted then s.advertiseBlock m hash
  else
    match d.handleBlock m with
    | .accepted => (s.noteAccepted m).advertiseBlock m hash
    | .unlinkable => s.startSynchronizingWithPeer d p
    | .olderThanUndoHistory | .rejected =>
        s.disconnectAll (p :: s.activeConnections.filter fun q =>
          (s.peer q).idsOfItemsToGet.head? = some m.blockId)

/-- `process_block_during_sync`; the task that it triggers is an event of its own. -/
def processBlockDuringSync (m : BlockMessage β) (s : NodeImpl β) : NodeImpl β :=
  { s with newReceivedSyncItems := m :: s.newReceivedSyncItems }

/-- `process_block_message`; `hash` is the hash of the message. -/
def processBlockMessage (d : Delegate β) (p : ℕ) (m : BlockMessage β) (hash : ItemHash)
    (s : NodeImpl β) : NodeImpl β :=
  let c := s.peer p
  if ⟨.block, hash⟩ ∈ c.itemsRequestedFromPeer then
    (s.modifyPeer p fun c =>
      { c with itemsRequestedFromPeer := c.itemsRequestedFromPeer.erase ⟨.block, hash⟩ })
      |>.processBlockDuringNormalOperation d p m hash
  else if m.blockId ∈ c.syncItemsRequestedFromPeer then
    let s := s.modifyPeer p fun c =>
      { c with syncItemsRequestedFromPeer := c.syncItemsRequestedFromPeer.erase m.blockId }
    let s := { s with activeSyncRequests := s.activeSyncRequests.erase m.blockId }
    let s := s.processBlockDuringSync m
    let c := s.peer p
    if c.idle && 0 < c.numberOfUnfetchedItemIds && c.idsOfItemsToGet.length < minBlockIdsToPrefetch
    then s.fetchNextBatchOfItemIdsFromPeer d p
    else s
  else s.disconnectFromPeer p

/-- The peer's list of items that are being processed has the block. -/
def isProcessing (s : NodeImpl β) (m : BlockMessage β) (q : ℕ) : Bool :=
  m.blockId ∈ (s.peer q).idsOfItemsBeingProcessed

/-- The loop over the active peers when the delegate has accepted a block: it is taken from the items
that are being processed. -/
def takeProcessed (m : BlockMessage β) (s : NodeImpl β) : NodeImpl β :=
  (s.modifyActive fun c =>
    if !s.needsUpgrade m.block.blockNum c && m.blockId ∈ c.idsOfItemsBeingProcessed then
      { c with
        lastBlockDelegateHasSeen := m.blockId
        lastBlockTimeDelegateHasSeen := m.block.timestamp
        idsOfItemsBeingProcessed := c.idsOfItemsBeingProcessed.erase m.blockId }
    else c).record
      ((s.activeConnections.filter fun q =>
        !s.needsUpgrade m.block.blockNum (s.peer q) && s.isProcessing m q).map fun _ =>
          .seen m.blockId)

/-- The last item of the peer's list has been dealt with. -/
def isDone (s : NodeImpl β) (q : ℕ) : Bool :=
  (s.peer q).idsOfItemsToGet = [] && (s.peer q).numberOfUnfetchedItemIds = 0 &&
    (s.peer q).idsOfItemsBeingProcessed = ∅

/-- Neither side needs items from the other, and the peer may not know of the block. -/
def needsRestart (s : NodeImpl β) (q : ℕ) : Bool :=
  (s.peer q).idsOfItemsToGet = [] && (s.peer q).idsOfItemsBeingProcessed = ∅ &&
    !(s.peer q).peerNeedsSyncItemsFromUs && !(s.peer q).weNeedSyncItemsFromPeer

/-- `--_total_number_of_unfetched_items`, which is a `uint32_t`. -/
def countDown (s : NodeImpl β) : NodeImpl β :=
  { s with totalNumberOfUnfetchedItems := (s.totalNumberOfUnfetchedItems + (2 ^ 32 - 1)) % 2 ^ 32 }

/-- `send_sync_block_to_node_delegate`, if the delegate accepts the block. -/
def acceptSyncBlock (d : Delegate β) (m : BlockMessage β) (s : NodeImpl β) : NodeImpl β :=
  let others := s.activeConnections.filter fun q => !s.needsUpgrade m.block.blockNum (s.peer q)
  let s' := ((s.noteAccepted m).countDown).takeProcessed m
  ((s'.disconnectAll (s.upgrading m.block.blockNum)).fetchNextBatchFromAll d
    ((others.filter (s.isProcessing m)).filter s'.isDone)).startSynchronizingWithAll d
      (others.filter s.needsRestart)

/-- `send_sync_block_to_node_delegate`. -/
def sendSyncBlockToNodeDelegate (d : Delegate β) (m : BlockMessage β) (s : NodeImpl β) : NodeImpl β :=
  match d.handleBlock m with
  | .accepted => s.acceptSyncBlock d m
  | .olderThanUndoHistory =>
      s.modifyActive fun c =>
        if m.blockId ∈ c.idsOfItemsBeingProcessed then { c with inhibitFetchingSyncBlocks := true }
        else c
  | .unlinkable | .rejected => s.disconnectAll (s.activeConnections.filter (s.isProcessing m))

/-- The next call that is in progress returns. -/
def finishCall (d : Delegate β) (i : ℕ) (s : NodeImpl β) : NodeImpl β :=
  match s.handleMessageCallsInProgress[i]? with
  | none => s
  | some call =>
      if call.ready then s
      else
        let calls := s.handleMessageCallsInProgress.set i { call with ready := true }
        { s with handleMessageCallsInProgress := calls }.sendSyncBlockToNodeDelegate d call.message

/-! ### The backlog -/

/-- The block is the next one to get from a peer. -/
def isDue (s : NodeImpl β) (m : BlockMessage β) : Bool :=
  s.activeConnections.any fun p => (s.peer p).idsOfItemsToGet.head? = some m.blockId

/-- The loop over the peers that takes a block from the lists that start with it. -/
def takeDue (id : ItemHash) (s : NodeImpl β) : NodeImpl β :=
  s.modifyActive fun c =>
    if c.idsOfItemsToGet.head? = some id then
      { c with
        idsOfItemsToGet := c.idsOfItemsToGet.tail
        idsOfItemsBeingProcessed := insert id c.idsOfItemsBeingProcessed }
    else c

/-- `std::copy(..., std::front_inserter(_received_sync_items))`, one block at a time. -/
def moveNewItems (s : NodeImpl β) : NodeImpl β :=
  { s with
    receivedSyncItems := s.newReceivedSyncItems.reverse ++ s.receivedSyncItems
    newReceivedSyncItems := [] }

/-- A block that has been taken, and that the delegate has accepted already. -/
def treatAsAccepted (d : Delegate β) (m : BlockMessage β) (s : NodeImpl β) : NodeImpl β :=
  let s' := s.modifyActive fun c =>
    { c with idsOfItemsBeingProcessed := c.idsOfItemsBeingProcessed.erase m.blockId }
  s'.fetchNextBatchFromAll d ((s.activeConnections.filter (s.isProcessing m)).filter s'.isDone)

/-- The search for a block that can be processed; `true` if one was handed to the delegate. -/
def processNext (d : Delegate β) (s : NodeImpl β) : Bool × NodeImpl β :=
  match s.receivedSyncItems.find? s.isDue with
  | none => (false, s)
  | some m =>
      let taken := s.takeDue m.blockId
      if m.blockId ∈ s.mostRecentBlocksAccepted then (false, taken.treatAsAccepted d m)
      else (true, { taken with
        receivedSyncItems := s.receivedSyncItems.eraseP s.isDue
        handleMessageCallsInProgress := s.handleMessageCallsInProgress ++ [⟨m, false⟩] })

/-- As many blocks are being handled as may be at one time. -/
def isBusy (s : NodeImpl β) : Bool :=
  s.maximumNumberOfBlocksToHandleAtOneTime ≤ s.handleMessageCallsInProgress.length

/-- The outer loop of `process_backlog_of_sync_blocks`; `none` if it goes on after `fuel` rounds. -/
def processBacklogLoop (d : Delegate β) : ℕ → NodeImpl β → Option (NodeImpl β)
  | 0, _ => none
  | fuel + 1, s =>
      let (again, s) := s.moveNewItems.processNext d
      if s.isBusy then
        some (if s.maximumNumberOfSyncBlocksToPrefetch ≤ s.receivedSyncItems.length then
          { s with suspendFetchingSyncBlocks := true } else s)
      else if again then processBacklogLoop d fuel s
      else some s

/-- The calls that are over are thrown away. -/
def collectCalls (s : NodeImpl β) : NodeImpl β :=
  { s with handleMessageCallsInProgress := s.handleMessageCallsInProgress.filter (!·.ready) }

/-- `process_backlog_of_sync_blocks`, for so many rounds at most. -/
def processBacklogOfSyncBlocks (d : Delegate β) (fuel : ℕ) (s : NodeImpl β) : Option (NodeImpl β) :=
  let s := s.collectCalls
  if s.isBusy then some s
  else processBacklogLoop d fuel { s with suspendFetchingSyncBlocks := false }

/-- Rounds enough for `process_backlog_of_sync_blocks`: each of them but the last hands one block to
the delegate. -/
def backlogFuel (s : NodeImpl β) : ℕ :=
  s.newReceivedSyncItems.length + s.receivedSyncItems.length + 1

end NodeImpl

/-! ### Events -/

/-- What may happen to a node. -/
inductive Event (β : Type) where
  /-- A connection is made, and its handshake begins. -/
  | connect (p : ℕ)
  /-- `move_peer_to_active_list` and `new_peer_just_added`. -/
  | activate (d : Delegate β) (p : ℕ)
  /-- The set of the active peers is gone over in another order. -/
  | reorder (l : List ℕ)
  /-- `on_connection_closed`. -/
  | connectionClosed (p : ℕ)
  /-- `disconnect_from_peer` or a forced disconnection, for a reason that is not modelled. -/
  | disconnect (p : ℕ)
  /-- `start_synchronizing_with_peer`, for a reason that is not modelled. -/
  | startSynchronizing (d : Delegate β) (p : ℕ)
  /-- `on_fetch_blockchain_item_ids_message` finds out whether the peer needs items. -/
  | peerNeedsSyncItems (p : ℕ) (needs : Bool)
  /-- `on_fetch_items_message` has sent the peer a block. -/
  | blockSent (d : Delegate β) (p : ℕ) (id : ItemHash)
  /-- `on_item_ids_inventory_message` has noted an item that the peer advertises. -/
  | advertised (p : ℕ) (item : ItemId)
  /-- `clear_old_inventory` has dropped an item. -/
  | inventoryExpired (p : ℕ) (item : ItemId)
  /-- `fetch_items_loop` has requested items from a peer. -/
  | itemsRequested (p : ℕ) (items : List ItemId)
  /-- A round of `fetch_sync_items_loop`. -/
  | fetchSyncItems
  /-- `on_blockchain_item_ids_inventory_message`. -/
  | blockchainItemIds (d : Delegate β) (p : ℕ) (m : BlockchainItemIds)
  /-- `on_item_not_available_message`. -/
  | itemNotAvailable (p : ℕ) (item : ItemId)
  /-- `process_block_message`, with the hash of the message. -/
  | block (d : Delegate β) (p : ℕ) (m : BlockMessage β) (hash : ItemHash)
  /-- `process_backlog_of_sync_blocks`. -/
  | processBacklog (d : Delegate β)
  /-- The delegate is done with a block that `process_backlog_of_sync_blocks` has handed to it. -/
  | callReturns (d : Delegate β) (i : ℕ)
  /-- `sync_from`. -/
  | syncFrom (id : ItemHash)
  /-- `broadcast`, called by the client with a block of its own. -/
  | broadcast (m : BlockMessage β)

namespace NodeImpl

variable {β : Type}

/-- A message of a peer, or another event that only a connected peer has. -/
def fromPeer (p : ℕ) (f : NodeImpl β → NodeImpl β) (s : NodeImpl β) : NodeImpl β :=
  if p ∈ s.connections then f s else s

/-- What an event does. -/
def handle (s : NodeImpl β) : Event β → NodeImpl β
  | .connect p =>
      if p ∈ s.connections then s
      else { s with
        inactiveConnections := s.inactiveConnections.insert p
        peer := Function.update s.peer p {} }
  | .activate d p =>
      if p ∈ s.inactiveConnections then
        { s with
          activeConnections := s.activeConnections.insert p
          inactiveConnections := s.inactiveConnections.filter (· ≠ p) }.startSynchronizingWithPeer d p
      else s
  | .reorder l => if l.Perm s.activeConnections then { s with activeConnections := l } else s
  | .connectionClosed p => s.fromPeer p (onConnectionClosed p)
  | .disconnect p => s.fromPeer p (disconnectFromPeer p)
  | .startSynchronizing d p => s.fromPeer p (startSynchronizingWithPeer d p)
  | .peerNeedsSyncItems p needs =>
      s.fromPeer p (modifyPeer p fun c => { c with peerNeedsSyncItemsFromUs := needs })
  | .blockSent d p id => s.fromPeer p (modifyPeer p (sawBlock d id))
  | .advertised p item => s.fromPeer p (modifyPeer p fun c =>
      { c with inventoryPeerAdvertisedToUs := insert item c.inventoryPeerAdvertisedToUs })
  | .inventoryExpired p item => s.fromPeer p (modifyPeer p fun c =>
      { c with inventoryPeerAdvertisedToUs := c.inventoryPeerAdvertisedToUs.erase item })
  | .itemsRequested p items => s.fromPeer p (modifyPeer p fun c =>
      if c.idle then { c with itemsRequestedFromPeer := c.itemsRequestedFromPeer ∪ items.toFinset }
      else c)
  | .fetchSyncItems => s.fetchSyncItems
  | .blockchainItemIds d p m => s.fromPeer p (onBlockchainItemIdsInventoryMessage d p m)
  | .itemNotAvailable p item => s.fromPeer p (onItemNotAvailableMessage p item)
  | .block d p m hash => s.fromPeer p (processBlockMessage d p m hash)
  | .processBacklog d => (s.processBacklogOfSyncBlocks d s.backlogFuel).getD s
  | .callReturns d i => s.finishCall d i
  | .syncFrom id => { s with mostRecentBlocksAccepted := [] }.pushRecent id
  | .broadcast m => s.pushRecent m.blockId

end NodeImpl

end ZosCore.Net
