import ZosCore.Lib.Greedy
import ZosCore.Lib.Stamped
import ZosCore.Net.MessageCache

/-!
`net/node.cpp`, `net/peer_connection.cpp`: how new items go from node to node in normal operation.

A node offers its peers what is new to it, notes what they offer, asks one of them for each item that
it does not have, and offers on what its delegate has accepted. As in the synchronization, an event is
what one fiber does in its turn, here with the time of the clock.

* `GossipPeer`, `GossipNode`: the inventories of the peers, the items to fetch and those to offer.
* `onItemIdsInventoryMessage`, `fetchItems`, `onItemNotAvailable`, `connectionClosed`: fetching.
* `broadcast`, `processBlock`, `advertiseInventory`: offering.
* `GossipEvent`, `GossipNode.handle`: what may happen, in any order.
-/

namespace ZosCore.Net

/-! ### Peers -/

/-- `time_point_sec(time_point)`: microseconds to seconds, in a `uint32_t`. -/
def timePointSec (t : ℤ) : ℕ := (t.tdiv 1000000 % 2 ^ 32).toNat

/-- `trx_message_type`. -/
def trxMessageType : UInt32 := 2100

/-- `GRAPHENE_NET_MAX_INVENTORY_SIZE_IN_MINUTES`. -/
def maxInventorySizeInMinutes : ℕ := 2

/-- `GRAPHENE_NET_MAX_TRX_PER_SECOND`. -/
def maxTrxPerSecond : ℕ := 1000

/-- The transactions that a peer may advertise within that time. -/
def maxTransactionsInInventory : ℕ := maxInventorySizeInMinutes * maxTrxPerSecond * 60

/-- "the maximum number of blocks that would be generated" within that time, "plus one, to give us some
wiggle room". -/
def maxBlocksInInventory : ℕ := (maxInventorySizeInMinutes + 1) * 60 / NodeImpl.minBlockInterval

/-- `peer_connection`, as far as it is about the inventories. -/
structure GossipPeer where
  inventoryPeerAdvertisedToUs : Stamped RequestedItem := ∅
  inventoryAdvertisedToPeer : Stamped RequestedItem := ∅
  /-- The keys of `items_requested_from_peer`. -/
  itemsRequestedFromPeer : List RequestedItem := []
  peerNeedsSyncItemsFromUs : Bool := true
  /-- Blocks or their ids have been requested to synchronize. -/
  synchronizing : Bool := false
  transactionFetchingInhibitedUntil : ℤ := 0
  /-- Not in the source: what the peer was offered, and in which second, the last offer first. -/
  offers : List (RequestedItem × ℕ) := []

namespace GossipPeer

/-- `idle`. -/
def idle (c : GossipPeer) : Bool := c.itemsRequestedFromPeer = [] && !c.synchronizing

/-- `is_transaction_fetching_inhibited`. -/
def isTransactionFetchingInhibited (now : ℤ) (c : GossipPeer) : Bool :=
  now < c.transactionFetchingInhibitedUntil

/-- `oldest_inventory_to_keep`. -/
def oldestInventoryToKeep (now : ℤ) : ℕ :=
  timePointSec (now - maxInventorySizeInMinutes * 60 * 1000000)

/-- `clear_old_inventory`. -/
def clearOldInventory (now : ℤ) (c : GossipPeer) : GossipPeer :=
  { c with
    inventoryAdvertisedToPeer := c.inventoryAdvertisedToPeer.since (oldestInventoryToKeep now)
    inventoryPeerAdvertisedToUs := c.inventoryPeerAdvertisedToUs.since (oldestInventoryToKeep now) }

/-- `is_inventory_advertised_to_us_list_full_for_transactions`. -/
def isListFullForTransactions (c : GossipPeer) : Bool :=
  maxTransactionsInInventory < c.inventoryPeerAdvertisedToUs.size

/-- `is_inventory_advertised_to_us_list_full`. -/
def isListFull (c : GossipPeer) : Bool :=
  maxTransactionsInInventory + maxBlocksInInventory < c.inventoryPeerAdvertisedToUs.size

/-- The peer has flooded us, so that items of this type are not noted any more. -/
def isFlooding (itemType : UInt32) (c : GossipPeer) : Bool :=
  itemType = trxMessageType && c.isListFullForTransactions || c.isListFull

/-- The peer has offered the item. -/
def noteItem (now : ℤ) (item : RequestedItem) (c : GossipPeer) : GossipPeer :=
  { c with
    inventoryPeerAdvertisedToUs := c.inventoryPeerAdvertisedToUs.note item (timePointSec now) }

@[simp] lemma inventory_noteItem (now : ℤ) (item : RequestedItem) (c : GossipPeer) :
    (c.noteItem now item).inventoryPeerAdvertisedToUs =
      c.inventoryPeerAdvertisedToUs.note item (timePointSec now) := rfl

/-- The peer does not have the item. -/
def eraseItem (item : RequestedItem) (c : GossipPeer) : GossipPeer :=
  { c with inventoryPeerAdvertisedToUs := c.inventoryPeerAdvertisedToUs.erase item }

/-- The items that are requested from the peer are others. -/
def requestItems (items : List RequestedItem) (c : GossipPeer) : GossipPeer :=
  { c with itemsRequestedFromPeer := items }

/-- How far the peer is with the synchronization. -/
def setSynchronizing (needs busy : Bool) (c : GossipPeer) : GossipPeer :=
  { c with peerNeedsSyncItemsFromUs := needs, synchronizing := busy }

/-- The item is put into `items_to_advertise_by_type`, unless the peer knows it. -/
def offer (now : ℤ) (c : GossipPeer) (item : RequestedItem) : GossipPeer :=
  if item ∈ c.inventoryAdvertisedToPeer ∨ item ∈ c.inventoryPeerAdvertisedToUs then c
  else { c with
    inventoryAdvertisedToPeer := c.inventoryAdvertisedToPeer.note item (timePointSec now)
    offers := (item, timePointSec now) :: c.offers }

/-- What a round of `advertise_inventory_loop` does for a peer. -/
def advertise (now : ℤ) (inventory : List RequestedItem) (c : GossipPeer) : GossipPeer :=
  (if c.peerNeedsSyncItemsFromUs then c else inventory.foldl (offer now) c).clearOldInventory now

end GossipPeer

/-! ### The node -/

/-- `prioritized_item_id`, without the number by which items of one type are ordered: they are kept in
the order in which they came. -/
structure PrioritizedItem where
  item : RequestedItem
  timestamp : ℤ
  deriving DecidableEq

/-- `node_impl`, as far as it is about new items. -/
structure GossipNode (μ : Type) where
  handshakingConnections : List ℕ := []
  /-- `_active_connections`, in the order in which a loop goes over them. -/
  activeConnections : List ℕ := []
  /-- `_closing_connections` and `_terminating_connections`. -/
  closingConnections : List ℕ := []
  peer : ℕ → GossipPeer := fun _ => {}
  itemsToFetch : List PrioritizedItem := []
  recentlyFailedItems : Stamped RequestedItem := ∅
  newInventory : List RequestedItem := []
  messageCache : MessageCache μ := {}
  /-- `_recent_block_interval_in_seconds`, at first `GRAPHENE_MAX_BLOCK_INTERVAL`. -/
  recentBlockIntervalInSeconds : ℕ := 30

namespace GossipNode

variable {μ : Type}

/-- A change of one peer. -/
def modifyPeer (p : ℕ) (f : GossipPeer → GossipPeer) (s : GossipNode μ) : GossipNode μ :=
  { s with peer := Function.update s.peer p (f (s.peer p)) }

/-- A loop over the active peers that changes each of them. -/
def modifyActive (f : GossipPeer → GossipPeer) (s : GossipNode μ) : GossipNode μ :=
  { s with peer := fun p => if p ∈ s.activeConnections then f (s.peer p) else s.peer p }

/-- The connections that are not closed. -/
def connections (s : GossipNode μ) : List ℕ :=
  s.handshakingConnections ++ s.activeConnections ++ s.closingConnections

/-- `disconnect_from_peer`: the peer is moved to the closing list. -/
def disconnectFromPeer (p : ℕ) (s : GossipNode μ) : GossipNode μ :=
  { s with
    handshakingConnections := s.handshakingConnections.filter (· ≠ p)
    activeConnections := s.activeConnections.filter (· ≠ p)
    closingConnections := s.closingConnections.insert p }

/-- `is_item_in_any_peers_inventory`. -/
def isItemInAnyPeersInventory (item : RequestedItem) (s : GossipNode μ) : Bool :=
  s.activeConnections.any fun p => item ∈ (s.peer p).inventoryPeerAdvertisedToUs

/-- The item has been requested from an active peer. -/
def isRequested (item : RequestedItem) (s : GossipNode μ) : Bool :=
  s.activeConnections.any fun p => item ∈ (s.peer p).itemsRequestedFromPeer

/-- An active peer has been offered the item. -/
def isAdvertised (item : RequestedItem) (s : GossipNode μ) : Bool :=
  s.activeConnections.any fun p => item ∈ (s.peer p).inventoryAdvertisedToPeer

/-- `_items_to_fetch.insert`: items are unique; blocks come before transactions. -/
def insertItem (x : PrioritizedItem) (l : List PrioritizedItem) : List PrioritizedItem :=
  if l.any (·.item = x.item) then l
  else l.takeWhile (x.item.itemType ≤ ·.item.itemType) ++
    x :: l.dropWhile (x.item.itemType ≤ ·.item.itemType)

/-- An item is put into `_items_to_fetch`. -/
def addItemToFetch (now : ℤ) (s : GossipNode μ) (item : RequestedItem) : GossipNode μ :=
  { s with itemsToFetch := insertItem ⟨item, now⟩ s.itemsToFetch }

/-- An item is put into `_items_to_fetch` again, if a peer has it. -/
def returnItem (now : ℤ) (s : GossipNode μ) (item : RequestedItem) : GossipNode μ :=
  if s.isItemInAnyPeersInventory item then s.addItemToFetch now item else s

/-! ### What peers offer -/

/-- "another peer has told us about this item already, so update its timestamp". -/
def refreshItem (now : ℤ) (item : RequestedItem) (s : GossipNode μ) : GossipNode μ :=
  { s with itemsToFetch := s.itemsToFetch.map fun x =>
      if x.item = item then { x with timestamp := now } else x }

/-- An item that a peer offers is noted, and fetched if it is wanted. -/
def noteAdvertised (now : ℤ) (p : ℕ) (item : RequestedItem) (s : GossipNode μ) : GossipNode μ :=
  let noted := s.modifyPeer p (·.noteItem now item)
  if s.isRequested item || item ∈ s.recentlyFailedItems then noted
  else if s.itemsToFetch.any (·.item = item) then noted.refreshItem now item
  else noted.addItemToFetch now item

/-- The loop of `on_item_ids_inventory_message`; it ends where the peer floods us. -/
def noteItems (now : ℤ) (p : ℕ) (itemType : UInt32) : List ItemHash → GossipNode μ → GossipNode μ
  | [], s => s
  | hash :: hashes, s =>
      if s.isAdvertised ⟨itemType, hash⟩ then noteItems now p itemType hashes s
      else if (s.peer p).isFlooding itemType then s
      else noteItems now p itemType hashes (s.noteAdvertised now p ⟨itemType, hash⟩)

/-- `on_item_ids_inventory_message`. -/
def onItemIdsInventoryMessage (now : ℤ) (p : ℕ) (itemType : UInt32) (hashes : List ItemHash)
    (s : GossipNode μ) : GossipNode μ :=
  noteItems now p itemType hashes (s.modifyPeer p (·.clearOldInventory now))

/-! ### Fetching -/

/-- `oldest_timestamp_to_fetch`. -/
def oldestTimestampToFetch (now : ℤ) (s : GossipNode μ) : ℤ :=
  now - s.recentBlockIntervalInSeconds * messageCacheDurationInBlocks * 1000000

/-- The peer has offered the item and may be asked for it now. -/
def mayAsk (now : ℤ) (s : GossipNode μ) (x : PrioritizedItem) (p : ℕ) : Bool :=
  x.item ∈ (s.peer p).inventoryPeerAdvertisedToUs &&
    !(x.item.itemType = trxMessageType && (s.peer p).isTransactionFetchingInhibited now)

/-- The items that are not too old, and what becomes of them: those that stay, and who is asked for the
others. As `GRAPHENE_NET_MAX_ITEMS_PER_PEER_DURING_NORMAL_OPERATION` is 1, a peer that is asked for an
item is asked for no more. -/
def assignItems (now : ℤ) (s : GossipNode μ) :
    List PrioritizedItem × List (PrioritizedItem × ℕ) :=
  Greedy.assign (s.mayAsk now) (s.activeConnections.filter fun p => (s.peer p).idle)
    (s.itemsToFetch.filter fun x => s.oldestTimestampToFetch now ≤ x.timestamp)

/-- An item is requested from a peer. -/
def requestItem (s : GossipNode μ) (r : PrioritizedItem × ℕ) : GossipNode μ :=
  s.modifyPeer r.2 fun c => c.requestItems (c.itemsRequestedFromPeer.insert r.1.item)

/-- A round of `fetch_items_loop`. -/
def fetchItems (now : ℤ) (s : GossipNode μ) : GossipNode μ :=
  let (left, requests) := s.assignItems now
  requests.foldl requestItem { s with itemsToFetch := left }

/-- An item has been requested from the peer no more. -/
def forgetRequest (p : ℕ) (item : RequestedItem) (s : GossipNode μ) : GossipNode μ :=
  s.modifyPeer p fun c => c.requestItems (c.itemsRequestedFromPeer.filter (· ≠ item))

/-- `on_item_not_available_message`, for an item that was requested in normal operation. -/
def onItemNotAvailable (now : ℤ) (p : ℕ) (item : RequestedItem) (s : GossipNode μ) :
    GossipNode μ :=
  if item ∈ (s.peer p).itemsRequestedFromPeer then
    ((s.forgetRequest p item).modifyPeer p (·.eraseItem item)).returnItem now item
  else s

/-- The peer is in no list of connections any more. -/
def eraseConnection (p : ℕ) (s : GossipNode μ) : GossipNode μ :=
  { s with
    handshakingConnections := s.handshakingConnections.filter (· ≠ p)
    activeConnections := s.activeConnections.filter (· ≠ p)
    closingConnections := s.closingConnections.filter (· ≠ p) }

/-- `on_connection_closed`. -/
def onConnectionClosed (now : ℤ) (p : ℕ) (s : GossipNode μ) : GossipNode μ :=
  (s.peer p).itemsRequestedFromPeer.foldl (returnItem now) (s.eraseConnection p)

/-- A message with an item comes in: `process_block_message` and `process_ordinary_message`, up to the
delegate. `forSync` says that the item is a block which was requested to synchronize. -/
def receiveItem (p : ℕ) (item : RequestedItem) (forSync : Bool) (s : GossipNode μ) : GossipNode μ :=
  if item ∈ (s.peer p).itemsRequestedFromPeer then s.forgetRequest p item
  else if forSync && item.itemType = blockMessageType then s
  else s.disconnectFromPeer p

/-! ### Offering -/

/-- `broadcast`. -/
def broadcast (item : RequestedItem) (m : μ) (s : GossipNode μ) : GossipNode μ :=
  { s with
    messageCache := s.messageCache.cacheMessage m item.itemHash
    newInventory := s.newInventory.insert item }

/-- `process_block_during_normal_operation`, from where the delegate has accepted the block; `contained`
are the messages with its transactions. -/
def processBlock (now : ℤ) (item : RequestedItem) (m : μ) (contained : List ItemHash)
    (s : GossipNode μ) : GossipNode μ :=
  let s := { s with itemsToFetch := s.itemsToFetch.filter fun x =>
    ¬ (x.item.itemType = trxMessageType ∧ x.item.itemHash ∈ contained) }
  let s := (s.modifyActive (·.clearOldInventory now)).broadcast item m
  { s with messageCache := s.messageCache.blockAccepted }

/-- The delegate has rejected a message. -/
def rejectItem (now : ℤ) (item : RequestedItem) (s : GossipNode μ) : GossipNode μ :=
  { s with recentlyFailedItems := s.recentlyFailedItems.note item (timePointSec now) }

/-- The failed items are pruned, in `fetch_updated_peer_lists_loop`. -/
def pruneFailedItems (now : ℤ) (s : GossipNode μ) : GossipNode μ :=
  { s with recentlyFailedItems :=
      s.recentlyFailedItems.since (timePointSec (now - 15 * 60 * 1000000)) }

/-- A round of `advertise_inventory_loop`. -/
def advertiseInventory (now : ℤ) (s : GossipNode μ) : GossipNode μ :=
  { s with newInventory := [] }.modifyActive (·.advertise now s.newInventory)

end GossipNode

/-! ### Events -/

/-- What may happen to a node. -/
inductive GossipEvent (μ : Type) where
  /-- A connection is made, and its handshake begins. -/
  | connect (p : ℕ)
  /-- `move_peer_to_active_list`. -/
  | activate (p : ℕ)
  /-- The set of the active peers is gone over in another order. -/
  | reorder (l : List ℕ)
  /-- `disconnect_from_peer` or a forced disconnection. -/
  | disconnect (p : ℕ)
  | connectionClosed (p : ℕ)
  /-- What the synchronization with a peer has come to. -/
  | synchronize (p : ℕ) (needsSyncItems synchronizing : Bool)
  | itemIdsInventory (p : ℕ) (itemType : UInt32) (hashes : List ItemHash)
  | itemNotAvailable (p : ℕ) (item : RequestedItem)
  | receive (p : ℕ) (item : RequestedItem) (forSync : Bool)
  /-- The delegate has rejected a message. -/
  | reject (item : RequestedItem)
  /-- The delegate has accepted a message, or the client has one of its own. -/
  | broadcast (item : RequestedItem) (m : μ)
  /-- The delegate has accepted a block. -/
  | acceptBlock (item : RequestedItem) (m : μ) (contained : List ItemHash)
  | fetchItems
  | advertiseInventory
  | pruneFailedItems
  /-- `_delegate->get_current_block_interval_in_seconds()`, a `uint8_t`. -/
  | blockInterval (seconds : UInt8)

namespace GossipNode

variable {μ : Type}

/-- A message of a peer, or another event that only a connected peer has. -/
def fromPeer (p : ℕ) (f : GossipNode μ → GossipNode μ) (s : GossipNode μ) : GossipNode μ :=
  if p ∈ s.connections then f s else s

/-- What an event does, by the time at which it comes. -/
def handle (s : GossipNode μ) : ℤ × GossipEvent μ → GossipNode μ
  | (_, .connect p) =>
      if p ∈ s.connections then s
      else { s with
        handshakingConnections := p :: s.handshakingConnections
        peer := Function.update s.peer p {} }
  | (_, .activate p) =>
      if p ∈ s.handshakingConnections then
        { s with
          handshakingConnections := s.handshakingConnections.filter (· ≠ p)
          activeConnections := s.activeConnections.insert p
          closingConnections := s.closingConnections.filter (· ≠ p) }
      else s
  | (_, .reorder l) => if l.Perm s.activeConnections then { s with activeConnections := l } else s
  | (_, .disconnect p) => s.fromPeer p (disconnectFromPeer p)
  | (now, .connectionClosed p) => s.fromPeer p (onConnectionClosed now p)
  | (_, .synchronize p needs busy) =>
      s.fromPeer p (modifyPeer p (·.setSynchronizing needs busy))
  | (now, .itemIdsInventory p itemType hashes) =>
      s.fromPeer p (onItemIdsInventoryMessage now p itemType hashes)
  | (now, .itemNotAvailable p item) => s.fromPeer p (onItemNotAvailable now p item)
  | (_, .receive p item forSync) => s.fromPeer p (receiveItem p item forSync)
  | (now, .reject item) => s.rejectItem now item
  | (_, .broadcast item m) => s.broadcast item m
  | (now, .acceptBlock item m contained) => s.processBlock now item m contained
  | (now, .fetchItems) => s.fetchItems now
  | (now, .advertiseInventory) => s.advertiseInventory now
  | (now, .pruneFailedItems) => s.pruneFailedItems now
  | (_, .blockInterval seconds) => { s with recentBlockIntervalInSeconds := seconds.toNat }

end GossipNode

end ZosCore.Net
