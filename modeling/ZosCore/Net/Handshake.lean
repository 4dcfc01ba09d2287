import Mathlib.Data.List.Basic
import ZosCore.Net.Node

/-!
`net/node.cpp`: how a connection comes to be that of an active peer.

Each side greets the other with a `hello_message` and answers the greeting of the other. Who has been
answered asks for addresses, and the peer is active once addresses have come; a peer that has connected
to us is active as well once it has asked for block ids. Sending is left out; an exception that a handler
throws ends the connection.

* `HelloMessage`, `HandshakePeer`, `HandshakeNode`: greetings, and the state of the handshakes.
* `helloVerdict`, `onHelloMessage`: what becomes of a greeting.
* `onConnectionRejectedMessage`, `onAddressMessage`, `onFetchBlockchainItemIdsMessage`: the rest of the
  handshake.
* `HandshakeEvent`, `HandshakeNode.handle`: what may happen, in any order.
-/

namespace ZosCore.Net

/-! ### Greetings -/

/-- `our_connection_state` and `their_connection_state`. -/
inductive ConnectionState where
  | disconnected
  | justConnected
  | connectionAccepted
  | connectionRejected
  deriving DecidableEq, Repr

/-- A field of the `user_data` of a greeting, which may be missing, or not of its type. -/
inductive UserField (α : Type) where
  | missing
  | invalid
  | value (a : α)

/-- It can be read, if it is there. -/
def UserField.isReadable {α : Type} : UserField α → Bool
  | .invalid => false
  | _ => true

/-- `hello_message`, as far as the handshake depends on it; `ι` is `node_id_t`. -/
structure HelloMessage (ι : Type) where
  nodePublicKey : ι
  /-- The key by which the shared secret was signed; `none` if the signature is of no key. -/
  signer : Option ι
  chainId : ℕ
  nodeId : UserField ι
  lastKnownForkBlockNumber : UserField ℕ
  /-- The fields of `user_data` that are read before and after those two can be read. -/
  earlierFieldsReadable : Bool
  laterFieldsReadable : Bool

namespace HelloMessage

variable {ι : Type}

/-- `peer_node_id`. -/
def peerNodeId (h : HelloMessage ι) : ι :=
  match h.nodeId with
  | .value i => i
  | _ => h.nodePublicKey

/-- `parse_hello_user_data_for_peer` does not throw. -/
def isReadable (h : HelloMessage ι) : Bool :=
  h.earlierFieldsReadable && h.nodeId.isReadable && h.lastKnownForkBlockNumber.isReadable &&
    h.laterFieldsReadable

end HelloMessage

/-! ### Peers -/

/-- `peer_connection`, as far as it is about the handshake. -/
structure HandshakePeer (ι : Type) [Inhabited ι] where
  /-- `direction` is `inbound`: the peer has connected to us. -/
  inbound : Bool := false
  ourState : ConnectionState := .disconnected
  theirState : ConnectionState := .disconnected
  nodeId : ι := default
  lastKnownForkBlockNumber : ℕ := 0
  /-- Not in the source: the greeting that was accepted. -/
  acceptedHello : Option (HelloMessage ι) := none

/-- `node_impl`, as far as it is about the handshake. -/
structure HandshakeNode (ι : Type) [Inhabited ι] where
  nodeId : ι
  chainId : ℕ
  maximumNumberOfConnections : ℕ
  allowedPeers : List ι
  hardForkBlockNumbers : List ℕ
  handshakingConnections : List ℕ := []
  activeConnections : List ℕ := []
  /-- `_closing_connections` and `_terminating_connections`. -/
  closingConnections : List ℕ := []
  peer : ℕ → HandshakePeer ι := fun _ => {}

/-- What the handler of a greeting finds when it looks. -/
structure HelloContext where
  headBlockNum : ℕ
  /-- `estimate_last_known_fork_from_git_revision_timestamp`, if there is a time stamp. -/
  estimatedForkBlockNumber : Option ℕ
  /-- `_p2p_network_connect_loop_done` is not canceled. -/
  isConnecting : Bool

/-- What becomes of a greeting. -/
inductive HelloVerdict where
  | disconnect
  | rejectAndDisconnect
  | reject
  | accept
  deriving DecidableEq, Repr

namespace HandshakeNode

variable {ι : Type} [Inhabited ι]

/-- A change of one peer. -/
def modifyPeer (p : ℕ) (f : HandshakePeer ι → HandshakePeer ι) (s : HandshakeNode ι) :
    HandshakeNode ι :=
  { s with peer := Function.update s.peer p (f (s.peer p)) }

/-- The connections that are not closed. -/
def connections (s : HandshakeNode ι) : List ℕ :=
  s.handshakingConnections ++ s.activeConnections ++ s.closingConnections

/-- `move_peer_to_active_list`. -/
def movePeerToActiveList (p : ℕ) (s : HandshakeNode ι) : HandshakeNode ι :=
  { s with
    handshakingConnections := s.handshakingConnections.filter (· ≠ p)
    activeConnections := s.activeConnections.insert p
    closingConnections := s.closingConnections.filter (· ≠ p) }

/-- `move_peer_to_closing_list`. -/
def movePeerToClosingList (p : ℕ) (s : HandshakeNode ι) : HandshakeNode ι :=
  { s with
    handshakingConnections := s.handshakingConnections.filter (· ≠ p)
    activeConnections := s.activeConnections.filter (· ≠ p)
    closingConnections := s.closingConnections.insert p }

/-- `on_connection_closed`: the peer is in no list any more. -/
def onConnectionClosed (p : ℕ) (s : HandshakeNode ι) : HandshakeNode ι :=
  { s with
    handshakingConnections := s.handshakingConnections.filter (· ≠ p)
    activeConnections := s.activeConnections.filter (· ≠ p)
    closingConnections := s.closingConnections.filter (· ≠ p) }

/-! ### Greetings that come in -/

section Hello

variable [DecidableEq ι]

/-- `is_already_connected_to_id`. -/
def isAlreadyConnectedToId (i : ι) (s : HandshakeNode ι) : Bool :=
  i = s.nodeId || s.activeConnections.any (fun q => (s.peer q).nodeId = i) ||
    s.handshakingConnections.any fun q => (s.peer q).nodeId = i

/-- `is_accepting_new_connections`. -/
def isAcceptingNewConnections (ctx : HelloContext) (s : HandshakeNode ι) : Bool :=
  ctx.isConnecting &&
    s.handshakingConnections.length + s.activeConnections.length ≤ s.maximumNumberOfConnections

/-- `get_next_known_hard_fork_block_number`; the numbers are in order. -/
def getNextKnownHardForkBlockNumber (s : HandshakeNode ι) (n : ℕ) : ℕ :=
  (s.hardForkBlockNumbers.find? (n < ·)).getD 0

/-- The peer runs a client that does not know of a hard fork which the chain has passed. -/
def isOutdated (ctx : HelloContext) (n : ℕ) (s : HandshakeNode ι) : Bool :=
  let next := s.getNextKnownHardForkBlockNumber n
  n ≠ 0 && next ≠ 0 && next < ctx.headBlockNum

/-- `parse_hello_user_data_for_peer`, and what is stored before it: up to the field that it cannot
read. -/
def storeHello (h : HelloMessage ι) (c : HandshakePeer ι) : HandshakePeer ι :=
  { c with
    nodeId := if h.earlierFieldsReadable then h.peerNodeId else h.nodePublicKey
    lastKnownForkBlockNumber :=
      match h.lastKnownForkBlockNumber with
      | .value n => if h.earlierFieldsReadable && h.nodeId.isReadable then n
          else c.lastKnownForkBlockNumber
      | _ => c.lastKnownForkBlockNumber }

/-- "if they didn't provide a last known fork, try to guess it". -/
def guessFork (ctx : HelloContext) (c : HandshakePeer ι) : HandshakePeer ι :=
  if c.lastKnownForkBlockNumber = 0 then
    { c with lastKnownForkBlockNumber := ctx.estimatedForkBlockNumber.getD 0 }
  else c

/-- "now decide what to do with it"; `already` is whether we were connected to the peer before. -/
def helloVerdict (ctx : HelloContext) (p : ℕ) (h : HelloMessage ι) (already : Bool)
    (s : HandshakeNode ι) : HelloVerdict :=
  let c := s.peer p
  if c.theirState ≠ .justConnected then .disconnect
  else if h.signer ≠ some h.nodePublicKey then .rejectAndDisconnect
  else if h.chainId ≠ s.chainId then .rejectAndDisconnect
  else if s.isOutdated ctx c.lastKnownForkBlockNumber then .rejectAndDisconnect
  else if already then .reject
  else if s.allowedPeers ≠ [] ∧ c.nodeId ∉ s.allowedPeers then .reject
  else if s.isAcceptingNewConnections ctx then .accept
  else .reject

/-- The peer is told that its greeting is rejected. -/
def rejectHello (p : ℕ) (s : HandshakeNode ι) : HandshakeNode ι :=
  s.modifyPeer p fun c => { c with theirState := .connectionRejected }

/-- What the verdict on a greeting leads to. -/
def applyVerdict (p : ℕ) (h : HelloMessage ι) (s : HandshakeNode ι) : HelloVerdict → HandshakeNode ι
  | .disconnect => s.movePeerToClosingList p
  | .rejectAndDisconnect => (s.rejectHello p).movePeerToClosingList p
  | .reject => s.rejectHello p
  | .accept => s.modifyPeer p fun c =>
      { c with theirState := .connectionAccepted, acceptedHello := some h }

/-- `on_hello_message`. -/
def onHelloMessage (ctx : HelloContext) (p : ℕ) (h : HelloMessage ι) (s : HandshakeNode ι) :
    HandshakeNode ι :=
  let already := s.isAlreadyConnectedToId h.peerNodeId
  if h.signer.isNone then s.onConnectionClosed p
  else if h.isReadable then
    let s := s.modifyPeer p fun c => guessFork ctx (storeHello h c)
    s.applyVerdict p h (s.helloVerdict ctx p h already)
  else (s.modifyPeer p (storeHello h)).onConnectionClosed p

end Hello

/-! ### The rest of the handshake -/

/-- `on_connection_accepted_message`. -/
def onConnectionAcceptedMessage (p : ℕ) (s : HandshakeNode ι) : HandshakeNode ι :=
  s.modifyPeer p fun c => { c with ourState := .connectionAccepted }

/-- `on_connection_rejected_message`; `toSelf` is whether it says that we are connected to ourselves. -/
def onConnectionRejectedMessage (p : ℕ) (toSelf : Bool) (s : HandshakeNode ι) : HandshakeNode ι :=
  if (s.peer p).ourState = .justConnected then
    (if toSelf then s.movePeerToClosingList p else s).modifyPeer p fun c =>
      { c with ourState := .connectionRejected }
  else s.onConnectionClosed p

/-- `on_address_message`, without what it does to the addresses. -/
def onAddressMessage (p : ℕ) (s : HandshakeNode ι) : HandshakeNode ι :=
  if p ∈ s.handshakingConnections then
    if (s.peer p).ourState = .connectionRejected ∨ (s.peer p).theirState = .connectionRejected then
      s.movePeerToClosingList p
    else s.movePeerToActiveList p
  else s

/-- `on_fetch_blockchain_item_ids_message`, without the reply; `inhibited` is whether the peer has all our
blocks, and we want none of its own. -/
def onFetchBlockchainItemIdsMessage (p : ℕ) (inhibited : Bool) (s : HandshakeNode ι) :
    HandshakeNode ι :=
  if inhibited then s.movePeerToClosingList p
  else if (s.peer p).inbound = true ∧ p ∈ s.handshakingConnections then s.movePeerToActiveList p
  else s

end HandshakeNode

/-! ### Events -/

/-- What may happen to a node. -/
inductive HandshakeEvent (ι : Type) where
  /-- A connection is accepted or initiated. -/
  | connect (p : ℕ) (inbound : Bool)
  /-- `accept_connection` or `connect_to` has established the connection. -/
  | established (p : ℕ)
  | hello (ctx : HelloContext) (p : ℕ) (h : HelloMessage ι)
  | connectionAccepted (p : ℕ)
  | connectionRejected (p : ℕ) (toSelf : Bool)
  | address (p : ℕ)
  | fetchBlockchainItemIds (p : ℕ) (inhibited : Bool)
  /-- `disconnect_from_peer` or a forced disconnection. -/
  | disconnect (p : ℕ)
  | connectionClosed (p : ℕ)

namespace HandshakeNode

variable {ι : Type} [Inhabited ι]

/-- A message of a peer, or another event that only a connected peer has. -/
def fromPeer (p : ℕ) (f : HandshakeNode ι → HandshakeNode ι) (s : HandshakeNode ι) :
    HandshakeNode ι :=
  if p ∈ s.connections then f s else s

/-- A new connection, whose handshake begins. -/
def addConnection (p : ℕ) (inbound : Bool) (s : HandshakeNode ι) : HandshakeNode ι :=
  if p ∈ s.connections then s
  else { s with
    handshakingConnections := p :: s.handshakingConnections
    peer := Function.update s.peer p { inbound } }

lemma peer_addConnection_of_ne {p q : ℕ} {inbound : Bool} {s : HandshakeNode ι} (h : q ≠ p) :
    (s.addConnection p inbound).peer q = s.peer q := by
  unfold addConnection
  split_ifs
  · rfl
  · exact Function.update_of_ne h ..

/-- `accept_connection` and `connect_to`, which come once for a connection, before any message. -/
def establish (p : ℕ) (s : HandshakeNode ι) : HandshakeNode ι :=
  if (s.peer p).theirState = .disconnected then
    s.modifyPeer p fun c => { c with ourState := .justConnected, theirState := .justConnected }
  else s

/-- What an event does. -/
def handle [DecidableEq ι] (s : HandshakeNode ι) : HandshakeEvent ι → HandshakeNode ι
  | .connect p inbound => s.addConnection p inbound
  | .established p => s.fromPeer p (establish p)
  | .hello ctx p h => s.fromPeer p (onHelloMessage ctx p h)
  | .connectionAccepted p => s.fromPeer p (onConnectionAcceptedMessage p)
  | .connectionRejected p toSelf => s.fromPeer p (onConnectionRejectedMessage p toSelf)
  | .address p => s.fromPeer p (onAddressMessage p)
  | .fetchBlockchainItemIds p inhibited =>
      s.fromPeer p (onFetchBlockchainItemIdsMessage p inhibited)
  | .disconnect p => s.fromPeer p (movePeerToClosingList p)
  | .connectionClosed p => s.fromPeer p (onConnectionClosed p)

/-- A node that has no connections yet. -/
def start (nodeId : ι) (chainId maximumNumberOfConnections : ℕ) (allowedPeers : List ι)
    (hardForkBlockNumbers : List ℕ) : HandshakeNode ι :=
  { nodeId, chainId, maximumNumberOfConnections, allowedPeers, hardForkBlockNumbers }

end HandshakeNode

end ZosCore.Net
