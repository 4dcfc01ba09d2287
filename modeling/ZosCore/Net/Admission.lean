import Mathlib.Data.List.Perm.Subperm
import ZosCore.Lib.Runs
import ZosCore.Net.Handshake

/-!
Whom a node admits.

* `Admits`: the peers whose greeting was accepted have passed all checks, are not too many, and no two
  of them are the same node.
* **`admits_run`**: this holds in every run.
* `Negotiated`: the active peers have accepted our greeting, and we theirs.
* `InOrder`: before that a peer sends no addresses, and asks for no block ids if it has connected to us.
* **`negotiated_iff`**: in a run the active peers are those with whom the handshake was completed, exactly
  as long as all those messages come in order.
-/

namespace ZosCore.Net.HandshakeNode

variable {ι : Type} [Inhabited ι] {s s' : HandshakeNode ι} {p q : ℕ}

/-- The peers that count: those that are active, and those whose handshake is under way. -/
def listed (s : HandshakeNode ι) : List ℕ := s.handshakingConnections ++ s.activeConnections

/-- The peer counts, and its greeting was accepted. -/
def Accepted (s : HandshakeNode ι) (p : ℕ) : Prop :=
  p ∈ s.listed ∧ (s.peer p).theirState = .connectionAccepted

/-- The accepted peers. -/
def acceptedPeers (s : HandshakeNode ι) : List ℕ :=
  s.listed.filter fun p => (s.peer p).theirState = .connectionAccepted

/-- The checks that an accepted greeting has passed. -/
structure Checked (s : HandshakeNode ι) (p : ℕ) (h : HelloMessage ι) : Prop where
  signed : h.signer = some h.nodePublicKey
  chain : h.chainId = s.chainId
  id : (s.peer p).nodeId = h.peerNodeId
  foreign : h.peerNodeId ≠ s.nodeId
  allowed : s.allowedPeers = [] ∨ h.peerNodeId ∈ s.allowedPeers

/-- Who has been accepted has passed the checks; the accepted are different nodes, and not too many. -/
structure Admits (s : HandshakeNode ι) : Prop where
  distinct : s.listed.Nodup
  checked : ∀ p, s.Accepted p → ∃ h, (s.peer p).acceptedHello = some h ∧ s.Checked p h
  unique : ∀ p q, s.Accepted p → s.Accepted q → (s.peer p).nodeId = (s.peer q).nodeId → p = q
  bounded : s.acceptedPeers.length ≤ s.maximumNumberOfConnections

lemma mem_acceptedPeers : p ∈ s.acceptedPeers ↔ s.Accepted p := by
  simp [acceptedPeers, Accepted]

/-! ### Nobody is accepted -/

/-- Who counts and is accepted was so before, by the same greeting. -/
structure AcceptsLess (s s' : HandshakeNode ι) : Prop where
  nodeId : s'.nodeId = s.nodeId
  chainId : s'.chainId = s.chainId
  maximum : s'.maximumNumberOfConnections = s.maximumNumberOfConnections
  allowed : s'.allowedPeers = s.allowedPeers
  distinct : s.listed.Nodup → s'.listed.Nodup
  accepted : ∀ p, s'.Accepted p → s.Accepted p ∧ (s'.peer p).nodeId = (s.peer p).nodeId ∧
    (s'.peer p).acceptedHello = (s.peer p).acceptedHello

lemma AcceptsLess.admits (h : AcceptsLess s s') (hs : s.Admits) : s'.Admits where
  distinct := h.distinct hs.distinct
  checked p hp := by
    obtain ⟨hp, hid, hhello⟩ := h.accepted p hp
    obtain ⟨m, hm, hchecked⟩ := hs.checked p hp
    exact ⟨m, hhello.trans hm, hchecked.signed, hchecked.chain.trans h.chainId.symm,
      hid.trans hchecked.id, h.nodeId ▸ hchecked.foreign, h.allowed ▸ hchecked.allowed⟩
  unique p q hp hq heq := by
    obtain ⟨hp, hidp, -⟩ := h.accepted p hp
    obtain ⟨hq, hidq, -⟩ := h.accepted q hq
    exact hs.unique p q hp hq (hidp.symm.trans (heq.trans hidq))
  bounded := by
    have hsub : s'.acceptedPeers ⊆ s.acceptedPeers := fun p hp =>
      mem_acceptedPeers.mpr (h.accepted p (mem_acceptedPeers.mp hp)).1
    have hnodup : s'.acceptedPeers.Nodup := (h.distinct hs.distinct).filter _
    exact h.maximum ▸ (List.subperm_of_subset hnodup hsub).length_le.trans hs.bounded

/-- The peer is changed, and then it does not count any more. -/
lemma acceptsLess_of_out {f : HandshakePeer ι → HandshakePeer ι}
    (h : s'.handshakingConnections = s.handshakingConnections.filter (· ≠ p))
    (h' : s'.activeConnections = s.activeConnections.filter (· ≠ p))
    (hpeer : s'.peer = Function.update s.peer p (f (s.peer p))) (hid : s'.nodeId = s.nodeId)
    (hchain : s'.chainId = s.chainId)
    (hmax : s'.maximumNumberOfConnections = s.maximumNumberOfConnections)
    (hallowed : s'.allowedPeers = s.allowedPeers) : AcceptsLess s s' := by
  have hlisted : s'.listed = s.listed.filter (· ≠ p) := by
    rw [listed, h, h', ← List.filter_append, listed]
  refine ⟨hid, hchain, hmax, hallowed, fun hs => hlisted ▸ hs.filter _, fun q hq => ?_⟩
  obtain ⟨hq, hstate⟩ := hq
  obtain ⟨hq, hne⟩ := List.mem_filter.mp (hlisted ▸ hq)
  have hsame : s'.peer q = s.peer q := by
    rw [hpeer, Function.update_of_ne (by simpa using hne)]
  exact ⟨⟨hq, hsame ▸ hstate⟩, by rw [hsame], by rw [hsame]⟩

lemma acceptsLess_close (s : HandshakeNode ι) (p : ℕ) (f : HandshakePeer ι → HandshakePeer ι) :
    AcceptsLess s ((s.modifyPeer p f).movePeerToClosingList p) :=
  acceptsLess_of_out (f := f) rfl rfl rfl rfl rfl rfl rfl

lemma acceptsLess_end (s : HandshakeNode ι) (p : ℕ) (f : HandshakePeer ι → HandshakePeer ι) :
    AcceptsLess s ((s.modifyPeer p f).onConnectionClosed p) :=
  acceptsLess_of_out (f := f) rfl rfl rfl rfl rfl rfl rfl

lemma acceptsLess_movePeerToClosingList (s : HandshakeNode ι) (p : ℕ) :
    AcceptsLess s (s.movePeerToClosingList p) :=
  acceptsLess_of_out (f := id) rfl rfl (Function.update_eq_self p s.peer).symm rfl rfl rfl rfl

lemma acceptsLess_onConnectionClosed (s : HandshakeNode ι) (p : ℕ) :
    AcceptsLess s (s.onConnectionClosed p) :=
  acceptsLess_of_out (f := id) rfl rfl (Function.update_eq_self p s.peer).symm rfl rfl rfl rfl

lemma modifyPeer_modifyPeer {f g : HandshakePeer ι → HandshakePeer ι} :
    (s.modifyPeer p f).modifyPeer p g = s.modifyPeer p fun c => g (f c) := by
  simp [modifyPeer]

/-- The peer is changed, but not by accepting its greeting. -/
lemma acceptsLess_modifyPeer {f : HandshakePeer ι → HandshakePeer ι}
    (h : (f (s.peer p)).theirState = .connectionAccepted →
      (s.peer p).theirState = .connectionAccepted ∧ (f (s.peer p)).nodeId = (s.peer p).nodeId ∧
        (f (s.peer p)).acceptedHello = (s.peer p).acceptedHello) :
    AcceptsLess s (s.modifyPeer p f) := by
  refine ⟨rfl, rfl, rfl, rfl, id, fun q hq => ?_⟩
  obtain ⟨hq, hstate⟩ := hq
  by_cases heq : q = p
  · subst heq
    have hself : (s.modifyPeer q f).peer q = f (s.peer q) := Function.update_self ..
    rw [hself] at hstate ⊢
    obtain ⟨hacc, hid, hhello⟩ := h hstate
    exact ⟨⟨hq, hacc⟩, hid, hhello⟩
  · have hsame : (s.modifyPeer p f).peer q = s.peer q := Function.update_of_ne heq ..
    rw [hsame] at hstate ⊢
    exact ⟨⟨hq, hstate⟩, rfl, rfl⟩

lemma acceptsLess_movePeerToActiveList (hp : p ∈ s.handshakingConnections) :
    AcceptsLess s (s.movePeerToActiveList p) := by
  have hmem : ∀ q, q ∈ (s.movePeerToActiveList p).listed → q ∈ s.listed := by
    intro q hq
    rcases List.mem_append.mp hq with hq | hq
    · exact List.mem_append_left _ (List.mem_filter.mp hq).1
    · rcases List.mem_insert_iff.mp hq with rfl | hq
      · exact List.mem_append_left _ hp
      · exact List.mem_append_right _ hq
  refine ⟨rfl, rfl, rfl, rfl, fun hs => ?_, fun q hq => ⟨⟨hmem q hq.1, hq.2⟩, rfl, rfl⟩⟩
  obtain ⟨hhand, hactive, hapart⟩ := List.nodup_append.mp hs
  refine List.nodup_append.mpr ⟨hhand.filter _, hactive.insert, fun q hq r hr heq => ?_⟩
  obtain ⟨hq, hne⟩ := List.mem_filter.mp hq
  subst heq
  exact hapart q hq q ((List.mem_insert_iff.mp hr).resolve_left (by simpa using hne)) rfl

lemma admits_addConnection {inbound : Bool} (hs : s.Admits) :
    (s.addConnection p inbound).Admits := by
  by_cases hp : p ∈ s.connections
  · rwa [addConnection, if_pos hp]
  · have hnew : p ∉ s.listed := fun h => hp (List.mem_append_left _ h)
    have hlisted : (s.addConnection p inbound).listed = p :: s.listed := by
      simp [addConnection, hp, listed]
    refine AcceptsLess.admits (s := s) ?_ hs
    refine ⟨?_, ?_, ?_, ?_, fun h => hlisted ▸ List.nodup_cons.mpr ⟨hnew, h⟩, fun q hq => ?_⟩
    · simp [addConnection, hp]
    · simp [addConnection, hp]
    · simp [addConnection, hp]
    · simp [addConnection, hp]
    · obtain ⟨hq, hstate⟩ := hq
      by_cases hqp : q = p
      · simp [addConnection, hp, hqp] at hstate
      · rw [peer_addConnection_of_ne hqp] at hstate ⊢
        exact ⟨⟨(List.mem_cons.mp (hlisted ▸ hq)).resolve_left hqp, hstate⟩, rfl, rfl⟩

lemma admits_fromPeer {f : HandshakeNode ι → HandshakeNode ι} (hs : s.Admits) (h : (f s).Admits) :
    (s.fromPeer p f).Admits := by
  unfold fromPeer
  split_ifs
  · exact h
  · exact hs

lemma admits_start (i : ι) (chain max : ℕ) (allowed : List ι) (forks : List ℕ) :
    (start i chain max allowed forks).Admits :=
  ⟨List.nodup_nil, fun _ h => absurd h.1 List.not_mem_nil, fun _ _ h => absurd h.1 List.not_mem_nil,
    Nat.zero_le _⟩

/-! ### Active peers -/

/-- The handshake with the active peers is complete. -/
def Negotiated (s : HandshakeNode ι) : Prop :=
  ∀ p ∈ s.activeConnections, (s.peer p).ourState = .connectionAccepted ∧
    (s.peer p).theirState = .connectionAccepted

/-- The active peers are among those that were active, and are as they were. -/
lemma Negotiated.of_subset (h : s.Negotiated) (hactive : s'.activeConnections ⊆ s.activeConnections)
    (hpeer : ∀ p ∈ s'.activeConnections, (s'.peer p).ourState = (s.peer p).ourState ∧
      (s'.peer p).theirState = (s.peer p).theirState) : s'.Negotiated := fun p hp => by
  obtain ⟨hour, htheir⟩ := hpeer p hp
  exact hour ▸ htheir ▸ h p (hactive hp)

/-- A peer that is changed, and is not active. -/
lemma Negotiated.modifyPeer {f : HandshakePeer ι → HandshakePeer ι} (h : s.Negotiated)
    (hf : p ∈ s.activeConnections → (f (s.peer p)).ourState = .connectionAccepted ∧
      (f (s.peer p)).theirState = .connectionAccepted) : (s.modifyPeer p f).Negotiated := fun q hq => by
  by_cases hqp : q = p
  · subst hqp
    simpa [HandshakeNode.modifyPeer] using hf hq
  · simpa [HandshakeNode.modifyPeer, hqp] using h q hq

/-- A peer is changed, and then it is not active any more. -/
lemma Negotiated.of_out {f : HandshakePeer ι → HandshakePeer ι} (h : s.Negotiated)
    (hactive : s'.activeConnections = s.activeConnections.filter (· ≠ p))
    (hpeer : s'.peer = Function.update s.peer p (f (s.peer p))) : s'.Negotiated := fun q hq => by
  obtain ⟨hq, hne⟩ := List.mem_filter.mp (hactive ▸ hq)
  have hsame : s'.peer q = s.peer q := by
    rw [hpeer, Function.update_of_ne (by simpa using hne)]
  rw [hsame]
  exact h q hq

lemma Negotiated.close (h : s.Negotiated) (f : HandshakePeer ι → HandshakePeer ι) :
    ((s.modifyPeer p f).movePeerToClosingList p).Negotiated :=
  h.of_out (f := f) rfl rfl

lemma Negotiated.end (h : s.Negotiated) (f : HandshakePeer ι → HandshakePeer ι) :
    ((s.modifyPeer p f).onConnectionClosed p).Negotiated :=
  h.of_out (f := f) rfl rfl

lemma Negotiated.movePeerToClosingList (h : s.Negotiated) :
    (s.movePeerToClosingList p).Negotiated :=
  h.of_out (f := id) rfl (Function.update_eq_self p s.peer).symm

lemma Negotiated.onConnectionClosed (h : s.Negotiated) : (s.onConnectionClosed p).Negotiated :=
  h.of_out (f := id) rfl (Function.update_eq_self p s.peer).symm

lemma Negotiated.addConnection {inbound : Bool} (h : s.Negotiated) :
    (s.addConnection p inbound).Negotiated := by
  by_cases hp : p ∈ s.connections
  · rwa [HandshakeNode.addConnection, if_pos hp]
  · have hactive : (s.addConnection p inbound).activeConnections = s.activeConnections := by
      simp [HandshakeNode.addConnection, hp]
    refine h.of_subset (hactive ▸ List.Subset.refl _) fun q hq => ?_
    have hqp : q ≠ p := fun heq => hp (by simp [connections, ← heq, hactive ▸ hq])
    rw [peer_addConnection_of_ne hqp]
    exact ⟨rfl, rfl⟩

/-- A peer becomes active. -/
lemma Negotiated.movePeerToActiveList_iff (h : s.Negotiated) :
    (s.movePeerToActiveList p).Negotiated ↔
      (s.peer p).ourState = .connectionAccepted ∧ (s.peer p).theirState = .connectionAccepted := by
  have hmem : ∀ q, q ∈ (s.movePeerToActiveList p).activeConnections ↔
      q = p ∨ q ∈ s.activeConnections := fun q => List.mem_insert_iff
  constructor
  · intro hneg
    exact hneg p ((hmem p).mpr (.inl rfl))
  · intro haccepted q hq
    rcases (hmem q).mp hq with rfl | hq
    · exact haccepted
    · exact h q hq

/-- Addresses from a peer whose handshake is under way. -/
lemma Negotiated.onAddressMessage_iff (h : s.Negotiated) :
    (s.onAddressMessage p).Negotiated ↔ (p ∈ s.handshakingConnections →
      (s.peer p).ourState = .connectionRejected ∨ (s.peer p).theirState = .connectionRejected ∨
        ((s.peer p).ourState = .connectionAccepted ∧ (s.peer p).theirState = .connectionAccepted)) := by
  unfold HandshakeNode.onAddressMessage
  split_ifs with hp hrejected
  · refine iff_of_true h.movePeerToClosingList fun _ => ?_
    exact hrejected.imp_right .inl
  · rw [not_or] at hrejected
    rw [h.movePeerToActiveList_iff]
    constructor
    · intro haccepted _
      exact .inr (.inr haccepted)
    · intro hinorder
      exact ((hinorder hp).resolve_left hrejected.1).resolve_left hrejected.2
  · exact iff_of_true h fun hin => absurd hin hp

/-- A request for block ids of a peer that has connected to us. -/
lemma Negotiated.onFetchBlockchainItemIdsMessage_iff {inhibited : Bool} (h : s.Negotiated) :
    (s.onFetchBlockchainItemIdsMessage p inhibited).Negotiated ↔
      (inhibited = false → (s.peer p).inbound = true → p ∈ s.handshakingConnections →
        (s.peer p).ourState = .connectionAccepted ∧ (s.peer p).theirState = .connectionAccepted) := by
  unfold HandshakeNode.onFetchBlockchainItemIdsMessage
  split_ifs with hinhibited hmoved
  · refine iff_of_true h.movePeerToClosingList fun hnot => ?_
    simp [hinhibited] at hnot
  · rw [h.movePeerToActiveList_iff]
    exact ⟨fun haccepted _ _ _ => haccepted, fun hinorder =>
      hinorder (by simpa using hinhibited) hmoved.1 hmoved.2⟩
  · exact iff_of_true h fun _ hin hp => absurd ⟨hin, hp⟩ hmoved

/-! ### Somebody is accepted -/

lemma nodeId_guessFork {ctx : HelloContext} {h : HelloMessage ι} {c : HandshakePeer ι}
    (hread : h.isReadable = true) : (guessFork ctx (storeHello h c)).nodeId = h.peerNodeId := by
  simp only [HelloMessage.isReadable, Bool.and_eq_true] at hread
  unfold guessFork
  split_ifs <;> simp [storeHello, hread.1.1.1]

variable [DecidableEq ι]

/-- What a verdict to accept is about. -/
lemma of_helloVerdict_accept {ctx : HelloContext} {h : HelloMessage ι} {already : Bool}
    (hv : s.helloVerdict ctx p h already = .accept) :
    h.signer = some h.nodePublicKey ∧ h.chainId = s.chainId ∧ already = false ∧
      (s.allowedPeers = [] ∨ (s.peer p).nodeId ∈ s.allowedPeers) ∧
      s.listed.length ≤ s.maximumNumberOfConnections := by
  unfold helloVerdict at hv
  simp only at hv
  split_ifs at hv with hstate hsigner hchain houtdated halready hallowed haccepting
  refine ⟨not_not.mp hsigner, not_not.mp hchain, by simpa using halready, ?_, ?_⟩
  · rw [not_and_or, not_not, not_not] at hallowed
    exact hallowed
  · simp only [isAcceptingNewConnections, Bool.and_eq_true, decide_eq_true_eq] at haccepting
    simpa [listed] using haccepting.2

/-- A node whose id is not known yet. -/
lemma of_not_isAlreadyConnected {i : ι} (h : s.isAlreadyConnectedToId i = false) :
    i ≠ s.nodeId ∧ ∀ q ∈ s.listed, (s.peer q).nodeId ≠ i := by
  simp only [isAlreadyConnectedToId, Bool.or_eq_false_iff, decide_eq_false_iff_not,
    List.any_eq_false, decide_eq_true_eq] at h
  exact ⟨h.1.1, fun q hq => (List.mem_append.mp hq).elim (h.2 q) (h.1.2 q)⟩

lemma admits_accept {c : HandshakePeer ι} {h : HelloMessage ι} (hs : s.Admits)
    (hlisted : s'.listed = s.listed)
    (hpeer : s'.peer = Function.update s.peer p c) (hid : s'.nodeId = s.nodeId)
    (hchain : s'.chainId = s.chainId)
    (hmax : s'.maximumNumberOfConnections = s.maximumNumberOfConnections)
    (hallowed : s'.allowedPeers = s.allowedPeers) (hnew : s.isAlreadyConnectedToId h.peerNodeId = false)
    (hhello : c.acceptedHello = some h) (hcid : c.nodeId = h.peerNodeId)
    (hsigned : h.signer = some h.nodePublicKey) (hown : h.chainId = s.chainId)
    (hin : s.allowedPeers = [] ∨ h.peerNodeId ∈ s.allowedPeers)
    (hroom : s.listed.length ≤ s.maximumNumberOfConnections) : s'.Admits := by
  obtain ⟨hforeign, hothers⟩ := of_not_isAlreadyConnected hnew
  have hself : s'.peer p = c := by rw [hpeer, Function.update_self]
  have hsame : ∀ q, q ≠ p → s'.peer q = s.peer q := fun q hq => by
    rw [hpeer, Function.update_of_ne hq]
  have haccepted : ∀ q, q ≠ p → s'.Accepted q → s.Accepted q := fun q hq hacc =>
    ⟨hlisted ▸ hacc.1, hsame q hq ▸ hacc.2⟩
  refine ⟨hlisted ▸ hs.distinct, fun q hq => ?_, fun q r hq hr heq => ?_, ?_⟩
  · by_cases hqp : q = p
    · subst hqp
      exact ⟨h, hself ▸ hhello, hsigned, hown.trans hchain.symm, hself ▸ hcid, hid ▸ hforeign,
        hallowed ▸ hin⟩
    · obtain ⟨m, hm, hc⟩ := hs.checked q (haccepted q hqp hq)
      exact ⟨m, hsame q hqp ▸ hm, hc.signed, hc.chain.trans hchain.symm, hsame q hqp ▸ hc.id,
        hid ▸ hc.foreign, hallowed ▸ hc.allowed⟩
  · -- the new peer has an id that none of the others has
    by_cases hqp : q = p <;> by_cases hrp : r = p
    · exact hqp.trans hrp.symm
    · rw [hqp, hself, hcid, hsame r hrp] at heq
      exact absurd heq.symm (hothers r (hlisted ▸ hr.1))
    · rw [hrp, hself, hcid, hsame q hqp] at heq
      exact absurd heq (hothers q (hlisted ▸ hq.1))
    · rw [hsame q hqp, hsame r hrp] at heq
      exact hs.unique q r (haccepted q hqp hq) (haccepted r hrp hr) heq
  · calc s'.acceptedPeers.length ≤ s'.listed.length := List.length_filter_le _ _
      _ = s.listed.length := by rw [hlisted]
      _ ≤ s.maximumNumberOfConnections := hroom
      _ = s'.maximumNumberOfConnections := hmax.symm

lemma admits_onHelloMessage {ctx : HelloContext} {h : HelloMessage ι} (hs : s.Admits) :
    (s.onHelloMessage ctx p h).Admits := by
  unfold onHelloMessage
  simp only
  split_ifs with hsigner hread
  · exact (acceptsLess_onConnectionClosed s p).admits hs
  · generalize hs₁ : s.modifyPeer p (fun c => guessFork ctx (storeHello h c)) = s₁
    cases hv : s₁.helloVerdict ctx p h (s.isAlreadyConnectedToId h.peerNodeId) with
    | disconnect =>
        subst hs₁
        exact (acceptsLess_close s p _).admits hs
    | rejectAndDisconnect =>
        subst hs₁
        rw [applyVerdict, rejectHello, modifyPeer_modifyPeer]
        exact (acceptsLess_close s p _).admits hs
    | reject =>
        subst hs₁
        rw [applyVerdict, rejectHello, modifyPeer_modifyPeer]
        exact (acceptsLess_modifyPeer fun hacc => by simp at hacc).admits hs
    | accept =>
        obtain ⟨hsigned, hown, hnew, hin, hroom⟩ := of_helloVerdict_accept hv
        subst hs₁
        have hnode : ((s.modifyPeer p fun c => guessFork ctx (storeHello h c)).peer p).nodeId =
            h.peerNodeId := by
          simpa [modifyPeer] using nodeId_guessFork hread
        rw [hnode] at hin
        refine admits_accept (s := s) (p := p) (h := h) hs rfl (c :=
          { guessFork ctx (storeHello h (s.peer p)) with
            theirState := .connectionAccepted, acceptedHello := some h }) ?_ rfl rfl rfl rfl hnew rfl
          (nodeId_guessFork hread) hsigned hown hin hroom
        simp [applyVerdict, modifyPeer]
  · exact (acceptsLess_end s p _).admits hs

/-! ### Whatever happens -/

/-- **One step.** -/
theorem admits_handle (s : HandshakeNode ι) (e : HandshakeEvent ι) (hs : s.Admits) :
    (s.handle e).Admits := by
  cases e with
  | connect p inbound => exact admits_addConnection hs
  | established p =>
      refine admits_fromPeer hs ?_
      unfold establish
      split_ifs
      · exact (acceptsLess_modifyPeer fun hacc => by simp at hacc).admits hs
      · exact hs
  | hello ctx p h => exact admits_fromPeer hs (admits_onHelloMessage hs)
  | connectionAccepted p =>
      exact admits_fromPeer hs ((acceptsLess_modifyPeer fun hacc => ⟨hacc, rfl, rfl⟩).admits hs)
  | connectionRejected p toSelf =>
      refine admits_fromPeer hs ?_
      have hmod : ∀ {s' : HandshakeNode ι}, s'.Admits → (s'.modifyPeer p fun c =>
          { c with ourState := .connectionRejected }).Admits := fun h =>
        (acceptsLess_modifyPeer fun hacc => ⟨hacc, rfl, rfl⟩).admits h
      unfold onConnectionRejectedMessage
      split_ifs
      · exact hmod ((acceptsLess_movePeerToClosingList s p).admits hs)
      · exact hmod hs
      · exact (acceptsLess_onConnectionClosed s p).admits hs
  | address p =>
      refine admits_fromPeer hs ?_
      unfold onAddressMessage
      split_ifs with hp
      · exact (acceptsLess_movePeerToClosingList s p).admits hs
      · exact (acceptsLess_movePeerToActiveList hp).admits hs
      · exact hs
  | fetchBlockchainItemIds p inhibited =>
      refine admits_fromPeer hs ?_
      unfold onFetchBlockchainItemIdsMessage
      split_ifs with _ hp
      · exact (acceptsLess_movePeerToClosingList s p).admits hs
      · exact (acceptsLess_movePeerToActiveList hp.2).admits hs
      · exact hs
  | disconnect p => exact admits_fromPeer hs ((acceptsLess_movePeerToClosingList s p).admits hs)
  | connectionClosed p => exact admits_fromPeer hs ((acceptsLess_onConnectionClosed s p).admits hs)

/-- **Admission.** In every run, whoever has been accepted and counts has signed its greeting with its
own key, is on the same chain, is allowed, and is neither the node itself nor the same node as another
that has been accepted; and those are no more than the node may have. -/
theorem admits_run (i : ι) (chain max : ℕ) (allowed : List ι) (forks : List ℕ)
    (es : List (HandshakeEvent ι)) :
    Runs.Always handle Admits (start i chain max allowed forks) es :=
  Runs.always_of_step admits_handle (admits_start i chain max allowed forks)

/-- Addresses that come in the handshake come when it is complete, or when it has failed; and when a peer
that has connected to us asks for block ids, and is not turned away, it is complete. -/
def InOrder (s : HandshakeNode ι) : HandshakeEvent ι → Prop
  | .address p => p ∈ s.handshakingConnections →
      (s.peer p).ourState = .connectionRejected ∨ (s.peer p).theirState = .connectionRejected ∨
        ((s.peer p).ourState = .connectionAccepted ∧ (s.peer p).theirState = .connectionAccepted)
  | .fetchBlockchainItemIds p inhibited => inhibited = false → (s.peer p).inbound = true →
      p ∈ s.handshakingConnections →
        (s.peer p).ourState = .connectionAccepted ∧ (s.peer p).theirState = .connectionAccepted
  | _ => True

/-- A greeting of an active peer, after its handshake, ends the connection. -/
lemma Negotiated.onHelloMessage {ctx : HelloContext} {m : HelloMessage ι} (h : s.Negotiated) :
    (s.onHelloMessage ctx p m).Negotiated := by
  unfold HandshakeNode.onHelloMessage
  simp only
  split_ifs
  · exact h.onConnectionClosed
  · have htheir : ((s.modifyPeer p fun c => guessFork ctx (storeHello m c)).peer p).theirState =
        (s.peer p).theirState := by
      simp only [HandshakeNode.modifyPeer, Function.update_self, guessFork]
      split_ifs <;> rfl
    by_cases hactive : p ∈ s.activeConnections
    · have hv : (s.modifyPeer p fun c => guessFork ctx (storeHello m c)).helloVerdict ctx p m
          (s.isAlreadyConnectedToId m.peerNodeId) = .disconnect := by
        rw [helloVerdict, htheir, (h p hactive).2]
        rfl
      rw [hv]
      exact h.close _
    · cases (s.modifyPeer p fun c => guessFork ctx (storeHello m c)).helloVerdict ctx p m
          (s.isAlreadyConnectedToId m.peerNodeId) with
      | disconnect => exact h.close _
      | rejectAndDisconnect =>
          rw [applyVerdict, rejectHello, modifyPeer_modifyPeer]
          exact h.close _
      | reject =>
          rw [applyVerdict, rejectHello, modifyPeer_modifyPeer]
          exact h.modifyPeer fun hin => absurd hin hactive
      | accept =>
          rw [applyVerdict, modifyPeer_modifyPeer]
          exact h.modifyPeer fun hin => absurd hin hactive
  · exact h.end _

/-- **One step.** An event leaves the active peers negotiated exactly if it is in order. -/
theorem negotiated_handle_iff (s : HandshakeNode ι) (e : HandshakeEvent ι) (h : s.Negotiated) :
    (s.handle e).Negotiated ↔ s.InOrder e := by
  have hpeer : ∀ {p : ℕ} {f : HandshakeNode ι → HandshakeNode ι}, (f s).Negotiated →
      ((s.fromPeer p f).Negotiated ↔ True) := fun {p f} hf => by
    refine iff_true_intro ?_
    unfold fromPeer
    split_ifs
    · exact hf
    · exact h
  cases e with
  | connect p inbound => exact iff_true_intro h.addConnection
  | established p =>
      refine hpeer ?_
      unfold establish
      split_ifs with hstate
      · refine h.modifyPeer fun hp => ?_
        rw [(h p hp).2] at hstate
        simp at hstate
      · exact h
  | hello ctx p m => exact hpeer h.onHelloMessage
  | connectionAccepted p => exact hpeer (h.modifyPeer fun hp => ⟨rfl, (h p hp).2⟩)
  | connectionRejected p toSelf =>
      refine hpeer ?_
      unfold onConnectionRejectedMessage
      split_ifs with hour
      · exact h.movePeerToClosingList.modifyPeer fun hp => by
          simp [HandshakeNode.movePeerToClosingList] at hp
      · refine h.modifyPeer fun hp => ?_
        rw [(h p hp).1] at hour
        simp at hour
      · exact h.onConnectionClosed
  | address p =>
      simp only [handle, fromPeer]
      split_ifs with hp
      · exact h.onAddressMessage_iff
      · exact iff_of_true h fun hin => absurd (by simp [connections, hin]) hp
  | fetchBlockchainItemIds p inhibited =>
      simp only [handle, fromPeer]
      split_ifs with hp
      · exact h.onFetchBlockchainItemIdsMessage_iff
      · exact iff_of_true h fun _ _ hin => absurd (by simp [connections, hin]) hp
  | disconnect p => exact hpeer h.movePeerToClosingList
  | connectionClosed p => exact hpeer h.onConnectionClosed

/-- **Active peers.** In all states of a run the active peers have accepted our greeting, and their
greeting was accepted, exactly if before that no peer that has not been rejected sends addresses, and
none that has connected to us asks for block ids without being turned away. -/
theorem negotiated_iff (i : ι) (chain max : ℕ) (allowed : List ι) (forks : List ℕ)
    (es : List (HandshakeEvent ι)) :
    Runs.Always handle Negotiated (start i chain max allowed forks) es ↔
      Runs.Each handle InOrder (start i chain max allowed forks) es :=
  Runs.always_iff (W := fun _ => True) (fun _ _ _ => trivial)
    (fun s e _ h => negotiated_handle_iff s e h) trivial fun _ hp => absurd hp List.not_mem_nil

end ZosCore.Net.HandshakeNode
