import Mathlib.Data.List.DropRight
import ZosCore.Net.ItemsToGet

/-!
How many blocks a peer offers.

A reply says how many blocks the peer has beyond those that it names, and there may be as many as have
been produced since the last block that the delegate has seen from the peer: if there are more, the peer
is disconnected. The number is whatever the peer says, and the time of the last block is the sum of two
`uint32_t`s, so that the numbers that are too large by far pass. The sums in
`calculate_unsynced_block_count_from_all_peers` are of that type as well.

* `disconnects`: a reply is answered by disconnecting the peer.
* `timeSeen`, `listAfter`: the time from which the blocks are counted, and the list that they follow.
* `Plausible`: the chain of the peer may be that long, and the count is that of the peer with the most
  blocks.
* `WithinCounters`: no sum gets out of its type.
* **`plausible_iff`**: what is not answered by disconnecting is plausible exactly if it is within the
  counters.
-/

namespace ZosCore.Net

/-! ### Sums modulo a number -/

/-- A maximum modulo `n` is the maximum exactly if all are below `n`. -/
lemma foldr_max_mod_eq_iff {n : ℕ} (hn : 0 < n) (l : List ℕ) :
    (l.map (· % n)).foldr max 0 = l.foldr max 0 ↔ ∀ x ∈ l, x < n := by
  have hbound : ∀ l : List ℕ, (l.map (· % n)).foldr max 0 < n := fun l => by
    induction l with
    | nil => exact hn
    | cons x l ih => exact max_lt (Nat.mod_lt x hn) ih
  constructor
  · intro heq x hx
    have hle : ∀ l : List ℕ, x ∈ l → x ≤ l.foldr max 0 := fun l hx => by
      induction l with
      | nil => cases hx
      | cons y l ih =>
          rcases List.mem_cons.mp hx with rfl | hx
          · exact le_max_left _ _
          · exact (ih hx).trans (le_max_right _ _)
    exact (hle l hx).trans_lt (heq ▸ hbound l)
  · intro h
    have hmap : l.map (· % n) = l := by
      conv_rhs => rw [← List.map_id l]
      exact List.map_congr_left fun x hx => Nat.mod_eq_of_lt (h x hx)
    rw [hmap]

namespace NodeImpl

variable {β : Type}

/-! ### What a reply does -/

/-- `on_blockchain_item_ids_inventory_message` answers by disconnecting the peer: a check fails, the
peer offers too many blocks, or the next request cannot be made. -/
def disconnects (d : Delegate β) (p : ℕ) (m : BlockchainItemIds) (s : NodeImpl β) : Bool :=
  match (s.peer p).itemIdsRequestedFromPeer with
  | none => false
  | some synopsis =>
      let c := ((s.resetRequest p).mergeReply d p m).peer p
      !passesChecks synopsis m || !isUpToDate d m (s.peer p) &&
        (offersTooMany d c || !hasIdsToFetch m c && (d.synopsisForPeer c).isNone)

/-- The block that is seen with the reply, if there is one. -/
def newlySeen (d : Delegate β) (isFirst : Bool) (ids : List ItemHash) (c : PeerConnection) :
    Option ItemHash :=
  if c.idsOfItemsToGet = [] then if isFirst then none else (ids.takeWhile d.hasItem).getLast?
  else ids.head?.filter (· ∉ c.idsOfItemsToGet)

/-- The time from which the blocks are counted that the peer offers. -/
def timeSeen (d : Delegate β) (p : ℕ) (m : BlockchainItemIds) (s : NodeImpl β) : ℕ :=
  (newlySeen d (s.startsForOther p m) m.itemHashesAvailable (s.peer p)).elim
    (s.peer p).lastBlockTimeDelegateHasSeen d.getBlockTime

/-- What is kept of the list: all before the first id of the reply. -/
def keptIds (ids : List ItemHash) (c : PeerConnection) : List ItemHash :=
  ids.head?.elim c.idsOfItemsToGet fun id => (c.idsOfItemsToGet.rdropWhile (· ≠ id)).dropLast

/-- The list with the reply. -/
def listAfter (d : Delegate β) (p : ℕ) (m : BlockchainItemIds) (s : NodeImpl β) : List ItemHash :=
  keptIds m.itemHashesAvailable (s.peer p) ++
    addedIds d (s.startsForOther p m) m.itemHashesAvailable (s.peer p)

/-- The blocks that a peer is known to have for us. -/
def blocksOf (s : NodeImpl β) (p : ℕ) : ℕ :=
  (s.peer p).idsOfItemsToGet.length + (s.peer p).numberOfUnfetchedItemIds

/-- Those of the peer that has the most. -/
def mostBlocks (s : NodeImpl β) : ℕ := (s.activeConnections.map s.blocksOf).foldr max 0

/-- The blocks that a peer is known to have for us after a reply. -/
def blocksAfter (d : Delegate β) (p : ℕ) (m : BlockchainItemIds) (s : NodeImpl β) (q : ℕ) : ℕ :=
  if q = p ∧ isUpToDate d m (s.peer p) = false then
    (s.listAfter d p m).length + m.totalRemainingItemCount
  else s.blocksOf q

/-- The blocks that the peer offers may have been produced by now, or in the grace period, and the
count of blocks is that of the peer with the most. -/
structure Plausible (d : Delegate β) (p : ℕ) (m : BlockchainItemIds) (s : NodeImpl β) : Prop where
  time : (s.peer p).lastBlockTimeDelegateHasSeen + m.totalRemainingItemCount * minBlockInterval ≤
    d.now + futureSyncBlocksGracePeriodSec
  count : s.calculateUnsyncedBlockCountFromAllPeers = s.mostBlocks

/-- No sum gets out of its type. The time of the last block of a peer that has no others is not
checked. -/
structure WithinCounters (d : Delegate β) (p : ℕ) (m : BlockchainItemIds) (s : NodeImpl β) :
    Prop where
  upToDate : isUpToDate d m (s.peer p) = true →
    (s.peer p).lastBlockTimeDelegateHasSeen ≤ d.now + futureSyncBlocksGracePeriodSec
  time : isUpToDate d m (s.peer p) = false →
    s.timeSeen d p m + m.totalRemainingItemCount * minBlockInterval < 2 ^ 32 ∨
      2 ^ 32 ≤ d.now + futureSyncBlocksGracePeriodSec
  blocks : ∀ q ∈ s.activeConnections, s.blocksAfter d p m q < 2 ^ 32

/-! ### The merge -/

variable {d : Delegate β} {p : ℕ} {m : BlockchainItemIds} {s : NodeImpl β}

lemma popBackUntil_eq_rdropWhile (id : ItemHash) (l : List ItemHash) :
    popBackUntil id l = l.rdropWhile (· ≠ id) := by
  induction l with
  | nil => rfl
  | cons x l ih =>
      have hstep : (x :: l).rdropWhile (· ≠ id) =
          if l.rdropWhile (· ≠ id) = [] then if x = id then [x] else []
          else x :: l.rdropWhile (· ≠ id) := by
        simp only [List.rdropWhile, List.reverse_cons, List.dropWhile_append]
        by_cases hl : ∀ y ∈ l, ¬ y = id
        · by_cases hx : x = id <;> simp [if_pos hl, hx]
        · simp [hl]
      rw [hstep, popBackUntil, ih]
      cases l.rdropWhile (· ≠ id) <;> rfl

lemma dropSeen_fst (l : List ItemHash) : (dropSeen d l).1 = (l.takeWhile d.hasItem).getLast? := by
  induction l with
  | nil => rfl
  | cons x l ih =>
      by_cases hx : d.hasItem x
      · rw [dropSeen, if_pos hx, List.takeWhile_cons_of_pos hx, List.getLast?_cons, ← ih]
      · rw [dropSeen, if_neg hx, List.takeWhile_cons_of_neg hx]
        rfl

/-- **The list of the peer** after the merge. -/
lemma mergeItemIds_idsOfItemsToGet (isFirst : Bool) (ids : List ItemHash) (c : PeerConnection) :
    (mergeItemIds d isFirst ids c).idsOfItemsToGet = keptIds ids c ++ addedIds d isFirst ids c := by
  by_cases hempty : c.idsOfItemsToGet = []
  · have hkept : keptIds ids c = [] := by cases ids <;> simp [keptIds, hempty]
    rw [mergeItemIds_of_nil hempty, hkept, List.nil_append]
  · cases ids with
    | nil => simp [mergeItemIds, keptIds, addedIds, hempty]
    | cons first rest =>
        have hpop := popBackUntil_eq_rdropWhile first c.idsOfItemsToGet
        by_cases hmem : first ∈ c.idsOfItemsToGet
        · have hadded : addedIds d isFirst (first :: rest) c = first :: rest := by
            simp [addedIds, hempty, hmem]
          obtain ⟨kept, hkept, -⟩ := popBackUntil_of_mem hmem
          rw [mergeItemIds, if_neg hempty, hadded, keptIds, List.head?_cons, Option.elim_some, ← hpop]
          cases hcase : popBackUntil first c.idsOfItemsToGet with
          | nil => simp [hkept] at hcase
          | cons x l => rfl
        · obtain ⟨hlist, hadded⟩ := mergeItemIds_of_not_mem d isFirst rest hempty hmem
          rw [popBackUntil_of_not_mem hmem] at hpop
          rw [hlist, hadded, keptIds, List.head?_cons, Option.elim_some, ← hpop]
          rfl

/-- **The time of the last block** that the delegate has seen, after the merge. -/
lemma mergeItemIds_time (isFirst : Bool) (ids : List ItemHash) (c : PeerConnection) :
    (mergeItemIds d isFirst ids c).lastBlockTimeDelegateHasSeen =
      (newlySeen d isFirst ids c).elim c.lastBlockTimeDelegateHasSeen d.getBlockTime := by
  cases ids with
  | nil => by_cases hempty : c.idsOfItemsToGet = [] <;> simp [mergeItemIds, newlySeen, hempty]
  | cons first rest =>
      by_cases hempty : c.idsOfItemsToGet = []
      · cases isFirst with
        | true => simp [mergeItemIds, newlySeen, hempty]
        | false =>
            have hseen := dropSeen_fst (d := d) (first :: rest)
            simp only [mergeItemIds, newlySeen, hempty, if_true, Bool.false_eq_true, if_false, ← hseen]
            rcases dropSeen d (first :: rest) with ⟨_ | last, remaining⟩ <;> rfl
      · by_cases hmem : first ∈ c.idsOfItemsToGet
        · obtain ⟨kept, hpop, -⟩ := popBackUntil_of_mem hmem
          rw [mergeItemIds, if_neg hempty]
          cases hcase : popBackUntil first c.idsOfItemsToGet with
          | nil => simp [hpop] at hcase
          | cons x l => simp [newlySeen, hempty, hmem, Option.filter_some]
        · rw [mergeItemIds, if_neg hempty, popBackUntil_of_not_mem hmem]
          simp [newlySeen, hempty, hmem, sawBlock, Option.filter_some]

/-! ### The handler -/

/-- The peer after a reply that is merged, but for the request. -/
lemma mergeReply_peer (q : ℕ) :
    (((s.resetRequest p).mergeReply d p m).peer q).lastBlockTimeDelegateHasSeen =
        (if q = p then s.timeSeen d p m else (s.peer q).lastBlockTimeDelegateHasSeen) ∧
      ((s.resetRequest p).mergeReply d p m).blocksOf q =
        if q = p then (s.listAfter d p m).length + m.totalRemainingItemCount else s.blocksOf q := by
  by_cases hq : q = p
  · subst hq
    have hself := mergeReply_peer_self (d := d) (s := s.resetRequest q) (p := q) m
    rw [startsForOther_resetRequest] at hself
    rw [if_pos rfl, if_pos rfl, blocksOf, hself]
    simp only [mergeItemIds_time, mergeItemIds_idsOfItemsToGet]
    simp [resetRequest, NodeImpl.modifyPeer, timeSeen, listAfter, newlySeen, keptIds, addedIds]
  · simp [mergeReply, resetRequest, NodeImpl.modifyPeer, blocksOf, hq]

/-- What the rest of the handler leaves of the lists and of the times. -/
structure SameBlocks (s s' : NodeImpl β) : Prop where
  active : s'.activeConnections = s.activeConnections
  time : ∀ q, (s'.peer q).lastBlockTimeDelegateHasSeen = (s.peer q).lastBlockTimeDelegateHasSeen
  blocks : ∀ q, s'.blocksOf q = s.blocksOf q

lemma SameBlocks.modifyPeer {f : PeerConnection → PeerConnection} (p : ℕ)
    (htime : ∀ c, (f c).lastBlockTimeDelegateHasSeen = c.lastBlockTimeDelegateHasSeen)
    (hlist : ∀ c, (f c).idsOfItemsToGet = c.idsOfItemsToGet)
    (hnumber : ∀ c, (f c).numberOfUnfetchedItemIds = c.numberOfUnfetchedItemIds) :
    SameBlocks s (s.modifyPeer p f) := by
  refine ⟨rfl, fun q => ?_, fun q => ?_⟩ <;> by_cases hq : q = p
  · subst hq
    simp [NodeImpl.modifyPeer, htime]
  · simp [NodeImpl.modifyPeer, hq]
  · subst hq
    simp [NodeImpl.modifyPeer, blocksOf, hlist, hnumber]
  · simp [NodeImpl.modifyPeer, blocksOf, hq]

/-- A merged reply that is not answered by disconnecting. -/
lemma SameBlocks.continueFetching (hoffers : offersTooMany d (s.peer p) = false)
    (hnext : hasIdsToFetch m (s.peer p) = true ∨ (d.synopsisForPeer (s.peer p)).isSome = true) :
    SameBlocks s (s.continueFetching d p m) := by
  rw [NodeImpl.continueFetching, if_neg (by simp [hoffers])]
  split_ifs with hids
  · exact ⟨rfl, fun _ => rfl, fun _ => rfl⟩
  · obtain ⟨synopsis, hsynopsis⟩ := Option.isSome_iff_exists.mp (hnext.resolve_left hids)
    have hpeer : d.synopsisForPeer (s.countUnfetchedItems.peer p) = some synopsis := hsynopsis
    simp only [NodeImpl.fetchNextBatchOfItemIdsFromPeer, hpeer]
    have hsame := SameBlocks.modifyPeer (s := s.countUnfetchedItems)
      (f := fun c => { c with itemIdsRequestedFromPeer := some synopsis }) p (fun _ => rfl)
      (fun _ => rfl) fun _ => rfl
    exact ⟨hsame.active, hsame.time, hsame.blocks⟩

section Handler

variable {synopsis : List ItemHash}

/-- **A reply that is not answered by disconnecting.** It has passed the check of the number of blocks,
unless the peer has no others. -/
lemma onBlockchainItemIdsInventoryMessage_of_kept
    (hrequest : (s.peer p).itemIdsRequestedFromPeer = some synopsis)
    (hkept : s.disconnects d p m = false) :
    let s' := s.onBlockchainItemIdsInventoryMessage d p m
    s'.activeConnections = s.activeConnections ∧ (∀ q, s'.blocksOf q = s.blocksAfter d p m q) ∧
      (isUpToDate d m (s.peer p) = true →
        (s'.peer p).lastBlockTimeDelegateHasSeen = (s.peer p).lastBlockTimeDelegateHasSeen) ∧
      (isUpToDate d m (s.peer p) = false →
        (s'.peer p).lastBlockTimeDelegateHasSeen = s.timeSeen d p m ∧
        (s.timeSeen d p m + m.totalRemainingItemCount * minBlockInterval) % 2 ^ 32 ≤
          (d.now + futureSyncBlocksGracePeriodSec) % 2 ^ 32) := by
  simp only [disconnects, hrequest, Bool.or_eq_false_iff, Bool.not_eq_false', Bool.and_eq_false_iff]
    at hkept
  obtain ⟨hchecks, hmerged⟩ := hkept
  have hreset : isUpToDate d m ((s.resetRequest p).peer p) = isUpToDate d m (s.peer p) := by
    simp [resetRequest, NodeImpl.modifyPeer, isUpToDate]
  have hhandler : s.onBlockchainItemIdsInventoryMessage d p m = s.acceptItemIds d p m := by
    simp [NodeImpl.onBlockchainItemIdsInventoryMessage, hrequest, hchecks]
  simp only [hhandler, acceptItemIds, hreset]
  cases hdone : isUpToDate d m (s.peer p) with
  | true =>
      have hfirst : SameBlocks s (s.resetRequest p) :=
        .modifyPeer p (fun _ => rfl) (fun _ => rfl) fun _ => rfl
      have hsecond : SameBlocks (s.resetRequest p) ((s.resetRequest p).modifyPeer p fun c =>
          { c with weNeedSyncItemsFromPeer := false }) :=
        .modifyPeer p (fun _ => rfl) (fun _ => rfl) fun _ => rfl
      simp only [if_true]
      refine ⟨rfl, fun q => ?_, fun _ => (hsecond.time p).trans (hfirst.time p),
        fun h => Bool.noConfusion h⟩
      rw [blocksAfter, if_neg (by simp [hdone])]
      exact (hsecond.blocks q).trans (hfirst.blocks q)
  | false =>
      obtain ⟨hoffers, hnext⟩ := hmerged.resolve_left (by simp [hdone])
      obtain ⟨htime, -⟩ := mergeReply_peer (d := d) (p := p) (m := m) (s := s) p
      rw [if_pos rfl] at htime
      have hsame : SameBlocks ((s.resetRequest p).mergeReply d p m)
          (((s.resetRequest p).mergeReply d p m).continueFetching d p m) := by
        refine .continueFetching hoffers (hnext.imp (fun h => h) fun h => ?_)
        simpa using h
      have hnumber : (((s.resetRequest p).mergeReply d p m).peer p).numberOfUnfetchedItemIds =
          m.totalRemainingItemCount := by rw [mergeReply_peer_self]
      simp only [Bool.false_eq_true, if_false]
      refine ⟨hsame.active, fun q => ?_, False.elim,
        fun _ => ⟨(hsame.time p).trans htime, ?_⟩⟩
      · rw [hsame.blocks, (mergeReply_peer q).2, blocksAfter]
        simp [hdone]
      · rw [offersTooMany, htime, hnumber, decide_eq_false_iff_not] at hoffers
        exact not_lt.mp hoffers

/-- **What is not answered by disconnecting is plausible** exactly if it is within the counters. The
numbers that come in are of type `uint32_t`. -/
theorem plausible_iff (s : NodeImpl β) (d : Delegate β) (p : ℕ) (m : BlockchainItemIds)
    (hrequest : (s.peer p).itemIdsRequestedFromPeer = some synopsis)
    (hkept : s.disconnects d p m = false) (hcount : m.totalRemainingItemCount < 2 ^ 32)
    (hnow : d.now < 2 ^ 32) (hseen : (s.peer p).lastBlockTimeDelegateHasSeen < 2 ^ 32)
    (htimes : ∀ id, d.getBlockTime id < 2 ^ 32) :
    (s.onBlockchainItemIdsInventoryMessage d p m).Plausible d p m ↔ s.WithinCounters d p m := by
  obtain ⟨hactive, hblocks, hdone, hmerged⟩ :=
    onBlockchainItemIdsInventoryMessage_of_kept hrequest hkept
  generalize s.onBlockchainItemIdsInventoryMessage d p m = s' at *
  have hcounts : s'.calculateUnsyncedBlockCountFromAllPeers = s'.mostBlocks ↔
      ∀ q ∈ s.activeConnections, s.blocksAfter d p m q < 2 ^ 32 := by
    have hmod : s'.calculateUnsyncedBlockCountFromAllPeers =
        ((s'.activeConnections.map s'.blocksOf).map (· % 2 ^ 32)).foldr max 0 := by
      rw [List.map_map]
      rfl
    rw [hmod, mostBlocks, foldr_max_mod_eq_iff (by norm_num), List.forall_mem_map, hactive]
    exact forall₂_congr fun q _ => by rw [hblocks]
  have htimeSeen : s.timeSeen d p m < 2 ^ 32 := by
    rw [timeSeen]
    cases newlySeen d (s.startsForOther p m) m.itemHashesAvailable (s.peer p) with
    | none => exact hseen
    | some id => exact htimes id
  constructor
  · rintro ⟨htime, hmost⟩
    refine ⟨fun h => ?_, fun h => ?_, hcounts.mp hmost⟩
    · rw [hdone h] at htime
      exact (Nat.le_add_right _ _).trans htime
    · rw [(hmerged h).1] at htime
      by_cases hwrap : 2 ^ 32 ≤ d.now + futureSyncBlocksGracePeriodSec
      · exact .inr hwrap
      · exact .inl (htime.trans_lt (not_le.mp hwrap))
  · rintro ⟨hupToDate, hfits, hsmall⟩
    refine ⟨?_, hcounts.mpr hsmall⟩
    cases h : isUpToDate d m (s.peer p) with
    | true =>
        have hnone : m.totalRemainingItemCount = 0 := by
          simp only [isUpToDate, Bool.and_eq_true, decide_eq_true_eq] at h
          exact h.1.1.1
        rw [hdone h, hnone, zero_mul, add_zero]
        exact hupToDate h
    | false =>
        obtain ⟨htime, hcheck⟩ := hmerged h
        have hfits := hfits h
        rw [htime]
        simp only [minBlockInterval, mul_one, futureSyncBlocksGracePeriodSec] at hcheck hfits ⊢
        omega

end Handler

/-! ### A run -/

/-- The delegate of a node with one block, the block of the synopsis. -/
def oneBlockSynopsis : Delegate Unit where
  hasItem id := id = ⟨1, 1⟩
  getBlockTime id := if id = ⟨1, 1⟩ then 1600000000 else 0
  handleBlock _ := .accepted
  synopsisForPeer _ := some [⟨1, 1⟩]
  now := 1700000000

/-- A node that waits for the reply of a peer. -/
def waiting : NodeImpl Unit := [.connect 0, .activate oneBlockSynopsis 0].foldl handle {}

/-- The peer has a block more, and says that there are others. -/
def offer (n : ℕ) : BlockchainItemIds := ⟨n, [⟨1, 1⟩, ⟨2, 2⟩]⟩

/-- A hundred million blocks may have been produced. -/
theorem plausible_offer :
    waiting.disconnects oneBlockSynopsis 0 (offer 100000000) = false ∧
      (waiting.onBlockchainItemIdsInventoryMessage oneBlockSynopsis 0 (offer 100000000)).Plausible
        oneBlockSynopsis 0 (offer 100000000) := by
  have hkept : waiting.disconnects oneBlockSynopsis 0 (offer 100000000) = false := by decide +kernel
  have hrequest : (waiting.peer 0).itemIdsRequestedFromPeer = some [⟨1, 1⟩] := by decide +kernel
  refine ⟨hkept, (plausible_iff waiting oneBlockSynopsis 0 (offer 100000000) hrequest hkept
    (by decide) (by decide) (by decide +kernel) fun id => ?_).mpr ?_⟩
  · rw [oneBlockSynopsis]
    dsimp only
    split_ifs <;> norm_num
  · exact ⟨by decide +kernel, by decide +kernel, by decide +kernel⟩

/-- The largest number passes: the last block would be in the past, and no block is to come. -/
theorem not_plausible_offer :
    waiting.disconnects oneBlockSynopsis 0 (offer 4294967295) = false ∧
      (waiting.onBlockchainItemIdsInventoryMessage oneBlockSynopsis 0
        (offer 4294967295)).activeConnections = [0] ∧
      (waiting.onBlockchainItemIdsInventoryMessage oneBlockSynopsis 0
        (offer 4294967295)).totalNumberOfUnfetchedItems = 0 ∧
      ¬ (waiting.onBlockchainItemIdsInventoryMessage oneBlockSynopsis 0 (offer 4294967295)).Plausible
        oneBlockSynopsis 0 (offer 4294967295) := by
  refine ⟨by decide +kernel, by decide +kernel, by decide +kernel, fun h => ?_⟩
  have htime := h.time
  have hseen : ((waiting.onBlockchainItemIdsInventoryMessage oneBlockSynopsis 0
      (offer 4294967295)).peer 0).lastBlockTimeDelegateHasSeen = 1600000000 := by decide +kernel
  rw [hseen] at htime
  exact absurd htime (by decide)

end NodeImpl

end ZosCore.Net
