import ZosCore.Lib.Runs
import ZosCore.Net.Gossip

/-!
What a node notes of its peers: what it has offered them, and what they have offered.

* `PeerChange`: what may happen to a peer; `peerChange_handle`: nothing else does.
* `Sparing`: no item has been offered twice within two minutes.
* **`offers_sparing`**: this holds in every run in which the clock does not run backwards.
* `Bounded`: a peer cannot make its inventory grow beyond a bound, nor fill it with transactions.
* **`inventories_bounded`**: this holds in every run.
* **`broadcast_reaches`**: what is broadcast is offered in the next round to all who do not know it.
-/

namespace ZosCore.Net

/-! ### What may happen to a peer -/

/-- What the handlers do to a peer, at this time. -/
inductive PeerChange (now : ℤ) : GossipPeer → GossipPeer → Prop
  | refl (c : GossipPeer) : PeerChange now c c
  | trans {c c' c'' : GossipPeer} : PeerChange now c c' → PeerChange now c' c'' → PeerChange now c c''
  /-- A new connection takes the place. -/
  | fresh (c : GossipPeer) : PeerChange now c {}
  | clear (c : GossipPeer) : PeerChange now c (c.clearOldInventory now)
  | offer (c : GossipPeer) (item : RequestedItem) : PeerChange now c (c.offer now item)
  /-- The peer advertises an item, and is not flooding us. -/
  | note (c : GossipPeer) (item : RequestedItem) (h : c.isFlooding item.itemType = false) :
      PeerChange now c (c.noteItem now item)
  | erase (c : GossipPeer) (item : RequestedItem) : PeerChange now c (c.eraseItem item)
  | request (c : GossipPeer) (items : List RequestedItem) : PeerChange now c (c.requestItems items)
  | synchronize (c : GossipPeer) (needs busy : Bool) :
      PeerChange now c (c.setSynchronizing needs busy)

namespace PeerChange

variable {now : ℤ} {c : GossipPeer}

lemma offers (inventory : List RequestedItem) :
    PeerChange now c (inventory.foldl (GossipPeer.offer now) c) := by
  induction inventory generalizing c with
  | nil => exact .refl c
  | cons item inventory ih => exact (PeerChange.offer c item).trans ih

lemma advertise (inventory : List RequestedItem) : PeerChange now c (c.advertise now inventory) := by
  unfold GossipPeer.advertise
  split_ifs
  · exact .clear c
  · exact (offers inventory).trans (.clear _)

/-- An invariant of the peers that every change keeps. -/
lemma keeps {P : GossipPeer → Prop} (hfresh : P {}) (hclear : ∀ c, P c → P (c.clearOldInventory now))
    (hoffer : ∀ c item, P c → P (c.offer now item))
    (hnote : ∀ c item, c.isFlooding item.itemType = false → P c → P (c.noteItem now item))
    (herase : ∀ c item, P c → P (c.eraseItem item))
    (hrequest : ∀ c items, P c → P (c.requestItems items))
    (hsync : ∀ c needs busy, P c → P (c.setSynchronizing needs busy))
    {c' : GossipPeer} (h : PeerChange now c c') (hc : P c) : P c' := by
  induction h with
  | refl => exact hc
  | trans _ _ ih ih' => exact ih' (ih hc)
  | fresh => exact hfresh
  | clear => exact hclear _ hc
  | offer => exact hoffer _ _ hc
  | note _ _ h => exact hnote _ _ h hc
  | erase => exact herase _ _ hc
  | request => exact hrequest _ _ hc
  | synchronize => exact hsync _ _ _ hc

end PeerChange

namespace GossipNode

variable {μ : Type} {now : ℤ} {p q : ℕ} {item : RequestedItem} {s : GossipNode μ}

/-- Each peer has changed in one of the ways in which peers may change. -/
def Changed (now : ℤ) (s s' : GossipNode μ) : Prop := ∀ q, PeerChange now (s.peer q) (s'.peer q)

lemma Changed.refl (s : GossipNode μ) : Changed now s s := fun _ => .refl _

lemma Changed.trans {s s' s'' : GossipNode μ} (h : Changed now s s') (h' : Changed now s' s'') :
    Changed now s s'' := fun q => (h q).trans (h' q)

/-- The peers are those that they were. -/
lemma Changed.of_eq {s s' : GossipNode μ} (h : s'.peer = s.peer) : Changed now s s' :=
  fun _ => h ▸ .refl _

lemma changed_modifyPeer {f : GossipPeer → GossipPeer} (h : PeerChange now (s.peer p) (f (s.peer p))) :
    Changed now s (s.modifyPeer p f) := by
  intro q
  by_cases hq : q = p
  · subst hq
    simpa [modifyPeer] using h
  · simp [modifyPeer, hq, PeerChange.refl]

lemma changed_modifyActive {f : GossipPeer → GossipPeer} (h : ∀ c, PeerChange now c (f c)) :
    Changed now s (s.modifyActive f) := by
  intro q
  simp only [modifyActive]
  split_ifs
  · exact h _
  · exact .refl _

lemma changed_foldl {α : Type} {f : GossipNode μ → α → GossipNode μ}
    (h : ∀ s a, Changed now s (f s a)) (l : List α) : Changed now s (l.foldl f s) := by
  induction l generalizing s with
  | nil => exact .refl s
  | cons a l ih => exact (h s a).trans ih

lemma changed_fromPeer {f : GossipNode μ → GossipNode μ} (h : Changed now s (f s)) :
    Changed now s (s.fromPeer p f) := by
  unfold fromPeer
  split_ifs
  · exact h
  · exact .refl s

lemma changed_noteAdvertised (hflood : (s.peer p).isFlooding item.itemType = false) :
    Changed now s (s.noteAdvertised now p item) := by
  have hnote : Changed now s (s.modifyPeer p (·.noteItem now item)) :=
    changed_modifyPeer (.note _ item hflood)
  unfold noteAdvertised
  split_ifs
  · exact hnote
  · exact hnote.trans (.of_eq rfl)
  · exact hnote.trans (.of_eq rfl)

lemma changed_noteItems {itemType : UInt32} {hashes : List ItemHash} :
    Changed now s (s.noteItems now p itemType hashes) := by
  induction hashes generalizing s with
  | nil => exact .refl s
  | cons hash hashes ih =>
      unfold noteItems
      split_ifs with hadv hflood
      · exact ih
      · exact .refl s
      · exact (changed_noteAdvertised (by simpa using hflood)).trans ih

lemma changed_returnItem : Changed now s (s.returnItem now item) := by
  unfold returnItem
  split_ifs
  · exact .of_eq rfl
  · exact .refl s

/-- **What may happen to a peer.** Whatever happens, a peer changes in no other way. -/
theorem peerChange_handle (s : GossipNode μ) (e : ℤ × GossipEvent μ) : Changed e.1 s (s.handle e) := by
  obtain ⟨now, e⟩ := e
  cases e with
  | connect p =>
      intro q
      simp only [handle]
      split_ifs
      · exact .refl _
      · by_cases hq : q = p
        · subst hq
          simpa using .fresh _
        · simp [hq, PeerChange.refl]
  | activate p =>
      simp only [handle]
      split_ifs
      · exact .of_eq rfl
      · exact .refl s
  | reorder l =>
      simp only [handle]
      split_ifs
      · exact .of_eq rfl
      · exact .refl s
  | disconnect p => exact changed_fromPeer (.of_eq rfl)
  | connectionClosed p =>
      have herase : Changed now s (s.eraseConnection p) := .of_eq rfl
      exact changed_fromPeer (herase.trans (changed_foldl (fun _ _ => changed_returnItem) _))
  | synchronize p needs busy =>
      exact changed_fromPeer (changed_modifyPeer (.synchronize _ needs busy))
  | itemIdsInventory p itemType hashes =>
      exact changed_fromPeer ((changed_modifyPeer (.clear _)).trans changed_noteItems)
  | itemNotAvailable p item =>
      refine changed_fromPeer ?_
      unfold onItemNotAvailable
      split_ifs
      · exact ((changed_modifyPeer (.request _ _)).trans
          (changed_modifyPeer (.erase _ item))).trans changed_returnItem
      · exact .refl s
  | receive p item forSync =>
      refine changed_fromPeer ?_
      unfold receiveItem
      split_ifs
      · exact changed_modifyPeer (.request _ _)
      · exact .refl s
      · exact .of_eq rfl
  | fetchItems =>
      have hleft : Changed now s { s with itemsToFetch := (s.assignItems now).1 } := .of_eq rfl
      exact hleft.trans (changed_foldl (fun _ _ => changed_modifyPeer (.request _ _)) _)
  | advertiseInventory => exact changed_modifyActive fun c => .advertise s.newInventory
  | acceptBlock item m contained => exact changed_modifyActive fun c => .clear c
  | reject item => exact .of_eq rfl
  | broadcast item m => exact .of_eq rfl
  | pruneFailedItems => exact .of_eq rfl
  | blockInterval seconds => exact .of_eq rfl

/-- An invariant that the changes of a peer keep holds in every run, for all peers. -/
theorem always_peers {P : GossipPeer → Prop} (hfresh : P {})
    (h : ∀ now c c', PeerChange now c c' → P c → P c') (es : List (ℤ × GossipEvent μ)) :
    Runs.Always handle (fun s => ∀ p, P (s.peer p)) ({} : GossipNode μ) es :=
  Runs.always_of_step (fun s e hs p => h e.1 _ _ (peerChange_handle s e p) (hs p)) fun _ => hfresh

/-! ### No item is offered twice within two minutes -/

/-- The clock counts microseconds of the years from 1970, when it was on for two minutes, to 2106. -/
def IsClockTime (now : ℤ) : Prop := 120 * 1000000 ≤ now ∧ now < 2 ^ 32 * 1000000

/-- The times of the events do not run backwards. -/
def ClockRuns (es : List (ℤ × GossipEvent μ)) : Prop :=
  es.Pairwise (·.1 ≤ ·.1) ∧ ∀ e ∈ es, IsClockTime e.1

end GossipNode

lemma timePointSec_eq {now : ℤ} (h : 0 ≤ now) (h' : now < 2 ^ 32 * 1000000) :
    timePointSec now = (now / 1000000).toNat := by
  have hdiv : now.tdiv 1000000 = now / 1000000 := Int.tdiv_eq_ediv_of_nonneg h
  rw [timePointSec, hdiv, Int.emod_eq_of_lt (by omega) (by omega)]

lemma oldestInventoryToKeep_eq {now : ℤ} (h : GossipNode.IsClockTime now) :
    GossipPeer.oldestInventoryToKeep now = timePointSec now - 120 := by
  obtain ⟨hlow, hhigh⟩ := h
  have hago : now - maxInventorySizeInMinutes * 60 * 1000000 = now - 120 * 1000000 := by
    norm_num [maxInventorySizeInMinutes]
  rw [GossipPeer.oldestInventoryToKeep, hago, timePointSec_eq (by omega) (by omega),
    timePointSec_eq (by omega) (by omega)]
  omega

lemma timePointSec_mono {now now' : ℤ} (h : GossipNode.IsClockTime now)
    (h' : GossipNode.IsClockTime now') (hle : now ≤ now') : timePointSec now ≤ timePointSec now' := by
  obtain ⟨hlow, hhigh⟩ := h
  obtain ⟨hlow', hhigh'⟩ := h'
  rw [timePointSec_eq (by omega) (by omega), timePointSec_eq (by omega) (by omega)]
  omega

/-- Between two offers of the same item to a peer, more than two minutes have gone by. -/
def GossipPeer.Sparing (c : GossipPeer) : Prop := Stamped.Spaced 120 c.offers

/-- What has been offered is noted, if it is not more than two minutes old. -/
structure GossipPeer.Noted (sec : ℕ) (c : GossipPeer) : Prop where
  remembers : Stamped.Remembers 120 sec c.inventoryAdvertisedToPeer c.offers
  sparing : c.Sparing

lemma GossipPeer.Noted.fresh (sec : ℕ) : ({} : GossipPeer).Noted sec :=
  ⟨.nil, List.Pairwise.nil⟩

/-- Every change keeps the notes. -/
lemma PeerChange.noted {now : ℤ} {sec : ℕ} {c c' : GossipPeer} (h : PeerChange now c c')
    (hnow : GossipNode.IsClockTime now) (hsec : sec ≤ timePointSec now) (hc : c.Noted sec) :
    c'.Noted (timePointSec now) := by
  have hlater : c.Noted (timePointSec now) := ⟨hc.remembers.later hsec, hc.sparing⟩
  refine h.keeps (P := fun c => c.Noted (timePointSec now)) (.fresh _) (fun c hc => ?_)
    (fun c item hc => ?_) (fun _ _ _ hc => ⟨hc.remembers, hc.sparing⟩)
    (fun _ _ hc => ⟨hc.remembers, hc.sparing⟩) (fun _ _ hc => ⟨hc.remembers, hc.sparing⟩)
    (fun _ _ _ hc => ⟨hc.remembers, hc.sparing⟩) hlater
  · refine ⟨?_, hc.sparing⟩
    simpa only [GossipPeer.clearOldInventory, oldestInventoryToKeep_eq hnow] using hc.remembers.since
  · unfold GossipPeer.offer
    split_ifs with hknown
    · exact hc
    · obtain ⟨hremembers, hspaced⟩ := hc.remembers.note hc.sparing fun hin => hknown (.inl hin)
      exact ⟨hremembers, hspaced⟩

namespace GossipNode

variable {μ : Type}

/-- **No repetition.** In a run in which the clock does not run backwards, a node offers no item twice
to a peer within two minutes. -/
theorem offers_sparing {es : List (ℤ × GossipEvent μ)} (h : ClockRuns es) :
    Runs.Always handle (fun s => ∀ p, (s.peer p).Sparing) ({} : GossipNode μ) es := by
  suffices hgen : ∀ (sec : ℕ) (s : GossipNode μ), (∀ p, (s.peer p).Noted sec) →
      (∀ e ∈ es, sec ≤ timePointSec e.1) →
      Runs.Always handle (fun s => ∀ p, (s.peer p).Sparing) s es from
    hgen 0 {} (fun _ => .fresh 0) fun _ _ => Nat.zero_le _
  induction es with
  | nil => exact fun sec s hs _ p => (hs p).sparing
  | cons e es ih =>
      intro sec s hs hsec
      obtain ⟨hfirst, hrest⟩ := List.pairwise_cons.mp h.1
      have he : IsClockTime e.1 := h.2 e List.mem_cons_self
      refine ⟨fun p => (hs p).sparing, ih ⟨hrest, fun x hx => h.2 x (List.mem_cons_of_mem e hx)⟩
        (timePointSec e.1) _ (fun p => ?_) fun x hx => ?_⟩
      · exact (peerChange_handle s e p).noted he (hsec e List.mem_cons_self) (hs p)
      · exact timePointSec_mono he (h.2 x (List.mem_cons_of_mem e hx)) (hfirst x hx)

/-- A node offers a block to a peer, and comes to it again in the next second. -/
theorem offers_sparing_twice :
    Runs.Always handle (fun s => ∀ p, (s.peer p).Sparing) ({} : GossipNode Unit)
      [(1500000000, .connect 1), (1500000000, .activate 1), (1500000000, .synchronize 1 false false),
        (1500000000, .broadcast ⟨blockMessageType, .zero⟩ ()), (1500000000, .advertiseInventory),
        (1501000000, .broadcast ⟨blockMessageType, .zero⟩ ()), (1501000000, .advertiseInventory)] :=
  offers_sparing ⟨by simp, by simp [IsClockTime]⟩

end GossipNode

/-! ### A peer cannot fill its inventory -/

/-- The transactions in the inventory of a peer. -/
def GossipPeer.transactionsAdvertisedToUs (c : GossipPeer) : Finset RequestedItem :=
  c.inventoryPeerAdvertisedToUs.items.filter (·.itemType = trxMessageType)

/-- The inventory has no more items, and no more transactions, than the checks let in. -/
structure GossipPeer.Bounded (c : GossipPeer) : Prop where
  size : c.inventoryPeerAdvertisedToUs.size ≤ 120181
  transactions : c.transactionsAdvertisedToUs.card ≤ 120001

lemma GossipPeer.Bounded.fresh : ({} : GossipPeer).Bounded :=
  ⟨by simp, by simp [transactionsAdvertisedToUs]⟩

/-- An inventory with less in it is still bounded. -/
lemma GossipPeer.Bounded.of_subset {c c' : GossipPeer} (h : c.Bounded)
    (hsub : c'.inventoryPeerAdvertisedToUs.items ⊆ c.inventoryPeerAdvertisedToUs.items) :
    c'.Bounded :=
  ⟨(Finset.card_le_card hsub).trans h.size,
    (Finset.card_le_card (Finset.filter_subset_filter _ hsub)).trans h.transactions⟩

/-- The checks that let an item in. -/
lemma GossipPeer.isFlooding_eq_false {c : GossipPeer} {itemType : UInt32} :
    c.isFlooding itemType = false ↔
      (itemType = trxMessageType → c.inventoryPeerAdvertisedToUs.size ≤ 120000) ∧
        c.inventoryPeerAdvertisedToUs.size ≤ 120180 := by
  have htrx : maxTransactionsInInventory = 120000 := by
    norm_num [maxTransactionsInInventory, maxInventorySizeInMinutes, maxTrxPerSecond]
  have hblocks : maxBlocksInInventory = 180 := by
    norm_num [maxBlocksInInventory, maxInventorySizeInMinutes, NodeImpl.minBlockInterval]
  simp [isFlooding, isListFull, isListFullForTransactions, htrx, hblocks]

/-- An item of a peer that is not flooding us. -/
lemma GossipPeer.Bounded.noteItem {c : GossipPeer} {now : ℤ} {item : RequestedItem} (h : c.Bounded)
    (hflood : c.isFlooding item.itemType = false) : (c.noteItem now item).Bounded := by
  have hsize : (c.noteItem now item).inventoryPeerAdvertisedToUs.size ≤
      c.inventoryPeerAdvertisedToUs.size + 1 := by
    rw [inventory_noteItem]
    exact Stamped.size_note_le
  obtain ⟨htrx, hfull⟩ := isFlooding_eq_false.mp hflood
  refine ⟨by omega, ?_⟩
  by_cases hitem : item.itemType = trxMessageType
  · have hle : (c.noteItem now item).transactionsAdvertisedToUs.card ≤
        (c.noteItem now item).inventoryPeerAdvertisedToUs.size := Finset.card_filter_le _ _
    have := htrx hitem
    omega
  · have hsame : (c.noteItem now item).transactionsAdvertisedToUs = c.transactionsAdvertisedToUs := by
      ext x
      have hx : x ∈ (c.noteItem now item).inventoryPeerAdvertisedToUs.items ↔
          x = item ∨ x ∈ c.inventoryPeerAdvertisedToUs.items := by
        rw [inventory_noteItem]
        exact Stamped.mem_note
      simp only [transactionsAdvertisedToUs, Finset.mem_filter, hx]
      refine and_congr_left fun htype => or_iff_right ?_
      rintro rfl
      exact hitem htype
    exact hsame ▸ h.transactions

lemma PeerChange.bounded {now : ℤ} {c c' : GossipPeer} (h : PeerChange now c c') (hc : c.Bounded) :
    c'.Bounded := by
  have hsame : ∀ {c c' : GossipPeer}, c.Bounded →
      c'.inventoryPeerAdvertisedToUs = c.inventoryPeerAdvertisedToUs → c'.Bounded :=
    fun hc heq => hc.of_subset (heq ▸ Finset.Subset.refl _)
  refine h.keeps (P := GossipPeer.Bounded) .fresh
    (fun _ hc => hc.of_subset (Finset.filter_subset _ _)) (fun c item hc => hsame hc ?_)
    (fun _ _ hflood hc => hc.noteItem hflood) (fun _ _ hc => hc.of_subset (Finset.erase_subset _ _))
    (fun _ _ hc => hsame hc rfl) (fun _ _ _ hc => hsame hc rfl) hc
  unfold GossipPeer.offer
  split_ifs <;> rfl

namespace GossipNode

variable {μ : Type}

/-- **No flood.** Whatever the peers advertise, none of them ever has more than 120181 items in its
inventory, nor more than 120001 transactions. -/
theorem inventories_bounded (es : List (ℤ × GossipEvent μ)) :
    Runs.Always handle (fun s => ∀ p, (s.peer p).Bounded) ({} : GossipNode μ) es :=
  always_peers .fresh (fun _ _ _ h hc => h.bounded hc) es

/-! ### What is broadcast reaches all -/

end GossipNode

/-- The peer knows the item: it was offered it, or has offered it. -/
def GossipPeer.Knows (c : GossipPeer) (item : RequestedItem) : Prop :=
  item ∈ c.inventoryAdvertisedToPeer ∨ item ∈ c.inventoryPeerAdvertisedToUs

namespace GossipPeer

variable {now : ℤ} {c : GossipPeer} {item x : RequestedItem} {inventory : List RequestedItem}

lemma offers_subset_offer : c.offers ⊆ (c.offer now x).offers := by
  unfold offer
  split_ifs
  · exact List.Subset.refl _
  · exact List.subset_cons_self _ _

lemma offers_subset_foldl : c.offers ⊆ (inventory.foldl (offer now) c).offers := by
  induction inventory generalizing c with
  | nil => exact List.Subset.refl _
  | cons x inventory ih => exact List.Subset.trans offers_subset_offer ih

/-- An item is offered, unless the peer knows it. -/
lemma offered_of_offer : c.Knows item ∨ (item, timePointSec now) ∈ (c.offer now item).offers := by
  by_cases h : c.Knows item
  · exact .inl h
  · right
    unfold Knows at h
    simp [offer, h]

/-- To be offered something does not tell a peer of anything else. -/
lemma knows_of_offer (hne : item ≠ x) (h : (c.offer now x).Knows item) : c.Knows item := by
  unfold offer at h
  split_ifs at h
  · exact h
  · exact h.imp_left fun hin => (Stamped.mem_note.mp hin).resolve_left hne

/-- Each item of the round is offered, unless the peer knows it. -/
lemma offered_of_mem (h : item ∈ inventory) :
    c.Knows item ∨ (item, timePointSec now) ∈ (inventory.foldl (offer now) c).offers := by
  induction inventory generalizing c with
  | nil => simp at h
  | cons x inventory ih =>
      by_cases hx : item = x
      · subst hx
        have hoffer : c.Knows item ∨ (item, timePointSec now) ∈ (c.offer now item).offers :=
          offered_of_offer
        rcases hoffer with hknows | hin
        · exact .inl hknows
        · exact .inr (offers_subset_foldl (c := c.offer now item) hin)
      · exact (ih ((List.mem_cons.mp h).resolve_left hx)).imp_left (knows_of_offer hx)

end GossipPeer

namespace GossipNode

variable {μ : Type} {now : ℤ} {s : GossipNode μ} {p : ℕ} {item : RequestedItem}

lemma newInventory_foldl {α : Type} {f : GossipNode μ → α → GossipNode μ}
    (h : ∀ s a, (f s a).newInventory = s.newInventory) (l : List α) :
    (l.foldl f s).newInventory = s.newInventory := by
  induction l generalizing s with
  | nil => rfl
  | cons a l ih => rw [List.foldl_cons, ih, h]

lemma newInventory_noteItems {itemType : UInt32} {hashes : List ItemHash} :
    (s.noteItems now p itemType hashes).newInventory = s.newInventory := by
  induction hashes generalizing s with
  | nil => rfl
  | cons hash hashes ih =>
      unfold noteItems
      split_ifs
      · exact ih
      · rfl
      · rw [ih]
        unfold noteAdvertised
        split_ifs <;> rfl

lemma newInventory_returnItem : (s.returnItem now item).newInventory = s.newInventory := by
  unfold returnItem
  split_ifs <;> rfl

/-- Only a round of `advertise_inventory_loop` takes items from those to offer. -/
lemma newInventory_subset {e : ℤ × GossipEvent μ} (he : e.2 ≠ .advertiseInventory) :
    s.newInventory ⊆ (s.handle e).newInventory := by
  have hsame : ∀ {f : GossipNode μ → GossipNode μ} {q : ℕ}, (f s).newInventory = s.newInventory →
      s.newInventory ⊆ (s.fromPeer q f).newInventory := fun {f q} h => by
    unfold fromPeer
    split_ifs
    · exact h ▸ List.Subset.refl _
    · exact List.Subset.refl _
  obtain ⟨now, e⟩ := e
  cases e with
  | connect q => simp only [handle]; split_ifs <;> exact List.Subset.refl _
  | activate q => simp only [handle]; split_ifs <;> exact List.Subset.refl _
  | reorder l => simp only [handle]; split_ifs <;> exact List.Subset.refl _
  | disconnect q => exact hsame rfl
  | connectionClosed q => exact hsame (newInventory_foldl (fun _ _ => newInventory_returnItem) _)
  | synchronize q needs busy => exact hsame rfl
  | itemIdsInventory q itemType hashes => exact hsame newInventory_noteItems
  | itemNotAvailable q item =>
      refine hsame ?_
      unfold onItemNotAvailable
      split_ifs
      · exact newInventory_returnItem
      · rfl
  | receive q item forSync =>
      refine hsame ?_
      unfold receiveItem
      split_ifs <;> rfl
  | reject item => exact List.Subset.refl _
  | broadcast item m => exact fun _ h => List.mem_insert_of_mem h
  | acceptBlock item m contained => exact fun _ h => List.mem_insert_of_mem h
  | fetchItems =>
      have hsame : (s.fetchItems now).newInventory = s.newInventory :=
        newInventory_foldl (f := requestItem) (fun _ _ => rfl) _
      exact hsame ▸ List.Subset.refl _
  | advertiseInventory => exact absurd rfl he
  | pruneFailedItems => exact List.Subset.refl _
  | blockInterval seconds => exact List.Subset.refl _

/-- A message that the node has accepted, or has made, is broadcast. -/
def Broadcasts (item : RequestedItem) : GossipEvent μ → Prop
  | .broadcast i _ => i = item
  | .acceptBlock i _ _ => i = item
  | _ => False

lemma mem_newInventory_of_broadcasts {e : ℤ × GossipEvent μ} (h : Broadcasts item e.2) :
    item ∈ (s.handle e).newInventory := by
  obtain ⟨now, e⟩ := e
  cases e with
  | broadcast i m => exact h ▸ List.mem_insert_self
  | acceptBlock i m contained => exact h ▸ List.mem_insert_self
  | _ => exact h.elim

/-- What is to be offered stays so until the next round. -/
lemma mem_newInventory_run {es : List (ℤ × GossipEvent μ)} (h : item ∈ s.newInventory)
    (hes : ∀ e ∈ es, e.2 ≠ .advertiseInventory) : item ∈ (es.foldl handle s).newInventory := by
  induction es generalizing s with
  | nil => exact h
  | cons e es ih =>
      exact ih (newInventory_subset (hes e List.mem_cons_self) h)
        fun x hx => hes x (List.mem_cons_of_mem e hx)

/-- **Broadcasting.** What is broadcast is offered in the next round, whatever happens before it, to each
active peer that is in sync and does not know it. -/
theorem broadcast_reaches {e : ℤ × GossipEvent μ} {es : List (ℤ × GossipEvent μ)} {s' : GossipNode μ}
    (he : Broadcasts item e.2) (hes : ∀ x ∈ es, x.2 ≠ .advertiseInventory)
    (hrun : es.foldl handle (s.handle e) = s') (hp : p ∈ s'.activeConnections)
    (hsync : (s'.peer p).peerNeedsSyncItemsFromUs = false) :
    (s'.peer p).Knows item ∨
      (item, timePointSec now) ∈ ((s'.handle (now, .advertiseInventory)).peer p).offers := by
  have hnew : item ∈ s'.newInventory :=
    hrun ▸ mem_newInventory_run (mem_newInventory_of_broadcasts he) hes
  have hoffered : (s'.peer p).Knows item ∨ (item, timePointSec now) ∈
      (s'.newInventory.foldl (GossipPeer.offer now) (s'.peer p)).offers :=
    GossipPeer.offered_of_mem hnew
  refine hoffered.imp_right fun hin => ?_
  simpa [handle, advertiseInventory, modifyActive, hp, GossipPeer.advertise, hsync,
    GossipPeer.clearOldInventory] using hin

/-- A node with one peer, which is in sync with it. -/
def withPeer (p : ℕ) : GossipNode μ :=
  [(0, .connect p), (0, .activate p), (0, .synchronize p false false)].foldl handle {}

/-- A transaction of the client is offered to the one peer there is. -/
theorem broadcast_reaches_one :
    (((withPeer 1).handle (5, .broadcast ⟨trxMessageType, .zero⟩ ())).peer 1).Knows
        ⟨trxMessageType, .zero⟩ ∨
      (⟨trxMessageType, .zero⟩, timePointSec 7) ∈
        ((((withPeer 1).handle (5, .broadcast ⟨trxMessageType, .zero⟩ ())).handle
          (7, .advertiseInventory)).peer 1).offers :=
  broadcast_reaches (e := (5, .broadcast ⟨trxMessageType, .zero⟩ ())) rfl (List.forall_mem_nil _) rfl
    (by decide) (by decide)

end GossipNode

end ZosCore.Net
