import Mathlib.Data.List.TakeWhile
import ZosCore.Net.Inventories

/-!
From whom a node requests the items that it wants.

* `Ordered`: the items to fetch, each once, the blocks first.
* `Kept`: what every event keeps: this, and that no peer is asked for anything in its handshake.
* `Single`: no item is requested from two active peers, or requested and yet to be fetched.
* `Timely`: no peer gives an item back when it is not active and another has been asked for the item.
* **`single_iff`**: in a run no item is requested twice exactly if all its events are timely.
* **`fetchItems_priority`**: a peer that could be asked for a waiting item is asked for another one,
  and not for a transaction if a block waits.
-/

namespace ZosCore.Net

/-! ### The items to fetch -/

/-- The items differ, and those of a higher type come first. -/
structure Ordered (l : List PrioritizedItem) : Prop where
  unique : (l.map (·.item)).Nodup
  sorted : l.Pairwise fun x y => y.item.itemType ≤ x.item.itemType

namespace Ordered

variable {l l' : List PrioritizedItem} {x : PrioritizedItem} {item : RequestedItem} {now : ℤ}

lemma sublist (h : Ordered l) (hsub : l'.Sublist l) : Ordered l' :=
  ⟨h.unique.sublist (hsub.map _), h.sorted.sublist hsub⟩

lemma mem_insertItem {item : RequestedItem} :
    item ∈ (GossipNode.insertItem x l).map (·.item) ↔ item = x.item ∨ item ∈ l.map (·.item) := by
  unfold GossipNode.insertItem
  split_ifs with hany
  · have hx : x.item ∈ l.map (·.item) := by simpa using hany
    exact ⟨.inr, fun h => h.elim (· ▸ hx) id⟩
  · have hl : l.map (·.item) = (l.takeWhile (x.item.itemType ≤ ·.item.itemType)).map (·.item) ++
        (l.dropWhile (x.item.itemType ≤ ·.item.itemType)).map (·.item) := by
      rw [← List.map_append, List.takeWhile_append_dropWhile]
    rw [hl, List.map_append, List.map_cons, List.mem_append, List.mem_cons, List.mem_append]
    tauto

lemma insertItem (h : Ordered l) : Ordered (GossipNode.insertItem x l) := by
  unfold GossipNode.insertItem
  split_ifs with hany
  · exact h
  · have hl := List.takeWhile_append_dropWhile (p := (x.item.itemType ≤ ·.item.itemType)) (l := l)
    generalize hfront : l.takeWhile (x.item.itemType ≤ ·.item.itemType) = front at hl
    generalize hback : l.dropWhile (x.item.itemType ≤ ·.item.itemType) = back at hl
    have hhigh : ∀ y ∈ front, x.item.itemType ≤ y.item.itemType := by
      intro y hy
      rw [← hfront] at hy
      have hle := List.mem_takeWhile_imp hy
      exact of_decide_eq_true hle
    subst hl
    have hnew : x.item ∉ (front ++ back).map (·.item) := by simpa using hany
    obtain ⟨hsfront, hsback, hcross⟩ := List.pairwise_append.mp h.sorted
    refine ⟨?_, List.pairwise_append.mpr ⟨hsfront, List.pairwise_cons.mpr ⟨fun y hy => ?_, hsback⟩,
      fun y hy z hz => ?_⟩⟩
    · have hperm : ((front ++ x :: back).map (·.item)).Perm (x.item :: (front ++ back).map (·.item)) :=
        List.perm_middle.map _
      exact hperm.nodup_iff.mpr (List.nodup_cons.mpr ⟨hnew, h.unique⟩)
    · -- the first of the items behind is of a lower type, and so are those after it
      cases back with
      | nil => simp at hy
      | cons z back =>
          have hz : z.item.itemType ≤ x.item.itemType := by
            have := List.head_dropWhile_not (p := (x.item.itemType ≤ ·.item.itemType)) (l := front ++ z :: back)
              (by rw [hback]; simp)
            simp [hback] at this
            exact UInt32.le_of_lt this
          rcases List.mem_cons.mp hy with rfl | hy
          · exact hz
          · exact UInt32.le_trans ((List.pairwise_cons.mp hsback).1 y hy) hz
    · rcases List.mem_cons.mp hz with rfl | hz
      · exact hhigh y hy
      · exact hcross y hy z hz

/-- The time at which an item was heard of does not matter. -/
lemma map_timestamp {f : PrioritizedItem → PrioritizedItem} (hf : ∀ x, (f x).item = x.item)
    (h : Ordered l) : Ordered (l.map f) := by
  refine ⟨?_, List.pairwise_map.mpr (h.sorted.imp fun {x y} hxy => by simpa [hf] using hxy)⟩
  have hsame : (l.map f).map (·.item) = l.map (·.item) := by
    simp [Function.comp_def, hf]
  exact hsame ▸ h.unique

end Ordered

/-! ### What the node asks for -/

namespace GossipNode

variable {μ : Type} {now : ℤ} {p q : ℕ} {item : RequestedItem} {s s' s'' : GossipNode μ}

/-- The item is yet to be fetched. -/
def Waits (s : GossipNode μ) (item : RequestedItem) : Prop := item ∈ s.itemsToFetch.map (·.item)

/-- The item has been requested from this active peer. -/
def Asked (s : GossipNode μ) (item : RequestedItem) (p : ℕ) : Prop :=
  p ∈ s.activeConnections ∧ item ∈ (s.peer p).itemsRequestedFromPeer

lemma isRequested_iff : s.isRequested item = true ↔ ∃ p, s.Asked item p := by
  simp [isRequested, Asked]

/-- What every event keeps. -/
structure Kept (s : GossipNode μ) : Prop where
  ordered : Ordered s.itemsToFetch
  nodup : s.activeConnections.Nodup
  apart : ∀ p ∈ s.handshakingConnections, p ∉ s.activeConnections
  /-- Nothing is requested before the handshake is over. -/
  clean : ∀ p ∈ s.handshakingConnections, (s.peer p).itemsRequestedFromPeer = []
  /-- A peer is asked for one item at a time. -/
  single : ∀ p, (s.peer p).itemsRequestedFromPeer.length ≤ 1

/-- No item is requested twice, or requested and yet to be fetched. -/
structure Single (s : GossipNode μ) : Prop where
  once : ∀ item p q, s.Asked item p → s.Asked item q → p = q
  notWaiting : ∀ item p, s.Asked item p → ¬ s.Waits item

/-- The peer is not active, has been asked for the item, and another one may be asked, but has been
asked already. -/
def GivesBackLate (s : GossipNode μ) (p : ℕ) (item : RequestedItem) : Prop :=
  p ∉ s.activeConnections ∧ item ∈ (s.peer p).itemsRequestedFromPeer ∧
    s.isItemInAnyPeersInventory item = true ∧ ∃ q, s.Asked item q

/-- No peer gives an item back late. -/
def Timely (s : GossipNode μ) : ℤ × GossipEvent μ → Prop
  | (_, .connectionClosed p) => p ∈ s.connections → ∀ item, ¬ s.GivesBackLate p item
  | (_, .itemNotAvailable p item) => p ∈ s.connections → ¬ s.GivesBackLate p item
  | _ => True

/-! ### Less is asked for -/

/-- No more is asked for, and what is yet to be fetched has not been asked for. -/
structure AsksLess (s s' : GossipNode μ) : Prop where
  asked : ∀ item p, s'.Asked item p → s.Asked item p
  waits : ∀ item, s'.Waits item → s.Waits item ∨ ∀ p, ¬ s'.Asked item p

lemma AsksLess.refl (s : GossipNode μ) : AsksLess s s := ⟨fun _ _ => id, fun _ => .inl⟩

lemma AsksLess.trans (h : AsksLess s s') (h' : AsksLess s' s'') : AsksLess s s'' where
  asked item p hp := h.asked item p (h'.asked item p hp)
  waits item hitem := by
    rcases h'.waits item hitem with hw | hno
    · exact (h.waits item hw).imp_right fun hno p hp => hno p (h'.asked item p hp)
    · exact .inr hno

lemma AsksLess.single (h : AsksLess s s') (hs : s.Single) : s'.Single where
  once item p q hp hq := hs.once item p q (h.asked item p hp) (h.asked item q hq)
  notWaiting item p hp hw := by
    rcases h.waits item hw with hw | hno
    · exact hs.notWaiting item p (h.asked item p hp) hw
    · exact hno p hp

/-- The same peers are active, and the same items are requested from them. -/
structure SameRequests (s s' : GossipNode μ) : Prop where
  handshaking : s'.handshakingConnections = s.handshakingConnections
  active : s'.activeConnections = s.activeConnections
  requested : ∀ p, (s'.peer p).itemsRequestedFromPeer = (s.peer p).itemsRequestedFromPeer

namespace SameRequests

lemma refl (s : GossipNode μ) : SameRequests s s := ⟨rfl, rfl, fun _ => rfl⟩

lemma trans (h : SameRequests s s') (h' : SameRequests s' s'') : SameRequests s s'' :=
  ⟨h'.handshaking.trans h.handshaking, h'.active.trans h.active,
    fun p => (h'.requested p).trans (h.requested p)⟩

lemma asked_iff (h : SameRequests s s') : s'.Asked item p ↔ s.Asked item p := by
  simp [Asked, h.active, h.requested]

lemma kept (h : SameRequests s s') (hs : s.Kept) (hordered : Ordered s'.itemsToFetch) : s'.Kept where
  ordered := hordered
  nodup := h.active ▸ hs.nodup
  apart := by simpa [h.handshaking, h.active] using hs.apart
  clean := by simpa [h.handshaking, h.requested] using hs.clean
  single := by simpa [h.requested] using hs.single

/-- Nothing but what has not been asked for is to be fetched in addition. -/
lemma asksLess (h : SameRequests s s')
    (hwaits : ∀ item, s'.Waits item → s.Waits item ∨ s.isRequested item = false) : AsksLess s s' where
  asked item p hp := h.asked_iff.mp hp
  waits item hitem := (hwaits item hitem).imp_right fun hno p hp => by
    have := isRequested_iff.mpr ⟨p, h.asked_iff.mp hp⟩
    simp [hno] at this

lemma modifyPeer {f : GossipPeer → GossipPeer}
    (hf : (f (s.peer p)).itemsRequestedFromPeer = (s.peer p).itemsRequestedFromPeer) :
    SameRequests s (s.modifyPeer p f) := by
  refine ⟨rfl, rfl, fun q => ?_⟩
  by_cases hq : q = p
  · subst hq
    simpa [GossipNode.modifyPeer] using hf
  · simp [GossipNode.modifyPeer, hq]

end SameRequests

/-! ### Offers of the peers -/

lemma sameRequests_noteAdvertised : SameRequests s (s.noteAdvertised now p item) := by
  have hnote : SameRequests s (s.modifyPeer p (·.noteItem now item)) := .modifyPeer rfl
  unfold noteAdvertised
  split_ifs <;> exact ⟨hnote.handshaking, hnote.active, hnote.requested⟩

lemma sameRequests_noteItems {itemType : UInt32} {hashes : List ItemHash} :
    SameRequests s (s.noteItems now p itemType hashes) := by
  induction hashes generalizing s with
  | nil => exact .refl s
  | cons hash hashes ih =>
      unfold noteItems
      split_ifs
      · exact ih
      · exact .refl s
      · exact sameRequests_noteAdvertised.trans ih

lemma ordered_noteAdvertised (h : Ordered s.itemsToFetch) :
    Ordered (s.noteAdvertised now p item).itemsToFetch := by
  unfold noteAdvertised
  split_ifs
  · exact h
  · exact h.map_timestamp fun x => by split_ifs <;> rfl
  · exact h.insertItem

lemma ordered_noteItems {itemType : UInt32} {hashes : List ItemHash} (h : Ordered s.itemsToFetch) :
    Ordered (s.noteItems now p itemType hashes).itemsToFetch := by
  induction hashes generalizing s with
  | nil => exact h
  | cons hash hashes ih =>
      unfold noteItems
      split_ifs
      · exact ih h
      · exact h
      · exact ih (ordered_noteAdvertised h)

lemma waits_refreshItem {i : RequestedItem} : (s.refreshItem now item).Waits i ↔ s.Waits i := by
  have hsame : (s.refreshItem now item).itemsToFetch.map (·.item) = s.itemsToFetch.map (·.item) := by
    simp only [refreshItem, List.map_map]
    refine List.map_congr_left fun x _ => ?_
    simp only [Function.comp_apply]
    split_ifs <;> rfl
  rw [Waits, hsame]
  rfl

/-- An item that is requested already is not fetched again. -/
lemma asksLess_noteAdvertised : AsksLess s (s.noteAdvertised now p item) := by
  refine sameRequests_noteAdvertised.asksLess fun i hi => ?_
  unfold noteAdvertised at hi
  split_ifs at hi with hknown hwaits
  · exact .inl hi
  · exact .inl (waits_refreshItem.mp hi)
  · rcases Ordered.mem_insertItem.mp hi with rfl | hi
    · simp only [Bool.or_eq_true, decide_eq_true_eq, not_or, Bool.not_eq_true] at hknown
      exact .inr hknown.1
    · exact .inl hi

lemma asksLess_noteItems {itemType : UInt32} {hashes : List ItemHash} :
    AsksLess s (s.noteItems now p itemType hashes) := by
  induction hashes generalizing s with
  | nil => exact .refl s
  | cons hash hashes ih =>
      unfold noteItems
      split_ifs
      · exact ih
      · exact .refl s
      · exact asksLess_noteAdvertised.trans ih

/-! ### Items that come back -/

lemma waits_returnItem {i : RequestedItem} : (s.returnItem now item).Waits i ↔
    s.Waits i ∨ i = item ∧ s.isItemInAnyPeersInventory item = true := by
  unfold returnItem
  split_ifs with h
  · simp only [h, and_true]
    exact Ordered.mem_insertItem.trans or_comm
  · simp [h]

lemma sameRequests_returnItem : SameRequests s (s.returnItem now item) := by
  unfold returnItem
  split_ifs <;> exact ⟨rfl, rfl, fun _ => rfl⟩

lemma ordered_returnItem (h : Ordered s.itemsToFetch) :
    Ordered (s.returnItem now item).itemsToFetch := by
  unfold returnItem
  split_ifs
  · exact h.insertItem
  · exact h

lemma isItemInAnyPeersInventory_returnItem {i : RequestedItem} :
    (s.returnItem now item).isItemInAnyPeersInventory i = s.isItemInAnyPeersInventory i := by
  unfold returnItem
  split_ifs <;> rfl

/-- What has come back once all the items are returned. -/
lemma waits_returnItems {items : List RequestedItem} {i : RequestedItem} :
    (items.foldl (returnItem now) s).Waits i ↔
      s.Waits i ∨ i ∈ items ∧ s.isItemInAnyPeersInventory i = true := by
  induction items generalizing s with
  | nil => simp
  | cons x items ih =>
      rw [List.foldl_cons, ih, waits_returnItem, isItemInAnyPeersInventory_returnItem, List.mem_cons]
      constructor
      · rintro ((hw | ⟨rfl, hin⟩) | ⟨hi, hin⟩)
        · exact .inl hw
        · exact .inr ⟨.inl rfl, hin⟩
        · exact .inr ⟨.inr hi, hin⟩
      · rintro (hw | ⟨rfl | hi, hin⟩)
        · exact .inl (.inl hw)
        · exact .inl (.inr ⟨rfl, hin⟩)
        · exact .inr ⟨hi, hin⟩

lemma sameRequests_returnItems {items : List RequestedItem} :
    SameRequests s (items.foldl (returnItem now) s) := by
  induction items generalizing s with
  | nil => exact .refl s
  | cons x items ih => exact sameRequests_returnItem.trans ih

lemma ordered_returnItems {items : List RequestedItem} (h : Ordered s.itemsToFetch) :
    Ordered (items.foldl (returnItem now) s).itemsToFetch := by
  induction items generalizing s with
  | nil => exact h
  | cons x items ih => exact ih (ordered_returnItem h)

/-! ### A round of the fetch loop -/

/-- What the round leaves. -/
def leftItems (now : ℤ) (s : GossipNode μ) : List PrioritizedItem := (s.assignItems now).1

/-- Who is asked for what in the round. -/
def givenItems (now : ℤ) (s : GossipNode μ) : List (PrioritizedItem × ℕ) := (s.assignItems now).2

lemma fetchItems_eq : s.fetchItems now =
    (s.givenItems now).foldl requestItem { s with itemsToFetch := s.leftItems now } := rfl

lemma foldl_requestItem (rs : List (PrioritizedItem × ℕ)) (s : GossipNode μ) :
    (rs.foldl requestItem s).handshakingConnections = s.handshakingConnections ∧
      (rs.foldl requestItem s).activeConnections = s.activeConnections ∧
      (rs.foldl requestItem s).itemsToFetch = s.itemsToFetch := by
  induction rs generalizing s with
  | nil => exact ⟨rfl, rfl, rfl⟩
  | cons r rs ih => exact ih (s.requestItem r)

/-- Who is asked for nothing. -/
lemma requested_of_notMem {rs : List (PrioritizedItem × ℕ)} (h : p ∉ rs.map Prod.snd) :
    ((rs.foldl requestItem s).peer p).itemsRequestedFromPeer =
      (s.peer p).itemsRequestedFromPeer := by
  induction rs generalizing s with
  | nil => rfl
  | cons r rs ih =>
      obtain ⟨hr, hrest⟩ := not_or.mp (List.mem_cons.not.mp h)
      rw [List.foldl_cons, ih hrest]
      simp [requestItem, modifyPeer, hr]

/-- Who had nothing to send is asked for one item. -/
lemma requested_of_mem {rs : List (PrioritizedItem × ℕ)} {x : PrioritizedItem}
    (hnodup : (rs.map Prod.snd).Nodup) (hr : (x, p) ∈ rs)
    (hidle : (s.peer p).itemsRequestedFromPeer = []) :
    ((rs.foldl requestItem s).peer p).itemsRequestedFromPeer = [x.item] := by
  induction rs generalizing s with
  | nil => simp at hr
  | cons r rs ih =>
      obtain ⟨hfirst, hnodup⟩ := List.nodup_cons.mp hnodup
      rcases List.mem_cons.mp hr with rfl | hr
      · rw [List.foldl_cons, requested_of_notMem hfirst]
        simp [requestItem, modifyPeer, GossipPeer.requestItems, hidle]
      · have hne : p ≠ r.2 := fun heq => hfirst (heq ▸ List.mem_map_of_mem (f := Prod.snd) hr)
        exact ih hnodup hr (by simpa [requestItem, modifyPeer, hne] using hidle)

/-- A peer that is asked is active and has had nothing to send. -/
lemma idle_of_given {r : PrioritizedItem × ℕ} (h : r ∈ s.givenItems now) :
    r.2 ∈ s.activeConnections ∧ (s.peer r.2).itemsRequestedFromPeer = [] := by
  have hfree := (Greedy.takes_of_given h).1
  rw [List.mem_filter] at hfree
  simp only [GossipPeer.idle, Bool.and_eq_true, decide_eq_true_eq] at hfree
  exact ⟨hfree.1, hfree.2.1⟩

lemma nodup_given (hs : s.Kept) : ((s.givenItems now).map Prod.snd).Nodup :=
  Greedy.nodup_receivers (hs.nodup.filter _)

variable (now) in
/-- An item is either left or given, and to one peer. -/
lemma nodup_left_given (hs : s.Kept) :
    ((s.leftItems now).map (·.item) ++ (s.givenItems now).map (·.1.item)).Nodup := by
  have hperm : (s.itemsToFetch.filter fun x => s.oldestTimestampToFetch now ≤ x.timestamp).Perm
      (s.leftItems now ++ (s.givenItems now).map Prod.fst) := Greedy.perm
  replace hperm := hperm.map (·.item)
  rw [List.map_append, List.map_map] at hperm
  exact hperm.nodup_iff.mp (hs.ordered.unique.sublist (List.filter_sublist.map _))

lemma left_sublist : (s.leftItems now).Sublist s.itemsToFetch :=
  Greedy.left_sublist.trans List.filter_sublist

/-- What is given was to be fetched. -/
lemma waits_of_given {r : PrioritizedItem × ℕ} (h : r ∈ s.givenItems now) : s.Waits r.1.item := by
  have hmem : r.1 ∈ s.itemsToFetch.filter fun x => s.oldestTimestampToFetch now ≤ x.timestamp :=
    Greedy.perm.mem_iff.mpr (List.mem_append_right _ (List.mem_map_of_mem h))
  exact List.mem_map_of_mem (List.mem_filter.mp hmem).1

/-- A peer that is asked for an item is asked for no other. -/
lemma requested_of_given (hs : s.Kept) {r : PrioritizedItem × ℕ} (h : r ∈ s.givenItems now) :
    ((s.fetchItems now).peer r.2).itemsRequestedFromPeer = [r.1.item] :=
  requested_of_mem (nodup_given hs) h (idle_of_given h).2

/-- The other peers are asked for nothing new. -/
lemma requested_of_notGiven (h : p ∉ (s.givenItems now).map Prod.snd) :
    ((s.fetchItems now).peer p).itemsRequestedFromPeer = (s.peer p).itemsRequestedFromPeer :=
  requested_of_notMem h

lemma asked_fetchItems (hs : s.Kept) : (s.fetchItems now).Asked item p →
    s.Asked item p ∨ ∃ x, (x, p) ∈ s.givenItems now ∧ x.item = item := by
  rintro ⟨hactive, hitem⟩
  rw [fetchItems_eq, (foldl_requestItem _ _).2.1] at hactive
  by_cases hp : p ∈ (s.givenItems now).map Prod.snd
  · obtain ⟨r, hr, rfl⟩ := List.mem_map.mp hp
    rw [requested_of_given hs hr, List.mem_singleton] at hitem
    exact .inr ⟨r.1, hr, hitem.symm⟩
  · rw [requested_of_notGiven hp] at hitem
    exact .inl ⟨hactive, hitem⟩

lemma single_fetchItems (hs : s.Kept) (hsingle : s.Single) : (s.fetchItems now).Single := by
  obtain ⟨-, hgiven, hapart⟩ := List.nodup_append.mp (nodup_left_given now hs)
  refine ⟨fun item p q hp hq => ?_, fun item p hp hw => ?_⟩
  · rcases asked_fetchItems hs hp with hp | ⟨x, hx, rfl⟩ <;>
      rcases asked_fetchItems hs hq with hq | ⟨y, hy, heq⟩
    · exact hsingle.once item p q hp hq
    · exact absurd (heq ▸ waits_of_given hy) (hsingle.notWaiting item p hp)
    · exact absurd (waits_of_given hx) (hsingle.notWaiting x.item q hq)
    · exact congrArg Prod.snd (List.inj_on_of_nodup_map hgiven hx hy heq.symm)
  · rw [fetchItems_eq, Waits, (foldl_requestItem _ _).2.2] at hw
    rcases asked_fetchItems hs hp with hp | ⟨x, hx, rfl⟩
    · exact hsingle.notWaiting item p hp ((left_sublist.map _).subset hw)
    · exact hapart _ hw _ (List.mem_map_of_mem (f := fun r => r.1.item) hx) rfl

lemma kept_fetchItems (hs : s.Kept) : (s.fetchItems now).Kept := by
  obtain ⟨hhandshaking, hactive, hitems⟩ :=
    foldl_requestItem (s.givenItems now) { s with itemsToFetch := s.leftItems now }
  rw [← fetchItems_eq] at hhandshaking hactive hitems
  refine ⟨hitems ▸ hs.ordered.sublist left_sublist, hactive ▸ hs.nodup, ?_, fun p hp => ?_, fun p => ?_⟩
  · simpa [hhandshaking, hactive] using hs.apart
  · rw [hhandshaking] at hp
    have hout : p ∉ (s.givenItems now).map Prod.snd := fun hin => by
      obtain ⟨r, hr, rfl⟩ := List.mem_map.mp hin
      exact hs.apart r.2 hp (idle_of_given hr).1
    rw [requested_of_notGiven hout]
    exact hs.clean p hp
  · by_cases hin : p ∈ (s.givenItems now).map Prod.snd
    · obtain ⟨r, hr, rfl⟩ := List.mem_map.mp hin
      rw [requested_of_given hs hr]
      exact le_rfl
    · rw [requested_of_notGiven hin]
      exact hs.single p

/-! ### Whatever happens -/

/-- No peer becomes active, nothing is requested, and nothing is to be fetched in addition. -/
structure Fewer (s s' : GossipNode μ) : Prop where
  handshaking : s'.handshakingConnections ⊆ s.handshakingConnections
  active : s'.activeConnections.Sublist s.activeConnections
  requested : ∀ p, (s'.peer p).itemsRequestedFromPeer.Sublist (s.peer p).itemsRequestedFromPeer
  items : s'.itemsToFetch.Sublist s.itemsToFetch

namespace Fewer

lemma refl (s : GossipNode μ) : Fewer s s :=
  ⟨List.Subset.refl _, List.Sublist.refl _, fun _ => List.Sublist.refl _, List.Sublist.refl _⟩

lemma trans (h : Fewer s s') (h' : Fewer s' s'') : Fewer s s'' :=
  ⟨List.Subset.trans h'.handshaking h.handshaking, h'.active.trans h.active,
    fun p => (h'.requested p).trans (h.requested p), h'.items.trans h.items⟩

lemma of_same (h : SameRequests s s') (hitems : s'.itemsToFetch.Sublist s.itemsToFetch) :
    Fewer s s' :=
  ⟨h.handshaking ▸ List.Subset.refl _, h.active ▸ List.Sublist.refl _,
    fun p => h.requested p ▸ List.Sublist.refl _, hitems⟩

lemma asksLess (h : Fewer s s') : AsksLess s s' :=
  ⟨fun _ p hp => ⟨h.active.subset hp.1, (h.requested p).subset hp.2⟩,
    fun _ hw => .inl ((h.items.map _).subset hw)⟩

lemma kept (h : Fewer s s') (hs : s.Kept) : s'.Kept where
  ordered := hs.ordered.sublist h.items
  nodup := hs.nodup.sublist h.active
  apart p hp hactive := hs.apart p (h.handshaking hp) (h.active.subset hactive)
  clean p hp := by
    have hsub := h.requested p
    rw [hs.clean p (h.handshaking hp)] at hsub
    exact List.sublist_nil.mp hsub
  single p := (h.requested p).length_le.trans (hs.single p)

lemma forgetRequest : Fewer s (s.forgetRequest p item) := by
  refine ⟨List.Subset.refl _, List.Sublist.refl _, fun q => ?_, List.Sublist.refl _⟩
  by_cases hq : q = p
  · subst hq
    simp [GossipNode.forgetRequest, modifyPeer, GossipPeer.requestItems]
  · simp [GossipNode.forgetRequest, modifyPeer, hq]

lemma disconnectFromPeer : Fewer s (s.disconnectFromPeer p) :=
  ⟨List.filter_subset_self _, List.filter_sublist, fun _ => List.Sublist.refl _, List.Sublist.refl _⟩

lemma eraseConnection : Fewer s (s.eraseConnection p) :=
  ⟨List.filter_subset_self _, List.filter_sublist, fun _ => List.Sublist.refl _, List.Sublist.refl _⟩

end Fewer

/-- Items that have been requested from a peer come back: this leaves no item requested twice exactly if
none of them comes back late. -/
lemma single_returnItems_iff (now : ℤ) (items : List RequestedItem) (hsingle : s.Single)
    (hfewer : Fewer s s')
    (hitems : ∀ i ∈ items, i ∈ (s.peer p).itemsRequestedFromPeer) (hgone : ∀ i ∈ items, ¬ s'.Asked i p)
    (hothers : p ∉ s.activeConnections → ∀ i,
      s'.isItemInAnyPeersInventory i = s.isItemInAnyPeersInventory i ∧ ∀ q, s.Asked i q → s'.Asked i q)
    (hinventory : ∀ i, s'.isItemInAnyPeersInventory i = true → s.isItemInAnyPeersInventory i = true) :
    (items.foldl (returnItem now) s').Single ↔ ∀ i ∈ items, ¬ s.GivesBackLate p i := by
  have hsame : SameRequests s' (items.foldl (returnItem now) s') := sameRequests_returnItems
  constructor
  · rintro h i hi ⟨hp, -, hin, q, hq⟩
    obtain ⟨hinv, hasked⟩ := hothers hp i
    exact h.notWaiting i q (hsame.asked_iff.mpr (hasked q hq))
      (waits_returnItems.mpr (.inr ⟨hi, hinv.trans hin⟩))
  · intro h
    have hsingle' := hfewer.asksLess.single hsingle
    refine ⟨fun i q r hq hr => hsingle'.once i q r (hsame.asked_iff.mp hq) (hsame.asked_iff.mp hr),
      fun i q hq hw => ?_⟩
    have hq' : s'.Asked i q := hsame.asked_iff.mp hq
    rcases waits_returnItems.mp hw with hw | ⟨hi, hin⟩
    · exact hsingle'.notWaiting i q hq' hw
    · have hasked := hfewer.asksLess.asked i q hq'
      by_cases hp : p ∈ s.activeConnections
      · obtain rfl : p = q := hsingle.once i p q ⟨hp, hitems i hi⟩ hasked
        exact hgone i hi hq'
      · exact h i hi ⟨hp, hitems i hi, hinventory i hin, q, hasked⟩

lemma single_connectionClosed_iff (hsingle : s.Single) :
    (s.onConnectionClosed now p).Single ↔ ∀ i, ¬ s.GivesBackLate p i := by
  have hiff := single_returnItems_iff (p := p) now (s.peer p).itemsRequestedFromPeer hsingle
    (.eraseConnection : Fewer s (s.eraseConnection p)) (fun _ => id)
    (fun i _ hasked => by simp [Asked, eraseConnection] at hasked)
    (fun hp i => ?_) fun i hin => ?_
  · exact hiff.trans ⟨fun h i hlate => h i hlate.2.1 hlate, fun h i _ => h i⟩
  · have hsame : s.activeConnections.filter (· ≠ p) = s.activeConnections :=
      List.filter_eq_self.mpr fun q hq => by
        have hne : q ≠ p := fun heq => hp (heq ▸ hq)
        simpa using hne
    simp only [isItemInAnyPeersInventory, Asked, eraseConnection, hsame, true_and]
    exact fun _ => id
  · simp only [isItemInAnyPeersInventory, eraseConnection, List.any_eq_true] at hin ⊢
    obtain ⟨q, hq, hin⟩ := hin
    exact ⟨q, (List.mem_filter.mp hq).1, hin⟩

/-- The peer does not have the item: it is not requested from it any more, nor in its inventory. -/
def forgetItem (p : ℕ) (item : RequestedItem) (s : GossipNode μ) : GossipNode μ :=
  (s.forgetRequest p item).modifyPeer p (·.eraseItem item)

lemma fewer_forgetItem : Fewer s (s.forgetItem p item) :=
  Fewer.forgetRequest.trans (.of_same (.modifyPeer rfl) (List.Sublist.refl _))

lemma peer_forgetItem_of_ne (h : q ≠ p) : (s.forgetItem p item).peer q = s.peer q := by
  simp [forgetItem, forgetRequest, modifyPeer, h]

lemma inventory_forgetItem {i : RequestedItem}
    (h : i ∈ ((s.forgetItem p item).peer q).inventoryPeerAdvertisedToUs) :
    i ∈ (s.peer q).inventoryPeerAdvertisedToUs := by
  by_cases hq : q = p
  · subst hq
    simp only [forgetItem, forgetRequest, modifyPeer, Function.update_self, GossipPeer.eraseItem,
      GossipPeer.requestItems] at h
    exact (Stamped.mem_erase.mp h).2
  · rwa [peer_forgetItem_of_ne hq] at h

lemma single_itemNotAvailable_iff (hsingle : s.Single) :
    (s.onItemNotAvailable now p item).Single ↔ ¬ s.GivesBackLate p item := by
  by_cases hitem : item ∈ (s.peer p).itemsRequestedFromPeer
  · have hiff := single_returnItems_iff (p := p) now [item] hsingle
      (fewer_forgetItem : Fewer s (s.forgetItem p item)) (by simpa using hitem)
      (fun i hi hasked => ?_) (fun hp i => ?_) fun i hin => ?_
    · rw [onItemNotAvailable, if_pos hitem]
      simp only [List.foldl_cons, List.foldl_nil, List.mem_singleton, forall_eq] at hiff
      exact hiff
    · obtain rfl := List.mem_singleton.mp hi
      simp [Asked, forgetItem, forgetRequest, modifyPeer, GossipPeer.eraseItem,
        GossipPeer.requestItems] at hasked
    · have hne : ∀ q ∈ s.activeConnections, q ≠ p := fun q hq heq => hp (heq ▸ hq)
      refine ⟨?_, fun q hq => ⟨hq.1, ?_⟩⟩
      · have hiff : ∀ q ∈ s.activeConnections,
            ((s.forgetItem p item).peer q).inventoryPeerAdvertisedToUs =
              (s.peer q).inventoryPeerAdvertisedToUs :=
          fun q hq => by rw [peer_forgetItem_of_ne (hne q hq)]
        have hactive : (s.forgetItem p item).activeConnections = s.activeConnections := rfl
        rw [Bool.eq_iff_iff]
        simp only [isItemInAnyPeersInventory, hactive, List.any_eq_true, decide_eq_true_eq]
        exact exists_congr fun q => and_congr_right fun hq => by rw [hiff q hq]
      · rw [peer_forgetItem_of_ne (hne q hq.1)]
        exact hq.2
    · simp only [isItemInAnyPeersInventory, List.any_eq_true, decide_eq_true_eq] at hin ⊢
      obtain ⟨q, hq, hin⟩ := hin
      exact ⟨q, hq, inventory_forgetItem hin⟩
  · rw [onItemNotAvailable, if_neg hitem]
    exact ⟨fun _ hlate => hitem hlate.2.1, fun _ => hsingle⟩

lemma fewer_receiveItem {forSync : Bool} : Fewer s (s.receiveItem p item forSync) := by
  unfold receiveItem
  split_ifs
  · exact .forgetRequest
  · exact .refl s
  · exact .disconnectFromPeer

lemma fewer_processBlock {m : μ} {contained : List ItemHash} :
    Fewer s (s.processBlock now item m contained) := by
  refine .of_same ⟨rfl, rfl, fun p => ?_⟩ List.filter_sublist
  simp only [processBlock, broadcast, modifyActive]
  split_ifs <;> rfl

lemma requested_advertise {c : GossipPeer} {inventory : List RequestedItem} :
    (c.advertise now inventory).itemsRequestedFromPeer = c.itemsRequestedFromPeer := by
  have hoffers : (inventory.foldl (GossipPeer.offer now) c).itemsRequestedFromPeer =
      c.itemsRequestedFromPeer := by
    induction inventory generalizing c with
    | nil => rfl
    | cons x inventory ih =>
        rw [List.foldl_cons, ih]
        unfold GossipPeer.offer
        split_ifs <;> rfl
  unfold GossipPeer.advertise
  split_ifs
  · rfl
  · exact hoffers

lemma fewer_advertiseInventory : Fewer s (s.advertiseInventory now) := by
  refine .of_same ⟨rfl, rfl, fun p => ?_⟩ (List.Sublist.refl _)
  simp only [advertiseInventory, modifyActive]
  split_ifs
  · exact requested_advertise
  · rfl

/-- A handler that a peer causes, where it does no more than that. -/
lemma Fewer.fromPeer {f : GossipNode μ → GossipNode μ} (h : Fewer s (f s)) :
    Fewer s (s.fromPeer p f) := by
  unfold GossipNode.fromPeer
  split_ifs
  · exact h
  · exact .refl s

/-- A connection that is new, or whose handshake is over, asks for nothing more. -/
lemma asksLess_connect (hs : s.Kept) : AsksLess s (s.handle (now, .connect p)) ∧
    (s.handle (now, .connect p)).Kept := by
  simp only [handle]
  split_ifs with hp
  · exact ⟨.refl s, hs⟩
  · have hnot : p ∉ s.activeConnections := fun h => hp (by simp [connections, h])
    have hpeer : ∀ q ∈ s.activeConnections, q ≠ p := fun q hq heq => hnot (heq ▸ hq)
    refine ⟨⟨fun item q hq => ⟨hq.1, ?_⟩, fun _ => .inl⟩, hs.ordered, hs.nodup, ?_, fun q hq => ?_,
      fun q => ?_⟩
    · simpa [hpeer q hq.1] using hq.2
    · exact List.forall_mem_cons.mpr ⟨hnot, hs.apart⟩
    · by_cases heq : q = p
      · simp [heq]
      · simpa [heq] using hs.clean q ((List.mem_cons.mp hq).resolve_left heq)
    · by_cases heq : q = p
      · simp [heq]
      · simpa [heq] using hs.single q

lemma asksLess_activate (hs : s.Kept) : AsksLess s (s.handle (now, .activate p)) ∧
    (s.handle (now, .activate p)).Kept := by
  simp only [handle]
  split_ifs with hp
  · have hmem : ∀ q, q ∈ s.activeConnections.insert p ↔ q = p ∨ q ∈ s.activeConnections :=
      fun q => List.mem_insert_iff
    refine ⟨⟨fun item q hq => ⟨?_, hq.2⟩, fun _ => .inl⟩, hs.ordered, hs.nodup.insert, fun q hq => ?_,
      fun q hq => hs.clean q (List.mem_filter.mp hq).1, hs.single⟩
    · refine ((hmem q).mp hq.1).resolve_left fun heq => ?_
      subst heq
      exact List.not_mem_nil (hs.clean q hp ▸ hq.2)
    · obtain ⟨hq, hne⟩ := List.mem_filter.mp hq
      exact fun hactive => hs.apart q hq (((hmem q).mp hactive).resolve_left (by simpa using hne))
  · exact ⟨.refl s, hs⟩

/-- **One step.** An event leaves no item requested twice exactly if it is timely. -/
theorem single_handle_iff (s : GossipNode μ) (e : ℤ × GossipEvent μ) (hs : s.Kept) (hsingle : s.Single) :
    (s.handle e).Single ↔ s.Timely e := by
  have hless : AsksLess s (s.handle e) → ((s.handle e).Single ↔ True) := fun h =>
    iff_true_intro (h.single hsingle)
  obtain ⟨now, e⟩ := e
  cases e with
  | connect p => exact hless (asksLess_connect hs).1
  | activate p => exact hless (asksLess_activate hs).1
  | reorder l =>
      refine hless ?_
      simp only [handle]
      split_ifs with hperm
      · exact ⟨fun item p hp => ⟨hperm.mem_iff.mp hp.1, hp.2⟩, fun _ => .inl⟩
      · exact .refl s
  | disconnect p => exact hless (Fewer.fromPeer .disconnectFromPeer).asksLess
  | connectionClosed p =>
      simp only [handle, fromPeer, Timely]
      split_ifs with hp
      · simpa [hp] using single_connectionClosed_iff hsingle
      · simpa [hp] using hsingle
  | synchronize p needs busy =>
      exact hless (Fewer.fromPeer (.of_same (.modifyPeer rfl) (List.Sublist.refl _))).asksLess
  | itemIdsInventory p itemType hashes =>
      refine hless ?_
      simp only [handle, fromPeer]
      split_ifs
      · have hclear : Fewer s (s.modifyPeer p (·.clearOldInventory now)) :=
          .of_same (.modifyPeer rfl) (List.Sublist.refl _)
        exact hclear.asksLess.trans asksLess_noteItems
      · exact .refl s
  | itemNotAvailable p item =>
      simp only [handle, fromPeer, Timely]
      split_ifs with hp
      · simpa [hp] using single_itemNotAvailable_iff hsingle
      · simpa [hp] using hsingle
  | receive p item forSync => exact hless (Fewer.fromPeer fewer_receiveItem).asksLess
  | reject item => exact hless ⟨fun _ _ => id, fun _ => .inl⟩
  | broadcast item m => exact hless ⟨fun _ _ => id, fun _ => .inl⟩
  | acceptBlock item m contained => exact hless fewer_processBlock.asksLess
  | fetchItems => exact iff_true_intro (single_fetchItems hs hsingle)
  | advertiseInventory => exact hless fewer_advertiseInventory.asksLess
  | pruneFailedItems => exact hless ⟨fun _ _ => id, fun _ => .inl⟩
  | blockInterval seconds => exact hless ⟨fun _ _ => id, fun _ => .inl⟩

/-- Every event keeps what it is to keep. -/
lemma kept_handle (s : GossipNode μ) (e : ℤ × GossipEvent μ) (hs : s.Kept) : (s.handle e).Kept := by
  have hsame : ∀ {s' : GossipNode μ}, SameRequests s s' → s'.itemsToFetch = s.itemsToFetch → s'.Kept :=
    fun h hitems => h.kept hs (hitems ▸ hs.ordered)
  obtain ⟨now, e⟩ := e
  cases e with
  | connect p => exact (asksLess_connect hs).2
  | activate p => exact (asksLess_activate hs).2
  | reorder l =>
      simp only [handle]
      split_ifs with hperm
      · exact ⟨hs.ordered, hperm.nodup_iff.mpr hs.nodup,
          fun p hp hin => hs.apart p hp (hperm.mem_iff.mp hin), hs.clean, hs.single⟩
      · exact hs
  | disconnect p => exact (Fewer.fromPeer .disconnectFromPeer).kept hs
  | connectionClosed p =>
      simp only [handle, fromPeer]
      split_ifs
      · have herase : (s.eraseConnection p).Kept := Fewer.eraseConnection.kept hs
        exact sameRequests_returnItems.kept herase (ordered_returnItems herase.ordered)
      · exact hs
  | synchronize p needs busy =>
      exact (Fewer.fromPeer (.of_same (.modifyPeer rfl) (List.Sublist.refl _))).kept hs
  | itemIdsInventory p itemType hashes =>
      simp only [handle, fromPeer]
      split_ifs
      · have hclear : Fewer s (s.modifyPeer p (·.clearOldInventory now)) :=
          .of_same (.modifyPeer rfl) (List.Sublist.refl _)
        exact sameRequests_noteItems.kept (hclear.kept hs) (ordered_noteItems hs.ordered)
      · exact hs
  | itemNotAvailable p item =>
      simp only [handle, fromPeer, onItemNotAvailable]
      split_ifs
      · have hforget : (s.forgetItem p item).Kept := fewer_forgetItem.kept hs
        exact sameRequests_returnItem.kept hforget (ordered_returnItem hforget.ordered)
      · exact hs
      · exact hs
  | receive p item forSync => exact (Fewer.fromPeer fewer_receiveItem).kept hs
  | reject item => exact hsame ⟨rfl, rfl, fun _ => rfl⟩ rfl
  | broadcast item m => exact hsame ⟨rfl, rfl, fun _ => rfl⟩ rfl
  | acceptBlock item m contained => exact fewer_processBlock.kept hs
  | fetchItems => exact kept_fetchItems hs
  | advertiseInventory => exact fewer_advertiseInventory.kept hs
  | pruneFailedItems => exact hsame ⟨rfl, rfl, fun _ => rfl⟩ rfl
  | blockInterval seconds => exact hsame ⟨rfl, rfl, fun _ => rfl⟩ rfl

lemma Kept.start : (({} : GossipNode μ)).Kept :=
  ⟨⟨List.nodup_nil, List.Pairwise.nil⟩, List.nodup_nil, by simp, by simp, by simp⟩

lemma Single.start : (({} : GossipNode μ)).Single :=
  ⟨fun _ _ _ h => absurd h.1 List.not_mem_nil, fun _ _ h => absurd h.1 List.not_mem_nil⟩

/-- **Each item is requested once.** In all states of a run, no item is requested from two active peers
at once, or requested and yet to be fetched, exactly if no peer gives an item back when it is not active
any more and another peer has been asked for the item. -/
theorem single_iff (es : List (ℤ × GossipEvent μ)) :
    Runs.Always handle Single ({} : GossipNode μ) es ↔ Runs.Each handle Timely ({} : GossipNode μ) es :=
  Runs.always_iff (W := Kept) kept_handle single_handle_iff .start .start

/-! ### Blocks first -/

lemma kept_run (es : List (ℤ × GossipEvent μ)) : (es.foldl handle ({} : GossipNode μ)).Kept := by
  have halways : Runs.Always handle Kept ({} : GossipNode μ) es :=
    Runs.always_of_step kept_handle .start
  exact Runs.always_iff_foldl.mp halways es (List.prefix_refl es)

/-- **Priority.** After a round of the fetch loop in any run, a peer that was idle and could have been
asked for an item that still waits has been asked for exactly one other item instead, and not for a
transaction if a block waits. -/
theorem fetchItems_priority {es : List (ℤ × GossipEvent μ)} {x : PrioritizedItem}
    (hrun : es.foldl handle {} = s) (hx : x ∈ (s.fetchItems now).itemsToFetch)
    (hp : p ∈ s.activeConnections) (hidle : (s.peer p).idle) (hask : s.mayAsk now x p) :
    ∃ item, ((s.fetchItems now).peer p).itemsRequestedFromPeer = [item] ∧ item ≠ x.item ∧
      x.item.itemType ≤ item.itemType := by
  have hs : s.Kept := hrun ▸ kept_run es
  rw [fetchItems_eq, (foldl_requestItem _ _).2.2] at hx
  obtain ⟨y, hgiven, hbefore⟩ := Greedy.taken_before hx
    (List.mem_filter.mpr ⟨hp, hidle⟩) hask
  have hordered : Ordered [y, x] :=
    hs.ordered.sublist (hbefore.trans List.filter_sublist)
  refine ⟨y.item, requested_of_given hs hgiven, ?_, ?_⟩
  · have hnodup := hordered.unique
    simpa using hnodup
  · simpa using hordered.sorted

/-- A peer that offers a transaction, and then a block, is asked for the block. -/
def offersTwo : GossipNode Unit :=
  [(0, .connect 1), (0, .activate 1), (500000000, .itemIdsInventory 1 trxMessageType [.zero]),
    (500000000, .itemIdsInventory 1 blockMessageType [.zero])].foldl handle {}

theorem fetchItems_priority_two :
    ∃ item, ((offersTwo.fetchItems 500000001).peer 1).itemsRequestedFromPeer = [item] ∧
      item ≠ ⟨trxMessageType, .zero⟩ ∧ trxMessageType ≤ item.itemType :=
  fetchItems_priority (x := ⟨⟨trxMessageType, .zero⟩, 500000000⟩) rfl (by decide) (by decide) (by decide)
    (by decide)

end GossipNode

end ZosCore.Net
