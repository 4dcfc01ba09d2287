import Mathlib.Data.List.Chain
import Mathlib.Data.List.TakeWhile
import ZosCore.Lib.Runs
import ZosCore.Net.Quiet

/-!
The list of blocks that a node is to get from a peer.

A reply of the peer extends the list at its end, or replaces the end of it if the peer has changed
to another fork in between; blocks that have come in are taken from its front, and are in the set of
those that are being processed until the delegate is done with them.

* `Contiguous`: the numbers in the list follow one another, and none of its blocks is being processed.
* `Covers`: what the reply announces and the delegate does not have is in the list or in the set.
* `Fits`: when a reply fits the list that it meets. The merge looks neither at the set of blocks that
  are being processed nor, if the list has nothing in common with the reply, at whether the delegate
  has the reply's first block; and the check of the numbers counts modulo `2 ^ 32`.
* **`itemsToGet_contiguous_iff`**: the lists are contiguous and cover the replies in a whole run
  exactly if all its replies fit.
-/

namespace ZosCore.Net

variable {β : Type}

/-! ### Lists of blocks -/

/-- The numbers of the blocks follow one another. -/
def Follows (l : List ItemHash) : Prop := l.IsChain fun a b => b.num = a.num + 1

instance (l : List ItemHash) : Decidable (Follows l) := inferInstanceAs (Decidable (List.IsChain _ l))

namespace Follows

variable {l l' : List ItemHash} {id : ItemHash}

lemma num_lt (h : Follows (id :: l)) : ∀ x ∈ l, id.num < x.num := by
  induction l generalizing id with
  | nil => simp
  | cons y l ih =>
      obtain ⟨hy, hl⟩ := List.isChain_cons_cons.mp h
      refine List.forall_mem_cons.mpr ⟨by omega, fun x hx => ?_⟩
      have := ih hl x hx
      omega

/-- No block is there twice, as no number is. -/
lemma nodup (h : Follows l) : l.Nodup := by
  induction l with
  | nil => exact List.nodup_nil
  | cons id l ih =>
      refine List.nodup_cons.mpr ⟨fun hid => ?_, ih h.tail⟩
      exact lt_irrefl _ (h.num_lt id hid)

/-- A list that ends with the block that the next one starts with. -/
lemma append_iff (h : Follows (l ++ [id])) : Follows (l ++ id :: l') ↔ Follows (id :: l') := by
  refine ⟨fun h => List.IsChain.right_of_append h, fun h' => ?_⟩
  have hsplit : l ++ id :: l' = (l ++ [id]) ++ l' := by simp
  rw [hsplit]
  refine List.isChain_append.mpr ⟨h, h'.tail, fun x hx y hy => ?_⟩
  obtain rfl : id = x := by simpa using hx
  cases l' with
  | nil => simp at hy
  | cons z l' =>
      obtain rfl : z = y := by simpa using hy
      exact (List.isChain_cons_cons.mp h').1

end Follows

namespace NodeImpl

variable {d : Delegate β} {id : ItemHash} {l : List ItemHash}

/-- Nothing is left of the list if it does not have the item. -/
lemma popBackUntil_of_not_mem (h : id ∉ l) : popBackUntil id l = [] := by
  induction l with
  | nil => rfl
  | cons x l ih =>
      obtain ⟨hx, hl⟩ := not_or.mp (List.mem_cons.not.mp h)
      simp [popBackUntil, ih hl, Ne.symm hx]

/-- The list up to the item is left. -/
lemma popBackUntil_of_mem (h : id ∈ l) : ∃ l', popBackUntil id l = l' ++ [id] ∧ l' ++ [id] <+: l := by
  induction l with
  | nil => cases h
  | cons x l ih =>
      by_cases hl : id ∈ l
      · obtain ⟨l', hpop, hinit⟩ := ih hl
        refine ⟨x :: l', ?_, List.cons_prefix_cons.mpr ⟨rfl, hinit⟩⟩
        rw [popBackUntil, hpop]
        cases l' <;> rfl
      · obtain rfl := (List.mem_cons.mp h).resolve_right hl
        exact ⟨[], by simp [popBackUntil, popBackUntil_of_not_mem hl], by simp⟩

/-- The loop drops what the delegate has. -/
lemma dropSeen_eq (l : List ItemHash) : (dropSeen d l).2 = l.dropWhile d.hasItem := by
  induction l with
  | nil => rfl
  | cons x l ih =>
      by_cases hx : d.hasItem x
      · simp [dropSeen, hx, ih]
      · simp [dropSeen, hx]

/-! ### What a reply is merged to -/

/-- The ids of a reply that the merge adds to the list, or keeps in it. -/
def addedIds (d : Delegate β) (isFirst : Bool) (ids : List ItemHash) (c : PeerConnection) :
    List ItemHash :=
  if c.idsOfItemsToGet = [] then if isFirst then ids else ids.dropWhile d.hasItem
  else if ∀ id ∈ ids.head?, id ∈ c.idsOfItemsToGet then ids else ids.tail

/-- The merge changes the list alone, besides the last block that was seen. -/
lemma mergeItemIds_idsOfItemsBeingProcessed (isFirst : Bool) (ids : List ItemHash)
    (c : PeerConnection) :
    (mergeItemIds d isFirst ids c).idsOfItemsBeingProcessed = c.idsOfItemsBeingProcessed := by
  cases ids with
  | nil => rfl
  | cons first rest =>
      rw [mergeItemIds]
      split_ifs
      · rfl
      · rcases dropSeen d (first :: rest) with ⟨_ | last, remaining⟩ <;> rfl
      · cases popBackUntil first c.idsOfItemsToGet <;> rfl

/-- The list is empty when the reply comes. -/
lemma mergeItemIds_of_nil {isFirst : Bool} {ids : List ItemHash} {c : PeerConnection}
    (hempty : c.idsOfItemsToGet = []) :
    (mergeItemIds d isFirst ids c).idsOfItemsToGet = addedIds d isFirst ids c := by
  cases ids with
  | nil => cases isFirst <;> simp [mergeItemIds, addedIds, hempty]
  | cons first rest =>
      cases isFirst with
      | true => simp [mergeItemIds, addedIds, hempty]
      | false =>
          have hdrop := dropSeen_eq (d := d) (first :: rest)
          simp only [mergeItemIds, addedIds, hempty, if_true, Bool.false_eq_true, if_false, ← hdrop]
          rcases dropSeen d (first :: rest) with ⟨_ | last, remaining⟩ <;> rfl

/-- The reply starts with a block of the list. -/
lemma mergeItemIds_of_mem (d : Delegate β) (isFirst : Bool) {first : ItemHash} (rest : List ItemHash)
    {c : PeerConnection} (hmem : first ∈ c.idsOfItemsToGet) :
    ∃ kept, kept ++ [first] <+: c.idsOfItemsToGet ∧
      (mergeItemIds d isFirst (first :: rest) c).idsOfItemsToGet =
        kept ++ addedIds d isFirst (first :: rest) c := by
  have hne : c.idsOfItemsToGet ≠ [] := List.ne_nil_of_mem hmem
  obtain ⟨kept, hpop, hinit⟩ := popBackUntil_of_mem hmem
  refine ⟨kept, hinit, ?_⟩
  have hadded : addedIds d isFirst (first :: rest) c = first :: rest := by simp [addedIds, hne, hmem]
  have hlast : (kept ++ [first]).dropLast = kept := List.dropLast_concat
  rw [hadded, mergeItemIds, if_neg hne, hpop]
  cases kept with
  | nil => rfl
  | cons x kept =>
      change (x :: (kept ++ [first])).dropLast ++ first :: rest = _
      rw [← List.cons_append, hlast]

/-- The reply starts with a block that is not in the list, which is then given up. -/
lemma mergeItemIds_of_not_mem (d : Delegate β) (isFirst : Bool) {first : ItemHash}
    (rest : List ItemHash) {c : PeerConnection} (hne : c.idsOfItemsToGet ≠ []) (hmem : first ∉ c.idsOfItemsToGet) :
    (mergeItemIds d isFirst (first :: rest) c).idsOfItemsToGet = rest ∧
      addedIds d isFirst (first :: rest) c = rest := by
  refine ⟨?_, by simp [addedIds, hne, hmem]⟩
  rw [mergeItemIds, if_neg hne, popBackUntil_of_not_mem hmem]
  rfl

/-- What the merge adds is the end of the reply. -/
lemma addedIds_suffix (isFirst : Bool) (ids : List ItemHash) (c : PeerConnection) :
    addedIds d isFirst ids c <:+ ids := by
  rw [addedIds]
  split_ifs
  · exact List.suffix_rfl
  · exact List.dropWhile_suffix _
  · exact List.suffix_rfl
  · exact List.tail_suffix _

/-! ### Numbers that count modulo `2 ^ 32` -/

/-- In a reply that passes the check, each number is the successor of the one before. -/
lemma sequential_isChain {ids : List ItemHash} (h : sequential ids) :
    ids.IsChain fun a b => b.num = (a.num + 1) % 2 ^ 32 := by
  cases ids with
  | nil => exact List.IsChain.nil
  | cons first rest =>
      have hrest : ∀ (i : ℕ) (hi : i < rest.length), rest[i].num = (first.num + (i + 1)) % 2 ^ 32 := by
        intro i hi
        have hall := List.all_eq_true.mp h (rest[i], i) (List.mem_zipIdx_iff_getElem?.mpr (by simp [hi]))
        simpa using hall
      refine List.isChain_iff_getElem.mpr fun i hi => ?_
      have hi' : i < rest.length := by simpa using hi
      cases i with
      | zero => simpa using hrest 0 hi'
      | succ i =>
          simp only [List.getElem_cons_succ]
          rw [hrest (i + 1) hi', hrest i (by omega)]
          omega

/-- The numbers follow one another, unless they start again at zero. -/
lemma follows_iff_of_isChain (h : l.IsChain fun a b => b.num = (a.num + 1) % 2 ^ 32) :
    Follows l ↔ ∀ id ∈ l.dropLast, id.num + 1 < 2 ^ 32 := by
  induction l with
  | nil => simp [Follows]
  | cons x l ih =>
      cases l with
      | nil => simp [Follows]
      | cons y l =>
          obtain ⟨hy, hl⟩ := List.isChain_cons_cons.mp h
          have hlast : (x :: y :: l).dropLast = x :: (y :: l).dropLast := rfl
          rw [hlast, List.forall_mem_cons, ← ih hl, Follows, List.isChain_cons_cons]
          refine and_congr_left fun _ => ?_
          omega

end NodeImpl

/-! ### Lists that are contiguous -/

/-- The numbers in the list of a peer follow one another, and none of its blocks is being
processed. -/
structure PeerConnection.Contiguous (c : PeerConnection) : Prop where
  follows : Follows c.idsOfItemsToGet
  disjoint : ∀ id ∈ c.idsOfItemsToGet, id ∉ c.idsOfItemsBeingProcessed

/-- What becomes of a reply whose ids meet this list: they do not start again at zero, none that is
added is being processed, and the first one is not lost unless the delegate has it. -/
structure PeerConnection.Fits (d : Delegate β) (isFirst : Bool) (ids : List ItemHash)
    (c : PeerConnection) : Prop where
  noWrap : ∀ id ∈ (NodeImpl.addedIds d isFirst ids c).dropLast, id.num + 1 < 2 ^ 32
  notProcessed : ∀ id ∈ NodeImpl.addedIds d isFirst ids c, id ∉ c.idsOfItemsBeingProcessed
  known : c.idsOfItemsToGet ≠ [] → ∀ id ∈ ids.head?, id ∉ c.idsOfItemsToGet →
    d.hasItem id ∨ id ∈ ids.tail ∨ id ∈ c.idsOfItemsBeingProcessed

/-- What the reply announces and the delegate does not have is in the list or being processed. -/
def PeerConnection.Covers (d : Delegate β) (ids : List ItemHash) (c : PeerConnection) : Prop :=
  ∀ id ∈ ids, d.hasItem id = false → id ∈ c.idsOfItemsToGet ∨ id ∈ c.idsOfItemsBeingProcessed

namespace PeerConnection

variable {c c' : PeerConnection} {d : Delegate β} {isFirst : Bool} {ids : List ItemHash}

/-- A list that stays or is cleared, while fewer blocks are being processed. -/
lemma Contiguous.of_quiet (h : c.Contiguous)
    (hlist : c'.idsOfItemsToGet = c.idsOfItemsToGet ∨ c'.idsOfItemsToGet = [])
    (hset : c'.idsOfItemsBeingProcessed ⊆ c.idsOfItemsBeingProcessed) : c'.Contiguous := by
  rcases hlist with hlist | hlist
  · exact ⟨hlist ▸ h.follows, fun id hid hmem => h.disjoint id (hlist ▸ hid) (hset hmem)⟩
  · exact ⟨hlist ▸ List.IsChain.nil, fun id hid => by simp [hlist] at hid⟩

/-- The first block of the list is taken from it. -/
lemma Contiguous.takeDue (h : c.Contiguous) {id : ItemHash}
    (hid : c.idsOfItemsToGet.head? = some id)
    (hlist : c'.idsOfItemsToGet = c.idsOfItemsToGet.tail)
    (hset : c'.idsOfItemsBeingProcessed = insert id c.idsOfItemsBeingProcessed) :
    c'.Contiguous := by
  obtain ⟨l, hl⟩ : ∃ l, c.idsOfItemsToGet = id :: l := List.head?_eq_some_iff.mp hid
  have hfollows : Follows (id :: l) := hl ▸ h.follows
  have hnodup := List.nodup_cons.mp hfollows.nodup
  rw [hl, List.tail_cons] at hlist
  refine ⟨hlist ▸ hfollows.tail, fun x hx hmem => ?_⟩
  rw [hlist] at hx
  rcases Finset.mem_insert.mp (hset ▸ hmem) with rfl | hmem
  · exact hnodup.1 hx
  · exact h.disjoint x (hl ▸ List.mem_cons_of_mem _ hx) hmem

/-- A list that ends with the first id of the reply, and goes on with the reply. -/
lemma contiguous_append_iff {kept : List ItemHash} {first : ItemHash} {rest : List ItemHash}
    (h : c.Contiguous) (hinit : kept ++ [first] <+: c.idsOfItemsToGet)
    (hlist : c'.idsOfItemsToGet = kept ++ first :: rest)
    (hset : c'.idsOfItemsBeingProcessed = c.idsOfItemsBeingProcessed) :
    c'.Contiguous ↔
      Follows (first :: rest) ∧ ∀ id ∈ first :: rest, id ∉ c.idsOfItemsBeingProcessed := by
  have hkept : Follows (kept ++ [first]) := h.follows.prefix hinit
  constructor
  · intro h'
    refine ⟨hkept.append_iff.mp (hlist ▸ h'.follows), fun id hid => ?_⟩
    exact hset ▸ h'.disjoint id (hlist ▸ List.mem_append_right _ hid)
  · rintro ⟨hfollows, hdisjoint⟩
    refine ⟨hlist ▸ hkept.append_iff.mpr hfollows, fun id hid => ?_⟩
    rw [hset]
    rcases List.mem_append.mp (hlist ▸ hid) with hid | hid
    · exact h.disjoint id (hinit.subset (List.mem_append_left _ hid))
    · exact hdisjoint id hid

/-- A list that is what the reply adds, if the reply passes the check of the numbers. -/
lemma contiguous_added_iff (hids : NodeImpl.sequential ids)
    (hlist : c'.idsOfItemsToGet = NodeImpl.addedIds d isFirst ids c)
    (hset : c'.idsOfItemsBeingProcessed = c.idsOfItemsBeingProcessed) :
    c'.Contiguous ↔ (∀ id ∈ (NodeImpl.addedIds d isFirst ids c).dropLast, id.num + 1 < 2 ^ 32) ∧
      ∀ id ∈ NodeImpl.addedIds d isFirst ids c, id ∉ c.idsOfItemsBeingProcessed := by
  rw [← NodeImpl.follows_iff_of_isChain ((NodeImpl.sequential_isChain hids).suffix
    (NodeImpl.addedIds_suffix (d := d) isFirst ids c)), ← hlist, ← hset]
  exact ⟨fun h => ⟨h.follows, h.disjoint⟩, fun h => ⟨h.1, h.2⟩⟩

/-- What is dropped from the front of a reply is known to the delegate. -/
lemma covers_merge_of_nil (hempty : c.idsOfItemsToGet = []) :
    (NodeImpl.mergeItemIds d isFirst ids c).Covers d ids := by
  intro id hid hnone
  left
  rw [NodeImpl.mergeItemIds_of_nil hempty, NodeImpl.addedIds, if_pos hempty]
  cases isFirst with
  | true => exact hid
  | false =>
      rw [← List.takeWhile_append_dropWhile (p := d.hasItem) (l := ids)] at hid
      refine (List.mem_append.mp hid).resolve_left fun hid => ?_
      simpa [hnone] using List.mem_takeWhile_imp hid

/-- **The merge.** It leaves the list contiguous, and covering the reply, exactly if the reply fits. -/
lemma contiguous_and_covers_merge_iff (d : Delegate β) (isFirst : Bool) (h : c.Contiguous)
    (hids : NodeImpl.sequential ids) :
    (NodeImpl.mergeItemIds d isFirst ids c).Contiguous ∧
      (NodeImpl.mergeItemIds d isFirst ids c).Covers d ids ↔ c.Fits d isFirst ids := by
  have hset := NodeImpl.mergeItemIds_idsOfItemsBeingProcessed (d := d) isFirst ids c
  by_cases hempty : c.idsOfItemsToGet = []
  · rw [contiguous_added_iff hids (NodeImpl.mergeItemIds_of_nil hempty) hset]
    exact ⟨fun h => ⟨h.1.1, h.1.2, fun hne => absurd hempty hne⟩,
      fun h => ⟨⟨h.noWrap, h.notProcessed⟩, covers_merge_of_nil hempty⟩⟩
  · cases ids with
    | nil =>
        have hnil : NodeImpl.addedIds d isFirst [] c = [] := by simp [NodeImpl.addedIds]
        refine iff_of_true ⟨h, by simp [Covers]⟩ ⟨?_, ?_, by simp⟩ <;> simp [hnil]
    | cons first rest =>
        by_cases hmem : first ∈ c.idsOfItemsToGet
        · obtain ⟨kept, hinit, hlist⟩ :=
            NodeImpl.mergeItemIds_of_mem d isFirst rest hmem
          have hadded : NodeImpl.addedIds d isFirst (first :: rest) c = first :: rest := by
            simp [NodeImpl.addedIds, hempty, hmem]
          rw [hadded] at hlist
          have hcovers : (NodeImpl.mergeItemIds d isFirst (first :: rest) c).Covers d (first :: rest) :=
            fun id hid _ => .inl (hlist ▸ List.mem_append_right _ hid)
          rw [contiguous_append_iff h hinit hlist hset,
            NodeImpl.follows_iff_of_isChain (NodeImpl.sequential_isChain hids)]
          constructor
          · rintro ⟨⟨hwrap, hdisjoint⟩, -⟩
            refine ⟨by rwa [hadded], by rwa [hadded], fun _ id hid hnot => ?_⟩
            obtain rfl := Option.some.inj hid
            exact absurd hmem hnot
          · rintro ⟨hwrap, hdisjoint, -⟩
            rw [hadded] at hwrap hdisjoint
            exact ⟨⟨hwrap, hdisjoint⟩, hcovers⟩
        · obtain ⟨hlist, hadded⟩ := NodeImpl.mergeItemIds_of_not_mem d isFirst rest hempty hmem
          rw [contiguous_added_iff hids (hlist.trans hadded.symm) hset]
          constructor
          · rintro ⟨hcontiguous, hcovers⟩
            refine ⟨hcontiguous.1, hcontiguous.2, fun _ id hid _ => ?_⟩
            obtain rfl := Option.some.inj hid
            cases hknown : d.hasItem first with
            | true => exact .inl rfl
            | false =>
                right
                simpa [hlist, hset] using hcovers first List.mem_cons_self hknown
          · intro hfits
            refine ⟨⟨hfits.noWrap, hfits.notProcessed⟩, fun id hid hnone => ?_⟩
            rw [hlist, hset]
            rcases List.mem_cons.mp hid with rfl | hid
            · exact (hfits.known hempty id rfl hmem).resolve_left (by simp [hnone])
            · exact .inl hid

end PeerConnection

/-! ### Handlers that add nothing to the lists -/

namespace NodeImpl

/-- The lists of the peers stay or are cleared. -/
structure ListsKept (s s' : NodeImpl β) : Prop where
  idsOfItemsToGet : ∀ p,
    (s'.peer p).idsOfItemsToGet = (s.peer p).idsOfItemsToGet ∨ (s'.peer p).idsOfItemsToGet = []
  idsOfItemsBeingProcessed : ∀ p,
    (s'.peer p).idsOfItemsBeingProcessed ⊆ (s.peer p).idsOfItemsBeingProcessed

/-- The list of every peer is contiguous. -/
def AllContiguous (s : NodeImpl β) : Prop := ∀ p, (s.peer p).Contiguous

variable {s s' s'' : NodeImpl β} {d : Delegate β} {p : ℕ}

lemma Quiet.listsKept (h : Quiet s s') : ListsKept s s' :=
  ⟨h.idsOfItemsToGet, h.idsOfItemsBeingProcessed⟩

lemma AllContiguous.of_kept (h : s.AllContiguous) (hkept : ListsKept s s') : s'.AllContiguous :=
  fun p => (h p).of_quiet (hkept.idsOfItemsToGet p) (hkept.idsOfItemsBeingProcessed p)

namespace ListsKept

lemma refl (s : NodeImpl β) : ListsKept s s := ⟨fun _ => .inl rfl, fun _ => subset_rfl⟩

lemma trans (h : ListsKept s s') (h' : ListsKept s' s'') : ListsKept s s'' where
  idsOfItemsToGet p := by
    rcases h'.idsOfItemsToGet p with h' | h'
    · rw [h']
      exact h.idsOfItemsToGet p
    · exact .inr h'
  idsOfItemsBeingProcessed p :=
    (h'.idsOfItemsBeingProcessed p).trans (h.idsOfItemsBeingProcessed p)

/-- A change of other fields of one peer. -/
lemma modifyPeer {f : PeerConnection → PeerConnection} (p : ℕ)
    (hlist : ∀ c, (f c).idsOfItemsToGet = c.idsOfItemsToGet)
    (hset : ∀ c, (f c).idsOfItemsBeingProcessed = c.idsOfItemsBeingProcessed) :
    ListsKept s (s.modifyPeer p f) := by
  refine ⟨fun q => .inl ?_, fun q => subset_of_eq ?_⟩ <;> by_cases hq : q = p
  all_goals first | subst hq | skip
  all_goals simp [NodeImpl.modifyPeer, *]

lemma requestSyncItemsFromPeer (r : ℕ × List ItemHash) :
    ListsKept s (s.requestSyncItemsFromPeer r) := by
  have hkept := modifyPeer (s := s) (f := fun c => { c with
    syncItemsRequestedFromPeer := c.syncItemsRequestedFromPeer ∪ r.2.toFinset }) r.1
    (fun _ => rfl) fun _ => rfl
  exact ⟨hkept.idsOfItemsToGet, hkept.idsOfItemsBeingProcessed⟩

lemma fetchSyncItems : ListsKept s s.fetchSyncItems := by
  have hfold : ∀ (l : List (ℕ × List ItemHash)) (s : NodeImpl β),
      ListsKept s (l.foldl NodeImpl.requestSyncItemsFromPeer s) := by
    intro l
    induction l with
    | nil => exact fun s => refl s
    | cons r l ih => exact fun s => (requestSyncItemsFromPeer r).trans (ih _)
  rw [NodeImpl.fetchSyncItems]
  split_ifs
  · exact refl s
  · exact hfold _ s

lemma processBlockMessage (hp : p ∈ s.connections) (m : BlockMessage β) (hash : ItemHash) :
    ListsKept s (s.processBlockMessage d p m hash) := by
  -- the block has been taken from the requests
  have htaken : ListsKept s (s.modifyPeer p fun c =>
      { c with syncItemsRequestedFromPeer := c.syncItemsRequestedFromPeer.erase m.blockId }) :=
    modifyPeer p (fun _ => rfl) fun _ => rfl
  rw [NodeImpl.processBlockMessage]
  simp only
  split_ifs
  · have hregular : ListsKept s (s.modifyPeer p fun c =>
        { c with itemsRequestedFromPeer := c.itemsRequestedFromPeer.erase ⟨.block, hash⟩ }) :=
      modifyPeer p (fun _ => rfl) fun _ => rfl
    refine hregular.trans (Quiet.processBlockDuringNormalOperation ?_).listsKept
    exact hp
  · refine ListsKept.trans ?_ (Quiet.fetchNextBatchOfItemIdsFromPeer ?_).listsKept
    · exact ⟨htaken.idsOfItemsToGet, htaken.idsOfItemsBeingProcessed⟩
    · exact hp
  · exact ⟨htaken.idsOfItemsToGet, htaken.idsOfItemsBeingProcessed⟩
  · exact (Quiet.disconnectFromPeer hp).listsKept

lemma onItemNotAvailableMessage (hp : p ∈ s.connections) (item : ItemId) :
    ListsKept s (s.onItemNotAvailableMessage p item) := by
  have htaken : ListsKept s (s.modifyPeer p fun c =>
      { c with syncItemsRequestedFromPeer := c.syncItemsRequestedFromPeer.erase item.itemHash }) :=
    modifyPeer p (fun _ => rfl) fun _ => rfl
  rw [NodeImpl.onItemNotAvailableMessage]
  simp only
  split_ifs
  · exact modifyPeer p (fun _ => rfl) fun _ => rfl
  · exact htaken.trans (modifyPeer p (fun _ => rfl) fun _ => rfl)
  · refine htaken.trans (Quiet.disconnectFromPeer ?_).listsKept
    exact hp
  · exact refl s

end ListsKept

/-! ### The backlog -/

namespace AllContiguous

lemma takeDue (h : s.AllContiguous) (id : ItemHash) : (s.takeDue id).AllContiguous := by
  intro q
  by_cases hq : q ∈ s.activeConnections
  · by_cases hdue : (s.peer q).idsOfItemsToGet.head? = some id
    · exact (h q).takeDue hdue (by simp [NodeImpl.takeDue, modifyActive, hq, hdue])
        (by simp [NodeImpl.takeDue, modifyActive, hq, hdue])
    · simpa [NodeImpl.takeDue, modifyActive, hq, hdue] using h q
  · simpa [NodeImpl.takeDue, modifyActive, hq] using h q

lemma processNext (h : s.AllContiguous) : (s.moveNewItems.processNext d).2.AllContiguous := by
  rw [NodeImpl.processNext]
  have hmoved : s.moveNewItems.AllContiguous := h
  cases s.moveNewItems.receivedSyncItems.find? s.moveNewItems.isDue with
  | none => exact hmoved
  | some m =>
      have htaken := hmoved.takeDue m.blockId
      simp only
      split_ifs
      · exact htaken.of_kept Quiet.treatAsAccepted.listsKept
      · exact htaken

lemma processBacklogLoop (h : s.AllContiguous) {fuel : ℕ}
    (hrun : s.processBacklogLoop d fuel = some s') : s'.AllContiguous := by
  induction fuel generalizing s with
  | zero => simp [NodeImpl.processBacklogLoop] at hrun
  | succ fuel ih =>
      have hround : (s.moveNewItems.processNext d).2.AllContiguous := h.processNext
      simp only [NodeImpl.processBacklogLoop] at hrun
      split_ifs at hrun with hbusy hsuspend hagain
      · exact Option.some.inj hrun ▸ hround
      · exact Option.some.inj hrun ▸ hround
      · exact ih hround hrun
      · exact Option.some.inj hrun ▸ hround

lemma processBacklogOfSyncBlocks (h : s.AllContiguous) {fuel : ℕ}
    (hrun : s.processBacklogOfSyncBlocks d fuel = some s') : s'.AllContiguous := by
  rw [NodeImpl.processBacklogOfSyncBlocks] at hrun
  split_ifs at hrun
  · exact Option.some.inj hrun ▸ h
  · refine AllContiguous.processBacklogLoop ?_ hrun
    exact h

end AllContiguous

/-! ### Replies -/

/-- A reply that a connected peer was asked for, and that passes the checks. -/
def Answers (p : ℕ) (m : BlockchainItemIds) (s : NodeImpl β) : Prop :=
  p ∈ s.connections ∧
    ∃ synopsis, (s.peer p).itemIdsRequestedFromPeer = some synopsis ∧ passesChecks synopsis m

/-- The first item of a reply is the next one to get from another peer. -/
def startsForOther (p : ℕ) (m : BlockchainItemIds) (s : NodeImpl β) : Bool :=
  m.itemHashesAvailable.head?.elim false (s.isFirstItemForOtherPeer p)

/-- A reply that is merged fits the list that it meets. -/
def ReplyFits (s : NodeImpl β) : Event β → Prop
  | .blockchainItemIds d p m => s.Answers p m → isUpToDate d m (s.peer p) = false →
      (s.peer p).Fits d (s.startsForOther p m) m.itemHashesAvailable
  | _ => True

/-- After a reply, what it announces and the delegate does not have is in the list of the peer or being
processed. -/
def ReplyCovered (s : NodeImpl β) : Event β → Prop
  | .blockchainItemIds d p m => s.Answers p m →
      ((s.handle (.blockchainItemIds d p m)).peer p).Covers d m.itemHashesAvailable
  | _ => True

/-- The lists are those that they were. -/
structure SameLists (s s' : NodeImpl β) : Prop where
  idsOfItemsToGet : ∀ p, (s'.peer p).idsOfItemsToGet = (s.peer p).idsOfItemsToGet
  idsOfItemsBeingProcessed : ∀ p,
    (s'.peer p).idsOfItemsBeingProcessed = (s.peer p).idsOfItemsBeingProcessed

namespace SameLists

lemma allContiguous_iff (h : SameLists s s') : s'.AllContiguous ↔ s.AllContiguous := by
  refine forall_congr' fun p => ?_
  have hlist := h.idsOfItemsToGet p
  have hset := h.idsOfItemsBeingProcessed p
  exact ⟨fun h' => h'.of_quiet (.inl hlist.symm) (subset_of_eq hset.symm),
    fun h' => h'.of_quiet (.inl hlist) (subset_of_eq hset)⟩

lemma covers_iff (h : SameLists s s') (ids : List ItemHash) :
    (s'.peer p).Covers d ids ↔ (s.peer p).Covers d ids := by
  simp only [PeerConnection.Covers, h.idsOfItemsToGet, h.idsOfItemsBeingProcessed]

lemma modifyPeer {f : PeerConnection → PeerConnection} (p : ℕ)
    (hlist : ∀ c, (f c).idsOfItemsToGet = c.idsOfItemsToGet)
    (hset : ∀ c, (f c).idsOfItemsBeingProcessed = c.idsOfItemsBeingProcessed) :
    SameLists s (s.modifyPeer p f) := by
  refine ⟨fun q => ?_, fun q => ?_⟩ <;> by_cases hq : q = p
  all_goals first | subst hq | skip
  all_goals simp [NodeImpl.modifyPeer, *]

lemma continueFetching (m : BlockchainItemIds) : SameLists s (s.continueFetching d p m) := by
  rw [NodeImpl.continueFetching]
  split_ifs
  · exact ⟨fun _ => rfl, fun _ => rfl⟩
  · exact ⟨fun _ => rfl, fun _ => rfl⟩
  · rw [NodeImpl.fetchNextBatchOfItemIdsFromPeer]
    cases d.synopsisForPeer (s.countUnfetchedItems.peer p) with
    | some synopsis =>
        have hsame := modifyPeer (s := s.countUnfetchedItems)
          (f := fun c => { c with itemIdsRequestedFromPeer := some synopsis }) p (fun _ => rfl)
          fun _ => rfl
        exact ⟨hsame.idsOfItemsToGet, hsame.idsOfItemsBeingProcessed⟩
    | none => exact ⟨fun _ => rfl, fun _ => rfl⟩

end SameLists

/-- A reply that was not asked for changes no list. -/
lemma handle_of_not_answers {m : BlockchainItemIds} (h : ¬ s.Answers p m) :
    SameLists s (s.handle (.blockchainItemIds d p m)) := by
  rw [handle, fromPeer]
  split_ifs with hp
  · rw [onBlockchainItemIdsInventoryMessage]
    cases hrequest : (s.peer p).itemIdsRequestedFromPeer with
    | none => exact ⟨fun _ => rfl, fun _ => rfl⟩
    | some synopsis =>
        have hchecks : ¬ passesChecks synopsis m := fun hchecks => h ⟨hp, synopsis, hrequest, hchecks⟩
        simp only [hchecks, Bool.false_eq_true, if_false]
        exact ⟨fun _ => rfl, fun _ => rfl⟩
  · exact ⟨fun _ => rfl, fun _ => rfl⟩

lemma handle_of_answers {m : BlockchainItemIds} (h : s.Answers p m) :
    s.handle (.blockchainItemIds d p m) = s.acceptItemIds d p m := by
  obtain ⟨hp, synopsis, hrequest, hchecks⟩ := h
  simp [handle, fromPeer, hp, onBlockchainItemIdsInventoryMessage, hrequest, hchecks]

/-- The peer has nothing to offer: the lists stay, and the delegate has all that the reply
announces. -/
lemma acceptItemIds_of_upToDate {m : BlockchainItemIds} (h : isUpToDate d m (s.peer p)) :
    SameLists s (s.acceptItemIds d p m) ∧ (∀ id ∈ m.itemHashesAvailable, d.hasItem id) := by
  have hreset : isUpToDate d m ((s.resetRequest p).peer p) := by
    simpa [resetRequest, NodeImpl.modifyPeer, isUpToDate] using h
  refine ⟨?_, ?_⟩
  · rw [acceptItemIds]
    simp only [hreset, if_true]
    have hfirst := SameLists.modifyPeer (s := s)
      (f := fun c => { c with itemIdsRequestedFromPeer := none }) p (fun _ => rfl) fun _ => rfl
    have hsecond := SameLists.modifyPeer (s := s.resetRequest p)
      (f := fun c => { c with weNeedSyncItemsFromPeer := false }) p (fun _ => rfl) fun _ => rfl
    exact ⟨fun q => (hsecond.idsOfItemsToGet q).trans (hfirst.idsOfItemsToGet q),
      fun q => (hsecond.idsOfItemsBeingProcessed q).trans (hfirst.idsOfItemsBeingProcessed q)⟩
  · simp only [isUpToDate, Bool.and_eq_true, Bool.or_eq_true, decide_eq_true_eq] at h
    rcases h.1.1.2 with hnil | ⟨-, hall⟩
    · simp [hnil]
    · exact List.all_eq_true.mp hall

lemma startsForOther_resetRequest (m : BlockchainItemIds) :
    (s.resetRequest p).startsForOther p m = s.startsForOther p m := by
  have hfirst : (s.resetRequest p).isFirstItemForOtherPeer p = s.isFirstItemForOtherPeer p := by
    funext id
    refine List.any_congr rfl fun q => ?_
    by_cases hq : q = p <;> simp [resetRequest, NodeImpl.modifyPeer, hq]
  rw [startsForOther, startsForOther, hfirst]

lemma mergeReply_peer_self (m : BlockchainItemIds) :
    (s.mergeReply d p m).peer p =
      { mergeItemIds d (s.startsForOther p m) m.itemHashesAvailable (s.peer p) with
        numberOfUnfetchedItemIds := m.totalRemainingItemCount } := by
  simp [mergeReply, NodeImpl.modifyPeer, startsForOther]

/-- A reply that is merged changes the list of the peer alone. -/
lemma acceptItemIds_of_not_upToDate {m : BlockchainItemIds}
    (h : isUpToDate d m (s.peer p) = false) :
    SameLists ((s.resetRequest p).mergeReply d p m) (s.acceptItemIds d p m) ∧
      ∀ q ≠ p, ((s.resetRequest p).mergeReply d p m).peer q = s.peer q := by
  have hreset : isUpToDate d m ((s.resetRequest p).peer p) = false := by
    simpa [resetRequest, NodeImpl.modifyPeer, isUpToDate] using h
  refine ⟨?_, fun q hq => by simp [mergeReply, resetRequest, NodeImpl.modifyPeer, hq]⟩
  rw [acceptItemIds]
  simp only [hreset, Bool.false_eq_true, if_false]
  exact .continueFetching m

lemma sequential_of_answers {m : BlockchainItemIds} (h : s.Answers p m) :
    sequential m.itemHashesAvailable := by
  obtain ⟨-, synopsis, -, hchecks⟩ := h
  exact ((Bool.and_eq_true _ _).mp hchecks).1

/-- **A reply.** The lists stay contiguous, and the reply is covered, exactly if it fits. -/
lemma reply_iff (h : s.AllContiguous) (m : BlockchainItemIds) :
    (s.handle (.blockchainItemIds d p m)).AllContiguous ∧
      s.ReplyCovered (.blockchainItemIds d p m) ↔ s.ReplyFits (.blockchainItemIds d p m) := by
  by_cases hanswers : s.Answers p m
  · have hhandle := handle_of_answers (d := d) hanswers
    cases hdone : isUpToDate d m (s.peer p) with
    | true =>
        obtain ⟨hsame, hknown⟩ := acceptItemIds_of_upToDate hdone
        refine iff_of_true ⟨?_, fun _ id hid hnone => ?_⟩ fun _ hmore => ?_
        · exact hhandle ▸ hsame.allContiguous_iff.mpr h
        · simp [hknown id hid] at hnone
        · simp [hdone] at hmore
    | false =>
        obtain ⟨hsame, hothers⟩ := acceptItemIds_of_not_upToDate hdone
        have hself := mergeReply_peer_self (d := d) (s := s.resetRequest p) (p := p) m
        rw [startsForOther_resetRequest] at hself
        -- the request that is reset does not matter
        have hreset : (s.resetRequest p).peer p = { s.peer p with itemIdsRequestedFromPeer := none } := by
          simp [resetRequest, NodeImpl.modifyPeer]
        have hcontiguous : ((s.resetRequest p).peer p).Contiguous := by
          rw [hreset]
          exact ⟨(h p).follows, (h p).disjoint⟩
        have hfits : ((s.resetRequest p).peer p).Fits d (s.startsForOther p m) m.itemHashesAvailable ↔
            (s.peer p).Fits d (s.startsForOther p m) m.itemHashesAvailable := by
          rw [hreset]
          exact ⟨fun h => ⟨h.noWrap, h.notProcessed, h.known⟩,
            fun h => ⟨h.noWrap, h.notProcessed, h.known⟩⟩
        have hmerge := PeerConnection.contiguous_and_covers_merge_iff d (s.startsForOther p m)
          hcontiguous (sequential_of_answers hanswers)
        rw [hfits] at hmerge
        have hall : ((s.resetRequest p).mergeReply d p m).AllContiguous ↔
            (((s.resetRequest p).mergeReply d p m).peer p).Contiguous := by
          refine ⟨fun h => h p, fun hp q => ?_⟩
          by_cases hq : q = p
          · exact hq ▸ hp
          · exact hothers q hq ▸ h q
        have hcontiguous' : (((s.resetRequest p).mergeReply d p m).peer p).Contiguous ↔
            (mergeItemIds d (s.startsForOther p m) m.itemHashesAvailable
              ((s.resetRequest p).peer p)).Contiguous := by
          rw [hself]
          exact ⟨fun h => ⟨h.follows, h.disjoint⟩, fun h => ⟨h.follows, h.disjoint⟩⟩
        calc (s.handle (.blockchainItemIds d p m)).AllContiguous ∧
              s.ReplyCovered (.blockchainItemIds d p m)
            ↔ (s.acceptItemIds d p m).AllContiguous ∧
                ((s.acceptItemIds d p m).peer p).Covers d m.itemHashesAvailable := by
              rw [ReplyCovered, hhandle]
              exact and_congr_right fun _ => ⟨fun h => h hanswers, fun h _ => h⟩
          _ ↔ (s.peer p).Fits d (s.startsForOther p m) m.itemHashesAvailable := by
              rw [hsame.allContiguous_iff, hall, hcontiguous', hsame.covers_iff, hself, ← hmerge]
              exact Iff.rfl
          _ ↔ s.ReplyFits (.blockchainItemIds d p m) :=
              ⟨fun h _ _ => h, fun h => h hanswers hdone⟩
  · refine iff_of_true ⟨?_, fun h => absurd h hanswers⟩ fun h => absurd h hanswers
    exact (handle_of_not_answers hanswers).allContiguous_iff.mpr h

/-! ### Runs -/

/-- What the events that are no replies leave. -/
lemma allContiguous_handle (h : s.AllContiguous) (e : Event β)
    (he : ∀ d p m, e ≠ .blockchainItemIds d p m) : (s.handle e).AllContiguous := by
  -- an event of a peer, if the peer is connected
  have hpeer : ∀ (p : ℕ) (f : NodeImpl β → NodeImpl β), (p ∈ s.connections → ListsKept s (f s)) →
      (s.fromPeer p f).AllContiguous := by
    intro p f hf
    rw [fromPeer]
    split_ifs with hp
    · exact h.of_kept (hf hp)
    · exact h
  cases e with
  | blockchainItemIds d p m => exact absurd rfl (he d p m)
  | connect p =>
      rw [handle]
      split_ifs with hp
      · exact h
      · intro q
        by_cases hq : q = p
        · subst hq
          simpa using (⟨List.IsChain.nil, by simp⟩ : PeerConnection.Contiguous {})
        · simpa [hq] using h q
  | activate d p =>
      rw [handle]
      split_ifs with hp
      · refine AllContiguous.of_kept ?_ (Quiet.startSynchronizingWithPeer ?_).listsKept
        · exact h
        · exact mem_connections_of_active (List.mem_insert_self ..)
      · exact h
  | reorder l =>
      rw [handle]
      split_ifs with hl <;> exact h
  | connectionClosed p => exact hpeer p _ fun _ => ⟨fun _ => .inl rfl, fun _ => subset_rfl⟩
  | disconnect p => exact hpeer p _ fun hp => (Quiet.disconnectFromPeer hp).listsKept
  | startSynchronizing d p =>
      exact hpeer p _ fun hp => (Quiet.startSynchronizingWithPeer hp).listsKept
  | peerNeedsSyncItems p needs => exact hpeer p _ fun _ => .modifyPeer p (fun _ => rfl) fun _ => rfl
  | blockSent d p id => exact hpeer p _ fun _ => .modifyPeer p (fun _ => rfl) fun _ => rfl
  | advertised p item => exact hpeer p _ fun _ => .modifyPeer p (fun _ => rfl) fun _ => rfl
  | inventoryExpired p item => exact hpeer p _ fun _ => .modifyPeer p (fun _ => rfl) fun _ => rfl
  | itemsRequested p items =>
      exact hpeer p _ fun _ => .modifyPeer p (fun _ => by split_ifs <;> rfl)
        fun _ => by split_ifs <;> rfl
  | fetchSyncItems => exact h.of_kept .fetchSyncItems
  | itemNotAvailable p item => exact hpeer p _ fun hp => .onItemNotAvailableMessage hp item
  | block d p m hash => exact hpeer p _ fun hp => .processBlockMessage hp m hash
  | processBacklog d =>
      rw [handle]
      cases hrun : s.processBacklogOfSyncBlocks d s.backlogFuel with
      | none => exact h
      | some s' => exact AllContiguous.processBacklogOfSyncBlocks h hrun
  | callReturns d i => exact h.of_kept (Quiet.finishCall i).listsKept
  | syncFrom id => exact h
  | broadcast m => exact h

/-- **One event.** -/
lemma allContiguous_handle_iff (h : s.AllContiguous) (e : Event β) :
    (s.handle e).AllContiguous ∧ s.ReplyCovered e ↔ s.ReplyFits e := by
  by_cases he : ∃ d p m, e = .blockchainItemIds d p m
  · obtain ⟨d, p, m, rfl⟩ := he
    exact reply_iff h m
  · have hother : ∀ d p m, e ≠ .blockchainItemIds d p m := fun d p m h => he ⟨d, p, m, h⟩
    have hkept := allContiguous_handle h e hother
    cases e with
    | blockchainItemIds d p m => exact absurd rfl (hother d p m)
    | _ => exact iff_of_true ⟨hkept, trivial⟩ trivial

/-- **The lists of blocks to get** are contiguous in all states of a run, and cover the replies, exactly
if every reply that is merged fits the list that it meets. -/
theorem itemsToGet_contiguous_iff {s : NodeImpl β} (h : s.peer = fun _ => {}) (es : List (Event β)) :
    Runs.Always handle AllContiguous s es ∧ Runs.Each handle ReplyCovered s es ↔
      Runs.Each handle ReplyFits s es := by
  have hbegin : s.AllContiguous := fun p => by
    rw [h]
    exact ⟨List.IsChain.nil, by simp⟩
  exact Runs.always_and_each_iff (W := fun _ => True) (fun _ _ _ => trivial)
    (fun s e _ hs => allContiguous_handle_iff hs e) trivial hbegin

/-! ### A run -/

/-- The delegate of a node that has no block yet; its synopsis for a peer is the peer's list. -/
def listSynopsis : Delegate Unit where
  hasItem _ := false
  getBlockTime _ := 0
  handleBlock _ := .accepted
  synopsisForPeer c := some c.idsOfItemsToGet
  now := 0

/-- The first block. -/
def blockOne : SignedBlock Unit := { previous := .zero, timestamp := 10, digest := 1 }

/-- Two peers announce the first block, the second of them with more to come. It is requested from the
first peer, comes in and is handed to the delegate. -/
def processOne : List (Event Unit) :=
  [.connect 0, .activate listSynopsis 0, .connect 1, .activate listSynopsis 1,
    .blockchainItemIds listSynopsis 0 ⟨0, [⟨1, 1⟩]⟩, .blockchainItemIds listSynopsis 1 ⟨1, [⟨1, 1⟩]⟩,
    .fetchSyncItems, .block listSynopsis 0 (.ofBlock blockOne) ⟨0, 7⟩, .processBacklog listSynopsis]

/-- The block is being processed for both peers, and the lists are contiguous. -/
theorem itemsToGet_contiguous_processOne :
    ((processOne.foldl handle {}).peer 1).idsOfItemsBeingProcessed = {⟨1, 1⟩} ∧
      Runs.Always handle AllContiguous ({} : NodeImpl Unit) processOne := by
  refine ⟨by decide +kernel, ((itemsToGet_contiguous_iff rfl processOne).mpr ?_).1⟩
  refine ⟨trivial, trivial, trivial, trivial, fun _ _ => ?_, fun _ _ => ?_, trivial, trivial, trivial,
    trivial⟩ <;>
  exact ⟨by decide +kernel, by decide +kernel, by decide +kernel⟩

/-- The second peer goes on with the block that it has announced last. -/
def replyAgain : List (Event Unit) :=
  processOne ++ [.blockchainItemIds listSynopsis 1 ⟨0, [⟨1, 1⟩, ⟨2, 2⟩]⟩]

/-- The list is empty, and the reply is taken over with the block that is being processed. -/
theorem not_itemsToGet_contiguous :
    ¬ ∀ es : List (Event Unit), Runs.Always handle AllContiguous ({} : NodeImpl Unit) es ∧
      Runs.Each handle ReplyCovered {} es := by
  intro h
  have hlast := Runs.always_iff_foldl.mp (h replyAgain).1 replyAgain List.prefix_rfl
  have hlist : ⟨1, 1⟩ ∈ ((replyAgain.foldl handle {}).peer 1).idsOfItemsToGet := by decide +kernel
  have hset : ⟨1, 1⟩ ∈ ((replyAgain.foldl handle {}).peer 1).idsOfItemsBeingProcessed := by
    decide +kernel
  exact (hlast 1).disjoint _ hlist hset

end NodeImpl

end ZosCore.Net
