import ZosCore.Chain.History
import ZosCore.Net.Node

/-!
How a node answers a request for items.

`on_fetch_items_message` looks an item up among the messages that it keeps, and asks the application for
it otherwise. What it finds is queued for the peer, a block by its id. That an item is not there is told
by an exception, and only one kind of exception is caught.

* `NetMessage`, `SendQueue`: messages, and those that are queued for a peer.
* `ItemServer`: what a node looks items up in; `getItem`, `getMessageForItem`.
* `onFetchItemsMessage`: the handler.
* `AnswersAll`: every item is answered, in the order of the request.
* **`answersAll_iff`**: this is so exactly if no exception of another kind is thrown.
-/

namespace ZosCore.Net

open Database (fetchBlockById)

/-! ### Messages -/

/-- `block_message_type`. -/
def blockMessageType : UInt32 := 2101

/-- `item_id`, of any type. -/
structure RequestedItem where
  itemType : UInt32
  itemHash : ItemHash
  deriving DecidableEq, Repr

/-- `message`, by what it holds. -/
inductive NetMessage (β : Type) where
  | trx (trx : Transaction β)
  | block (m : BlockMessage β)
  | itemNotAvailable (item : RequestedItem)
  | other (msgType : UInt32) (data : List UInt8)

/-- A message of the type `block_message_type`. -/
def NetMessage.isBlock {β : Type} : NetMessage β → Bool
  | .block _ => true
  | _ => false

/-- `fetch_items_message`. -/
structure FetchItemsMessage where
  itemType : UInt32
  itemsToFetch : List ItemHash

/-- What is thrown on the way. -/
inductive ItemError where
  /-- `key_not_found_exception`. -/
  | keyNotFound
  /-- `assert_exception`. -/
  | assertion
  /-- "Attempting to send a message on a connection that is being shut down" -/
  | shutDown
  deriving DecidableEq

/-! ### The queue of a peer -/

/-- `queued_message`: the message itself, or an item that is looked up when its turn comes. -/
inductive QueuedMessage (β : Type) where
  | real (m : NetMessage β)
  | virtual (item : RequestedItem)

/-- `send_queued_messages_task`: it may be at the beginning of its loop, or wait for a message to be
sent. -/
inductive SendTask (β : Type) where
  | unstarted
  | looping
  | sending (m : NetMessage β)
  | done

/-- The part of `peer_connection` that sends. -/
structure SendQueue (β : Type) where
  queuedMessages : List (QueuedMessage β) := []
  totalQueuedMessagesSize : ℕ := 0
  task : SendTask β := .unstarted
  /-- `_send_queued_messages_done` is valid and canceled. -/
  canceled : Bool := false
  closing : Bool := false

/-- `GRAPHENE_NET_MAXIMUM_QUEUED_MESSAGES_IN_BYTES`. -/
def maximumQueuedMessagesInBytes : ℕ := 1024 * 1024

/-- `sizeof(item_id)`. -/
def sizeofItemId : ℕ := 24

section Queue

variable {β : Type} (dataSize : NetMessage β → ℕ)

/-- `get_size_in_queue`; `dataSize` is the size of the packed message. -/
def QueuedMessage.sizeInQueue : QueuedMessage β → ℕ
  | .real m => dataSize m
  | .virtual _ => sizeofItemId

/-- Neither valid nor ready: a task is under way. -/
def SendTask.isRunning : SendTask β → Bool
  | .looping | .sending _ => true
  | .unstarted | .done => false

namespace SendQueue

/-- The message is put into the queue. -/
def push (q : QueuedMessage β) (s : SendQueue β) : SendQueue β :=
  { s with
    totalQueuedMessagesSize := s.totalQueuedMessagesSize + q.sizeInQueue dataSize
    queuedMessages := s.queuedMessages ++ [q] }

/-- `send_queueable_message`. -/
def sendQueueableMessage (q : QueuedMessage β) (s : SendQueue β) :
    Except ItemError Unit × SendQueue β :=
  let s := s.push dataSize q
  if maximumQueuedMessagesInBytes < s.totalQueuedMessagesSize then (.ok (), { s with closing := true })
  else if s.canceled then (.error .shutDown, s)
  else if s.task.isRunning then (.ok (), s)
  else (.ok (), { s with task := .looping })

/-- `send_message`. -/
def sendMessage (m : NetMessage β) (s : SendQueue β) : Except ItemError Unit × SendQueue β :=
  s.sendQueueableMessage dataSize (.real m)

/-- `send_item`. -/
def sendItem (item : RequestedItem) (s : SendQueue β) : Except ItemError Unit × SendQueue β :=
  s.sendQueueableMessage dataSize (.virtual item)

end SendQueue

end Queue

/-! ### Where items are looked up -/

/-- `block_database::fetch_block_id`, with the kind of the exception. -/
def fetchBlockIdOrThrow {β : Type} (d : BlockDatabase β) (num : ℕ) : Except ItemError BlockId :=
  match d.index[num]? with
  | none => .error .keyNotFound
  | some e => if e.blockId = .zero then .error .assertion else .ok e.blockId

/-- The 160 bits of a hash as one number. -/
def trxIdOf (h : ItemHash) : ℕ := h.num * 2 ^ 128 + h.hash

/-- What a node looks items up in: the messages that it keeps under their hashes, and the database of the
application, with the transactions that are in `transaction_index`. -/
structure ItemServer (β ω : Type) where
  messageCache : List (ItemHash × NetMessage β) := []
  chainDb : Database β ω
  transactionIndex : List (Transaction β) := []
  /-- The default logger is enabled for errors. -/
  logsErrors : Bool := true

namespace ItemServer

variable {β ω : Type} (R : Rules β ω)

/-- `blockchain_tied_message_cache::get_message`; it throws that there is none. -/
def cachedMessage (s : ItemServer β ω) (h : ItemHash) : Option (NetMessage β) :=
  (s.messageCache.find? (·.1 = h)).map (·.2)

/-- `get_recent_transaction`. -/
def getRecentTransaction (s : ItemServer β ω) (id : ℕ) : Except ItemError (Transaction β) :=
  match s.transactionIndex.find? (·.id = id) with
  | some trx => .ok trx
  | none => .error .assertion

/-- `get_item` of the application. Where a block is not found this is logged, with the id that the
chain has for its number, and so the looking up of that one may throw first. -/
def getItem (s : ItemServer β ω) (item : RequestedItem) : Except ItemError (NetMessage β) :=
  if item.itemType = blockMessageType then
    match fetchBlockById R s.chainDb item.itemHash with
    | some b => .ok (.block (.ofBlock b))
    | none =>
        if s.logsErrors then
          match fetchBlockIdOrThrow s.chainDb.blockDb item.itemHash.num with
          | .error e => .error e
          | .ok _ => .error .assertion
        else .error .assertion
  else
    match s.getRecentTransaction (trxIdOf item.itemHash) with
    | .ok trx => .ok (.trx trx)
    | .error e => .error e

/-- `get_message_for_item`. -/
def getMessageForItem (s : ItemServer β ω) (item : RequestedItem) : Except ItemError (NetMessage β) :=
  match s.cachedMessage item.itemHash with
  | some m => .ok m
  | none =>
      match s.getItem R item with
      | .ok m => .ok m
      | .error .keyNotFound => .ok (.itemNotAvailable item)
      | .error e => .error e

/-- `get_block_time`. -/
def getBlockTime (s : ItemServer β ω) (id : BlockId) : ℕ :=
  (fetchBlockById R s.chainDb id).elim 0 (·.timestamp)

/-- The loop over the hashes, with `reply_messages` and `last_block_message_sent`. -/
def collectReplies (s : ItemServer β ω) (itemType : UInt32) :
    List ItemHash → List (NetMessage β) → Option (NetMessage β) →
      Except ItemError (List (NetMessage β) × Option (NetMessage β))
  | [], replies, last => .ok (replies, last)
  | h :: hs, replies, last =>
      match s.cachedMessage h with
      | some m =>
          s.collectReplies itemType hs (replies ++ [m])
            (if itemType = blockMessageType then some m else last)
      | none =>
          match s.getItem R ⟨itemType, h⟩ with
          | .ok m =>
              s.collectReplies itemType hs (replies ++ [m])
                (if itemType = blockMessageType then some m else last)
          | .error .keyNotFound =>
              s.collectReplies itemType hs (replies ++ [.itemNotAvailable ⟨itemType, h⟩]) last
          | .error e => .error e

end ItemServer

/-! ### The handler -/

/-- The part of `peer_connection` that the handler changes. -/
structure FetchingPeer (β : Type) where
  queue : SendQueue β := {}
  lastBlockDelegateHasSeen : ItemHash := .zero
  lastBlockTimeDelegateHasSeen : ℕ := 0

section Handler

variable {β ω : Type} (R : Rules β ω) (dataSize : NetMessage β → ℕ)

/-- A block is queued by its id. -/
def NetMessage.queued : NetMessage β → QueuedMessage β
  | .block m => .virtual ⟨blockMessageType, m.blockId⟩
  | m => .real m

/-- The loop over the replies. -/
def sendReplies : List (NetMessage β) → SendQueue β → Except ItemError Unit × SendQueue β
  | [], s => (.ok (), s)
  | m :: ms, s =>
      match s.sendQueueableMessage dataSize m.queued with
      | (.ok (), s) => sendReplies ms s
      | (.error e, s) => (.error e, s)

/-- `on_fetch_items_message`. -/
def onFetchItemsMessage (s : ItemServer β ω) (m : FetchItemsMessage) (p : FetchingPeer β) :
    Except ItemError Unit × FetchingPeer β :=
  match s.collectReplies R m.itemType m.itemsToFetch [] none with
  | .error e => (.error e, p)
  | .ok (replies, last) =>
      match last with
      | none =>
          let r := sendReplies dataSize replies p.queue
          (r.1, { p with queue := r.2 })
      | some (.block b) =>
          let r := sendReplies dataSize replies p.queue
          (r.1, ⟨r.2, b.blockId, s.getBlockTime R b.blockId⟩)
      | some _ => (.error .assertion, p)

end Handler

/-! ### What an answer is -/

section Answers

variable {β ω : Type} (R : Rules β ω) (dataSize : NetMessage β → ℕ)

/-- The item that is asked for: a message that is kept, a block of the chain, or a transaction that is
remembered. -/
inductive ItemServer.IsItem (s : ItemServer β ω) (item : RequestedItem) : QueuedMessage β → Prop where
  | cached (m : NetMessage β) : (item.itemHash, m) ∈ s.messageCache → s.IsItem item m.queued
  | block (b : SignedBlock β) : item.itemType = blockMessageType →
      fetchBlockById R s.chainDb item.itemHash = some b →
      s.IsItem item (.virtual ⟨blockMessageType, b.id⟩)
  | trx (trx : Transaction β) : item.itemType ≠ blockMessageType → trx ∈ s.transactionIndex →
      trx.id = trxIdOf item.itemHash → s.IsItem item (.real (.trx trx))

/-- The item itself, or where there is no such item, the message that says so. -/
def ItemServer.IsReply (s : ItemServer β ω) (item : RequestedItem) (q : QueuedMessage β) : Prop :=
  s.IsItem R item q ∨ (∀ q', ¬ s.IsItem R item q') ∧ q = .real (.itemNotAvailable item)

/-- The handler returns, and one reply for each item has been queued, in the order of the request; the
connection is closed only if the queue has become too long. -/
def AnswersAll (s : ItemServer β ω) (m : FetchItemsMessage) (p : FetchingPeer β) : Prop :=
  ∃ p' answers, onFetchItemsMessage R dataSize s m p = (.ok (), p') ∧
    p'.queue.queuedMessages = p.queue.queuedMessages ++ answers ∧
    List.Forall₂ (fun h q => s.IsReply R ⟨m.itemType, h⟩ q) m.itemsToFetch answers ∧
    (p'.queue.closing → p.queue.closing ∨
      maximumQueuedMessagesInBytes < p'.queue.totalQueuedMessagesSize)

/-! ### When it is one -/

/-- What there is of an item. -/
def ItemServer.known (s : ItemServer β ω) (item : RequestedItem) : Option (NetMessage β) :=
  (s.cachedMessage item.itemHash).or
    (if item.itemType = blockMessageType then
      (fetchBlockById R s.chainDb item.itemHash).map fun b => .block (.ofBlock b)
    else (s.transactionIndex.find? (·.id = trxIdOf item.itemHash)).map .trx)

/-- What an item is answered with. -/
def ItemServer.answer (s : ItemServer β ω) (item : RequestedItem) : NetMessage β :=
  (s.known R item).getD (.itemNotAvailable item)

/-- Only blocks above all that have been stored are unknown, and that is logged. The last item that is
known is a block where blocks are asked for. The sending has not been canceled, unless already the
first answer makes the queue too long. -/
structure Answerable (s : ItemServer β ω) (m : FetchItemsMessage) (p : FetchingPeer β) : Prop where
  found : ∀ h ∈ m.itemsToFetch, s.known R ⟨m.itemType, h⟩ = none →
    m.itemType = blockMessageType ∧ s.logsErrors ∧ s.chainDb.blockDb.index.length ≤ h.num
  lastIsBlock : m.itemType = blockMessageType → ∀ a,
    (m.itemsToFetch.filterMap fun h => s.known R ⟨m.itemType, h⟩).getLast? = some a → a.isBlock
  sendable : p.queue.canceled → ∀ h, m.itemsToFetch.head? = some h →
    maximumQueuedMessagesInBytes < p.queue.totalQueuedMessagesSize +
      (s.answer R ⟨m.itemType, h⟩).queued.sizeInQueue dataSize

variable {R} {dataSize} {s : ItemServer β ω} {m : FetchItemsMessage} {p : FetchingPeer β}
  {item : RequestedItem} {q : SendQueue β}

/-! ### Looking up -/

/-- **One round of the loop.** -/
lemma getItem_of_not_cached (R : Rules β ω) (item : RequestedItem)
    (h : s.cachedMessage item.itemHash = none) :
    s.getItem R item = match s.known R item with
      | some m => .ok m
      | none =>
          if item.itemType = blockMessageType ∧ s.logsErrors ∧
              s.chainDb.blockDb.index.length ≤ item.itemHash.num then .error .keyNotFound
          else .error .assertion := by
  rw [ItemServer.known, h, Option.none_or, ItemServer.getItem]
  by_cases htype : item.itemType = blockMessageType
  · rw [if_pos htype, if_pos htype]
    cases fetchBlockById R s.chainDb item.itemHash with
    | some b => rfl
    | none =>
        cases hlogs : s.logsErrors with
        | false => simp
        | true =>
            rw [fetchBlockIdOrThrow]
            by_cases hlength : s.chainDb.blockDb.index.length ≤ item.itemHash.num
            · simp [htype, hlength]
            · rw [List.getElem?_eq_getElem (by omega)]
              simp only [Option.map_none, hlength, and_false, if_false, if_true]
              split_ifs <;> rfl
  · rw [if_neg htype, if_neg htype, ItemServer.getRecentTransaction]
    cases s.transactionIndex.find? (·.id = trxIdOf item.itemHash) with
    | some trx => rfl
    | none => simp [htype]

lemma known_of_cached (R : Rules β ω) (item : RequestedItem) {a : NetMessage β}
    (h : s.cachedMessage item.itemHash = some a) :
    s.known R item = some a := by
  rw [ItemServer.known, h, Option.some_or]

/-- Every item that is known is one. -/
lemma isItem_of_known {a : NetMessage β} (h : s.known R item = some a) : s.IsItem R item a.queued := by
  rw [ItemServer.known] at h
  cases hcached : s.cachedMessage item.itemHash with
  | some b =>
      rw [hcached, Option.some_or] at h
      cases h
      obtain ⟨e, he, rfl⟩ := Option.map_eq_some_iff.mp hcached
      have hkey : e.1 = item.itemHash := by simpa using List.find?_some he
      exact .cached _ (hkey ▸ List.mem_of_find?_eq_some he)
  | none =>
      rw [hcached, Option.none_or] at h
      split_ifs at h with htype
      · obtain ⟨b, hb, rfl⟩ := Option.map_eq_some_iff.mp h
        exact .block b htype hb
      · obtain ⟨trx, htrx, rfl⟩ := Option.map_eq_some_iff.mp h
        exact .trx trx htype (List.mem_of_find?_eq_some htrx) (by simpa using List.find?_some htrx)

/-- An item that is not known is not there. -/
lemma not_isItem_of_unknown (h : s.known R item = none) (q : QueuedMessage β) :
    ¬ s.IsItem R item q := by
  obtain ⟨hcached, hstored⟩ := Option.or_eq_none_iff.mp h
  intro hitem
  cases hitem with
  | cached m hm =>
      have hnone := List.find?_eq_none.mp (Option.map_eq_none_iff.mp hcached) _ hm
      simp at hnone
  | block b htype hb =>
      rw [if_pos htype, hb] at hstored
      cases hstored
  | trx trx htype hmem hid =>
      rw [if_neg htype, Option.map_eq_none_iff] at hstored
      have hnone := List.find?_eq_none.mp hstored _ hmem
      simp [hid] at hnone

lemma isReply_answer : s.IsReply R item (s.answer R item).queued := by
  rw [ItemServer.IsReply, ItemServer.answer]
  cases h : s.known R item with
  | some a => exact .inl (isItem_of_known h)
  | none => exact .inr ⟨not_isItem_of_unknown h, rfl⟩

/-- The message that is got for an item. -/
lemma getMessageForItem_eq : s.getMessageForItem R item =
    if s.known R item = none ∧ ¬ (item.itemType = blockMessageType ∧ s.logsErrors ∧
      s.chainDb.blockDb.index.length ≤ item.itemHash.num) then .error .assertion
    else .ok (s.answer R item) := by
  rw [ItemServer.getMessageForItem, ItemServer.answer]
  cases hcached : s.cachedMessage item.itemHash with
  | some a => simp [known_of_cached R item hcached]
  | none =>
      simp only [getItem_of_not_cached R item hcached]
      cases s.known R item with
      | some a => simp
      | none =>
          simp only [true_and, ite_not]
          split_ifs <;> rfl

/-! ### The replies -/

/-- **The replies**, where no exception gets out. -/
lemma collectReplies_of_found {itemType : UInt32} {hs : List ItemHash}
    (h : ∀ h ∈ hs, s.known R ⟨itemType, h⟩ = none →
      itemType = blockMessageType ∧ s.logsErrors ∧ s.chainDb.blockDb.index.length ≤ h.num)
    (replies : List (NetMessage β)) (last : Option (NetMessage β)) :
    s.collectReplies R itemType hs replies last =
      .ok (replies ++ hs.map fun h => s.answer R ⟨itemType, h⟩,
        if itemType = blockMessageType then
          (hs.filterMap fun h => s.known R ⟨itemType, h⟩).getLast?.or last
        else last) := by
  induction hs generalizing replies last with
  | nil => simp [ItemServer.collectReplies]
  | cons h₀ hs ih =>
      have ih := ih fun h' hh' => h h' (List.mem_cons_of_mem _ hh')
      have hfirst := h h₀ List.mem_cons_self
      have hlast (a : NetMessage β) (l : List (NetMessage β)) (last : Option (NetMessage β)) :
          (a :: l).getLast?.or last = l.getLast?.or (some a) := by
        rw [List.getLast?_cons]
        cases l.getLast? <;> rfl
      rw [ItemServer.collectReplies]
      cases hcached : s.cachedMessage h₀ with
      | some a =>
          have hknown := known_of_cached R ⟨itemType, h₀⟩ hcached
          simp only [ih, hknown, ItemServer.answer, List.map_cons, List.filterMap_cons, hlast,
            Option.getD_some, List.append_assoc, List.singleton_append]
          split_ifs <;> rfl
      | none =>
          simp only [getItem_of_not_cached R ⟨itemType, h₀⟩ hcached]
          cases hknown : s.known R ⟨itemType, h₀⟩ with
          | some a =>
              simp only [ih, hknown, ItemServer.answer, List.map_cons, List.filterMap_cons, hlast,
                Option.getD_some, List.append_assoc, List.singleton_append]
              split_ifs <;> rfl
          | none =>
              simp only [if_pos (hfirst hknown), ih, hknown, ItemServer.answer, List.map_cons,
                List.filterMap_cons, Option.getD_none, List.append_assoc, List.singleton_append]

/-- An exception of another kind gets out of the loop. -/
lemma collectReplies_of_not_found {itemType : UInt32} {hs : List ItemHash}
    (h : ¬ ∀ h ∈ hs, s.known R ⟨itemType, h⟩ = none →
      itemType = blockMessageType ∧ s.logsErrors ∧ s.chainDb.blockDb.index.length ≤ h.num)
    (replies : List (NetMessage β)) (last : Option (NetMessage β)) :
    s.collectReplies R itemType hs replies last = .error .assertion := by
  induction hs generalizing replies last with
  | nil => simp at h
  | cons h₀ hs ih =>
      rw [ItemServer.collectReplies]
      cases hcached : s.cachedMessage h₀ with
      | some a =>
          have hknown := known_of_cached R ⟨itemType, h₀⟩ hcached
          exact ih (by simpa [hknown] using h) _ _
      | none =>
          simp only [getItem_of_not_cached R ⟨itemType, h₀⟩ hcached]
          cases hknown : s.known R ⟨itemType, h₀⟩ with
          | some a => exact ih (by simpa [hknown] using h) _ _
          | none =>
              by_cases hfirst : itemType = blockMessageType ∧ s.logsErrors ∧
                  s.chainDb.blockDb.index.length ≤ h₀.num
              · simp only [if_pos hfirst]
                refine ih (fun hrest => h ?_) _ _
                exact List.forall_mem_cons.mpr ⟨fun _ => hfirst, hrest⟩
              · simp only [if_neg hfirst]

/-! ### The queue -/

lemma sendQueueableMessage_push (dataSize : NetMessage β → ℕ) (q : SendQueue β)
    (a : QueuedMessage β) :
    (q.sendQueueableMessage dataSize a).2.queuedMessages = q.queuedMessages ++ [a] ∧
      (q.sendQueueableMessage dataSize a).2.totalQueuedMessagesSize =
        q.totalQueuedMessagesSize + a.sizeInQueue dataSize ∧
      (q.sendQueueableMessage dataSize a).2.canceled = q.canceled := by
  rw [SendQueue.sendQueueableMessage]
  split_ifs <;> exact ⟨rfl, rfl, rfl⟩

lemma sendQueueableMessage_ok_iff (dataSize : NetMessage β → ℕ) (q : SendQueue β)
    (a : QueuedMessage β) :
    (q.sendQueueableMessage dataSize a).1 = .ok () ↔
      (q.canceled → maximumQueuedMessagesInBytes <
        q.totalQueuedMessagesSize + a.sizeInQueue dataSize) := by
  rw [SendQueue.sendQueueableMessage, SendQueue.push]
  split_ifs with hsize hcanceled <;> simp_all

lemma sendQueueableMessage_closing (dataSize : NetMessage β → ℕ) (q : SendQueue β)
    (a : QueuedMessage β) (h : (q.sendQueueableMessage dataSize a).2.closing) : q.closing ∨
      maximumQueuedMessagesInBytes < (q.sendQueueableMessage dataSize a).2.totalQueuedMessagesSize := by
  rw [SendQueue.sendQueueableMessage] at h ⊢
  split_ifs at h ⊢ with hsize
  · exact .inr hsize
  all_goals exact .inl h

/-- **The replies in the queue.** -/
lemma sendReplies_of_sendable {ms : List (NetMessage β)}
    (h : q.canceled → ∀ a, ms.head? = some a → maximumQueuedMessagesInBytes <
      q.totalQueuedMessagesSize + a.queued.sizeInQueue dataSize) :
    ∃ q', sendReplies dataSize ms q = (.ok (), q') ∧
      q'.queuedMessages = q.queuedMessages ++ ms.map (·.queued) ∧
      q.totalQueuedMessagesSize ≤ q'.totalQueuedMessagesSize ∧
      (q'.closing → q.closing ∨ maximumQueuedMessagesInBytes < q'.totalQueuedMessagesSize) := by
  induction ms generalizing q with
  | nil => exact ⟨q, rfl, by simp, le_rfl, .inl⟩
  | cons a ms ih =>
      have hpush := sendQueueableMessage_push dataSize q a.queued
      have hok := (sendQueueableMessage_ok_iff dataSize q a.queued).mpr
        fun hcanceled => h hcanceled a rfl
      have hclosing := sendQueueableMessage_closing dataSize q a.queued
      rw [sendReplies]
      rcases hsend : q.sendQueueableMessage dataSize a.queued with ⟨r, q₁⟩
      rw [hsend] at hpush hok hclosing
      dsimp only at hpush hok hclosing
      subst hok
      -- where the sending is canceled the queue has become too long, and it only grows
      have hrest : q₁.canceled → ∀ b, ms.head? = some b → maximumQueuedMessagesInBytes <
          q₁.totalQueuedMessagesSize + b.queued.sizeInQueue dataSize := by
        intro hcanceled b _
        have hfirst := h (hpush.2.2 ▸ hcanceled) a rfl
        omega
      obtain ⟨q', hq', hqueue, hsize, hclose⟩ := ih hrest
      refine ⟨q', hq', ?_, by omega, fun hc => ?_⟩
      · rw [hqueue, hpush.1, List.map_cons, List.append_assoc, List.singleton_append]
      · rcases hclose hc with hc | hc
        · rcases hclosing hc with hc | hc
          · exact .inl hc
          · exact .inr (by omega)
        · exact .inr hc

/-- The first reply that cannot be sent throws. -/
lemma sendReplies_of_not_sendable {a : NetMessage β} {ms : List (NetMessage β)} (h : q.canceled)
    (hsize : ¬ maximumQueuedMessagesInBytes <
      q.totalQueuedMessagesSize + a.queued.sizeInQueue dataSize) :
    (sendReplies dataSize (a :: ms) q).1 ≠ .ok () := by
  have hok := (sendQueueableMessage_ok_iff dataSize q a.queued).not.mpr
    fun hfits => hsize (hfits h)
  rw [sendReplies]
  rcases hsend : q.sendQueueableMessage dataSize a.queued with ⟨_ | _, q₁⟩
  · simp
  · rw [hsend] at hok
    exact absurd rfl hok

/-! ### Requests that are answered -/

/-- The handler after the loop over the hashes. -/
lemma onFetchItemsMessage_iff (dataSize : NetMessage β → ℕ) (p : FetchingPeer β)
    {replies : List (NetMessage β)} {last : Option (NetMessage β)}
    (h : s.collectReplies R m.itemType m.itemsToFetch [] none = .ok (replies, last))
    (P : SendQueue β → Prop) :
    (∃ p', onFetchItemsMessage R dataSize s m p = (.ok (), p') ∧ P p'.queue) ↔
      (∀ a, last = some a → a.isBlock) ∧
        ∃ q', sendReplies dataSize replies p.queue = (.ok (), q') ∧ P q' := by
  rw [onFetchItemsMessage, h]
  rcases hsend : sendReplies dataSize replies p.queue with ⟨r, q'⟩
  match last with
  | none =>
      simp only [hsend]
      constructor
      · rintro ⟨p', hp, hP⟩
        cases hp
        exact ⟨nofun, q', rfl, hP⟩
      · rintro ⟨-, q'', hq, hP⟩
        cases hq
        exact ⟨_, rfl, hP⟩
  | some (.block b) =>
      simp only [hsend]
      constructor
      · rintro ⟨p', hp, hP⟩
        cases hp
        exact ⟨fun a ha => by cases ha; rfl, q', rfl, hP⟩
      · rintro ⟨-, q'', hq, hP⟩
        cases hq
        exact ⟨_, rfl, hP⟩
  | some (.trx _) | some (.itemNotAvailable _) | some (.other _ _) =>
      constructor
      · rintro ⟨p', hp, -⟩
        cases hp
      · rintro ⟨hblock, -⟩
        cases hblock _ rfl

/-- **Requests that are answered.** -/
theorem answersAll_iff (R : Rules β ω) (dataSize : NetMessage β → ℕ) (s : ItemServer β ω)
    (m : FetchItemsMessage) (p : FetchingPeer β) :
    AnswersAll R dataSize s m p ↔ Answerable R dataSize s m p := by
  let answer (h : ItemHash) : NetMessage β := s.answer R ⟨m.itemType, h⟩
  by_cases hfound : ∀ h ∈ m.itemsToFetch, s.known R ⟨m.itemType, h⟩ = none →
      m.itemType = blockMessageType ∧ s.logsErrors ∧ s.chainDb.blockDb.index.length ≤ h.num
  swap
  · refine ⟨fun ⟨p', answers, h, _⟩ => ?_, fun h => absurd h.found hfound⟩
    rw [onFetchItemsMessage, collectReplies_of_not_found hfound] at h
    cases h
  have hiff := onFetchItemsMessage_iff dataSize p
    (collectReplies_of_found hfound [] none)
  rw [List.nil_append] at hiff
  constructor
  · rintro ⟨p', answers, h, -⟩
    obtain ⟨hblock, q', hsend, -⟩ := (hiff fun _ => True).mp ⟨p', h, trivial⟩
    refine ⟨hfound, fun htype a ha => hblock a ?_, fun hcanceled h₀ hhead => ?_⟩
    · rw [if_pos htype, ha, Option.some_or]
    · obtain ⟨hs, hitems⟩ : ∃ hs, m.itemsToFetch = h₀ :: hs := List.head?_eq_some_iff.mp hhead
      rw [hitems, List.map_cons] at hsend
      by_contra hsize
      exact sendReplies_of_not_sendable hcanceled hsize (congrArg Prod.fst hsend)
  · intro h
    have hsendable : p.queue.canceled → ∀ a, (m.itemsToFetch.map answer).head? = some a →
        maximumQueuedMessagesInBytes <
          p.queue.totalQueuedMessagesSize + a.queued.sizeInQueue dataSize := by
      intro hcanceled a ha
      rw [List.head?_map, Option.map_eq_some_iff] at ha
      obtain ⟨h₀, hhead, rfl⟩ := ha
      exact h.sendable hcanceled h₀ hhead
    obtain ⟨q', hsend, hqueue, -, hclosing⟩ := sendReplies_of_sendable hsendable
    have hblock : ∀ a, (if m.itemType = blockMessageType then
        (m.itemsToFetch.filterMap fun h => s.known R ⟨m.itemType, h⟩).getLast?.or none
        else none) = some a → a.isBlock := by
      intro a ha
      split_ifs at ha with htype
      rw [Option.or_none] at ha
      exact h.lastIsBlock htype a ha
    obtain ⟨p', hp, rfl⟩ := (hiff (· = q')).mpr ⟨hblock, q', hsend, rfl⟩
    refine ⟨p', (m.itemsToFetch.map answer).map (·.queued), hp, hqueue, ?_, hclosing⟩
    rw [List.map_map, List.forall₂_map_right_iff, List.forall₂_same]
    exact fun h₀ _ => isReply_answer

end Answers

/-- A request for a transaction that nobody remembers is not answered, and neither is one for a block
where the chain has another one of its number. -/
theorem not_answersAll :
    ¬ AnswersAll calmRules (fun _ => 100) { chainDb := newChain [0] } ⟨2100, [⟨1, 2⟩]⟩ {} ∧
      ¬ AnswersAll calmRules (fun _ => 100) { chainDb := oneBlock } ⟨blockMessageType, [⟨1, 2⟩]⟩ {} := by
  constructor
  · rintro ⟨p', answers, h, -⟩
    have hthrows : (onFetchItemsMessage calmRules (fun _ => 100) { chainDb := newChain [0] }
        ⟨2100, [⟨1, 2⟩]⟩ {}).1 = .error .assertion := by decide +kernel
    rw [h] at hthrows
    cases hthrows
  · rintro ⟨p', answers, h, -⟩
    have hthrows : (onFetchItemsMessage calmRules (fun _ => 100) { chainDb := oneBlock }
        ⟨blockMessageType, [⟨1, 2⟩]⟩ {}).1 = .error .assertion := by decide +kernel
    rw [h] at hthrows
    cases hthrows

end ZosCore.Net
