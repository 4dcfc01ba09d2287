import ZosCore.Lib.Runs
import ZosCore.Net.FetchItems

/-!
The task that sends the messages in the queue of a peer.

While it waits for a message to be sent, other messages are queued, the chain changes, the connection is
closed; an event is what happens in between. A block is in the queue by its id, and is looked up when it
has come to the front, outside the block that catches exceptions.

* `SendState`, `SendEvent`, `handle`: the queue, what it is fed from, and what may happen.
* `Orderly`: the sizes add up, messages are sent in their order and once at most, and a task has ended
  only with an empty queue or because the connection is being closed.
* `FrontFound`: what the task looks up is there, or the connection is being closed.
* **`orderly_iff`**: a run is orderly exactly as long as what is looked up is found.
-/

namespace ZosCore.Net

/-! ### What happens to a queue -/

/-- How `message_oriented_connection::send_message` ends: it returns, is canceled, throws an
`fc::exception`, or something else. -/
inductive SendResult where
  | sent
  | canceled
  | failed
  | unhandled
  deriving DecidableEq

/-- A queue and where its items are looked up. `queued` and `transmitted` are history variables: what
has been queued and what has been transmitted so far. -/
structure SendState (β ω : Type) where
  queue : SendQueue β := {}
  server : ItemServer β ω
  queued : List (QueuedMessage β) := []
  transmitted : List (QueuedMessage β) := []

/-- What may happen: the node sends something, closes the connection or destroys it; the task gets on to
the next message, has sent it, or ends as it is canceled; the node and its chain change. -/
inductive SendEvent (β ω : Type) where
  | sendMessage (m : NetMessage β)
  | sendItem (item : RequestedItem)
  | closeConnection
  | destroy
  | lookUp
  | sent (result : SendResult)
  | interrupted
  | changed (server : ItemServer β ω)

variable {β ω : Type} (R : Rules β ω) (dataSize : NetMessage β → ℕ)

/-- `get_message`; the time that is put into some messages on their way is left out. -/
def QueuedMessage.getMessage (s : ItemServer β ω) : QueuedMessage β → Except ItemError (NetMessage β)
  | .real m => .ok m
  | .virtual item => s.getMessageForItem R item

namespace SendQueue

/-- The message at the front is taken out. -/
def pop (s : SendQueue β) : SendQueue β :=
  match s.queuedMessages with
  | [] => s
  | q :: rest =>
      { s with
        totalQueuedMessagesSize := s.totalQueuedMessagesSize - q.sizeInQueue dataSize
        queuedMessages := rest }

/-- `destroy`, up to the end of the task: the connection is closed and the task canceled, if there has
been one. -/
def destroy (s : SendQueue β) : SendQueue β :=
  { s with
    closing := true
    canceled := match s.task with
      | .unstarted => s.canceled
      | _ => true }

/-- `send_queued_messages_task`, from the beginning of the loop to the sending of a message. An
exception of `get_message` ends the task. -/
def lookUp (server : ItemServer β ω) (s : SendQueue β) : SendQueue β :=
  match s.queuedMessages with
  | [] => { s with task := .done }
  | q :: _ =>
      match q.getMessage R server with
      | .ok m => { s with task := .sending m }
      | .error _ => { s with task := .done }

/-- `send_queued_messages_task`, from the sending of a message to the beginning of the loop. Only a task
that has been canceled sees `canceled_exception`. -/
def afterSending (s : SendQueue β) : SendResult → SendQueue β
  | .sent | .unhandled => { s.pop dataSize with task := .looping }
  | .failed => { s with closing := true, task := .done }
  | .canceled => if s.canceled then { s with task := .done } else s

end SendQueue

namespace SendState

/-- Something is queued. -/
def enqueue (q : QueuedMessage β) (s : SendState β ω) : SendState β ω :=
  { s with
    queue := (s.queue.sendQueueableMessage dataSize q).2
    queued := s.queued ++ [q] }

/-- An event. -/
def handle (s : SendState β ω) : SendEvent β ω → SendState β ω
  | .sendMessage m => s.enqueue dataSize (.real m)
  | .sendItem item => s.enqueue dataSize (.virtual item)
  | .closeConnection => { s with queue := { s.queue with closing := true } }
  | .destroy => { s with queue := s.queue.destroy }
  | .lookUp =>
      match s.queue.task with
      | .looping => { s with queue := s.queue.lookUp R s.server }
      | _ => s
  | .sent result =>
      match s.queue.task with
      | .sending _ =>
          { s with
            queue := s.queue.afterSending dataSize result
            transmitted :=
              if result = .sent then s.transmitted ++ s.queue.queuedMessages.head?.toList
              else s.transmitted }
      | _ => s
  | .interrupted =>
      if s.queue.canceled ∧ s.queue.task.isRunning then
        { s with queue := { s.queue with task := .done } }
      else s
  | .changed server => { s with server := server }

/-! ### What is to hold -/

/-- The sizes add up; what was transmitted comes in the order in which it was queued, before all that
is left; and no task has ended unless the queue is empty or the connection is being closed. -/
structure Orderly (s : SendState β ω) : Prop where
  size : s.queue.totalQueuedMessagesSize =
    (s.queue.queuedMessages.map (·.sizeInQueue dataSize)).sum
  inOrder : ∃ past, s.transmitted.Sublist past ∧ s.queued = past ++ s.queue.queuedMessages
  ends : s.queue.task.isRunning = false → s.queue.queuedMessages = [] ∨ s.queue.closing

/-- When the task gets on to an item, there is such an item, or it is a block above all that have been
stored; or else the connection is being closed. -/
def FrontFound (s : SendState β ω) : SendEvent β ω → Prop
  | .lookUp => s.queue.task = .looping → ∀ item rest,
      s.queue.queuedMessages = .virtual item :: rest → s.server.known R item = none →
        (item.itemType = blockMessageType ∧ s.server.logsErrors ∧
          s.server.chainDb.blockDb.index.length ≤ item.itemHash.num) ∨ s.queue.closing
  | _ => True

/-! ### What holds in any case -/

/-- The books are right, a message that is being sent is at the front, and only a connection that is
being closed has its task canceled. -/
structure Booked (s : SendState β ω) : Prop where
  size : s.queue.totalQueuedMessagesSize =
    (s.queue.queuedMessages.map (·.sizeInQueue dataSize)).sum
  inOrder : ∃ past, s.transmitted.Sublist past ∧ s.queued = past ++ s.queue.queuedMessages
  canceled : s.queue.canceled → s.queue.closing

variable {R} {dataSize} {s : SendState β ω}

/-- What leaves the books and the queue as they are. -/
lemma Booked.of_same {queue : SendQueue β} (h : Booked dataSize s) (server : ItemServer β ω)
    (hsize : queue.totalQueuedMessagesSize = s.queue.totalQueuedMessagesSize)
    (hqueue : queue.queuedMessages = s.queue.queuedMessages)
    (hcanceled : queue.canceled → queue.closing) :
    Booked dataSize { s with queue := queue, server := server } where
  size := by rw [hsize, hqueue, h.size]
  inOrder := by
    obtain ⟨past, hsub, hqueued⟩ := h.inOrder
    exact ⟨past, hsub, by rw [hqueue, hqueued]⟩
  canceled := hcanceled

lemma Booked.enqueue (h : Booked dataSize s) (q : QueuedMessage β) :
    Booked dataSize (s.enqueue dataSize q) := by
  obtain ⟨hqueue, hsize, hcanceled⟩ := sendQueueableMessage_push dataSize s.queue q
  obtain ⟨past, hsub, hqueued⟩ := h.inOrder
  refine ⟨?_, ⟨past, hsub, ?_⟩, fun hc => ?_⟩
  · rw [SendState.enqueue, hqueue, hsize, h.size, List.map_append, List.sum_append]
    simp
  · rw [SendState.enqueue, hqueue, ← List.append_assoc, ← hqueued]
  · have hclosing := h.canceled (hcanceled ▸ hc)
    rw [SendState.enqueue, SendQueue.sendQueueableMessage]
    split_ifs
    · rfl
    all_goals exact hclosing

/-- The message at the front goes. -/
lemma Booked.pop (h : Booked dataSize s) (task : SendTask β) {transmitted : List (QueuedMessage β)}
    (htransmitted : transmitted = s.transmitted ∨
      transmitted = s.transmitted ++ s.queue.queuedMessages.head?.toList) :
    Booked dataSize { s with
      queue := { s.queue.pop dataSize with task := task }, transmitted := transmitted } := by
  obtain ⟨past, hsub, hqueued⟩ := h.inOrder
  have hsize := h.size
  cases hqueue : s.queue.queuedMessages with
  | nil =>
      simp only [SendQueue.pop, hqueue, List.head?_nil, Option.toList_none, List.append_nil,
        or_self] at htransmitted ⊢
      rw [hqueue] at hqueued hsize
      exact ⟨hqueue ▸ hsize, ⟨past, htransmitted ▸ hsub, hqueue ▸ hqueued⟩, h.canceled⟩
  | cons q rest =>
      rw [hqueue] at hqueued hsize
      simp only [SendQueue.pop, hqueue, List.head?_cons, Option.toList_some] at htransmitted ⊢
      refine ⟨?_, ⟨past ++ [q], ?_, ?_⟩, h.canceled⟩
      · rw [List.map_cons, List.sum_cons] at hsize
        change s.queue.totalQueuedMessagesSize - q.sizeInQueue dataSize =
          (rest.map (·.sizeInQueue dataSize)).sum
        omega
      · rcases htransmitted with rfl | rfl
        · exact hsub.trans (List.sublist_append_left _ _)
        · exact hsub.append (List.Sublist.refl _)
      · rw [hqueued, List.append_assoc, List.singleton_append]

/-- **The books stay right**, whatever happens. -/
lemma Booked.handle (h : Booked dataSize s) (e : SendEvent β ω) :
    Booked dataSize (s.handle R dataSize e) := by
  cases e with
  | sendMessage m => exact h.enqueue _
  | sendItem item => exact h.enqueue _
  | closeConnection => exact h.of_same _ rfl rfl fun _ => rfl
  | destroy => exact h.of_same _ rfl rfl fun _ => rfl
  | lookUp =>
      rw [SendState.handle]
      cases s.queue.task with
      | looping =>
          dsimp only
          rw [SendQueue.lookUp]
          split
          · exact h.of_same _ rfl rfl h.canceled
          · split
            · exact h.of_same _ rfl rfl h.canceled
            · exact h.of_same _ rfl rfl h.canceled
      | _ => exact h
  | sent result =>
      rw [SendState.handle]
      cases s.queue.task with
      | sending m =>
          cases result with
          | sent => exact h.pop _ (.inr rfl)
          | unhandled => exact h.pop _ (.inl rfl)
          | failed => exact h.of_same _ rfl rfl fun _ => rfl
          | canceled =>
              simp only [SendQueue.afterSending, reduceCtorEq, if_false]
              split_ifs
              · exact h.of_same _ rfl rfl h.canceled
              · exact h
      | _ => exact h
  | interrupted =>
      rw [SendState.handle]
      split_ifs
      · exact h.of_same _ rfl rfl h.canceled
      · exact h
  | changed server => exact h.of_same _ rfl rfl h.canceled

/-! ### How a task ends -/

/-- What is queued starts a task, unless the connection is being closed. -/
lemma ends_enqueue (h : Booked dataSize s) (q : QueuedMessage β)
    (hdone : (s.enqueue dataSize q).queue.task.isRunning = false) :
    (s.enqueue dataSize q).queue.closing := by
  rw [SendState.enqueue, SendQueue.sendQueueableMessage] at hdone ⊢
  split_ifs at hdone ⊢ with hsize hcanceled hrunning
  · rfl
  · exact h.canceled hcanceled
  · exact absurd hdone (by simpa using hrunning)
  · cases hdone

/-- **The front is looked up**: the task ends with a message in the queue exactly if what is to be sent
is not found. -/
lemma ends_lookUp_iff (htask : s.queue.task = .looping) :
    ((s.handle R dataSize .lookUp).queue.task.isRunning = false →
        (s.handle R dataSize .lookUp).queue.queuedMessages = [] ∨
          (s.handle R dataSize .lookUp).queue.closing) ↔ s.FrontFound R .lookUp := by
  simp only [SendState.handle, htask, SendQueue.lookUp, FrontFound, true_implies]
  cases hqueue : s.queue.queuedMessages with
  | nil => simp
  | cons q rest =>
      cases q with
      | real m => simp [QueuedMessage.getMessage, SendTask.isRunning]
      | virtual item =>
          simp only [QueuedMessage.getMessage, getMessageForItem_eq]
          split_ifs with hmissing
          · obtain ⟨hunknown, habove⟩ := hmissing
            constructor
            · intro h item' rest' hcons _
              obtain ⟨hitem, -⟩ := List.cons.inj hcons
              cases hitem
              exact .inr ((h rfl).resolve_left (by simp))
            · intro h _
              exact .inr ((h item rest rfl hunknown).resolve_left habove)
          · refine ⟨fun _ item' rest' hcons hunknown => ?_, nofun⟩
            obtain ⟨hitem, -⟩ := List.cons.inj hcons
            cases hitem
            exact .inl (not_not.mp fun habove => hmissing ⟨hunknown, habove⟩)

/-- **One event**: whether tasks end as they should depends on what is looked up. -/
lemma ends_handle_iff (hbooked : Booked dataSize s) (hends : s.queue.task.isRunning = false →
      s.queue.queuedMessages = [] ∨ s.queue.closing) (e : SendEvent β ω) :
    ((s.handle R dataSize e).queue.task.isRunning = false →
        (s.handle R dataSize e).queue.queuedMessages = [] ∨
          (s.handle R dataSize e).queue.closing) ↔ s.FrontFound R e := by
  cases e with
  | lookUp =>
      by_cases htask : s.queue.task = .looping
      · exact ends_lookUp_iff htask
      · have hsame : s.handle R dataSize .lookUp = s := by
          rw [SendState.handle]
          cases hcases : s.queue.task with
          | looping => exact absurd hcases htask
          | _ => rfl
        rw [hsame]
        exact iff_of_true hends fun h => absurd h htask
  | sendMessage m => exact iff_of_true (fun h => .inr (ends_enqueue hbooked _ h)) trivial
  | sendItem item => exact iff_of_true (fun h => .inr (ends_enqueue hbooked _ h)) trivial
  | closeConnection => exact iff_of_true (fun _ => .inr rfl) trivial
  | destroy => exact iff_of_true (fun _ => .inr rfl) trivial
  | sent result =>
      refine iff_of_true ?_ trivial
      rw [SendState.handle]
      cases htask : s.queue.task with
      | sending m =>
          cases result with
          | sent => exact nofun
          | unhandled => exact nofun
          | failed => exact fun _ => .inr rfl
          | canceled =>
              simp only [SendQueue.afterSending]
              split_ifs with hcanceled
              · exact fun _ => .inr (hbooked.canceled hcanceled)
              · exact hends
      | _ => exact hends
  | interrupted =>
      refine iff_of_true ?_ trivial
      rw [SendState.handle]
      split_ifs with hcanceled
      · exact fun _ => .inr (hbooked.canceled hcanceled.1)
      · exact hends
  | changed server => exact iff_of_true hends trivial

/-! ### Runs -/

/-- **Send queues.** -/
theorem orderly_iff (R : Rules β ω) (dataSize : NetMessage β → ℕ) (server : ItemServer β ω)
    (es : List (SendEvent β ω)) :
    Runs.Always (handle R dataSize) (Orderly dataSize) { server := server } es ↔
      Runs.Each (handle R dataSize) (FrontFound R) { server := server } es := by
  have hbegin : Booked dataSize ({ server := server } : SendState β ω) :=
    ⟨rfl, ⟨[], List.Sublist.refl _, rfl⟩, nofun⟩
  refine Runs.always_iff (W := Booked dataSize) (fun s e h => h.handle e) (fun s e hbooked h => ?_)
    hbegin ⟨hbegin.size, hbegin.inOrder, fun _ => .inl rfl⟩
  rw [← ends_handle_iff hbooked h.ends e]
  have hnext := hbooked.handle (R := R) e
  exact ⟨fun horderly => horderly.ends, fun hends => ⟨hnext.size, hnext.inOrder, hends⟩⟩

end SendState

/-- The chain with another first block. -/
def otherFirstBlock : Database Unit Unit :=
  (Database.call calmRules 1 (.pushBlock (emptyBlock .zero 2) {}) (newChain [0, 1, 2])).2

/-- A block is put into the queue, and is replaced before its turn comes. -/
def replacedBlock : List (SendEvent Unit Unit) :=
  [.sendItem ⟨blockMessageType, ⟨1, 1⟩⟩, .changed { chainDb := otherFirstBlock }, .lookUp]

/-- The task ends, and the block that is not there any more stays at the front. -/
theorem not_orderly :
    ¬ ∀ (R : Rules Unit Unit) (dataSize : NetMessage Unit → ℕ) (server : ItemServer Unit Unit)
      (es : List (SendEvent Unit Unit)), Runs.Always (SendState.handle R dataSize)
        (SendState.Orderly dataSize) { server := server } es := by
  intro h
  have hrun := Runs.always_iff_foldl.mp
    (h calmRules (fun _ => 100) { chainDb := oneBlock } replacedBlock) replacedBlock List.prefix_rfl
  have hstuck : (replacedBlock.foldl (SendState.handle calmRules fun _ => 100)
      { server := { chainDb := oneBlock } }).queue.task.isRunning = false ∧
      (replacedBlock.foldl (SendState.handle calmRules fun _ => 100)
        { server := { chainDb := oneBlock } }).queue.queuedMessages.length = 1 ∧
      (replacedBlock.foldl (SendState.handle calmRules fun _ => 100)
        { server := { chainDb := oneBlock } }).queue.closing = false := by decide +kernel
  rcases hrun.ends hstuck.1 with hempty | hclosing
  · simp [hempty] at hstuck
  · simp [hclosing] at hstuck

end ZosCore.Net
