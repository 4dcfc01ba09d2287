import ZosCore.Net.FetchItems

/-!
`net/node.cpp`: the messages that a node keeps for its peers, by the blocks that have come since.

* `MessageCache`: `blockchain_tied_message_cache`, with `blockAccepted`, `cacheMessage` and `getMessage`.
* `CacheCall`, `MessageCache.call`: what is called, in any order.
* `MessageCache.Fresh`: the invariant: no message is older than five blocks.
* `Shelf`: what is kept for one hash, without a clock.
* **`getMessage_run`**: after any calls the cache has for each hash what the shelf of the hash has.
-/

namespace ZosCore.Net

/-- `message_info`; what is only reported about a message is left out. -/
structure CachedMessage (μ : Type) where
  messageHash : ItemHash
  messageBody : μ
  blockClockWhenReceived : ℕ

/-- `blockchain_tied_message_cache`. Its clock is a `uint32_t`, so that fewer than `2 ^ 32` blocks are to be
accepted. -/
structure MessageCache (μ : Type) where
  messages : List (CachedMessage μ) := []
  blockClock : ℕ := 0

/-- `GRAPHENE_NET_MESSAGE_CACHE_DURATION_IN_BLOCKS`. -/
def messageCacheDurationInBlocks : ℕ := 5

/-- What is called on the cache. -/
inductive CacheCall (μ : Type) where
  | blockAccepted
  | cacheMessage (m : μ) (hash : ItemHash)

namespace MessageCache

variable {μ : Type}

/-- `block_accepted`: the messages that are too old are erased. -/
def blockAccepted (c : MessageCache μ) : MessageCache μ :=
  let clock := c.blockClock + 1
  { messages :=
      if messageCacheDurationInBlocks < clock then
        c.messages.filter (clock - messageCacheDurationInBlocks ≤ ·.blockClockWhenReceived)
      else c.messages
    blockClock := clock }

/-- The entry for this hash. -/
def find (hash : ItemHash) (c : MessageCache μ) : Option (CachedMessage μ) :=
  c.messages.find? (·.messageHash = hash)

/-- `cache_message`: the hash is unique, so that a message that is there stays. -/
def cacheMessage (m : μ) (hash : ItemHash) (c : MessageCache μ) : MessageCache μ :=
  if (c.find hash).isSome then c
  else { c with messages := ⟨hash, m, c.blockClock⟩ :: c.messages }

/-- `get_message`; `none` if it throws `key_not_found_exception`. -/
def getMessage (hash : ItemHash) (c : MessageCache μ) : Option μ :=
  (c.find hash).map (·.messageBody)

/-- What a call does. -/
def call (c : MessageCache μ) : CacheCall μ → MessageCache μ
  | .blockAccepted => c.blockAccepted
  | .cacheMessage m hash => c.cacheMessage m hash

/-- The clock says how old a message is, and none is too old; no two have the same hash. -/
structure Fresh (c : MessageCache μ) : Prop where
  past : ∀ e ∈ c.messages, e.blockClockWhenReceived ≤ c.blockClock
  young : ∀ e ∈ c.messages, c.blockClock ≤ e.blockClockWhenReceived + messageCacheDurationInBlocks
  unique : (c.messages.map (·.messageHash)).Nodup

variable {c : MessageCache μ} {hash h : ItemHash} {m : μ} {e : CachedMessage μ}
  {calls : List (CacheCall μ)}

lemma find_iff (hc : c.Fresh) : c.find hash = some e ↔ e ∈ c.messages ∧ e.messageHash = hash := by
  constructor
  · intro h
    exact ⟨List.mem_of_find?_eq_some h, by simpa using List.find?_some h⟩
  · rintro ⟨he, rfl⟩
    cases h : c.messages.find? (·.messageHash = e.messageHash) with
    | none => simpa using List.find?_eq_none.mp h e he
    | some e' =>
        have hhash : e'.messageHash = e.messageHash := by simpa using List.find?_some h
        have heq : e' = e :=
          List.inj_on_of_nodup_map hc.unique (List.mem_of_find?_eq_some h) he hhash
        rw [find, h, heq]

/-- Both cases of `block_accepted` keep the same messages: those that are not too old. -/
lemma mem_blockAccepted :
    e ∈ c.blockAccepted.messages ↔
      e ∈ c.messages ∧ c.blockClock + 1 ≤ e.blockClockWhenReceived + messageCacheDurationInBlocks := by
  simp only [blockAccepted]
  split_ifs with h
  · simp only [List.mem_filter, decide_eq_true_eq]
    refine and_congr_right fun _ => ?_
    omega
  · exact ⟨fun he => ⟨he, by omega⟩, And.left⟩

lemma Fresh.blockAccepted (hc : c.Fresh) : c.blockAccepted.Fresh where
  past e he := (hc.past e (mem_blockAccepted.mp he).1).trans (Nat.le_succ _)
  young e he := (mem_blockAccepted.mp he).2
  unique := by
    refine hc.unique.sublist (List.Sublist.map _ ?_)
    simp only [MessageCache.blockAccepted]
    split_ifs
    · exact List.filter_sublist
    · exact List.Sublist.refl _

lemma Fresh.cacheMessage (hc : c.Fresh) : (c.cacheMessage m hash).Fresh := by
  unfold MessageCache.cacheMessage
  split_ifs with h
  · exact hc
  · have hnew : ∀ e ∈ c.messages, e.messageHash ≠ hash := fun e he heq =>
      h (by rw [(find_iff hc).mpr ⟨he, heq⟩]; rfl)
    exact
      { past := List.forall_mem_cons.mpr ⟨le_rfl, hc.past⟩
        young := List.forall_mem_cons.mpr ⟨Nat.le_add_right _ _, hc.young⟩
        unique := List.nodup_cons.mpr ⟨fun hin => by
          obtain ⟨e, he, heq⟩ := List.mem_map.mp hin
          exact hnew e he heq, hc.unique⟩ }

lemma Fresh.call (hc : c.Fresh) (e : CacheCall μ) : (c.call e).Fresh := by
  cases e with
  | blockAccepted => exact hc.blockAccepted
  | cacheMessage m hash => exact hc.cacheMessage

lemma Fresh.empty : (({} : MessageCache μ)).Fresh := ⟨by simp, by simp, by simp⟩

/-- What is cached stays as it is when something is cached. -/
lemma find_cacheMessage (hfind : c.find h = some e) : (c.cacheMessage m hash).find h = some e := by
  unfold cacheMessage
  split_ifs with hin
  · exact hfind
  · have hne : hash ≠ h := fun heq => hin (by simp [heq, hfind])
    rw [find, List.find?_cons_of_neg (by simpa using hne)]
    exact hfind

/-- A message is cached, unless there is one with its hash. -/
lemma find_cacheMessage_self (hfind : c.find hash = none) :
    (c.cacheMessage m hash).find hash = some ⟨hash, m, c.blockClock⟩ := by
  rw [cacheMessage, hfind]
  simp [find]

/-- Another message is not what was looked for. -/
lemma find_cacheMessage_of_ne (hne : hash ≠ h) : (c.cacheMessage m hash).find h = c.find h := by
  unfold cacheMessage
  split_ifs
  · rfl
  · exact List.find?_cons_of_neg (by simpa using hne)

/-- What is cached stays while a block is accepted, exactly if it is not too old. -/
lemma find_blockAccepted (hc : c.Fresh) :
    c.blockAccepted.find h = some e ↔ c.find h = some e ∧
      c.blockClock + 1 ≤ e.blockClockWhenReceived + messageCacheDurationInBlocks := by
  rw [find_iff hc.blockAccepted, find_iff hc, mem_blockAccepted, and_right_comm]

/-! ### What is kept for one hash -/

/-- The message with this hash, and for how many blocks it has been there. -/
abbrev Shelf (μ : Type) := Option (μ × ℕ)

/-- A message stays for five blocks; where there is one, no other is put. -/
def Shelf.call (h : ItemHash) : Shelf μ → CacheCall μ → Shelf μ
  | none, .cacheMessage m hash => if hash = h then some (m, 0) else none
  | some entry, .cacheMessage _ _ => some entry
  | none, .blockAccepted => none
  | some (m, n), .blockAccepted => if n < messageCacheDurationInBlocks then some (m, n + 1) else none

/-- What the cache has for a hash, with its age by the clock. -/
def shelf (h : ItemHash) (c : MessageCache μ) : Shelf μ :=
  (c.find h).map fun e => (e.messageBody, c.blockClock - e.blockClockWhenReceived)

lemma getMessage_eq_shelf : c.getMessage h = (c.shelf h).map Prod.fst := by
  simp [getMessage, shelf, Function.comp_def]

/-- A call does to a hash what it does to its shelf. -/
lemma shelf_call (hc : c.Fresh) (x : CacheCall μ) : (c.call x).shelf h = (c.shelf h).call h x := by
  cases x with
  | blockAccepted =>
      have hiff : ∀ e, c.blockAccepted.find h = some e ↔ _ := fun e => find_blockAccepted hc
      cases hfind : c.find h with
      | none =>
          have hnone : c.blockAccepted.find h = none :=
            Option.eq_none_iff_forall_ne_some.mpr fun e he => by simp [hiff, hfind] at he
          simp [shelf, call, hfind, hnone, Shelf.call]
      | some e =>
          have hpast := hc.past e ((find_iff hc).mp hfind).1
          by_cases hold : c.blockClock - e.blockClockWhenReceived < messageCacheDurationInBlocks
          · have hkept : c.blockAccepted.find h = some e := (hiff e).mpr ⟨hfind, by omega⟩
            have hage : c.blockAccepted.blockClock - e.blockClockWhenReceived =
                c.blockClock - e.blockClockWhenReceived + 1 := Nat.succ_sub hpast
            simp [shelf, call, hfind, hkept, Shelf.call, hold, hage]
          · have hnone : c.blockAccepted.find h = none :=
              Option.eq_none_iff_forall_ne_some.mpr fun e' he => by
                obtain ⟨he', hle⟩ := (hiff e').mp he
                obtain rfl : e = e' := Option.some_inj.mp (hfind.symm.trans he')
                omega
            simp [shelf, call, hfind, hnone, Shelf.call, hold]
  | cacheMessage m hash =>
      have hclock : (c.cacheMessage m hash).blockClock = c.blockClock := by
        unfold cacheMessage
        split_ifs <;> rfl
      cases hfind : c.find h with
      | some e => simp [shelf, call, hfind, find_cacheMessage hfind, Shelf.call, hclock]
      | none =>
          by_cases heq : hash = h
          · subst heq
            simp [shelf, call, hfind, find_cacheMessage_self hfind, Shelf.call, hclock]
          · simp [shelf, call, hfind, find_cacheMessage_of_ne heq, Shelf.call, heq]

lemma shelf_run (hc : c.Fresh) : (calls.foldl call c).shelf h = calls.foldl (Shelf.call h) (c.shelf h) := by
  induction calls generalizing c with
  | nil => rfl
  | cons x calls ih => rw [List.foldl_cons, List.foldl_cons, ih (hc.call x), shelf_call hc]

/-- **The cache.** Whatever is called on it, it has for every hash the message that was cached first, for
five blocks, and then nothing until one with that hash is cached again. -/
theorem getMessage_run :
    (calls.foldl call {}).getMessage h =
      (calls.foldl (Shelf.call h) (none : Shelf μ)).map Prod.fst := by
  rw [getMessage_eq_shelf, shelf_run .empty]
  rfl

end MessageCache

end ZosCore.Net
