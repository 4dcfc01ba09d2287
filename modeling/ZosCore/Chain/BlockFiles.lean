import ZosCore.Chain.BlockDatabase

/-!
`chain/block_database.cpp` down to the bytes: the index, a file with one entry of
fixed size for every block number, and the file to which packed blocks are
appended.

A position in the index is counted in entries of 32 bytes. The number of a block has
32 bits, and `fetchBlockId` and `fetchByNumber` are for numbers below `2 ^ 58`: from
there on the position in bytes wraps in 64 bits. `fc::raw::pack` and `unpack` enter as
a `Codec`. `unpack` gives back a block it never filled in if there are no bytes.

* `store`, `remove`, `contains`, `fetchBlockId`, `fetchOptional`, `fetchByNumber`,
  `lastIndexEntry`, `last`, `lastId`: the functions of `block_database`.
* `Shelf`: what they are for, the last block stored under every number.
* **`readsBack_run`**: after any operations that do not meet the two defects named in
  `Admits`, every reader shows the shelf.
* **`BlockDatabase.reads_storeAll`**: the store of `BlockDatabase.lean`, whose positions are counted
  in blocks, reads as the files do, if blocks are packed into fewer than `2 ^ 32` bytes.
-/

namespace ZosCore

/-- `fc::raw::pack` and `fc::raw::unpack` of blocks; `unfilled` is the block that `unpack`
declares before it reads, and `none` stands for an exception. -/
structure Codec (β : Type) where
  pack : SignedBlock β → List UInt8
  unpackStream : List UInt8 → Option (SignedBlock β)
  unfilled : SignedBlock β

namespace Codec

variable {β : Type}

/-- `fc::raw::unpack<signed_block>`. -/
def unpack (c : Codec β) (s : List UInt8) : Option (SignedBlock β) :=
  if s.length ≠ 0 then c.unpackStream s else some c.unfilled

/-- The block is packed into some bytes and unpacked again. -/
def Packs (c : Codec β) (b : SignedBlock β) : Prop :=
  c.pack b ≠ [] ∧ c.unpackStream (c.pack b) = some b

lemma Packs.unpack {c : Codec β} {b : SignedBlock β} (h : c.Packs b) :
    c.unpack (c.pack b) = some b := by
  rw [Codec.unpack, if_pos (by simpa using h.1), h.2]

lemma Packs.length_pos {c : Codec β} {b : SignedBlock β} (h : c.Packs b) :
    0 < (c.pack b).length := List.length_pos_iff.mpr h.1

end Codec

/-- `block_database`: the entries of the index file and the bytes of the block file. -/
structure BlockFiles where
  index : List IndexEntry := []
  blocks : List UInt8 := []
  maxBlockSize : ℕ := 0x7fffffff

namespace BlockFiles

variable {β : Type} (c : Codec β)

/-! ### The functions -/

/-- `block_database::store`. The size of the packed block is cut off to 32 bits. -/
def store (d : BlockFiles) (id : BlockId) (b : SignedBlock β) : Except ChainError BlockFiles :=
  let id := if id = .zero then b.id else id
  let vec := c.pack b
  let e : IndexEntry := ⟨d.blocks.length, vec.length % 2 ^ 32, id⟩
  if e.blockSize < d.maxBlockSize then
    .ok { d with
      blocks := d.blocks ++ vec.take e.blockSize
      index := BlockDatabase.writeEntry d.index id.num e }
  else .error .blockTooLarge

/-- `block_database::remove`; `none` stands for an exception. -/
def remove (d : BlockFiles) (id : BlockId) : Option BlockFiles :=
  match d.index[id.num]? with
  | none => none
  | some e =>
      if e.blockId = id then some { d with index := d.index.set id.num { e with blockSize := 0 } }
      else some d

/-- The bytes an entry points to; `none` if the file ends before. -/
def read (d : BlockFiles) (e : IndexEntry) : Option (List UInt8) :=
  let data := (d.blocks.drop e.blockPos).take e.blockSize
  if data.length = e.blockSize then some data else none

/-- The block an entry points to, if it can be read and unpacked and has the id of the entry. -/
def unpackEntry (d : BlockFiles) (e : IndexEntry) : Option (SignedBlock β) := do
  let data ← d.read e
  let result ← c.unpack data
  if result.id = e.blockId then some result else none

/-- `block_database::contains`. -/
def contains (d : BlockFiles) (id : BlockId) : Bool :=
  if id = .zero then false
  else match d.index[id.num]? with
    | none => false
    | some e => e.blockId = id ∧ 0 < e.blockSize

/-- `block_database::fetch_block_id` of a number below `2 ^ 58`; `none` stands for an exception. -/
def fetchBlockId (d : BlockFiles) (blockNum : ℕ) : Option BlockId :=
  match d.index[blockNum]? with
  | none => none
  | some e => if e.blockId ≠ .zero then some e.blockId else none

/-- `block_database::fetch_optional`. -/
def fetchOptional (d : BlockFiles) (id : BlockId) : Option (SignedBlock β) :=
  match d.index[id.num]? with
  | none => none
  | some e => if e.blockId ≠ id then none else d.unpackEntry c e

/-- `block_database::fetch_by_number` of a number below `2 ^ 58`. -/
def fetchByNumber (d : BlockFiles) (blockNum : ℕ) : Option (SignedBlock β) :=
  match d.index[blockNum]? with
  | none => none
  | some e => d.unpackEntry c e

/-- The test of `last_index_entry`. -/
def valid (d : BlockFiles) (e : IndexEntry) : Bool :=
  0 < e.blockSize ∧ e.blockPos + e.blockSize ≤ d.blocks.length ∧ (d.unpackEntry c e).isSome

/-- The loop of `last_index_entry` over the first entries of the index, from the last of them on,
and how many entries it leaves in the file. -/
def lastIndexEntryLoop (d : BlockFiles) : ℕ → Option IndexEntry × ℕ
  | 0 => (none, 0)
  | n + 1 =>
      match d.index[n]? with
      | none => d.lastIndexEntryLoop n
      | some e => if d.valid c e then (some e, n + 1) else d.lastIndexEntryLoop n

/-- `block_database::last_index_entry`, which resizes the index. -/
def lastIndexEntry (d : BlockFiles) : Option IndexEntry × BlockFiles :=
  let r := d.lastIndexEntryLoop c d.index.length
  (r.1, { d with index := d.index.take r.2 })

/-- `block_database::last`. -/
def last (d : BlockFiles) : Option (SignedBlock β) × BlockFiles :=
  match d.lastIndexEntry c with
  | (some e, d) => (d.fetchByNumber c e.blockId.num, d)
  | (none, d) => (none, d)

/-- `block_database::last_id`. -/
def lastId (d : BlockFiles) : Option BlockId × BlockFiles :=
  match d.lastIndexEntry c with
  | (some e, d) => (some e.blockId, d)
  | (none, d) => (none, d)

/-- `block_database::close` and `open` of files that are there. -/
def reopen (d : BlockFiles) : BlockFiles := { d with maxBlockSize := 0x7fffffff }

/-- What is done with a block database; `maxBlockSize` is set at a maintenance. -/
inductive Op (β : Type) where
  | store (b : SignedBlock β)
  | remove (id : BlockId)
  | last
  | reopen
  | maxBlockSize (n : ℕ)

/-- An operation; one that throws changes nothing. -/
def step (d : BlockFiles) : Op β → BlockFiles
  | .store b => (d.store c b.id b).toOption.getD d
  | .remove id => (d.remove id).getD d
  | .last => (d.last c).2
  | .reopen => d.reopen
  | .maxBlockSize n => { d with maxBlockSize := n }

/-- Operations one after the other. -/
def run (d : BlockFiles) (ops : List (Op β)) : BlockFiles := ops.foldl (step c) d

end BlockFiles

/-- No block has the empty id. -/
lemma SignedBlock.id_ne_zero {β : Type} (b : SignedBlock β) : b.id ≠ .zero := fun h => by
  have := congrArg BlockId.num h
  simp [SignedBlock.blockNum, BlockId.zero] at this

namespace BlockFiles

/-! ### The entries -/

/-- The entry of a number, which is empty beyond the end of the index. -/
def entry (d : BlockFiles) (n : ℕ) : IndexEntry := (d.index[n]?).getD {}

end BlockFiles

lemma BlockDatabase.getD_writeEntry (l : List IndexEntry) (n m : ℕ) (e : IndexEntry) :
    ((BlockDatabase.writeEntry l n e)[m]?).getD {} =
      if m = n then e else (l[m]?).getD {} := by
  rw [BlockDatabase.writeEntry]
  rw [List.getElem?_set]
  by_cases hm : n = m
  · have hlen : m < (l ++ List.replicate (m + 1 - l.length) ({} : IndexEntry)).length := by
      simp
      omega
    simp only [hm, if_true, if_pos hlen, Option.getD_some]
  · rw [if_neg hm, if_neg (Ne.symm hm), List.getElem?_append]
    split_ifs with hlt
    · rfl
    · rw [List.getElem?_replicate, List.getElem?_eq_none (not_lt.mp hlt)]
      split_ifs <;> rfl

namespace BlockFiles

variable {β : Type} {c : Codec β} {d : BlockFiles} {n : ℕ}

lemma entry_writeEntry (n m : ℕ) (e : IndexEntry) (blocks : List UInt8) (maxBlockSize : ℕ) :
    (BlockFiles.mk (BlockDatabase.writeEntry d.index n e) blocks maxBlockSize).entry m =
      if m = n then e else d.entry m :=
  BlockDatabase.getD_writeEntry d.index n m e

lemma entry_take (n k : ℕ) :
    ({ d with index := d.index.take k } : BlockFiles).entry n =
      if n < k then d.entry n else {} := by
  rw [entry]
  rw [List.getElem?_take]
  split_ifs <;> rfl

lemma entry_set {e : IndexEntry} (hn : n < d.index.length) (m : ℕ) :
    ({ d with index := d.index.set n e } : BlockFiles).entry m =
      if m = n then e else d.entry m := by
  unfold entry
  rw [List.getElem?_set]
  by_cases hm : n = m
  · subst hm
    simp [hn]
  · simp [hm, Ne.symm hm]

lemma read_eq_some {e : IndexEntry} {data : List UInt8} :
    d.read e = some data ↔
      (d.blocks.drop e.blockPos).take e.blockSize = data ∧ data.length = e.blockSize := by
  simp only [read, Option.ite_none_right_eq_some, Option.some.injEq]
  exact ⟨fun h => ⟨h.2, h.2 ▸ h.1⟩, fun h => ⟨h.1 ▸ h.2, h.1⟩⟩

/-- An empty entry leads to no block: no block has the empty id. -/
lemma unpackEntry_empty (d : BlockFiles) : d.unpackEntry c {} = none := by
  simp [unpackEntry, read, Codec.unpack, c.unfilled.id_ne_zero]

lemma fetchByNumber_eq (d : BlockFiles) (n : ℕ) :
    d.fetchByNumber c n = d.unpackEntry c (d.entry n) := by
  rw [fetchByNumber, entry]
  cases d.index[n]? with
  | none => exact (unpackEntry_empty d).symm
  | some e => rfl

lemma fetchOptional_eq (d : BlockFiles) (id : BlockId) :
    d.fetchOptional c id =
      if (d.entry id.num).blockId ≠ id then none else d.unpackEntry c (d.entry id.num) := by
  rw [fetchOptional, entry]
  cases d.index[id.num]? with
  | none => simp [unpackEntry_empty]
  | some e => rfl

lemma fetchBlockId_eq (d : BlockFiles) (n : ℕ) :
    d.fetchBlockId n =
      if (d.entry n).blockId ≠ .zero then some (d.entry n).blockId else none := by
  rw [fetchBlockId, entry]
  cases d.index[n]? with
  | none => simp
  | some e => rfl

lemma contains_iff (d : BlockFiles) (id : BlockId) :
    d.contains id = true ↔
      id ≠ .zero ∧ (d.entry id.num).blockId = id ∧ 0 < (d.entry id.num).blockSize := by
  rw [contains, entry]
  by_cases hid : id = .zero
  · simp [hid]
  · cases d.index[id.num]? with
    | none => simp [hid]
    | some e => simp [hid]

end BlockFiles

/-! ### What a block database is for -/

/-- What became of the last block stored under a number. -/
inductive Slot (β : Type) where
  | absent
  | kept (b : SignedBlock β)
  | removed (b : SignedBlock β)

namespace Slot

variable {β : Type}

/-- The block that is there. -/
def block? : Slot β → Option (SignedBlock β)
  | .kept b => some b
  | _ => none

/-- The id that is still known of a block that was removed. -/
def id? : Slot β → Option BlockId
  | .absent => none
  | .kept b => some b.id
  | .removed b => some b.id

end Slot

/-- The last block stored under every number, and how large a block may be. -/
structure Shelf (β : Type) where
  slot : ℕ → Slot β := fun _ => .absent
  maxBlockSize : ℕ := 0x7fffffff

namespace Shelf

variable {β : Type}

/-- A block is there under a number from `n` on. -/
def ReachesTo (s : Shelf β) (n : ℕ) : Prop := ∃ m, n ≤ m ∧ (s.slot m).block?.isSome = true

/-- The block is the one with the highest number, if there is one. -/
def IsLast (s : Shelf β) : Option (SignedBlock β) → Prop
  | none => ∀ n, ¬ s.ReachesTo n
  | some b => s.slot b.blockNum = .kept b ∧ ¬ s.ReachesTo (b.blockNum + 1)

open Classical in
/-- The numbers above the last block are forgotten. -/
noncomputable def clip (s : Shelf β) : Shelf β :=
  { s with slot := fun n => if s.ReachesTo n then s.slot n else .absent }

open Classical in
/-- What an operation means. -/
noncomputable def step (c : Codec β) (s : Shelf β) : BlockFiles.Op β → Shelf β
  | .store b =>
      if (c.pack b).length < s.maxBlockSize then
        { s with slot := Function.update s.slot b.blockNum (.kept b) }
      else s
  | .remove id =>
      match s.slot id.num with
      | .kept b =>
          if b.id = id then { s with slot := Function.update s.slot id.num (.removed b) } else s
      | _ => s
  | .last => s.clip
  | .reopen => { s with maxBlockSize := 0x7fffffff }
  | .maxBlockSize n => { s with maxBlockSize := n }

/-- Operations one after the other. -/
noncomputable def run (c : Codec β) (s : Shelf β) (ops : List (BlockFiles.Op β)) : Shelf β :=
  ops.foldl (step c) s

end Shelf

namespace BlockFiles

variable {β : Type} {c : Codec β} {d : BlockFiles} {s : Shelf β}

/-- Every reader shows what is on the shelf, for numbers whose position does not wrap, and the
recovery scan finds the last block and cuts off nothing below it. -/
structure ReadsBack (c : Codec β) (d : BlockFiles) (s : Shelf β) : Prop where
  byNumber : ∀ n < 2 ^ 58, d.fetchByNumber c n = (s.slot n).block?
  blockId : ∀ n < 2 ^ 58, d.fetchBlockId n = (s.slot n).id?
  optional : ∀ id, d.fetchOptional c id = (s.slot id.num).block?.filter (·.id = id)
  contains : ∀ id, d.contains id = true ↔ ∃ b, s.slot id.num = .kept b ∧ b.id = id
  last : s.IsLast (d.last c).1
  lastId : (d.lastId c).1 = (d.last c).1.map (·.id)
  scanned : ∀ n, s.ReachesTo n → (d.last c).2.entry n = d.entry n
  cut : ∀ n, ¬ s.ReachesTo n → (d.last c).2.entry n = {}

/-- An operation that does not meet the two defects: a block that is stored fits into 32 bits of
size, and the block that is removed is not taken for the one that `unpack` never filled in. -/
def Admits (c : Codec β) (d : BlockFiles) : Op β → Prop
  | .store b => c.Packs b ∧ (c.pack b).length < 2 ^ 32
  | .remove id => ¬ (id = c.unfilled.id ∧ d.contains id = true)
  | _ => True

/-- Every operation of the list is admitted where it is made. -/
def AdmitsAll (c : Codec β) : BlockFiles → List (Op β) → Prop
  | _, [] => True
  | d, op :: ops => d.Admits c op ∧ AdmitsAll c (d.step c op) ops

/-! ### The invariant -/

/-- The entry shows the slot. -/
inductive Shows (c : Codec β) (d : BlockFiles) (e : IndexEntry) (n : ℕ) : Slot β → Prop where
  | absent : e = {} → Shows c d e n .absent
  | kept {b : SignedBlock β} : b.blockNum = n → e.blockId = b.id → c.Packs b →
      e.blockSize = (c.pack b).length → d.read e = some (c.pack b) → Shows c d e n (.kept b)
  | removed {b : SignedBlock β} : b.blockNum = n → e.blockId = b.id → e.blockSize = 0 →
      b.id ≠ c.unfilled.id → Shows c d e n (.removed b)

/-- Every entry shows its slot. -/
def Describes (c : Codec β) (d : BlockFiles) (s : Shelf β) : Prop :=
  d.maxBlockSize = s.maxBlockSize ∧ ∀ n, Shows c d (d.entry n) n (s.slot n)

namespace Shows

variable {e : IndexEntry} {n : ℕ} {slot : Slot β}

/-- What an entry leads to. -/
lemma unpackEntry (h : Shows c d e n slot) : d.unpackEntry c e = slot.block? := by
  cases h with
  | absent he =>
      subst he
      exact unpackEntry_empty d
  | kept hn hid hpacks hsize hread =>
      simp [BlockFiles.unpackEntry, hread, hpacks.unpack, hid, Slot.block?]
  | removed hn hid hsize hne =>
      have hread : d.read e = some [] := by simp [read, hsize]
      simp [BlockFiles.unpackEntry, hread, Codec.unpack, hid, Ne.symm hne, Slot.block?]

lemma blockId (h : Shows c d e n slot) :
    (if e.blockId ≠ .zero then some e.blockId else none) = slot.id? := by
  cases h with
  | absent he => simp [he, Slot.id?]
  | @kept b hn hid => simp [hid, b.id_ne_zero, Slot.id?]
  | @removed b hn hid => simp [hid, b.id_ne_zero, Slot.id?]

lemma blockSize_pos (h : Shows c d e n slot) : 0 < e.blockSize ↔ slot.block?.isSome = true := by
  cases h with
  | absent he => simp [he, Slot.block?]
  | kept hn hid hpacks hsize hread => simp [hsize, hpacks.length_pos, Slot.block?]
  | removed hn hid hsize hne => simp [hsize, Slot.block?]

/-- The block of an entry has the number of the entry. -/
lemma num {b : SignedBlock β} (h : Shows c d e n (.kept b)) : b.blockNum = n ∧ e.blockId = b.id := by
  cases h with
  | kept hn hid => exact ⟨hn, hid⟩

lemma valid_iff (h : Shows c d e n slot) : d.valid c e = true ↔ slot.block?.isSome = true := by
  simp only [valid, h.unpackEntry, decide_eq_true_eq]
  refine ⟨fun hv => hv.2.2, fun hv => ⟨h.blockSize_pos.mpr hv, ?_, hv⟩⟩
  cases h with
  | absent he => cases hv
  | removed hn hid hsize hne => cases hv
  | kept hn hid hpacks hsize hread =>
      obtain ⟨hdata, hlen⟩ := read_eq_some.mp hread
      have hpos := hpacks.length_pos
      rw [← hdata, List.length_take, List.length_drop] at hlen hpos
      omega

/-- The file of blocks may grow. -/
lemma append (h : Shows c d e n slot) {d' : BlockFiles} (l : List UInt8)
    (hd : d'.blocks = d.blocks ++ l) : Shows c d' e n slot := by
  cases h with
  | absent he => exact .absent he
  | removed hn hid hsize hne => exact .removed hn hid hsize hne
  | kept hn hid hpacks hsize hread =>
      obtain ⟨hdata, hlen⟩ := read_eq_some.mp hread
      have hle : e.blockSize ≤ (d.blocks.drop e.blockPos).length := by
        rw [← hlen, ← hdata]
        exact List.length_take_le' _ _
      have hpos : e.blockPos ≤ d.blocks.length := by
        have := hpacks.length_pos
        rw [List.length_drop] at hle
        omega
      refine .kept hn hid hpacks hsize (read_eq_some.mpr ⟨?_, hlen⟩)
      rw [hd, List.drop_append_of_le_length hpos, List.take_append_of_le_length hle, hdata]

/-- Nothing else matters to an entry. -/
lemma congr (h : Shows c d e n slot) {d' : BlockFiles} (hd : d'.blocks = d.blocks) :
    Shows c d' e n slot :=
  h.append [] (by rw [hd, List.append_nil])

end Shows

/-! ### The readers -/

section Readers

variable (h : d.Describes c s)
include h

lemma Describes.fetchByNumber (n : ℕ) : d.fetchByNumber c n = (s.slot n).block? := by
  rw [fetchByNumber_eq, (h.2 n).unpackEntry]

lemma Describes.fetchBlockId (n : ℕ) : d.fetchBlockId n = (s.slot n).id? := by
  rw [fetchBlockId_eq, (h.2 n).blockId]

lemma Describes.contains (id : BlockId) :
    d.contains id = true ↔ ∃ b, s.slot id.num = .kept b ∧ b.id = id := by
  have hshows := h.2 id.num
  rw [contains_iff, hshows.blockSize_pos]
  generalize s.slot id.num = slot at hshows
  cases hshows with
  | absent he => simp [Slot.block?]
  | removed hn hid hsize hne => simp [Slot.block?]
  | @kept b hn hid =>
      simp only [hid, Slot.block?, Option.isSome_some, and_true, Slot.kept.injEq, exists_eq_left']
      exact ⟨fun hb => hb.2, fun hb => ⟨hb ▸ b.id_ne_zero, hb⟩⟩

lemma Describes.fetchOptional (id : BlockId) :
    d.fetchOptional c id = (s.slot id.num).block?.filter (·.id = id) := by
  have hshows := h.2 id.num
  rw [fetchOptional_eq, hshows.unpackEntry]
  generalize s.slot id.num = slot at hshows
  cases hshows with
  | absent he => simp [Slot.block?]
  | removed hn hid hsize hne => simp [Slot.block?]
  | @kept b hn hid =>
      rw [hid]
      by_cases hb : b.id = id <;> simp [Slot.block?, Option.filter, hb]

/-! ### The recovery scan -/

/-- The loop goes down to the last block among the first `n` entries. -/
lemma Describes.lastIndexEntryLoop (n : ℕ) :
    (d.lastIndexEntryLoop c n = (none, 0) ∧ ∀ m < n, (s.slot m).block?.isSome = false) ∨
      ∃ k < n, ∃ b, s.slot k = .kept b ∧
        d.lastIndexEntryLoop c n = (some (d.entry k), k + 1) ∧
        ∀ m < n, k < m → (s.slot m).block?.isSome = false := by
  induction n with
  | zero => exact .inl ⟨rfl, nofun⟩
  | succ n ih =>
      have hiff := (h.2 n).valid_iff
      have hskip : (s.slot n).block?.isSome = false →
          d.lastIndexEntryLoop c (n + 1) = d.lastIndexEntryLoop c n := by
        intro hslot
        rw [hslot, Bool.false_eq_true, iff_false, Bool.not_eq_true] at hiff
        rw [BlockFiles.lastIndexEntryLoop]
        cases he : d.index[n]? with
        | none => rfl
        | some e =>
            have : d.entry n = e := by rw [entry, he, Option.getD_some]
            rw [this] at hiff
            simp [hiff]
      cases hslot : s.slot n with
      | kept b =>
          refine .inr ⟨n, n.lt_succ_self, b, hslot, ?_, fun m hm hlt => by omega⟩
          rw [hslot] at hiff
          rw [BlockFiles.lastIndexEntryLoop]
          cases he : d.index[n]? with
          | none =>
              have hpos := (h.2 n).blockSize_pos
              rw [hslot, entry, he] at hpos
              simp [Slot.block?] at hpos
          | some e =>
              have : d.entry n = e := by rw [entry, he, Option.getD_some]
              rw [this] at hiff ⊢
              simp [hiff.mpr rfl]
      | absent | removed b =>
          rw [hskip (by rw [hslot]; rfl)]
          rcases ih with ⟨heq, hnone⟩ | ⟨k, hk, b', hb, heq, hnone⟩
          · refine .inl ⟨heq, fun m hm => ?_⟩
            rcases Nat.lt_succ_iff_lt_or_eq.mp hm with hm | rfl
            · exact hnone m hm
            · rw [hslot]; rfl
          · refine .inr ⟨k, hk.trans n.lt_succ_self, b', hb, heq, fun m hm hlt => ?_⟩
            rcases Nat.lt_succ_iff_lt_or_eq.mp hm with hm | rfl
            · exact hnone m hm hlt
            · rw [hslot]; rfl

/-- There is no block beyond the end of the index. -/
lemma Describes.block_eq_none {m : ℕ} (hm : d.index.length ≤ m) :
    (s.slot m).block?.isSome = false := by
  have hpos := (h.2 m).blockSize_pos
  rw [entry, List.getElem?_eq_none hm, Option.getD_none] at hpos
  simpa using hpos

/-- The scan finds the last block, and keeps the entries up to it. -/
lemma Describes.lastIndexEntry :
    ((∀ m, ¬ s.ReachesTo m) ∧ d.lastIndexEntry c = (none, { d with index := [] })) ∨
      ∃ k b, s.slot k = .kept b ∧ ¬ s.ReachesTo (k + 1) ∧
        d.lastIndexEntry c = (some (d.entry k), { d with index := d.index.take (k + 1) }) := by
  have hreach {k : ℕ} (hk : ∀ m < d.index.length, k ≤ m → (s.slot m).block?.isSome = false) :
      ¬ s.ReachesTo k := by
    rintro ⟨m, hkm, hm⟩
    rcases lt_or_ge m d.index.length with hlt | hge
    · rw [hk m hlt hkm] at hm
      cases hm
    · rw [h.block_eq_none hge] at hm
      cases hm
  rw [BlockFiles.lastIndexEntry]
  rcases h.lastIndexEntryLoop d.index.length with ⟨heq, hnone⟩ | ⟨k, hk, b, hb, heq, hnone⟩
  · refine .inl ⟨fun m => hreach fun m' hm' _ => hnone m' hm', ?_⟩
    simp only [heq, List.take_zero]
  · refine .inr ⟨k, b, hb, hreach fun m' hm' hlt => hnone m' hm' hlt, ?_⟩
    rw [heq]

/-- The shelf after the scan. -/
lemma Describes.scan {k : ℕ} (hk : ∀ m, s.ReachesTo m ↔ m < k) :
    ({ d with index := d.index.take k } : BlockFiles).Describes c s.clip := by
  refine ⟨h.1, fun n => ?_⟩
  rw [entry_take]
  simp only [Shelf.clip, hk]
  split_ifs with hn
  · exact (h.2 n).congr rfl
  · exact .absent rfl

/-- **The recovery scan** finds the last block, and cuts off what is above it. -/
lemma Describes.last :
    s.IsLast (d.last c).1 ∧ (d.lastId c).1 = (d.last c).1.map (·.id) ∧
      (∀ n, s.ReachesTo n → (d.last c).2.entry n = d.entry n) ∧
      (∀ n, ¬ s.ReachesTo n → (d.last c).2.entry n = {}) ∧ (d.last c).2.Describes c s.clip := by
  rw [BlockFiles.last, BlockFiles.lastId]
  rcases h.lastIndexEntry with ⟨hnone, heq⟩ | ⟨k, b, hb, habove, heq⟩
  · rw [heq]
    refine ⟨hnone, rfl, fun n hn => (hnone n hn).elim, fun n _ => rfl, ?_⟩
    have := h.scan (k := 0) fun m => by simp [hnone m]
    rwa [List.take_zero] at this
  · rw [heq]
    have hreach : ∀ m, s.ReachesTo m ↔ m < k + 1 := by
      intro m
      refine ⟨fun ⟨m', hle, hm'⟩ => not_le.mp fun hge => habove ⟨m', hge.trans hle, hm'⟩, fun hm => ?_⟩
      exact ⟨k, Nat.lt_succ_iff.mp hm, by rw [hb]; rfl⟩
    have hscan := h.scan hreach
    have hshows := h.2 k
    rw [hb] at hshows
    obtain ⟨hnum, hid⟩ := hshows.num
    have hfetch : ({ d with index := d.index.take (k + 1) } : BlockFiles).fetchByNumber c
        (d.entry k).blockId.num = some b := by
      rw [hid, SignedBlock.id_num, hnum, Describes.fetchByNumber hscan]
      simp [Shelf.clip, hreach, hb, Slot.block?]
    simp only [hfetch]
    refine ⟨⟨hnum ▸ hb, hnum ▸ habove⟩, by simp [hid], fun n hn => ?_, fun n hn => ?_, hscan⟩
    · rw [entry_take, if_pos ((hreach n).mp hn)]
    · rw [entry_take, if_neg (fun hlt => hn ((hreach n).mpr hlt))]

/-- Every reader shows the shelf. -/
lemma Describes.readsBack : d.ReadsBack c s where
  byNumber n _ := h.fetchByNumber n
  blockId n _ := h.fetchBlockId n
  optional := h.fetchOptional
  contains := h.contains
  last := h.last.1
  lastId := h.last.2.1
  scanned := h.last.2.2.1
  cut := h.last.2.2.2.1

/-! ### The operations -/

lemma Describes.store {b : SignedBlock β} (hb : c.Packs b) (hsize : (c.pack b).length < 2 ^ 32) :
    (d.step c (.store b)).Describes c (s.step c (.store b)) := by
  simp only [BlockFiles.step, BlockFiles.store, Shelf.step, if_neg b.id_ne_zero,
    Nat.mod_eq_of_lt hsize, List.take_length, h.1]
  split_ifs with hlt
  · refine ⟨rfl, fun n => ?_⟩
    simp only [Except.toOption, Option.getD_some]
    rw [entry_writeEntry, SignedBlock.id_num]
    by_cases hn : n = b.blockNum
    · subst hn
      rw [if_pos rfl, Function.update_self]
      exact .kept rfl rfl hb rfl (read_eq_some.mpr ⟨by simp, rfl⟩)
    · rw [if_neg hn, Function.update_of_ne hn]
      exact (h.2 n).append (c.pack b) rfl
  · exact h

lemma Describes.remove {id : BlockId} (hne : ¬ (id = c.unfilled.id ∧ d.contains id = true)) :
    (d.step c (.remove id)).Describes c (s.step c (.remove id)) := by
  have hshows := h.2 id.num
  simp only [step, BlockFiles.remove, Shelf.step]
  cases he : d.index[id.num]? with
  | none =>
      have hentry : d.entry id.num = {} := by rw [entry, he, Option.getD_none]
      have hpos := hshows.blockSize_pos
      rw [hentry] at hpos
      cases hslot : s.slot id.num with
      | kept b => simp [hslot, Slot.block?] at hpos
      | absent => exact h
      | removed b => exact h
  | some e =>
      have hentry : d.entry id.num = e := by rw [entry, he, Option.getD_some]
      have hlt : id.num < d.index.length := (List.getElem?_eq_some_iff.mp he).1
      rw [hentry] at hshows
      -- an entry that is written again with size 0 shows what its slot becomes
      have hset {slot : ℕ → Slot β} (hat : Shows c d { e with blockSize := 0 } id.num (slot id.num))
          (hother : ∀ n, n ≠ id.num → slot n = s.slot n) :
          ({ d with index := d.index.set id.num { e with blockSize := 0 } } : BlockFiles).Describes c
            { s with slot := slot } := by
        refine ⟨h.1, fun n => ?_⟩
        rw [entry_set hlt]
        by_cases hn : n = id.num
        · subst hn
          rw [if_pos rfl]
          exact hat.congr rfl
        · rw [if_neg hn]
          have hsame : Shows c { d with index := d.index.set id.num { e with blockSize := 0 } }
              (d.entry n) n (s.slot n) := (h.2 n).congr rfl
          simpa only [hother n hn] using hsame
      by_cases hid : e.blockId = id
      · simp only [hid, if_true, Option.getD_some]
        cases hslot : s.slot id.num with
        | absent =>
            rw [hslot] at hshows
            have : Shows c d { e with blockSize := 0 } id.num (s.slot id.num) := by
              rw [hslot]
              cases hshows with
              | absent he => exact .absent (by rw [he])
            exact hid ▸ hset this fun _ _ => rfl
        | removed b =>
            rw [hslot] at hshows
            have : Shows c d { e with blockSize := 0 } id.num (s.slot id.num) := by
              rw [hslot]
              cases hshows with
              | removed hn hb hsize hne => exact .removed hn hb rfl hne
            exact hid ▸ hset this fun _ _ => rfl
        | kept b =>
            have hb : b.id = id := by
              rw [hslot] at hshows
              exact hshows.num.2.symm.trans hid
            have hcontains : d.contains id = true := (h.contains id).mpr ⟨b, hslot, hb⟩
            have hat : Shows c d { e with blockSize := 0 } id.num (.removed b) := by
              rw [hslot] at hshows
              refine .removed hshows.num.1 hshows.num.2 rfl fun heq => hne ⟨?_, hcontains⟩
              exact hb.symm.trans heq
            simp only [hb, if_true]
            have hself : Shows c d { e with blockSize := 0 } id.num
                (Function.update s.slot id.num (.removed b) id.num) := by simpa using hat
            exact hid ▸ hset hself fun n hn => Function.update_of_ne hn _ _
      · simp only [hid, if_false, Option.getD_some]
        cases hslot : s.slot id.num with
        | absent => exact h
        | removed b => exact h
        | kept b =>
            have hb : b.id ≠ id := by
              rw [hslot] at hshows
              exact fun hb => hid (hshows.num.2.trans hb)
            simp only [hb, if_false]
            exact h

/-- **An operation that is admitted** means for the files what it means for the shelf. -/
lemma Describes.step {op : Op β} (hop : d.Admits c op) :
    (d.step c op).Describes c (s.step c op) := by
  cases op with
  | store b => exact h.store hop.1 hop.2
  | remove id => exact h.remove hop
  | last => exact h.last.2.2.2.2
  | reopen => exact ⟨rfl, fun n => (h.2 n).congr rfl⟩
  | maxBlockSize n => exact ⟨rfl, fun n => (h.2 n).congr rfl⟩

end Readers

lemma Describes.run {ops : List (Op β)} (h : d.Describes c s) (hops : d.AdmitsAll c ops) :
    (d.run c ops).Describes c (s.run c ops) := by
  induction ops generalizing d s with
  | nil => exact h
  | cons op ops ih => exact ih (h.step hops.1) hops.2

/-- **The block database reads back what was written**: after any operations from empty files,
each of them admitted, every reader shows the last block stored under a number unless it was removed
afterwards, and the scan finds the highest block that is there. -/
theorem readsBack_run (ops : List (Op β)) (hops : ({} : BlockFiles).AdmitsAll c ops) :
    (({} : BlockFiles).run c ops).ReadsBack c (({} : Shelf β).run c ops) :=
  (Describes.run ⟨rfl, fun _ => .absent rfl⟩ hops).readsBack

/-! ### A codec of a few blocks -/

/-- A block without transactions, by its number and its digest. -/
def plainBlock (num digest : ℕ) : SignedBlock Unit :=
  { previous := ⟨num - 1, 0⟩, timestamp := 0, digest }

/-- Plain blocks are packed into two bytes; the block that is not filled in is one of them. -/
def plainCodec : Codec Unit where
  pack b := [UInt8.ofNat b.blockNum, UInt8.ofNat b.digest]
  unpackStream
    | [num, digest] => some (plainBlock num.toNat digest.toNat)
    | _ => none
  unfilled := plainBlock 1 0

/-- A removed block that is taken for the one that was never filled in is still read. -/
theorem not_readsBack_unfilled :
    plainCodec.Packs (plainBlock 1 0) ∧
      ¬ (({} : BlockFiles).run plainCodec
          [.store (plainBlock 1 0), .remove (plainBlock 1 0).id]).ReadsBack plainCodec
        (({} : Shelf Unit).run plainCodec
          [.store (plainBlock 1 0), .remove (plainBlock 1 0).id]) := by
  refine ⟨⟨nofun, rfl⟩, fun h => ?_⟩
  have hslot : (({} : Shelf Unit).run plainCodec
      [.store (plainBlock 1 0), .remove (plainBlock 1 0).id]).slot 1 = .removed (plainBlock 1 0) := by
    simp [Shelf.run, Shelf.step, plainCodec, plainBlock, SignedBlock.blockNum, SignedBlock.id]
  have hread := h.byNumber 1 (by norm_num)
  rw [hslot] at hread
  cases hread

/-- Two blocks are stored, the second one is removed, and the scan finds the first. -/
theorem readsBack_run_two : (({} : BlockFiles).run plainCodec
      [.store (plainBlock 1 7), .store (plainBlock 3 9), .remove (plainBlock 3 9).id, .reopen,
        .last]).ReadsBack plainCodec
    (({} : Shelf Unit).run plainCodec
      [.store (plainBlock 1 7), .store (plainBlock 3 9), .remove (plainBlock 3 9).id, .reopen,
        .last]) :=
  readsBack_run _ ⟨⟨⟨nofun, rfl⟩, by decide⟩, ⟨⟨nofun, rfl⟩, by decide⟩, (fun h => nomatch h.1),
    trivial, trivial, trivial⟩

end BlockFiles

/-! ### Positions that are counted in blocks -/

namespace BlockDatabase

variable {β : Type} {pack : SignedBlock β → ℕ} {d : BlockDatabase β} {s : Shelf β}

/-- The entry of a number, which is empty beyond the end of the index. -/
def entry (d : BlockDatabase β) (n : ℕ) : IndexEntry := (d.index[n]?).getD {}

/-- An empty entry leads to no block. -/
lemma unpack_empty (d : BlockDatabase β) : d.unpack pack {} = none := by
  rw [unpack]
  cases d.blocks[(0 : ℕ)]? with
  | none => rfl
  | some b => simp [b.id_ne_zero]

lemma fetchByNumber_eq (d : BlockDatabase β) (n : ℕ) :
    d.fetchByNumber pack n = d.unpack pack (d.entry n) := by
  rw [fetchByNumber, entry]
  cases d.index[n]? with
  | none => exact (unpack_empty d).symm
  | some e => rfl

lemma fetchOptional_eq (d : BlockDatabase β) (id : BlockId) :
    d.fetchOptional pack id =
      if (d.entry id.num).blockId = id then d.unpack pack (d.entry id.num) else none := by
  rw [fetchOptional, entry]
  cases d.index[id.num]? with
  | none => simp [unpack_empty]
  | some e => rfl

lemma fetchBlockId_eq (d : BlockDatabase β) (n : ℕ) :
    d.fetchBlockId n = if (d.entry n).blockId = .zero then none else some (d.entry n).blockId := by
  rw [fetchBlockId, entry]
  cases d.index[n]? with
  | none => simp
  | some e => rfl

lemma contains_iff (d : BlockDatabase β) (id : BlockId) :
    d.contains id = true ↔
      id ≠ .zero ∧ (d.entry id.num).blockId = id ∧ 0 < (d.entry id.num).blockSize := by
  rw [contains, entry]
  cases d.index[id.num]? with
  | none => simp
  | some e => simp

/-- What `store` does if it does not throw. -/
lemma store_eq_ok {d' : BlockDatabase β} {id : BlockId} {b : SignedBlock β} (hid : id ≠ .zero) :
    d.store pack id b = .ok d' ↔
      pack b < d.maxBlockSize ∧ d' = { d with
        index := writeEntry d.index id.num ⟨d.blocks.length, pack b, id⟩
        blocks := d.blocks ++ [b] } := by
  simp only [store, if_neg hid]
  split_ifs with hlt
  · simp [hlt, eq_comm]
  · simp [hlt]

lemma entry_store {d' : BlockDatabase β} {id : BlockId} {b : SignedBlock β} (hid : id ≠ .zero)
    (h : d.store pack id b = .ok d') (n : ℕ) :
    d'.entry n = if n = id.num then ⟨d.blocks.length, pack b, id⟩ else d.entry n := by
  obtain ⟨-, rfl⟩ := (store_eq_ok hid).mp h
  exact getD_writeEntry d.index id.num n _

/-- The entry shows the slot; nothing is ever removed. -/
inductive Shows (pack : SignedBlock β → ℕ) (d : BlockDatabase β) (e : IndexEntry) (n : ℕ) :
    Slot β → Prop where
  | absent : e = {} → Shows pack d e n .absent
  | kept {b : SignedBlock β} : b.blockNum = n → e.blockId = b.id → e.blockSize = pack b →
      d.blocks[e.blockPos]? = some b → 0 < pack b → Shows pack d e n (.kept b)

/-- Every entry shows its slot. -/
def Describes (pack : SignedBlock β → ℕ) (d : BlockDatabase β) (s : Shelf β) : Prop :=
  d.maxBlockSize = s.maxBlockSize ∧ ∀ n, Shows pack d (d.entry n) n (s.slot n)

section Readers

variable {e : IndexEntry} {n : ℕ} {slot : Slot β}

lemma Shows.unpack (h : Shows pack d e n slot) : d.unpack pack e = slot.block? := by
  cases h with
  | absent he =>
      subst he
      exact unpack_empty d
  | kept hn hid hsize hread => simp [BlockDatabase.unpack, hread, hsize, hid, Slot.block?]

lemma Shows.append (h : Shows pack d e n slot) {d' : BlockDatabase β} {l : List (SignedBlock β)}
    (hd : d'.blocks = d.blocks ++ l) : Shows pack d' e n slot := by
  cases h with
  | absent he => exact .absent he
  | kept hn hid hsize hread hpos =>
      refine .kept hn hid hsize ?_ hpos
      rw [hd, List.getElem?_append_left (List.getElem?_eq_some_iff.mp hread).1]
      exact hread

variable (h : d.Describes pack s)
include h

lemma Describes.fetchByNumber (n : ℕ) : d.fetchByNumber pack n = (s.slot n).block? := by
  rw [fetchByNumber_eq, (h.2 n).unpack]

lemma Describes.fetchBlockId (n : ℕ) : d.fetchBlockId n = (s.slot n).id? := by
  have hshows := h.2 n
  rw [fetchBlockId_eq]
  generalize s.slot n = slot at hshows
  cases hshows with
  | absent he => simp [he, Slot.id?]
  | @kept b hn hid => simp [hid, b.id_ne_zero, Slot.id?]

lemma Describes.fetchOptional (id : BlockId) :
    d.fetchOptional pack id = (s.slot id.num).block?.filter (·.id = id) := by
  have hshows := h.2 id.num
  rw [fetchOptional_eq, hshows.unpack]
  generalize s.slot id.num = slot at hshows
  cases hshows with
  | absent he => simp [Slot.block?]
  | @kept b hn hid =>
      rw [hid]
      by_cases hb : b.id = id <;> simp [Slot.block?, Option.filter, hb]

lemma Describes.contains (id : BlockId) :
    d.contains id = true ↔ ∃ b, s.slot id.num = .kept b ∧ b.id = id := by
  have hshows := h.2 id.num
  rw [contains_iff]
  generalize s.slot id.num = slot at hshows
  cases hshows with
  | absent he => simp [he]
  | @kept b hn hid hsize hread hpos =>
      simp only [hid, hsize, hpos, and_true, Slot.kept.injEq, exists_eq_left']
      exact ⟨fun hb => hb.2, fun hb => ⟨hb ▸ b.id_ne_zero, hb⟩⟩

end Readers

/-- A block that is stored goes on the shelf. -/
lemma Describes.store {c : Codec β} (h : d.Describes (fun b => (c.pack b).length) s)
    {b : SignedBlock β} (hb : c.Packs b) :
    (((d.store (fun b => (c.pack b).length) b.id b).toOption).getD d).Describes
      (fun b => (c.pack b).length) (s.step c (.store b)) := by
  simp only [BlockDatabase.store, if_neg b.id_ne_zero, Shelf.step, h.1]
  split_ifs with hlt
  · refine ⟨rfl, fun n => ?_⟩
    simp only [Except.toOption, Option.getD_some]
    rw [entry]
    rw [getD_writeEntry, SignedBlock.id_num]
    by_cases hn : n = b.blockNum
    · subst hn
      rw [if_pos rfl, Function.update_self]
      exact .kept rfl rfl rfl (by simp) hb.length_pos
    · rw [if_neg hn, Function.update_of_ne hn]
      exact (h.2 n).append rfl
  · exact h

/-- Blocks that are stored one after the other. -/
def storeAll (pack : SignedBlock β → ℕ) (d : BlockDatabase β) (l : List (SignedBlock β)) :
    BlockDatabase β :=
  l.foldl (fun d b => (d.store pack b.id b).toOption.getD d) d

lemma Describes.storeAll {c : Codec β} {l : List (SignedBlock β)}
    (h : d.Describes (fun b => (c.pack b).length) s) (hl : ∀ b ∈ l, c.Packs b) :
    (d.storeAll (fun b => (c.pack b).length) l).Describes (fun b => (c.pack b).length)
      (s.run c (l.map .store)) := by
  induction l generalizing d s with
  | nil => exact h
  | cons b l ih =>
      exact ih (h.store (hl b List.mem_cons_self)) fun b hb => hl b (List.mem_cons_of_mem _ hb)

/-- **Blocks that are stored are read alike**, whether positions are counted in blocks or in
bytes, if they are packed into fewer than `2 ^ 32` bytes. -/
theorem reads_storeAll {c : Codec β} {l : List (SignedBlock β)}
    (hl : ∀ b ∈ l, c.Packs b ∧ (c.pack b).length < 2 ^ 32) :
    let d := ({} : BlockDatabase β).storeAll (fun b => (c.pack b).length) l
    let d' := ({} : BlockFiles).run c (l.map .store)
    (∀ n < 2 ^ 58, d.fetchByNumber (fun b => (c.pack b).length) n = d'.fetchByNumber c n) ∧
      (∀ n < 2 ^ 58, d.fetchBlockId n = d'.fetchBlockId n) ∧
      (∀ id, d.fetchOptional (fun b => (c.pack b).length) id = d'.fetchOptional c id) ∧
      ∀ id, d.contains id = d'.contains id := by
  intro d d'
  have hd : d.Describes (fun b => (c.pack b).length) (({} : Shelf β).run c (l.map .store)) :=
    Describes.storeAll ⟨rfl, fun _ => .absent rfl⟩ fun b hb => (hl b hb).1
  have hadmits : ∀ (l : List (SignedBlock β)) (d : BlockFiles),
      (∀ b ∈ l, c.Packs b ∧ (c.pack b).length < 2 ^ 32) → d.AdmitsAll c (l.map .store) := by
    intro l
    induction l with
    | nil => exact fun _ _ => trivial
    | cons b l ih =>
        intro d hl
        exact ⟨hl b List.mem_cons_self, ih _ fun b hb => hl b (List.mem_cons_of_mem _ hb)⟩
  have hd' : d'.Describes c (({} : Shelf β).run c (l.map .store)) :=
    BlockFiles.Describes.run ⟨rfl, fun _ => .absent rfl⟩ (hadmits l _ hl)
  refine ⟨fun n _ => ?_, fun n _ => ?_, fun id => ?_, fun id => ?_⟩
  · rw [hd.fetchByNumber, hd'.fetchByNumber]
  · rw [hd.fetchBlockId, hd'.fetchBlockId]
  · rw [hd.fetchOptional, hd'.fetchOptional]
  · exact Bool.eq_iff_iff.mpr ((hd.contains id).trans (hd'.contains id).symm)

theorem reads_storeAll_two :
    let c := BlockFiles.plainCodec
    let l := [BlockFiles.plainBlock 1 7, BlockFiles.plainBlock 3 9]
    let d := ({} : BlockDatabase Unit).storeAll (fun b => (c.pack b).length) l
    let d' := ({} : BlockFiles).run c (l.map .store)
    (∀ n < 2 ^ 58, d.fetchByNumber (fun b => (c.pack b).length) n = d'.fetchByNumber c n) ∧
      (∀ n < 2 ^ 58, d.fetchBlockId n = d'.fetchBlockId n) ∧
      (∀ id, d.fetchOptional (fun b => (c.pack b).length) id = d'.fetchOptional c id) ∧
      ∀ id, d.contains id = d'.contains id :=
  reads_storeAll (List.forall_mem_cons.mpr ⟨⟨⟨nofun, rfl⟩, by decide⟩,
    List.forall_mem_singleton.mpr ⟨⟨nofun, rfl⟩, by decide⟩⟩)

end BlockDatabase

end ZosCore
