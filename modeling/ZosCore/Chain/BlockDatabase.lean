import ZosCore.Chain.Types

/-!
`chain/block_database.cpp`: the blocks on disk, an index file with one entry for
every block number and a file to which blocks are appended.

A position in the file of blocks is counted in blocks, and `pack` is the number of
bytes a block takes. A number that was never written reads as an entry of zeros. Numbers
are below `2 ^ 58`, so that the position in the index does not wrap.

* `store`, `contains`, `fetchBlockId`, `fetchOptional`, `fetchByNumber`: the
  functions of `block_database`.
-/

namespace ZosCore

/-- `index_entry`. -/
structure IndexEntry where
  blockPos : ℕ := 0
  blockSize : ℕ := 0
  blockId : BlockId := .zero
  deriving DecidableEq

/-- `block_database`. -/
structure BlockDatabase (β : Type) where
  index : List IndexEntry := []
  blocks : List (SignedBlock β) := []
  maxBlockSize : ℕ := 0x7fffffff

namespace BlockDatabase

variable {β : Type} (pack : SignedBlock β → ℕ)

/-- A write at the entry `n`, the file being filled up with zeros to that place. -/
def writeEntry (l : List IndexEntry) (n : ℕ) (e : IndexEntry) : List IndexEntry :=
  (l ++ List.replicate (n + 1 - l.length) ({} : IndexEntry)).set n e

/-- `block_database::store`. -/
def store (d : BlockDatabase β) (id : BlockId) (b : SignedBlock β) :
    Except ChainError (BlockDatabase β) :=
  let id := if id = .zero then b.id else id
  if pack b < d.maxBlockSize then
    .ok { d with
      index := writeEntry d.index id.num ⟨d.blocks.length, pack b, id⟩
      blocks := d.blocks ++ [b] }
  else .error .blockTooLarge

/-- The block an entry points to, if it unpacks and has the id of the entry. -/
def unpack (d : BlockDatabase β) (e : IndexEntry) : Option (SignedBlock β) :=
  match d.blocks[e.blockPos]? with
  | none => none
  | some b => if pack b = e.blockSize ∧ b.id = e.blockId then some b else none

/-- `block_database::contains`. -/
def contains (d : BlockDatabase β) (id : BlockId) : Bool :=
  match d.index[id.num]? with
  | none => false
  | some e => id ≠ .zero ∧ e.blockId = id ∧ 0 < e.blockSize

/-- `block_database::fetch_block_id`; `none` stands for an exception. -/
def fetchBlockId (d : BlockDatabase β) (num : ℕ) : Option BlockId :=
  match d.index[num]? with
  | none => none
  | some e => if e.blockId = .zero then none else some e.blockId

/-- `block_database::fetch_optional`. -/
def fetchOptional (d : BlockDatabase β) (id : BlockId) : Option (SignedBlock β) :=
  match d.index[id.num]? with
  | none => none
  | some e => if e.blockId = id then d.unpack pack e else none

/-- `block_database::fetch_by_number`. -/
def fetchByNumber (d : BlockDatabase β) (num : ℕ) : Option (SignedBlock β) :=
  match d.index[num]? with
  | none => none
  | some e => d.unpack pack e

end BlockDatabase

end ZosCore
