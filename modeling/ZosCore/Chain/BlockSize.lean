import Mathlib.Tactic
import ZosCore.Lib.Exec

/-!
`db_block.cpp`: how large the blocks are that a witness produces.

`_generate_block` adds up the sizes of the pending transactions as they were received, and puts the
transactions into the block as they are after they have been applied again, with the results of that.
What the header takes is estimated once. The size of the block is looked at in the end, and a block that
is too large is logged.

* `packSize`, in several namespaces: the sizes of packed values.
* `collectTransactions`, `generateBlock`: the loop over the pending transactions, and the block.
* `included`: the transactions of the block, as they were received and as they are in it.
* `packSize_generateBlock`: what the results have grown comes on top of what was counted.
* **`withinLimit_iff`**: blocks whose numbers in front take six bytes at most keep to the limit exactly if
  no transaction can be applied with results that are larger than those with which it is received.
-/

namespace ZosCore.BlockSize

/-! ### Sizes -/

/-- `pack_size` of an `unsigned_int`: one byte for seven bits, and one at least. -/
def varintSize (n : ℕ) : ℕ := Nat.log 128 n + 1

/-- `operation_result` -/
inductive OperationResult where
  | void
  | objectId (id : ℕ)
  | asset (amount : ℤ) (assetId : ℕ)

/-- `pack_size` of a result, with its tag. -/
def OperationResult.packSize : OperationResult → ℕ
  | .void => 1
  | .objectId _ => 1 + 8
  | .asset _ assetId => 1 + 8 + varintSize assetId

/-- `processed_transaction`: a signed transaction with the results of its operations. -/
structure ProcessedTransaction (τ : Type) where
  trx : τ
  operationResults : List OperationResult := []

/-- `signed_block`, without what has the same size in all blocks. -/
structure Block (τ : Type) where
  witness : ℕ
  transactions : List (ProcessedTransaction τ)

/-- `pack_size` of a `signed_block_header`: version, previous block, timestamp, witness, merkle root, no
extensions, signature. -/
def headerSize (witness : ℕ) : ℕ := 4 + 20 + 4 + varintSize witness + 20 + varintSize 0 + 65

/-- `max_block_header_size` -/
def maxBlockHeaderSize : ℕ := headerSize 0 + 4

section Sizes

variable {τ : Type} (trxSize : τ → ℕ)

/-- `pack_size` of a transaction; `trxSize` is that of the signed transaction. -/
def ProcessedTransaction.packSize (t : ProcessedTransaction τ) : ℕ :=
  trxSize t.trx + varintSize (t.operationResults.length % 2 ^ 32) +
    (t.operationResults.map OperationResult.packSize).sum

/-- `pack_size` of a block. -/
def Block.packSize (b : Block τ) : ℕ :=
  headerSize b.witness + varintSize (b.transactions.length % 2 ^ 32) +
    (b.transactions.map (·.packSize trxSize)).sum

end Sizes

/-- The limits among the `chain_parameters`. -/
structure SizeParameters where
  maximumBlockSize : ℕ
  maximumTransactionSize : ℕ

/-- `GRAPHENE_MIN_TRANSACTION_SIZE_LIMIT` -/
def minTransactionSizeLimit : ℕ := 1024

/-- `GRAPHENE_MIN_BLOCK_SIZE_LIMIT` -/
def minBlockSizeLimit : ℕ := minTransactionSizeLimit * 5

/-- What `chain_parameters::validate` checks of them. -/
def SizeParameters.validate (c : SizeParameters) : Bool :=
  minTransactionSizeLimit ≤ c.maximumTransactionSize ∧ minBlockSizeLimit ≤ c.maximumBlockSize

/-! ### The production of blocks -/

section Production

variable {σ τ ε : Type} (trxSize : τ → ℕ)
  (applyTransaction : σ → τ → Except ε (List OperationResult × σ)) (c : SizeParameters)

/-- The loop over `_pending_tx`: `applyTransaction` is `_apply_transaction`, which shows the results, and
a transaction that is not applied leaves the database as it was. -/
def collectTransactions :
    List (ProcessedTransaction τ) → σ → ℕ → List (ProcessedTransaction τ) →
      List (ProcessedTransaction τ)
  | [], _, _, transactions => transactions
  | tx :: pending, s, totalBlockSize, transactions =>
      let postponedTxSize := tx.packSize trxSize
      let newTotalSize := totalBlockSize + postponedTxSize
      if c.maximumBlockSize ≤ newTotalSize ∨ c.maximumTransactionSize ≤ postponedTxSize then
        collectTransactions pending s totalBlockSize transactions
      else
        match applyTransaction s tx.trx with
        | .ok (results, s') =>
            collectTransactions pending s' (totalBlockSize + postponedTxSize)
              (transactions ++ [⟨tx.trx, results⟩])
        | .error _ => collectTransactions pending s totalBlockSize transactions

/-- `_generate_block`, up to `push_block`: the block, and whether its size is logged as an error. -/
def generateBlock (s : σ) (witness : ℕ) (skipBlockSizeCheck : Bool)
    (pending : List (ProcessedTransaction τ)) : Block τ × Bool :=
  let b : Block τ :=
    ⟨witness, collectTransactions trxSize applyTransaction c pending s maxBlockHeaderSize []⟩
  (b, !skipBlockSizeCheck && !decide (b.packSize trxSize ≤ c.maximumBlockSize))

/-- The block keeps to the limit. -/
def WithinLimit (s : σ) (witness : ℕ) (pending : List (ProcessedTransaction τ)) : Prop :=
  (generateBlock trxSize applyTransaction c s witness false pending).1.packSize trxSize ≤
    c.maximumBlockSize

/-! ### What is included -/

/-- The transactions that are included where so many bytes are taken, each as it was received and as it
is now. -/
def included : List (ProcessedTransaction τ) → σ → ℕ →
    List (ProcessedTransaction τ × ProcessedTransaction τ)
  | [], _, _ => []
  | tx :: pending, s, taken =>
      if taken + tx.packSize trxSize < c.maximumBlockSize ∧
          tx.packSize trxSize < c.maximumTransactionSize then
        match applyTransaction s tx.trx with
        | .ok (results, s') =>
            (tx, ⟨tx.trx, results⟩) :: included pending s' (taken + tx.packSize trxSize)
        | .error _ => included pending s taken
      else included pending s taken

/-- The bytes of what is included, as it was received. -/
def receivedSize (l : List (ProcessedTransaction τ × ProcessedTransaction τ)) : ℕ :=
  (l.map fun t => t.1.packSize trxSize).sum

/-- By how many bytes the results have grown. -/
def growth (l : List (ProcessedTransaction τ × ProcessedTransaction τ)) : ℤ :=
  (l.map fun t => (t.2.packSize trxSize : ℤ) - t.1.packSize trxSize).sum

variable {trxSize} {applyTransaction} {c}

/-- **The loop.** -/
lemma collectTransactions_eq (pending : List (ProcessedTransaction τ)) (s : σ) (total : ℕ)
    (transactions : List (ProcessedTransaction τ)) :
    collectTransactions trxSize applyTransaction c pending s total transactions =
      transactions ++ (included trxSize applyTransaction c pending s total).map Prod.snd := by
  induction pending generalizing s total transactions with
  | nil => simp [collectTransactions, included]
  | cons tx pending ih =>
      rw [collectTransactions, included]
      by_cases hfull : c.maximumBlockSize ≤ total + tx.packSize trxSize ∨
          c.maximumTransactionSize ≤ tx.packSize trxSize
      · rw [if_pos hfull, if_neg (by omega), ih]
      · rw [if_neg hfull, if_pos (by omega)]
        cases applyTransaction s tx.trx with
        | ok r => simp [ih]
        | error e => exact ih s total transactions

/-- The sizes of what is in the block. -/
lemma sum_packSize_snd (trxSize : τ → ℕ)
    (l : List (ProcessedTransaction τ × ProcessedTransaction τ)) :
    ((((l.map Prod.snd).map (·.packSize trxSize)).sum : ℕ) : ℤ) =
      receivedSize trxSize l + growth trxSize l := by
  induction l with
  | nil => rfl
  | cons t l ih =>
      simp only [List.map_cons, List.sum_cons, receivedSize, growth, Nat.cast_add] at ih ⊢
      linarith

variable (trxSize applyTransaction c) in
/-- The block is as large as what was counted, but for the numbers in front, and what the results have
grown. -/
lemma packSize_generateBlock (s : σ) (witness : ℕ) (pending : List (ProcessedTransaction τ)) :
    ((generateBlock trxSize applyTransaction c s witness false pending).1.packSize trxSize : ℤ) =
      let l := included trxSize applyTransaction c pending s maxBlockHeaderSize
      114 + varintSize witness + varintSize (l.length % 2 ^ 32) + receivedSize trxSize l +
        growth trxSize l := by
  rw [generateBlock, collectTransactions_eq, List.nil_append, Block.packSize, headerSize]
  have hzero : varintSize 0 = 1 := rfl
  have hsum := sum_packSize_snd trxSize (included trxSize applyTransaction c pending s maxBlockHeaderSize)
  dsimp only
  rw [List.length_map, hzero, Nat.cast_add, hsum]
  push_cast
  ring

variable (trxSize applyTransaction c) in
/-- What is counted stays below the limit. -/
lemma receivedSize_included_lt (pending : List (ProcessedTransaction τ)) (s : σ) (taken : ℕ) :
    included trxSize applyTransaction c pending s taken = [] ∨
      taken + receivedSize trxSize (included trxSize applyTransaction c pending s taken) <
        c.maximumBlockSize := by
  induction pending generalizing s taken with
  | nil => exact .inl rfl
  | cons tx pending ih =>
      rw [included]
      split_ifs with hfits
      · cases applyTransaction s tx.trx with
        | error e => exact ih s taken
        | ok r =>
            refine .inr ?_
            simp only [receivedSize, List.map_cons, List.sum_cons, ← Nat.add_assoc]
            rcases ih r.2 (taken + tx.packSize trxSize) with hnil | hlt
            · rw [hnil]
              exact hfits.1
            · exact hlt
      · exact ih s taken

/-- A transaction is included as it was received, with the results that applying it has shown. -/
lemma mem_included {pending : List (ProcessedTransaction τ)} {s : σ} {taken : ℕ}
    {t : ProcessedTransaction τ × ProcessedTransaction τ}
    (ht : t ∈ included trxSize applyTransaction c pending s taken) :
    t.1 ∈ pending ∧ ∃ s results s', applyTransaction s t.1.trx = .ok (results, s') ∧
      t.2 = ⟨t.1.trx, results⟩ := by
  induction pending generalizing s taken with
  | nil => cases ht
  | cons tx pending ih =>
      have hrest : ∀ {s taken}, t ∈ included trxSize applyTransaction c pending s taken →
          t.1 ∈ tx :: pending ∧ ∃ s results s', applyTransaction s t.1.trx = .ok (results, s') ∧
            t.2 = ⟨t.1.trx, results⟩ := fun ht => ⟨List.mem_cons_of_mem _ (ih ht).1, (ih ht).2⟩
      rw [included] at ht
      split_ifs at ht with hfits
      · cases hr : applyTransaction s tx.trx with
        | error e =>
            rw [hr] at ht
            exact hrest ht
        | ok r =>
            rw [hr] at ht
            rcases List.mem_cons.mp ht with rfl | ht
            · exact ⟨List.mem_cons_self, s, r.1, r.2, hr, rfl⟩
            · exact hrest ht
      · exact hrest ht

variable (trxSize applyTransaction c) in
lemma length_included_le (pending : List (ProcessedTransaction τ)) (s : σ) (taken : ℕ) :
    (included trxSize applyTransaction c pending s taken).length ≤ pending.length := by
  induction pending generalizing s taken with
  | nil => exact le_rfl
  | cons tx pending ih =>
      rw [included, List.length_cons]
      split_ifs
      · cases applyTransaction s tx.trx with
        | error e => exact (ih s taken).trans (Nat.le_succ _)
        | ok r => exact Nat.succ_le_succ (ih r.2 _)
      · exact (ih s taken).trans (Nat.le_succ _)

lemma varintSize_mono {m n : ℕ} (h : m ≤ n) : varintSize m ≤ varintSize n :=
  Nat.succ_le_succ (Nat.log_mono_right h)

/-- Where no results have grown in all, what is estimated for the header is enough. -/
lemma withinLimit_of_growth {s : σ} {witness : ℕ} {pending : List (ProcessedTransaction τ)}
    (hc : c.validate) (hnumbers : varintSize witness + varintSize pending.length ≤ 6)
    (hgrowth : growth trxSize (included trxSize applyTransaction c pending s maxBlockHeaderSize) ≤ 0) :
    WithinLimit trxSize applyTransaction c s witness pending := by
  have hsize := packSize_generateBlock trxSize applyTransaction c s witness pending
  have hlength := length_included_le trxSize applyTransaction c pending s maxBlockHeaderSize
  have hcounted := receivedSize_included_lt trxSize applyTransaction c pending s maxBlockHeaderSize
  generalize included trxSize applyTransaction c pending s maxBlockHeaderSize = l at *
  have hcount := varintSize_mono ((Nat.mod_le l.length (2 ^ 32)).trans hlength)
  have hheader : maxBlockHeaderSize = 119 := rfl
  rw [WithinLimit]
  dsimp only at hsize
  rcases hcounted with rfl | hlt
  · have hmin : 5120 ≤ c.maximumBlockSize := (of_decide_eq_true hc).2
    simp only [receivedSize, List.map_nil, List.sum_nil, Nat.cast_zero] at hsize
    omega
  · omega

/-- Copies of one transaction for which there is room. -/
lemma included_replicate {tx : ProcessedTransaction τ} {results : List OperationResult} {s : σ}
    (hr : applyTransaction s tx.trx = .ok (results, s))
    (htx : tx.packSize trxSize < c.maximumTransactionSize) (k taken : ℕ)
    (hroom : taken + k * tx.packSize trxSize < c.maximumBlockSize) :
    included trxSize applyTransaction c (List.replicate k tx) s taken =
      List.replicate k (tx, ⟨tx.trx, results⟩) := by
  induction k generalizing taken with
  | zero => rfl
  | succ k ih =>
      rw [Nat.add_mul, Nat.one_mul] at hroom
      rw [List.replicate_succ, included, if_pos ⟨by omega, htx⟩, hr]
      dsimp only
      rw [ih _ (by omega), List.replicate_succ]

lemma receivedSize_replicate (k : ℕ) (t : ProcessedTransaction τ × ProcessedTransaction τ) :
    receivedSize trxSize (List.replicate k t) = k * t.1.packSize trxSize := by
  simp [receivedSize]

lemma growth_replicate (k : ℕ) (t : ProcessedTransaction τ × ProcessedTransaction τ) :
    growth trxSize (List.replicate k t) = k * ((t.2.packSize trxSize : ℤ) - t.1.packSize trxSize) := by
  simp [growth]

open Classical in
/-- **Produced blocks respect the size limit**, whatever comes of applying the pending transactions
again, exactly if what is shown there never takes more bytes than what was received; as long as the
number of the witness and that of the transactions take six bytes at most. -/
theorem withinLimit_iff (trxSize : τ → ℕ) (Pending : ProcessedTransaction τ → Prop)
    (Shown : τ → List OperationResult → Prop) (s₀ : σ) (e₀ : ε) :
    (∀ (applyTransaction : σ → τ → Except ε (List OperationResult × σ)),
      (∀ s t results s', applyTransaction s t = .ok (results, s') → Shown t results) →
      ∀ (c : SizeParameters) (s : σ) (witness : ℕ) (pending : List (ProcessedTransaction τ)),
        c.validate → varintSize witness + varintSize pending.length ≤ 6 →
        (∀ tx ∈ pending, Pending tx) → WithinLimit trxSize applyTransaction c s witness pending) ↔
    ∀ tx, Pending tx → ∀ results, Shown tx.trx results →
      (⟨tx.trx, results⟩ : ProcessedTransaction τ).packSize trxSize ≤ tx.packSize trxSize := by
  constructor
  · intro h tx htx results hresults
    -- a block with 5000 copies of the transaction is filled up to the last byte
    let size := tx.packSize trxSize
    let c : SizeParameters := ⟨120 + 5000 * size, max 1024 (size + 1)⟩
    have hpos : 1 ≤ size := (Nat.le_add_left 1 _).trans ((Nat.le_add_left _ _).trans (Nat.le_add_right _ _))
    let applyTransaction : σ → τ → Except ε (List OperationResult × σ) := fun s t =>
      if t = tx.trx then .ok (results, s) else .error e₀
    have hshown : ∀ s t results' s', applyTransaction s t = .ok (results', s') → Shown t results' := by
      intro s t results' s' hr
      simp only [applyTransaction] at hr
      split_ifs at hr with ht
      cases hr
      exact ht ▸ hresults
    have hvalid : c.validate := decide_eq_true ⟨le_max_left _ _, by
      show 5120 ≤ 120 + 5000 * size
      omega⟩
    have hnumbers : varintSize 0 + varintSize (List.replicate 5000 tx).length ≤ 6 := by
      rw [List.length_replicate, varintSize, varintSize, Nat.log_zero_right]
      have hlog : Nat.log 128 5000 < 2 := Nat.log_lt_of_lt_pow' (by norm_num) (by norm_num)
      omega
    have hwithin := h applyTransaction hshown c s₀ 0 (List.replicate 5000 tx) hvalid hnumbers
      fun t ht => (List.eq_of_mem_replicate ht) ▸ htx
    have hincluded : included trxSize applyTransaction c (List.replicate 5000 tx) s₀
        maxBlockHeaderSize = List.replicate 5000 (tx, ⟨tx.trx, results⟩) := by
      refine included_replicate (if_pos rfl) (lt_max_of_lt_right (Nat.lt_succ_self _)) _ _ ?_
      show 119 + 5000 * size < 120 + 5000 * size
      omega
    have hsize := packSize_generateBlock trxSize applyTransaction c s₀ 0 (List.replicate 5000 tx)
    rw [hincluded] at hsize
    dsimp only at hsize
    rw [receivedSize_replicate, growth_replicate, List.length_replicate] at hsize
    dsimp only at hsize
    have hle : _ ≤ 120 + 5000 * size := hwithin
    have hsize' : size = tx.packSize trxSize := rfl
    have hzero : varintSize 0 = 1 := rfl
    generalize varintSize (5000 % 2 ^ 32) = count at hsize
    omega
  · intro h applyTransaction hshown c s witness pending hc hnumbers hpending
    refine withinLimit_of_growth hc hnumbers ((List.sum_le_card_nsmul _ 0 fun x hx => ?_).trans_eq
      (smul_zero _))
    obtain ⟨t, ht, rfl⟩ := List.mem_map.mp hx
    obtain ⟨hmem, s₁, results, s₂, hr, hnow⟩ := mem_included ht
    have hle := h t.1 (hpending t.1 hmem) results (hshown s₁ t.1.trx results s₂ hr)
    rw [hnow]
    omega

end Production

/-! ### Results that grow -/

/-- Where every transaction creates an object, five transactions of 1000 bytes, received with results
that were empty, make a block of more than 5120 bytes. -/
theorem not_withinLimit :
    ¬ ∀ (trxSize : Unit → ℕ)
      (applyTransaction : Unit → Unit → Except Unit (List OperationResult × Unit))
      (c : SizeParameters) (s : Unit) (witness : ℕ) (pending : List (ProcessedTransaction Unit)),
      c.validate → WithinLimit trxSize applyTransaction c s witness pending := by
  intro h
  have hlimit := h (fun _ => 998) (fun _ _ => .ok ([.objectId 0], ())) ⟨5120, 1024⟩ () 0
    (List.replicate 5 ⟨(), [.void]⟩) (by decide)
  rw [WithinLimit] at hlimit
  revert hlimit
  decide +kernel

end ZosCore.BlockSize
