import ZosCore.Lib.Merkle
import ZosCore.Lib.While

/-!
The Merkle root of the transactions of a block (`protocol/block.cpp`).

* `Hashing`: packing and hashing, of which the code relies on nothing here.
* `calculateMerkleRoot`: the loop, with its counters of 32 bits, that hashes each level into the
  front of the vector in which the level stands.
* **`calculateMerkleRoot_eq`**: what it returns for fewer than `2 ^ 32` transactions, and that it
  never returns for more.
* **`calculateMerkleRoot_binds`**: this, and that the root binds the transactions.
-/

namespace ZosCore

/-- Packing and hashing: `fc::raw::pack` of a transaction, `digest_type::encoder`,
`digest_type::hash` of a pair and `checksum_type::hash` of a digest, with the values of
`digest_type()` and `checksum_type()`. -/
structure Hashing (Transaction Bytes Digest Checksum : Type) where
  pack : Transaction → Bytes
  encoder : Bytes → Digest
  hash : Digest × Digest → Digest
  checksum : Digest → Checksum
  noDigest : Digest
  noChecksum : Checksum

namespace Hashing

variable {Transaction Bytes Digest Checksum : Type} (h : Hashing Transaction Bytes Digest Checksum)

/-- `processed_transaction::merkle_digest`. -/
def merkleDigest (transaction : Transaction) : Digest := h.encoder (h.pack transaction)

/-! ### The loops -/

/-- A round of the loop over the transactions, `ids[i] = transactions[i].merkle_digest()`. -/
def digestRound (transactions : List Transaction) : List Digest × ℕ → Option (List Digest × ℕ)
  | (ids, i) => do
      let transaction ← transactions[i]?
      pure (ids.set i (h.merkleDigest transaction), (i + 1) % 2 ^ 32)

/-- A round of the loop over the pairs of a level, `ids[k++] = digest_type::hash(…)`. -/
def pairRound : List Digest × ℕ × ℕ → Option (List Digest × ℕ × ℕ)
  | (ids, i, k) => do
      let first ← ids[i]?
      let second ← ids[i + 1]?
      pure (ids.set k (h.hash (first, second)), (i + 2) % 2 ^ 32, (k + 1) % 2 ^ 32)

/-- A round of the outer loop: a level is hashed into the front of the vector. -/
def reduceLevel (fuel : ℕ) : List Digest × ℕ → Option (List Digest × ℕ)
  | (ids, currentNumberOfHashes) => do
      let iMax := (currentNumberOfHashes - currentNumberOfHashes % 2) % 2 ^ 32
      let (ids, _, k) ← whileDo (fun s => s.2.1 < iMax) h.pairRound fuel (ids, 0, 0)
      if currentNumberOfHashes % 2 = 1 then
        let last ← ids[iMax]?
        pure (ids.set k last, (k + 1) % 2 ^ 32)
      else pure (ids, k)

/-- `signed_block::calculate_merkle_root`. There is no result while the loops have not ended. -/
def calculateMerkleRoot (fuel : ℕ) (transactions : List Transaction) : Option Checksum :=
  if transactions.length = 0 then some h.noChecksum
  else do
    let ids := List.replicate transactions.length h.noDigest
    let (ids, _) ← whileDo (fun s => s.2 < transactions.length) (h.digestRound transactions) fuel
      (ids, 0)
    let (ids, _) ← whileDo (fun s => 1 < s.2) (h.reduceLevel fuel) fuel (ids, ids.length)
    let id ← ids[0]?
    pure (h.checksum id)

/-! ### The digests -/

variable {h} {transactions : List Transaction} {ids l : List Digest} {fuel i k n iMax : ℕ}

/-- One more slot of a vector. -/
lemma take_succ_set {α : Type} {l : List α} {k : ℕ} {a : α} (hk : k < l.length) :
    (l.set k a).take (k + 1) = l.take k ++ [a] := by
  rw [List.take_add_one, List.take_set_of_le (le_refl k), List.getElem?_set_self hk]
  rfl

/-- The first `i` slots are filled. -/
structure Filled (h : Hashing Transaction Bytes Digest Checksum) (transactions : List Transaction)
    (s : List Digest × ℕ) : Prop where
  length : s.1.length = transactions.length
  counter : s.2 ≤ transactions.length
  filled : s.1.take s.2 = (transactions.take s.2).map h.merkleDigest

/-- A round fills one slot more. -/
lemma digestRound_filled (hlen : transactions.length < 2 ^ 32)
    (hs : Filled h transactions (ids, i)) (hi : i < transactions.length) :
    ∃ ids', h.digestRound transactions (ids, i) = some (ids', i + 1) ∧
      Filled h transactions (ids', i + 1) := by
  have hslot : i < ids.length := hs.length.symm ▸ hi
  refine ⟨ids.set i (h.merkleDigest transactions[i]), ?_, by simpa using hs.length, hi, ?_⟩
  · have hwrap : (i + 1) % 2 ^ 32 = i + 1 := Nat.mod_eq_of_lt (by omega)
    rw [digestRound, List.getElem?_eq_getElem hi, hwrap]
    rfl
  · have hfilled := hs.filled
    simp only at hfilled ⊢
    rw [take_succ_set hslot, hfilled, ← List.take_concat_get' transactions i hi, List.map_append]
    rfl

/-- The digests of the transactions, one after the other. -/
lemma whileDo_digestRound (hlen : transactions.length < 2 ^ 32)
    (hfuel : transactions.length < fuel) :
    ∃ i, whileDo (fun s => s.2 < transactions.length) (h.digestRound transactions) fuel
      (List.replicate transactions.length h.noDigest, 0) =
        some (transactions.map h.merkleDigest, i) := by
  have hfirst : Filled h transactions (List.replicate transactions.length h.noDigest, 0) :=
    ⟨List.length_replicate, Nat.zero_le _, rfl⟩
  have hround : ∀ s, Filled h transactions s → decide (s.2 < transactions.length) = true →
      ∃ s', h.digestRound transactions s = some s' ∧ Filled h transactions s' ∧
        transactions.length - s'.2 < transactions.length - s.2 := fun s hs hagain => by
    have hi : s.2 < transactions.length := of_decide_eq_true hagain
    obtain ⟨ids', hids', hfilled⟩ := digestRound_filled hlen hs hi
    exact ⟨_, hids', hfilled, by simp only; omega⟩
  obtain ⟨s, hr, hfilled, hstop⟩ := exists_whileDo hround hfirst hfuel
  have hi : transactions.length ≤ s.2 := not_lt.mp (of_decide_eq_false hstop)
  have hids := hfilled.filled
  rw [List.take_of_length_le (by rw [hfilled.length]; exact hi), List.take_of_length_le hi] at hids
  exact ⟨s.2, hids ▸ hr⟩

/-- With `2 ^ 32` transactions the counter never reaches their number. -/
lemma whileDo_digestRound_eq_none (hlen : 2 ^ 32 ≤ transactions.length) :
    whileDo (fun s => s.2 < transactions.length) (h.digestRound transactions) fuel
      (List.replicate transactions.length h.noDigest, 0) = none := by
  refine whileDo_eq_none (I := fun s => s.2 < 2 ^ 32) (fun s hs => ?_) (fun s s' _ hs' => ?_)
    (by simp) fuel
  · exact decide_eq_true (hs.trans_le hlen)
  · obtain ⟨transaction, -, h⟩ := Option.bind_eq_some_iff.mp hs'
    rw [← Option.some.inj h]
    exact Nat.mod_lt _ (by omega)

/-! ### One level -/

/-- The first `i` digests of the level `l` have been hashed into the first `k` slots, and the others
still stand where they stood. -/
structure Reduced (h : Hashing Transaction Bytes Digest Checksum) (l : List Digest) (iMax : ℕ)
    (s : List Digest × ℕ × ℕ) : Prop where
  length : s.1.length = l.length
  counter : s.2.1 ≤ iMax
  slots : s.2.1 = 2 * s.2.2
  hashed : s.1.take s.2.2 = Merkle.levelUp h.hash (l.take s.2.1)
  rest : s.1.drop s.2.1 = l.drop s.2.1

/-- A round hashes one pair more. -/
lemma pairRound_reduced (hlen : l.length < 2 ^ 32) (hmax : iMax ≤ l.length) (heven : iMax % 2 = 0)
    (hs : Reduced h l iMax (ids, i, k)) (hi : i < iMax) :
    ∃ ids', h.pairRound (ids, i, k) = some (ids', i + 2, k + 1) ∧
      Reduced h l iMax (ids', i + 2, k + 1) := by
  have hslots : i = 2 * k := hs.slots
  have hlength : ids.length = l.length := hs.length
  have hread : ∀ j, i ≤ j → ids[j]? = l[j]? := fun j hj => by
    have hdrop := congrArg (·[j - i]?) hs.rest
    simpa [Nat.add_sub_cancel' hj] using hdrop
  refine ⟨ids.set k (h.hash (l[i], l[i + 1])), ?_, by simpa using hlength, ?_, ?_, ?_, ?_⟩
  · rw [pairRound, hread i (le_refl i), hread (i + 1) (by omega),
      List.getElem?_eq_getElem (by omega), List.getElem?_eq_getElem (by omega)]
    have hwrap : (i + 2) % 2 ^ 32 = i + 2 ∧ (k + 1) % 2 ^ 32 = k + 1 :=
      ⟨Nat.mod_eq_of_lt (by omega), Nat.mod_eq_of_lt (by omega)⟩
    rw [hwrap.1, hwrap.2]
    rfl
  · simp only
    omega
  · simp only
    omega
  · have hpair : l.take (i + 2) = l.take i ++ [l[i], l[i + 1]] :=
      calc l.take (i + 1 + 1) = l.take (i + 1) ++ [l[i + 1]] :=
            (List.take_concat_get' l (i + 1) (by omega)).symm
        _ = l.take i ++ [l[i]] ++ [l[i + 1]] := by
            rw [List.take_concat_get' l i (by omega)]
        _ = l.take i ++ [l[i], l[i + 1]] := by
            rw [List.append_assoc, List.singleton_append]
    have hhashed := hs.hashed
    simp only at hhashed ⊢
    rw [take_succ_set (by omega), hhashed, hpair,
      Merkle.levelUp_append (by rw [List.length_take_of_le (by omega)]; omega)]
    rfl
  · have hrest := congrArg (List.drop 2) hs.rest
    simp only [List.drop_drop] at hrest ⊢
    rw [List.drop_set_of_lt (by omega)]
    exact hrest

/-- The loop over the pairs hashes the level into the front of the vector. -/
lemma whileDo_pairRound (hlen : l.length < 2 ^ 32) (hmax : iMax ≤ l.length) (heven : iMax % 2 = 0)
    (hfuel : l.length < fuel) :
    ∃ ids, whileDo (fun s => s.2.1 < iMax) h.pairRound fuel (l, 0, 0) = some (ids, iMax, iMax / 2) ∧
      Reduced h l iMax (ids, iMax, iMax / 2) := by
  have hround : ∀ s, Reduced h l iMax s → decide (s.2.1 < iMax) = true →
      ∃ s', h.pairRound s = some s' ∧ Reduced h l iMax s' ∧ iMax - s'.2.1 < iMax - s.2.1 :=
    fun s hs hagain => by
      have hi : s.2.1 < iMax := of_decide_eq_true hagain
      obtain ⟨ids', hids', hreduced⟩ := pairRound_reduced hlen hmax heven hs hi
      have hdown : iMax - (s.2.1 + 2) < iMax - s.2.1 := by omega
      exact ⟨_, hids', hreduced, hdown⟩
  have hfirst : Reduced h l iMax (l, 0, 0) := ⟨rfl, Nat.zero_le _, rfl, rfl, rfl⟩
  have hmeasure : iMax - 0 < fuel := by omega
  obtain ⟨⟨ids, i, k⟩, hr, hreduced, hstop⟩ := exists_whileDo hround hfirst hmeasure
  have hi : i = iMax := le_antisymm hreduced.counter (not_lt.mp (of_decide_eq_false hstop))
  have hk : k = iMax / 2 := by
    have hslots : i = 2 * k := hreduced.slots
    omega
  subst hi hk
  exact ⟨ids, hr, hreduced⟩

/-- A round of the outer loop leaves the next level in the front of the vector. -/
lemma reduceLevel_eq (hlen : ids.length < 2 ^ 32) (hn : n ≤ ids.length) (hfuel : ids.length < fuel) :
    ∃ ids', h.reduceLevel fuel (ids, n) = some (ids', n / 2 + n % 2) ∧ ids'.length = ids.length ∧
      ids'.take (n / 2 + n % 2) = Merkle.levelUp h.hash (ids.take n) := by
  have hwrap : (n - n % 2) % 2 ^ 32 = n - n % 2 := Nat.mod_eq_of_lt (by omega)
  have hmax : n - n % 2 ≤ ids.length := by omega
  obtain ⟨ids', hloop, hreduced⟩ := whileDo_pairRound (h := h) hlen hmax (by omega) hfuel
  have hlength : ids'.length = ids.length := hreduced.length
  have hhashed : ids'.take ((n - n % 2) / 2) = Merkle.levelUp h.hash (ids.take (n - n % 2)) :=
    hreduced.hashed
  rw [reduceLevel, hwrap, hloop]
  by_cases hodd : n % 2 = 1
  · have hlast : ids'[n - n % 2]? = some ids[n - n % 2] := by
      have hrest := congrArg (·[0]?) hreduced.rest
      simpa [List.getElem?_eq_getElem (show n - n % 2 < ids.length by omega)] using hrest
    have hcount : (n - n % 2) / 2 + 1 = n / 2 + n % 2 := by omega
    have htake : ids.take n = ids.take (n - n % 2) ++ [ids[n - n % 2]] := by
      rw [List.take_concat_get' ids (n - n % 2) (by omega)]
      congr 1
      omega
    refine ⟨ids'.set ((n - n % 2) / 2) ids[n - n % 2], ?_, by simpa using hlength, ?_⟩
    · have hwrap' : ((n - n % 2) / 2 + 1) % 2 ^ 32 = n / 2 + n % 2 := by omega
      simp only [Option.bind_eq_bind, Option.bind_some, if_pos hodd, hlast, hwrap', pure]
    · rw [← hcount, take_succ_set (by omega), hhashed, htake,
        Merkle.levelUp_append (by rw [List.length_take_of_le (by omega)]; omega),
        Merkle.levelUp_singleton]
  · have hcount : (n - n % 2) / 2 = n / 2 + n % 2 := by omega
    have hn' : n - n % 2 = n := by omega
    refine ⟨ids', ?_, hlength, ?_⟩
    · simp only [Option.bind_eq_bind, Option.bind_some, if_neg hodd, hcount, pure]
    · rw [← hcount, hhashed, hn']

/-! ### All levels -/

/-- The front of the vector is a level of the tree over `l`. -/
structure LevelOf (h : Hashing Transaction Bytes Digest Checksum) (l : List Digest)
    (s : List Digest × ℕ) : Prop where
  length : s.1.length = l.length
  count_pos : 0 < s.2
  count_le : s.2 ≤ s.1.length
  root : Merkle.root h.hash (s.1.take s.2) = Merkle.root h.hash l

lemma reduceLevel_levelOf (hlen : l.length < 2 ^ 32) (hfuel : l.length < fuel)
    {s : List Digest × ℕ} (hs : LevelOf h l s) (hagain : 1 < s.2) :
    ∃ s', h.reduceLevel fuel s = some s' ∧ LevelOf h l s' ∧ s'.2 < s.2 := by
  have hlength := hs.length
  have hle := hs.count_le
  have hlen' : s.1.length < 2 ^ 32 := by omega
  have hfuel' : s.1.length < fuel := by omega
  obtain ⟨ids', hround, hlength', htake⟩ := reduceLevel_eq (h := h) hlen' hle hfuel'
  refine ⟨_, hround, ⟨hlength'.trans hlength, ?_, ?_, ?_⟩, ?_⟩
  · simp only
    omega
  · simp only
    omega
  · simp only
    rw [htake, Merkle.root_levelUp, hs.root]
  · simp only
    omega

/-- The outer loop leaves the root in the first slot. -/
lemma whileDo_reduceLevel (hpos : 0 < l.length) (hlen : l.length < 2 ^ 32)
    (hfuel : l.length < fuel) :
    ∃ s, whileDo (fun s => 1 < s.2) (h.reduceLevel fuel) fuel (l, l.length) = some s ∧
      s.1[0]? = Merkle.root h.hash l := by
  have hround : ∀ s, LevelOf h l s → decide (1 < s.2) = true →
      ∃ s', h.reduceLevel fuel s = some s' ∧ LevelOf h l s' ∧ s'.2 < s.2 := fun s hs hagain =>
    reduceLevel_levelOf hlen hfuel hs (of_decide_eq_true hagain)
  have hfirst : LevelOf h l (l, l.length) := ⟨rfl, hpos, le_refl _, by rw [List.take_length]⟩
  obtain ⟨s, hr, hlevel, hstop⟩ := exists_whileDo hround hfirst hfuel
  have hone : s.2 = 1 := le_antisymm (not_lt.mp (of_decide_eq_false hstop)) hlevel.count_pos
  have hslot : 0 < s.1.length := hlevel.count_pos.trans_le hlevel.count_le
  have hfront : s.1.take 1 = [s.1[0]] := by
    rw [List.take_one, List.head?_eq_getElem?, List.getElem?_eq_getElem hslot]
    rfl
  have hroot := hlevel.root
  rw [hone, hfront, Merkle.root_singleton] at hroot
  exact ⟨s, hr, by rw [← hroot, List.getElem?_eq_getElem hslot]⟩

/-! ### The root of a block -/

lemma reduceLevel_mono {fuel fuel' : ℕ} (hle : fuel ≤ fuel') (s s' : List Digest × ℕ)
    (hs : h.reduceLevel fuel s = some s') : h.reduceLevel fuel' s = some s' := by
  obtain ⟨⟨ids, i, k⟩, hpairs, hrest⟩ := Option.bind_eq_some_iff.mp hs
  exact Option.bind_eq_some_iff.mpr ⟨_, whileDo_mono (fun _ _ => id) hpairs hle, hrest⟩

/-- More fuel changes nothing. -/
lemma calculateMerkleRoot_mono {fuel fuel' : ℕ} {r : Checksum} (hle : fuel ≤ fuel')
    (hr : h.calculateMerkleRoot fuel transactions = some r) :
    h.calculateMerkleRoot fuel' transactions = some r := by
  rw [calculateMerkleRoot] at hr ⊢
  split_ifs at hr ⊢
  · exact hr
  · obtain ⟨⟨ids, i⟩, hdigests, hr⟩ := Option.bind_eq_some_iff.mp hr
    obtain ⟨s, hlevels, hr⟩ := Option.bind_eq_some_iff.mp hr
    exact Option.bind_eq_some_iff.mpr ⟨_, whileDo_mono (fun _ _ => id) hdigests hle,
      Option.bind_eq_some_iff.mpr ⟨_, whileDo_mono (reduceLevel_mono hle) hlevels hle, hr⟩⟩

/-- For fewer than `2 ^ 32` transactions the loops return. -/
lemma calculateMerkleRoot_returns (hlen : transactions.length < 2 ^ 32)
    (hfuel : transactions.length < fuel) :
    h.calculateMerkleRoot fuel transactions = some
      ((Merkle.root h.hash (transactions.map h.merkleDigest)).elim h.noChecksum h.checksum) := by
  rw [calculateMerkleRoot]
  split_ifs with hzero
  · rw [List.length_eq_zero_iff.mp hzero, List.map_nil, Merkle.root_nil]
    rfl
  · obtain ⟨i, hdigests⟩ := whileDo_digestRound (h := h) hlen hfuel
    have hlength : (transactions.map h.merkleDigest).length = transactions.length :=
      List.length_map _
    have hpos : 0 < (transactions.map h.merkleDigest).length := by omega
    have hlen' : (transactions.map h.merkleDigest).length < 2 ^ 32 := by omega
    have hfuel' : (transactions.map h.merkleDigest).length < fuel := by omega
    obtain ⟨s, hlevels, hroot⟩ := whileDo_reduceLevel (h := h) hpos hlen' hfuel'
    obtain ⟨d, hd⟩ := Merkle.exists_root h.hash (l := transactions.map h.merkleDigest)
      (by rwa [Ne, List.map_eq_nil_iff, ← List.length_eq_zero_iff])
    rw [hd] at hroot
    simp only [Option.bind_eq_bind, hdigests, Option.bind_some, hlevels, hroot, hd, pure,
      Option.elim_some]

/-- For more they do not. -/
lemma calculateMerkleRoot_eq_none (hlen : 2 ^ 32 ≤ transactions.length) :
    h.calculateMerkleRoot fuel transactions = none := by
  rw [calculateMerkleRoot, if_neg (by omega)]
  exact Option.bind_eq_none_iff.mpr fun s hs =>
    absurd hs (by rw [whileDo_digestRound_eq_none hlen]; exact Option.some_ne_none s |>.symm)

/-- **The in-place loop.** For fewer than `2 ^ 32` transactions it returns, without a transaction the
empty checksum, and else that of the root over their digests; for more it never returns. -/
theorem calculateMerkleRoot_eq (transactions : List Transaction) (r : Checksum) :
    (∃ fuel, h.calculateMerkleRoot fuel transactions = some r) ↔
      transactions.length < 2 ^ 32 ∧
        (Merkle.root h.hash (transactions.map h.merkleDigest)).elim h.noChecksum h.checksum = r := by
  constructor
  · rintro ⟨fuel, hr⟩
    have hlen : transactions.length < 2 ^ 32 := by
      by_contra hlen
      rw [calculateMerkleRoot_eq_none (by omega)] at hr
      exact Option.some_ne_none r hr.symm
    have hmax := calculateMerkleRoot_mono (le_max_left fuel (transactions.length + 1)) hr
    rw [calculateMerkleRoot_returns hlen (by omega)] at hmax
    exact ⟨hlen, Option.some.inj hmax⟩
  · rintro ⟨hlen, rfl⟩
    exact ⟨transactions.length + 1, calculateMerkleRoot_returns hlen (by omega)⟩

/-- Two lists of one length that have the same root have the same digests. -/
lemma digests_eq_of_root_eq {transactions transactions' : List Transaction} {fuel fuel' : ℕ}
    {r : Checksum} (hhash : Function.Injective h.hash) (hchecksum : Function.Injective h.checksum)
    (hlen : transactions.length = transactions'.length)
    (hr : h.calculateMerkleRoot fuel transactions = some r)
    (hr' : h.calculateMerkleRoot fuel' transactions' = some r) :
    transactions.map h.merkleDigest = transactions'.map h.merkleDigest := by
  have hroot := ((calculateMerkleRoot_eq transactions r).mp ⟨fuel, hr⟩).2
  have hroot' := ((calculateMerkleRoot_eq transactions' r).mp ⟨fuel', hr'⟩).2
  rcases Nat.eq_zero_or_pos transactions.length with hzero | hpos
  · rw [List.length_eq_zero_iff.mp hzero, List.length_eq_zero_iff.mp (hlen.symm.trans hzero)]
  · obtain ⟨d, hd⟩ := Merkle.exists_root h.hash (l := transactions.map h.merkleDigest)
      (List.ne_nil_of_length_pos (by rwa [List.length_map]))
    obtain ⟨d', hd'⟩ := Merkle.exists_root h.hash (l := transactions'.map h.merkleDigest)
      (List.ne_nil_of_length_pos (by rwa [List.length_map, ← hlen]))
    refine Merkle.root_injective hhash (by rwa [List.length_map, List.length_map]) ?_
    rw [hd, Option.elim_some] at hroot
    rw [hd', Option.elim_some] at hroot'
    rw [hd, hd', hchecksum (hroot.trans hroot'.symm)]

/-- **Merkle roots bind the transactions.** The in-place loop computes the root, and if the hashes
have no collisions, then among lists of one length it tells every list from every other. -/
theorem calculateMerkleRoot_correct (h : Hashing Transaction Bytes Digest Checksum) :
    (∀ transactions r, (∃ fuel, h.calculateMerkleRoot fuel transactions = some r) ↔
      transactions.length < 2 ^ 32 ∧
        (Merkle.root h.hash (transactions.map h.merkleDigest)).elim h.noChecksum h.checksum = r) ∧
    (Function.Injective h.hash → Function.Injective h.checksum →
      ∀ transactions transactions' fuel fuel' r, transactions.length = transactions'.length →
        h.calculateMerkleRoot fuel transactions = some r →
        h.calculateMerkleRoot fuel' transactions' = some r →
          transactions.map h.merkleDigest = transactions'.map h.merkleDigest ∧
            (Function.Injective h.encoder → Function.Injective h.pack →
              transactions = transactions')) := by
  refine ⟨calculateMerkleRoot_eq, ?_⟩
  intro hhash hchecksum transactions transactions' fuel fuel' r hlen hr hr'
  have hdigests := digests_eq_of_root_eq hhash hchecksum hlen hr hr'
  refine ⟨hdigests, fun hencoder hpack => ?_⟩
  exact List.map_injective_iff.mpr (hencoder.comp hpack) hdigests

/-- Hashes without collisions, on numbers. -/
def numbers : Hashing ℕ ℕ ℕ ℕ where
  pack := id
  encoder := id
  hash := fun p => Nat.pair p.1 p.2
  checksum := Nat.succ
  noDigest := 0
  noChecksum := 0

/-- Three transactions. -/
theorem calculateMerkleRoot_correct_numbers :
    [1, 2, 3].map numbers.merkleDigest = [1, 2, 3].map numbers.merkleDigest ∧
      (Function.Injective numbers.encoder → Function.Injective numbers.pack →
        [1, 2, 3] = [1, 2, 3]) :=
  (calculateMerkleRoot_correct numbers).2
    (fun p q hpq => by simpa [numbers, Nat.pair_eq_pair, Prod.ext_iff] using hpq) Nat.succ_injective
    [1, 2, 3] [1, 2, 3] 4 4 34 rfl (by decide) (by decide)

/-- Without a transaction the checksum is not that of a digest, and for `2 ^ 32` transactions there
is none. -/
theorem calculateMerkleRoot_no_checksum :
    (∀ d, numbers.calculateMerkleRoot 1 [] ≠ some (numbers.checksum d)) ∧
      ¬ ∀ transactions d, Merkle.root numbers.hash (transactions.map numbers.merkleDigest) = some d →
        ∃ fuel, numbers.calculateMerkleRoot fuel transactions = some (numbers.checksum d) := by
  refine ⟨fun d => ?_, fun hclaim => ?_⟩
  · exact fun hd => (Nat.succ_ne_zero d) (Option.some.inj hd).symm
  · obtain ⟨d, hd⟩ := Merkle.exists_root numbers.hash
      (l := (List.replicate (2 ^ 32) 1).map numbers.merkleDigest)
      (List.ne_nil_of_length_pos (by rw [List.length_map, List.length_replicate]; omega))
    obtain ⟨fuel, hr⟩ := hclaim _ d hd
    rw [calculateMerkleRoot_eq_none (by rw [List.length_replicate])] at hr
    exact Option.some_ne_none _ hr.symm

/-- Swapping two transactions changes the root. -/
example : numbers.calculateMerkleRoot 4 [2, 1, 3] ≠ numbers.calculateMerkleRoot 4 [1, 2, 3] := by
  decide

end Hashing

end ZosCore
