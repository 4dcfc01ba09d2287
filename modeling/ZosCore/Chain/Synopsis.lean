import ZosCore.Lib.Halving
import ZosCore.Chain.Branches
import ZosCore.Chain.Block

/-!
`application.cpp`, `get_blockchain_synopsis`, `node.cpp`, `create_blockchain_synopsis_for_peer`: the
ids of some blocks of the chain that a peer seems to follow, ever denser towards its end.

The node takes the ids up to the reference point from its main chain and from the branches of the
fork database, and the network layer goes on with the ids that the peer has announced. The two loops
agree on the numbers they visit, as both go half of the way to the same last number.

* `getBlockIdsOnFork`, `isIncludedBlock`, `synopsisRange`, `getBlockchainSynopsis`,
  `createBlockchainSynopsis`: the functions of the source.
* `MainChain`, `OnFork`, `Point`: the chain, a fork of it, and what a reference point may be.
* `Synopsis`: a well-formed synopsis of a chain.
* **`createBlockchainSynopsis_iff`**: when the synopsis is made, and is well formed.
-/

namespace ZosCore

/-! ### The functions of the source -/

/-- What the functions throw. -/
inductive SynopsisError where
  /-- "Block number ${block_num} not contained in block database" -/
  | keyNotFound
  /-- An exception of `get_block_ids_on_fork`. -/
  | chain (e : ChainError)
  /-- "Peer is are on a fork I'm unable to switch to" -/
  | blockOlderThanUndoHistory
  /-- An index beyond the end of a vector. -/
  | outOfRange
  deriving DecidableEq

namespace Database

variable {β ω : Type}

/-- `get_block_ids_on_fork`. -/
def getBlockIdsOnFork (db : Database β ω) (headOfFork : BlockId) :
    Except ChainError (List BlockId) := do
  let (first, second) ← db.forkDb.fetchBranchFrom db.objects.headBlockId headOfFork
  return second.map (·.id) ++ (first.getLast?.map (·.data.previous)).toList

/-- `is_included_block`. -/
def isIncludedBlock (db : Database β ω) (id : BlockId) : Except SynopsisError Bool :=
  match db.getBlockIdForNum id.num with
  | none => .error .keyNotFound
  | some id' => .ok (id = id')

/-- The local variables of `get_blockchain_synopsis`. -/
structure SynopsisRange where
  lowBlockNum : ℕ
  highBlockNum : ℕ
  nonForkHighBlockNum : ℕ
  forkHistory : List BlockId := []

/-- The part of `get_blockchain_synopsis` before its loop, from the last block that cannot be undone
on. There is no range if there are no blocks. -/
def synopsisRange (db : Database β ω) (lastNonUndoable : ℕ) (referencePoint : BlockId) :
    Except SynopsisError (Option SynopsisRange) := do
  let atLeastOne (n : ℕ) : ℕ := if n = 0 then 1 else n
  if referencePoint ≠ .zero then
    if ← db.isIncludedBlock referencePoint then
      let num := referencePoint.num
      let low := if num < lastNonUndoable then num else lastNonUndoable
      return some ⟨atLeastOne low, num, num, []⟩
    else
      let ids ← (db.getBlockIdsOnFork referencePoint).mapError .chain
      let lastNonForkBlock := ids.getLast?.getD .zero
      let forkHistory := ids.dropLast.reverse
      let nonForkHigh := if lastNonForkBlock = .zero then 0 else lastNonForkBlock.num
      if nonForkHigh < lastNonUndoable then throw .blockOlderThanUndoHistory
      return some ⟨atLeastOne lastNonUndoable, nonForkHigh + forkHistory.length, nonForkHigh,
        forkHistory⟩
  else
    let high := db.objects.headBlockNumber
    if high = 0 then return none
    return some ⟨atLeastOne lastNonUndoable, high, high, []⟩

/-- `low_block_num += (true_high_block_num - low_block_num + 2) / 2;` -/
def nextBlockNum (trueHigh low : ℕ) : ℕ :=
  (low + (trueHigh + (2 ^ 32 - low) + 2) % 2 ^ 32 / 2) % 2 ^ 32

/-- Where the loop of `get_blockchain_synopsis` pulls an id from. -/
def SynopsisRange.idFor (db : Database β ω) (r : SynopsisRange) (num : ℕ) :
    Except SynopsisError BlockId :=
  if num ≤ r.nonForkHighBlockNum then
    match db.getBlockIdForNum num with
    | none => .error .keyNotFound
    | some id => .ok id
  else
    match r.forkHistory[num - r.nonForkHighBlockNum - 1]? with
    | none => .error .outOfRange
    | some id => .ok id

/-- `get_blockchain_synopsis`, from the last block that cannot be undone on. The fuel bounds the
rounds of its loop. -/
def getBlockchainSynopsis (fuel : ℕ) (db : Database β ω) (lastNonUndoable : ℕ)
    (referencePoint : BlockId) (numberOfBlocksAfter : ℕ) :
    Option (Except SynopsisError (List BlockId)) :=
  match db.synopsisRange lastNonUndoable referencePoint with
  | .error e => some (.error e)
  | .ok none => some (.ok [])
  | .ok (some r) =>
      let trueHigh := (r.highBlockNum + numberOfBlocksAfter) % 2 ^ 32
      (doWhile (visitRound (fun num => (r.idFor db num).map ([·])) (nextBlockNum trueHigh))
        (fun s => s.1 ≤ r.highBlockNum) fuel (r.lowBlockNum, [])).map (·.map Prod.snd)

/-- The id of a number among those that the peer has announced, from the number `first` on. -/
def announcedId (ids : List BlockId) (first num : ℕ) : Except SynopsisError (List BlockId) :=
  if first ≤ num then
    match ids[num - first]? with
    | none => .error .outOfRange
    | some id => .ok [id]
  else .ok []

/-- `synopsis.empty() ? 1 : _delegate->get_block_number(synopsis.front())` -/
def firstBlockNum : List BlockId → ℕ
  | [] => 1
  | id :: _ => id.num

/-- The loop of `create_blockchain_synopsis_for_peer`. -/
def completeSynopsis (fuel : ℕ) (ids synopsis : List BlockId) :
    Option (Except SynopsisError (List BlockId)) :=
  match ids with
  | [] => some (.ok synopsis)
  | id :: _ =>
      let first := id.num
      let trueHigh := (first + ids.length + (2 ^ 32 - 1)) % 2 ^ 32
      (doWhile (visitRound (announcedId ids first) (nextBlockNum trueHigh))
        (fun s => s.1 ≤ trueHigh) fuel (firstBlockNum synopsis, synopsis)).map (·.map Prod.snd)

/-- `create_blockchain_synopsis_for_peer`: `referencePoint` is the last block of the peer that was
pushed, and `ids` are those of the blocks after it that the peer has announced. -/
def createBlockchainSynopsis (fuel : ℕ) (db : Database β ω) (lastNonUndoable : ℕ)
    (referencePoint : BlockId) (ids : List BlockId) :
    Option (Except SynopsisError (List BlockId)) :=
  match getBlockchainSynopsis fuel db lastNonUndoable referencePoint ids.length with
  | none => none
  | some (.error e) => some (.error e)
  | some (.ok synopsis) => completeSynopsis fuel ids synopsis

end Database

/-! ### Chains and forks -/

section Chains

variable {β ω : Type}

/-- The id of the last block. -/
def lastId (l : List (SignedBlock β)) : BlockId := (l.getLast?.map (·.id)).getD .zero

/-- Blocks one after the other, from a first block on. -/
structure Succession (l : List (SignedBlock β)) : Prop where
  previous : ∀ i b, l[i]? = some b → b.previous = lastId (l.take i)

lemma lastId_take_succ {l : List (SignedBlock β)} {i : ℕ} {b : SignedBlock β}
    (h : l[i]? = some b) : lastId (l.take (i + 1)) = b.id := by
  simp [lastId, List.take_add_one, h]

/-- The blocks have the numbers from 1 on. -/
lemma Succession.blockNum {l : List (SignedBlock β)} (hl : Succession l) {i : ℕ}
    {b : SignedBlock β} (h : l[i]? = some b) : b.blockNum = i + 1 := by
  induction i generalizing b with
  | zero =>
      rw [SignedBlock.blockNum, hl.previous 0 b h]
      rfl
  | succ i ih =>
      obtain ⟨hi, -⟩ := List.getElem?_eq_some_iff.mp h
      have hc : l[i]? = some l[i] := List.getElem?_eq_getElem (by omega)
      rw [SignedBlock.blockNum, hl.previous (i + 1) b h, lastId_take_succ hc, SignedBlock.id_num,
        ih hc]

/-- The blocks are held by the fork database, linked to each other. -/
def ForkDatabase.Holds (f : ForkDatabase β) (l : List (SignedBlock β)) : Prop :=
  ∃ items : List (ForkItem β), items.map (·.data) = l.reverse ∧ List.IsChain f.Links items ∧
    ∀ it ∈ items.head?, f.fetchBlock it.id = some it

/-- The main chain of a node, oldest block first, as its block database shows it; that may have
entries for higher numbers too. -/
structure Database.MainChain (db : Database β ω) (main : List (SignedBlock β)) : Prop where
  succession : Succession main
  headBlockNumber : db.objects.headBlockNumber = main.length
  headBlockId : db.objects.headBlockId = lastId main
  stored : ∀ i b, main[i]? = some b → db.getBlockIdForNum (i + 1) = some b.id
  entries : ∀ n id, db.getBlockIdForNum n = some id → id.num = n

/-- The blocks `fork` follow the first `k` blocks of the main chain, are not on it, and are held with
the blocks of the main chain above the fork. Where they follow its last block, that is held too. -/
structure OnFork (f : ForkDatabase β) (main : List (SignedBlock β)) (k : ℕ)
    (fork : List (SignedBlock β)) : Prop where
  ne_nil : fork ≠ []
  le : k ≤ main.length
  succession : Succession (main.take k ++ fork)
  apart : ∀ b ∈ fork, ∀ m ∈ main, b.id ≠ m.id
  holdsMain : f.Holds (main.drop (min k (main.length - 1)))
  holdsFork : f.Holds ((main.take k ++ fork).drop (min k (main.length - 1)))

/-- A reference point: none, the main chain's block of number `n`, or the last of the blocks of a
fork that leaves the main chain after the number `k`. -/
inductive Point (β : Type) where
  | none
  | onMain (n : ℕ)
  | onFork (k : ℕ) (fork : List (SignedBlock β))

namespace Point

/-- The chain up to the reference point. -/
def chain (main : List (SignedBlock β)) : Point β → List (SignedBlock β)
  | none => main
  | onMain n => main.take n
  | onFork k fork => main.take k ++ fork

/-- The reference point. -/
def id (main : List (SignedBlock β)) : Point β → BlockId
  | none => .zero
  | p => lastId (p.chain main)

/-- The reference point is one that the node may be asked about. -/
def Known (db : Database β ω) (main : List (SignedBlock β)) (lastNonUndoable : ℕ) : Point β → Prop
  | none => True
  | onMain n => 0 < n ∧ n ≤ main.length
  | onFork k fork => lastNonUndoable ≤ k ∧ OnFork db.forkDb main k fork

/-- The ids up to a reference point on a fork can be read. The block database has an entry of its
number. If that is another block's, then the fork leaves the main chain below its head, or the head
can be undone; if it is the point's own (a block that was popped), then the entries of all visited
numbers are those of the fork. -/
def Readable (db : Database β ω) (main : List (SignedBlock β)) (lastNonUndoable after : ℕ) :
    Point β → Prop
  | onFork k fork =>
      match db.getBlockIdForNum (k + fork.length) with
      | .none => False
      | some id =>
          if id = lastId fork then
            ∀ n ∈ halvings (k + fork.length + after)
                (k + fork.length + after + 1 - max 1 lastNonUndoable),
              n ≤ k + fork.length →
                db.getBlockIdForNum n = ((main.take k ++ fork)[n - 1]?).map (·.id)
          else k < main.length ∨ lastNonUndoable < main.length
  | _ => True

end Point

end Chains

/-! ### Synopses -/

/-- A synopsis of the blocks of a chain from the number `start` on. -/
structure Synopsis (chain : List BlockId) (start : ℕ) (s : List BlockId) : Prop where
  mem : ∀ id ∈ s, id ∈ chain
  increasing : s.Pairwise fun a b => a.num < b.num
  first : chain ≠ [] → s.head?.map (·.num) = some start
  last : s.getLast? = chain.getLast?
  length_le : s.length ≤ 2 + Nat.log2 (chain.length + 1 - start)

/-- The ids are those of consecutive numbers, after the number `n`. -/
def Consecutive (n : ℕ) (ids : List BlockId) : Prop := ∀ i id, ids[i]? = some id → id.num = n + i + 1

section Synopses

variable {chain ids : List BlockId} {m n start : ℕ}

lemma Consecutive.append (h : Consecutive 0 chain) (hids : Consecutive chain.length ids) :
    Consecutive 0 (chain ++ ids) := by
  intro i id hi
  rcases lt_or_ge i chain.length with hlt | hge
  · exact h i id (by rwa [List.getElem?_append_left hlt] at hi)
  · rw [List.getElem?_append_right hge] at hi
    have := hids _ id hi
    omega

lemma Succession.consecutive {β : Type} {l : List (SignedBlock β)} (hl : Succession l) :
    Consecutive 0 (l.map (·.id)) := by
  intro i id hi
  rw [List.getElem?_map] at hi
  obtain ⟨b, hb, rfl⟩ := Option.map_eq_some_iff.mp hi
  rw [SignedBlock.id_num, hl.blockNum hb, Nat.zero_add]

/-- The id of the number `n`. -/
def idAt (chain : List BlockId) (n : ℕ) : BlockId := chain.getD (n - 1) .zero

lemma getElem?_idAt (hpos : 0 < n) (hn : n ≤ chain.length) : chain[n - 1]? = some (idAt chain n) := by
  rw [idAt, List.getD_eq_getElem?_getD, List.getElem?_eq_getElem (by omega)]
  rfl

lemma Consecutive.num_idAt (h : Consecutive 0 chain) (hpos : 0 < n) (hn : n ≤ chain.length) :
    (idAt chain n).num = n := by
  have := h _ _ (getElem?_idAt hpos hn)
  omega

/-- Each number has one id. -/
lemma Consecutive.eq_idAt (h : Consecutive 0 chain) {id : BlockId} (hid : id ∈ chain) :
    id = idAt chain id.num := by
  obtain ⟨i, hi⟩ := List.mem_iff_getElem?.mp hid
  have hnum : id.num - 1 = i := by
    have := h i id hi
    omega
  rw [idAt, hnum, List.getD_eq_getElem?_getD, hi, Option.getD_some]

/-- The ids of the halvings are a synopsis. -/
lemma synopsis_halvings (hchain : Consecutive 0 chain) (hpos : 0 < start)
    (hstart : start ≤ chain.length) :
    Synopsis chain start ((halvings chain.length (chain.length + 1 - start)).map (idAt chain)) := by
  have hleft : 0 < chain.length + 1 - start := by omega
  have hrange : ∀ n ∈ halvings chain.length (chain.length + 1 - start), 0 < n ∧ n ≤ chain.length :=
    fun n hn => by
      have := mem_halvings hn
      omega
  refine ⟨fun id hid => ?_, ?_, fun _ => ?_, ?_, ?_⟩
  · obtain ⟨n, hn, rfl⟩ := List.mem_map.mp hid
    exact List.mem_iff_getElem?.mpr ⟨n - 1, getElem?_idAt (hrange n hn).1 (hrange n hn).2⟩
  · refine List.pairwise_map.mpr ((halvings_pairwise (by omega)).imp_of_mem fun ha hb hlt => ?_)
    rwa [hchain.num_idAt (hrange _ ha).1 (hrange _ ha).2,
      hchain.num_idAt (hrange _ hb).1 (hrange _ hb).2]
  · have hhead : chain.length + 1 - (chain.length + 1 - start) = start := by omega
    rw [List.head?_map, head?_halvings hleft, hhead, Option.map_some, Option.map_some,
      hchain.num_idAt hpos hstart]
  · rw [List.getLast?_map, getLast?_halvings hleft, Option.map_some, List.getLast?_eq_getElem?]
    exact (getElem?_idAt (by omega) le_rfl).symm
  · rw [List.length_map, length_halvings hleft]
    omega

end Synopses

/-! ### The loops -/

section Loops

/-- A sorted list is what is up to a number, and what is above. -/
lemma filter_le_append_filter_lt {l : List ℕ} (hl : l.Pairwise (· < ·)) (m : ℕ) :
    l.filter (· ≤ m) ++ l.filter (m < ·) = l := by
  induction l with
  | nil => rfl
  | cons a l ih =>
      obtain ⟨ha, hl⟩ := List.pairwise_cons.mp hl
      by_cases ham : a ≤ m
      · rw [List.filter_cons_of_pos (by simpa using ham),
          List.filter_cons_of_neg (by simpa using ham), List.cons_append, ih hl]
      · have hnil : l.filter (· ≤ m) = [] := by
          refine List.filter_eq_nil_iff.mpr fun b hb => ?_
          have := ha b hb
          simp only [decide_eq_true_eq]
          omega
        rw [List.filter_cons_of_neg (by simpa using ham),
          List.filter_cons_of_pos (by simpa using ham), hnil, List.nil_append]
        rw [hnil, List.nil_append] at ih
        rw [ih hl]

lemma flatMap_ite_singleton {α : Type} {c : ℕ → Prop} [DecidablePred c] (f : ℕ → α) (l : List ℕ) :
    l.flatMap (fun n => if c n then [f n] else []) = (l.filter (c ·)).map f := by
  induction l with
  | nil => rfl
  | cons a l ih => by_cases ha : c a <;> simp [ha, ih]

namespace Database

variable {β ω : Type} {db : Database β ω} {r : SynopsisRange} {lastNonUndoable fuel after last p : ℕ}
  {ref : BlockId} {ids s : List BlockId}

/-- Below the largest number a step goes half of the way. -/
lemma nextBlockNum_eq (hlast : last < 2 ^ 32 - 1) (hpos : 0 < p) (hp : p ≤ last) :
    nextBlockNum last p = p + (last - p + 2) / 2 := by
  have hdiff : last + (2 ^ 32 - p) + 2 = last - p + 2 + 2 ^ 32 := by omega
  rw [nextBlockNum, hdiff, Nat.add_mod_right, Nat.mod_eq_of_lt (b := 2 ^ 32) (by omega),
    Nat.mod_eq_of_lt (by omega)]

/-- No number is above the largest one. -/
lemma nextBlockNum_le : nextBlockNum last p ≤ 2 ^ 32 - 1 :=
  Nat.le_sub_one_of_lt (Nat.mod_lt _ (by norm_num))

/-- A round goes on at the next number. -/
lemma visitRound_next {ε α : Type} {visit : ℕ → Except ε (List α)} {t t' : ℕ × List α}
    (h : visitRound visit (nextBlockNum last) t = .ok t') : t'.1 ≤ 2 ^ 32 - 1 := by
  obtain ⟨l, -, h⟩ := except_bind_eq_ok.mp h
  cases h
  exact nextBlockNum_le

/-- The loop of `get_blockchain_synopsis` visits the halvings of the range. -/
lemma getBlockchainSynopsis_eq (after : ℕ)
    (hrange : db.synopsisRange lastNonUndoable ref = .ok (some r)) (hpos : 0 < r.lowBlockNum)
    (hlow : r.lowBlockNum ≤ r.highBlockNum) (hlast : r.highBlockNum + after < 2 ^ 32 - 1)
    (hfuel : r.highBlockNum + after < fuel) :
    getBlockchainSynopsis fuel db lastNonUndoable ref after =
      some (visitAll (fun num => (r.idFor db num).map ([·]))
        ((halvings (r.highBlockNum + after) (r.highBlockNum + after + 1 - r.lowBlockNum)).filter
          (· ≤ r.highBlockNum))) := by
  obtain ⟨low', hrun⟩ := doWhile_visits (fun num => (r.idFor db num).map ([·]))
    (Nat.le_add_right r.highBlockNum after) (fun p hp hple => nextBlockNum_eq hlast hp hple) fuel hpos
    hlow (by omega) []
  simp only [getBlockchainSynopsis, hrange, Nat.mod_eq_of_lt (show r.highBlockNum + after < 2 ^ 32 by
    omega), hrun, Option.map_some]
  cases visitAll (fun num => (r.idFor db num).map ([·])) ((halvings (r.highBlockNum + after)
    (r.highBlockNum + after + 1 - r.lowBlockNum)).filter (· ≤ r.highBlockNum)) with
  | error e => rfl
  | ok l => rfl

/-- The loop goes from the first number of the synopsis up to the last one announced. -/
lemma completeSynopsis_of_head? {id : BlockId} {last : ℕ} (hid : ids.head? = some id)
    (hlast : (id.num + ids.length + (2 ^ 32 - 1)) % 2 ^ 32 = last) :
    completeSynopsis fuel ids s =
      (doWhile (visitRound (announcedId ids id.num) (nextBlockNum last)) (fun t => t.1 ≤ last) fuel
        (firstBlockNum s, s)).map (·.map Prod.snd) := by
  cases ids with
  | nil => cases hid
  | cons id' ids =>
      cases hid
      subst hlast
      rfl

/-- What is announced has the numbers from `high + 1` on. -/
lemma announcedId_eq {high : ℕ} (hp : p ≤ high + ids.length) :
    announcedId ids (high + 1) p = .ok (if high < p then [idAt ids (p - high)] else []) := by
  rw [announcedId]
  by_cases hhigh : high < p
  · have hget : ids[p - high - 1]? = some (idAt ids (p - high)) :=
      getElem?_idAt (by omega) (by omega)
    rw [if_pos (show high + 1 ≤ p by omega), if_pos hhigh, ← Nat.sub_sub, hget]
  · rw [if_neg (show ¬ high + 1 ≤ p by omega), if_neg hhigh]

/-- The last number announced. -/
lemma lastAnnounced_eq {high : ℕ} (hlast : high + ids.length < 2 ^ 32) :
    (high + 1 + ids.length + (2 ^ 32 - 1)) % 2 ^ 32 = high + ids.length := by
  rw [show high + 1 + ids.length + (2 ^ 32 - 1) = high + ids.length + 2 ^ 32 by omega,
    Nat.add_mod_right, Nat.mod_eq_of_lt hlast]

/-- The second loop goes on with the ids that the peer has announced. -/
lemma completeSynopsis_eq {high : ℕ} (fuel : ℕ) (hids : Consecutive high ids)
    (hpos : 0 < firstBlockNum s)
    (hlow : firstBlockNum s ≤ high + 1) (hlast : high + ids.length < 2 ^ 32 - 1)
    (hfuel : high + ids.length < fuel) :
    completeSynopsis fuel ids s = some (.ok (s ++
      ((halvings (high + ids.length) (high + ids.length + 1 - firstBlockNum s)).filter
        (high < ·)).map fun n => idAt ids (n - high))) := by
  rcases eq_or_ne ids [] with rfl | hne
  · have hnil : (halvings (high + 0) (high + 0 + 1 - firstBlockNum s)).filter (high < ·) = [] := by
      refine List.filter_eq_nil_iff.mpr fun n hn => ?_
      have := mem_halvings hn
      simp only [decide_eq_true_eq]
      omega
    simp only [List.length_nil, hnil, List.map_nil, List.append_nil]
    rfl
  · have hid := List.head?_eq_some_head hne
    have hnum : (ids.head hne).num = high + 1 := hids 0 _ (List.head?_eq_getElem? ▸ hid)
    have hlen : 0 < ids.length := List.length_pos_iff.mpr hne
    obtain ⟨low', hrun⟩ := doWhile_visits (announcedId ids (ids.head hne).num)
      (le_refl (high + ids.length)) (fun p hp hple => nextBlockNum_eq hlast hp hple) fuel hpos
      (by omega) (by omega) s
    have hall : (halvings (high + ids.length) (high + ids.length + 1 - firstBlockNum s)).filter
        (· ≤ high + ids.length) =
          halvings (high + ids.length) (high + ids.length + 1 - firstBlockNum s) :=
      List.filter_eq_self.mpr fun n hn => decide_eq_true (mem_halvings hn).2
    rw [hall, visitAll_eq_ok fun n hn => hnum ▸ announcedId_eq (mem_halvings hn).2,
      flatMap_ite_singleton] at hrun
    rw [completeSynopsis_of_head? hid (hnum ▸ lastAnnounced_eq (by omega)), hrun]
    rfl

/-- More fuel changes nothing. -/
lemma getBlockchainSynopsis_mono {fuel' : ℕ} {res : Except SynopsisError (List BlockId)}
    (h : getBlockchainSynopsis fuel db lastNonUndoable ref after = some res) (hle : fuel ≤ fuel') :
    getBlockchainSynopsis fuel' db lastNonUndoable ref after = some res := by
  rw [getBlockchainSynopsis] at h ⊢
  cases hrange : db.synopsisRange lastNonUndoable ref with
  | error e => simpa only [hrange] using h
  | ok o =>
      cases o with
      | none => simpa only [hrange] using h
      | some r =>
          simp only [hrange] at h ⊢
          obtain ⟨t, ht, hres⟩ := Option.map_eq_some_iff.mp h
          rw [doWhile_mono ht hle, Option.map_some, hres]

/-- The ids that are there stay. -/
lemma mem_of_completeSynopsis {s' : List BlockId} (h : completeSynopsis fuel ids s = some (.ok s'))
    {id : BlockId} (hid : id ∈ s) : id ∈ s' := by
  cases ids with
  | nil =>
      cases h
      exact hid
  | cons id' ids =>
      rw [completeSynopsis_of_head? (List.head?_cons ..) rfl] at h
      obtain ⟨t, ht, hres⟩ := Option.map_eq_some_iff.mp h
      obtain ⟨t', rfl, rfl⟩ := except_map_eq_ok.mp hres
      exact mem_of_doWhile ht hid

/-- What is made is made of a part by the node, and completed. -/
lemma createBlockchainSynopsis_eq_ok
    (h : createBlockchainSynopsis fuel db lastNonUndoable ref ids = some (.ok s)) :
    ∃ s₁, getBlockchainSynopsis fuel db lastNonUndoable ref ids.length = some (.ok s₁) ∧
      completeSynopsis fuel ids s₁ = some (.ok s) := by
  unfold createBlockchainSynopsis at h
  cases hget : getBlockchainSynopsis fuel db lastNonUndoable ref ids.length with
  | none => simp [hget] at h
  | some res =>
      cases res with
      | error e => simp [hget] at h
      | ok s₁ => exact ⟨s₁, rfl, by simpa only [hget] using h⟩

/-- The first number visited is that of the first id. -/
lemma firstBlockNum_halvings {chain : List BlockId} {low : ℕ} (hchain : Consecutive 0 chain)
    (hpos : 0 < low) (hlow : low ≤ chain.length) (hlast : chain.length ≤ last) :
    firstBlockNum (((halvings last (last + 1 - low)).filter (· ≤ chain.length)).map (idAt chain)) =
      low := by
  obtain ⟨n, hn⟩ : ∃ n, last + 1 - low = n + 1 := ⟨last - low, by omega⟩
  have hfirst : last - n = low := by omega
  rw [hn, halvings_succ, hfirst, List.filter_cons_of_pos (by simpa using hlow), List.map_cons,
    firstBlockNum, hchain.num_idAt hpos hlow]

/-- The synopsis is made, and is one of the chain, exactly if the node finds the ids of the visited
numbers. -/
lemma makes_iff {upto : List BlockId} (hrange : db.synopsisRange lastNonUndoable ref = .ok (some r))
    (hpos : 0 < r.lowBlockNum) (hlow : r.lowBlockNum ≤ upto.length)
    (hhigh : r.highBlockNum = upto.length) (hupto : Consecutive 0 upto)
    (hids : Consecutive upto.length ids) (hlast : upto.length + ids.length < 2 ^ 32 - 1)
    (hnum : ∀ n id, r.idFor db n = .ok id → id.num = n) :
    (∃ fuel s, createBlockchainSynopsis fuel db lastNonUndoable ref ids = some (.ok s) ∧
      Synopsis (upto ++ ids) r.lowBlockNum s) ↔
    ∀ n ∈ halvings (upto.length + ids.length) (upto.length + ids.length + 1 - r.lowBlockNum),
      n ≤ upto.length → r.idFor db n = .ok (idAt upto n) := by
  set visited := halvings (upto.length + ids.length) (upto.length + ids.length + 1 - r.lowBlockNum)
    with hvisited
  have hchain : Consecutive 0 (upto ++ ids) := hupto.append hids
  have hget := fun fuel (hfuel : upto.length + ids.length < fuel) =>
    getBlockchainSynopsis_eq ids.length hrange hpos (hhigh ▸ hlow) (hhigh ▸ hlast) (hhigh ▸ hfuel)
  simp only [hhigh, ← hvisited] at hget
  have happend : ∀ n ∈ visited, n ≤ upto.length → idAt (upto ++ ids) n = idAt upto n := by
    intro n hn hle
    have hn' := mem_halvings hn
    rw [idAt, idAt, List.getD_eq_getElem?_getD, List.getD_eq_getElem?_getD,
      List.getElem?_append_left (by omega)]
  constructor
  · rintro ⟨fuel, s, hs, hsyn⟩ n hn hle
    obtain ⟨s₁, hs₁, hcomplete⟩ := createBlockchainSynopsis_eq_ok hs
    have hs₁ := getBlockchainSynopsis_mono hs₁ (Nat.le_add_right fuel (upto.length + ids.length + 1))
    rw [hget _ (by omega), Option.some.injEq] at hs₁
    obtain ⟨l, hl, hmem⟩ := exists_of_visitAll hs₁ n (List.mem_filter.mpr ⟨hn, decide_eq_true hle⟩)
    obtain ⟨id, hid, rfl⟩ := except_map_eq_ok.mp hl
    have hin := hsyn.mem id (mem_of_completeSynopsis hcomplete (hmem id (List.mem_singleton_self id)))
    rw [hid, ← happend n hn hle, hchain.eq_idAt hin, hnum n id hid]
  · intro hread
    refine ⟨upto.length + ids.length + 1, visited.map (idAt (upto ++ ids)), ?_, ?_⟩
    · have hs₁ := hget (upto.length + ids.length + 1) (by omega)
      rw [visitAll_eq_ok (g := fun n => [idAt upto n]) fun n hn => by
        obtain ⟨hn, hle⟩ := List.mem_filter.mp hn
        rw [hread n hn (of_decide_eq_true hle)]
        rfl, ← List.map_eq_flatMap] at hs₁
      have hfirst : firstBlockNum ((visited.filter (· ≤ upto.length)).map (idAt upto)) =
          r.lowBlockNum := firstBlockNum_halvings hupto hpos hlow (Nat.le_add_right ..)
      have hrest := completeSynopsis_eq (s := (visited.filter (· ≤ upto.length)).map (idAt upto))
        (upto.length + ids.length + 1) hids (hfirst ▸ hpos) (by omega) hlast (by omega)
      rw [hfirst, ← hvisited] at hrest
      have hall : visited.map (idAt (upto ++ ids)) =
          (visited.filter (· ≤ upto.length)).map (idAt upto) ++
            (visited.filter (upto.length < ·)).map fun n => idAt ids (n - upto.length) := by
        have hsorted : visited.Pairwise (· < ·) := halvings_pairwise (by omega)
        conv_lhs => rw [← filter_le_append_filter_lt hsorted upto.length]
        rw [List.map_append]
        congr 1
        · refine List.map_congr_left fun n hn => ?_
          obtain ⟨hn, hle⟩ := List.mem_filter.mp hn
          exact happend n hn (of_decide_eq_true hle)
        · refine List.map_congr_left fun n hn => ?_
          have hgt := of_decide_eq_true (List.mem_filter.mp hn).2
          rw [idAt, idAt, List.getD_eq_getElem?_getD, List.getD_eq_getElem?_getD,
            List.getElem?_append_right (by omega), Nat.sub_right_comm]
      rw [createBlockchainSynopsis, hs₁, hall]
      exact hrest
    · have hsyn := synopsis_halvings hchain hpos (by simp only [List.length_append]; omega)
      rwa [List.length_append] at hsyn

end Database

end Loops

/-! ### The branches of a fork -/

section Branches

variable {β : Type} {f : ForkDatabase β} {x y : List (SignedBlock β)} {top : ℕ}

namespace ForkDatabase

/-- The loops down to the height `n` follow a linked list to the first item that is not higher. -/
lemma descend_of_linked {l : List (ForkItem β)} {a low : ForkItem β} {n i : ℕ} (fuel : ℕ)
    (hl : List.IsChain f.Links l) (ha : l.head? = some a) (hi : l[i]? = some low)
    (hhigh : ∀ j it, j < i → l[j]? = some it → n < it.num) (hlow : low.num ≤ n) (hfuel : i ≤ fuel) :
    f.descend fuel a n = .ok (l.take i, low) := by
  induction i generalizing l a fuel with
  | zero =>
      cases l with
      | nil => cases hi
      | cons b l =>
          cases ha
          cases hi
          cases fuel <;> simp [descend, hlow.not_gt]
  | succ i ih =>
      cases l with
      | nil => cases hi
      | cons b l =>
          cases ha
          obtain ⟨fuel, rfl⟩ : ∃ m, fuel = m + 1 := ⟨fuel - 1, by omega⟩
          cases l with
          | nil => cases hi
          | cons c l =>
              obtain ⟨hac, hl⟩ := List.isChain_cons_cons.mp hl
              have hlock : f.lock a = some c := hac
              have hrest := ih fuel hl rfl hi
                (fun j it hj hit => hhigh (j + 1) it (by omega) hit) (by omega)
              rw [descend, if_pos (hhigh 0 a (by omega) rfl), hlock]
              simp only [hrest]
              rfl

/-- The loop down to the common ancestor follows two linked lists up to the first blocks that follow
the same block. -/
lemma meet_of_linked {l r : List (ForkItem β)} {a b : ForkItem β} (fuel : ℕ)
    (hl : List.IsChain f.Links l) (hr : List.IsChain f.Links r) (ha : l.head? = some a)
    (hb : r.head? = some b) (hlen : l.length = r.length)
    (hprev : ∀ i u v, l[i]? = some u → r[i]? = some v →
      (u.data.previous = v.data.previous ↔ i + 1 = l.length)) (hfuel : l.length ≤ fuel) :
    f.meet fuel a b = .ok (l, r) := by
  induction l generalizing r a b fuel with
  | nil => cases ha
  | cons u l ih =>
      cases ha
      obtain ⟨v, r, rfl⟩ := List.exists_cons_of_length_pos (hlen.symm.trans_gt (Nat.succ_pos _))
      obtain rfl : v = b := Option.some.inj hb
      obtain ⟨fuel, rfl⟩ := Nat.exists_eq_add_one.mpr (Nat.zero_lt_of_lt hfuel)
      have hfirst := hprev 0 u v rfl rfl
      cases l with
      | nil =>
          obtain rfl : r = [] := List.length_eq_zero_iff.mp (Nat.succ.inj hlen.symm)
          rw [meet, if_neg (not_not_intro (hfirst.mpr rfl))]
      | cons u' l =>
          obtain ⟨v', r, rfl⟩ :=
            List.exists_cons_of_length_pos ((Nat.succ.inj hlen).symm.trans_gt (Nat.succ_pos _))
          have hne : u.data.previous ≠ v.data.previous := fun h => by simpa using hfirst.mp h
          obtain ⟨hlu, hl⟩ := List.isChain_cons_cons.mp hl
          obtain ⟨hrv, hr⟩ := List.isChain_cons_cons.mp hr
          have hlocku : f.lock u = some u' := hlu
          have hlockv : f.lock v = some v' := hrv
          have hrest := ih fuel hl hr rfl rfl (by simpa using hlen) (fun i u v hu hv => by
            have := hprev (i + 1) u v hu hv
            simpa using this) (by simpa using hfuel)
          rw [meet, if_pos hne, hlocku, hlockv]
          simp only [hrest]
          rfl

/-- What is known of the items of a list of blocks: which block each of them holds. -/
lemma getElem?_of_map_data {items : List (ForkItem β)} (h : items.map (·.data) = (x.drop top).reverse)
    {i : ℕ} {it : ForkItem β} (hi : items[i]? = some it) : x[x.length - 1 - i]? = some it.data := by
  have hlen : items.length = x.length - top := by
    have := congrArg List.length h
    simpa using this
  obtain ⟨hlt, -⟩ := List.getElem?_eq_some_iff.mp hi
  have hdata : (x.drop top).reverse[i]? = some it.data := by
    rw [← h, List.getElem?_map, hi]
    rfl
  rw [List.getElem?_reverse (by simp; omega), List.getElem?_drop, List.length_drop] at hdata
  rw [← hdata]
  congr 1
  omega

/-- The branches of two chains that are held down to the number `top`, up to which they are the
same. -/
lemma fetchBranchFrom_of_held (hx : Succession x) (hy : Succession y) (hxtop : top < x.length)
    (hytop : top < y.length) (hsame : x.take top = y.take top)
    (hapart : ∀ i b c, top ≤ i → i + 1 < x.length → i + 1 < y.length → x[i]? = some b →
      y[i]? = some c → b.id ≠ c.id)
    (hholdsx : f.Holds (x.drop top)) (hholdsy : f.Holds (y.drop top)) :
    ∃ l r, f.fetchBranchFrom (lastId x) (lastId y) = .ok (l, r) ∧
      l.map (·.data) = (x.drop top).reverse ∧ r.map (·.data) = (y.drop top).reverse := by
  obtain ⟨l, hldata, hl, hlhead⟩ := hholdsx
  obtain ⟨r, hrdata, hr, hrhead⟩ := hholdsy
  have hllen : l.length = x.length - top := by simpa using congrArg List.length hldata
  have hrlen : r.length = y.length - top := by simpa using congrArg List.length hrdata
  have hlget := fun i it (h : l[i]? = some it) => getElem?_of_map_data hldata h
  have hrget := fun i it (h : r[i]? = some it) => getElem?_of_map_data hrdata h
  have hlnum : ∀ i it, l[i]? = some it → it.num = x.length - i := fun i it h => by
    have := hx.blockNum (hlget i it h)
    obtain ⟨hi, -⟩ := List.getElem?_eq_some_iff.mp h
    rw [ForkItem.num]
    omega
  have hrnum : ∀ i it, r[i]? = some it → it.num = y.length - i := fun i it h => by
    have := hy.blockNum (hrget i it h)
    obtain ⟨hi, -⟩ := List.getElem?_eq_some_iff.mp h
    rw [ForkItem.num]
    omega
  -- the given blocks
  have hlpos : 0 < l.length := by omega
  have hrpos : 0 < r.length := by omega
  have ha : l.head? = some l[0] := by rw [List.head?_eq_getElem?, List.getElem?_eq_getElem hlpos]
  have hb : r.head? = some r[0] := by rw [List.head?_eq_getElem?, List.getElem?_eq_getElem hrpos]
  have haid : l[0].id = lastId x := by
    have := hlget 0 _ (List.getElem?_eq_getElem hlpos)
    rw [lastId, List.getLast?_eq_getElem?, ← Nat.sub_zero (x.length - 1), this]
    rfl
  have hbid : r[0].id = lastId y := by
    have := hrget 0 _ (List.getElem?_eq_getElem hrpos)
    rw [lastId, List.getLast?_eq_getElem?, ← Nat.sub_zero (y.length - 1), this]
    rfl
  have hafetch := hlhead _ ha
  have hbfetch := hrhead _ hb
  rw [haid] at hafetch
  rw [hbid] at hbfetch
  have hanum := hlnum 0 _ (List.getElem?_eq_getElem hlpos)
  have hbnum := hrnum 0 _ (List.getElem?_eq_getElem hrpos)
  -- down to the same height
  have hli : x.length - y.length < l.length := by omega
  have hri : y.length - x.length < r.length := by omega
  have hlow := hlnum _ _ (List.getElem?_eq_getElem hli)
  have hlow' := hrnum _ _ (List.getElem?_eq_getElem hri)
  have hdescend : f.descend l[0].num l[0] r[0].num =
      .ok (l.take (x.length - y.length), l[x.length - y.length]) :=
    descend_of_linked _ hl ha (List.getElem?_eq_getElem hli)
      (fun j it hj hit => by have := hlnum j it hit; omega) (by omega) (by omega)
  have hdescend' : f.descend r[0].num r[0] l[x.length - y.length].num =
      .ok (r.take (y.length - x.length), r[y.length - x.length]) :=
    descend_of_linked _ hr hb (List.getElem?_eq_getElem hri)
      (fun j it hj hit => by have := hrnum j it hit; omega) (by omega) (by omega)
  -- down to the common ancestor
  have hmeet : f.meet l[x.length - y.length].num l[x.length - y.length] r[y.length - x.length] =
      .ok (l.drop (x.length - y.length), r.drop (y.length - x.length)) := by
    refine meet_of_linked _ (hl.drop _) (hr.drop _) ?_ ?_ (by simp; omega) (fun i u v hu hv => ?_)
      (by simp; omega)
    · rw [List.head?_drop, List.getElem?_eq_getElem hli]
    · rw [List.head?_drop, List.getElem?_eq_getElem hri]
    · rw [List.getElem?_drop] at hu hv
      obtain ⟨hi, -⟩ := List.getElem?_eq_some_iff.mp hu
      obtain ⟨hi', -⟩ := List.getElem?_eq_some_iff.mp hv
      have hu := hlget _ _ hu
      have hv := hrget _ _ hv
      have hj : y.length - 1 - (y.length - x.length + i) =
        x.length - 1 - (x.length - y.length + i) := by omega
      rw [hj] at hv
      rw [hx.previous _ _ hu, hy.previous _ _ hv, List.length_drop]
      obtain ⟨j, hjdef⟩ : ∃ j, j = x.length - 1 - (x.length - y.length + i) := ⟨_, rfl⟩
      rw [← hjdef]
      rcases eq_or_ne j top with rfl | hne
      · exact iff_of_true (congrArg lastId hsame) (by omega)
      · obtain ⟨j, rfl⟩ : ∃ k, j = k + 1 := ⟨j - 1, by omega⟩
        have hxj := List.getElem?_eq_getElem (show j < x.length by omega)
        have hyj := List.getElem?_eq_getElem (show j < y.length by omega)
        rw [lastId_take_succ hxj, lastId_take_succ hyj]
        exact iff_of_false (hapart j _ _ (by omega) (by omega) (by omega) hxj hyj) (by omega)
  refine ⟨l, r, ?_, hldata, hrdata⟩
  simp only [fetchBranchFrom, hafetch, hbfetch]
  refine except_bind_eq_ok.mpr ⟨_, hdescend, except_bind_eq_ok.mpr ⟨_, hdescend',
    except_bind_eq_ok.mpr ⟨_, hmeet, ?_⟩⟩⟩
  simp only [List.take_append_drop]
  rfl

end ForkDatabase

end Branches

/-! ### The range of a synopsis -/

section Range

variable {β ω : Type} {db : Database β ω} {main l : List (SignedBlock β)} {r : Database.SynopsisRange}
  {lastNonUndoable fuel : ℕ} {ref : BlockId} {ids s : List BlockId}

lemma Succession.take (hl : Succession l) (n : ℕ) : Succession (l.take n) where
  previous i b hi := by
    have hlt : i < n := by
      obtain ⟨h, -⟩ := List.getElem?_eq_some_iff.mp hi
      rw [List.length_take] at h
      omega
    rw [List.getElem?_take_of_lt hlt] at hi
    rw [hl.previous i b hi, List.take_take, min_eq_left hlt.le]

/-- The last block's number is the length of the chain. -/
lemma Succession.num_lastId (hl : Succession l) : (lastId l).num = l.length := by
  rcases eq_or_ne l [] with rfl | hne
  · rfl
  · have hpos := List.length_pos_iff.mpr hne
    have hlast := List.getElem?_eq_getElem (show l.length - 1 < l.length by omega)
    rw [lastId, List.getLast?_eq_getElem?, hlast, Option.map_some, Option.getD_some,
      SignedBlock.id_num, hl.blockNum hlast]
    omega

lemma Succession.lastId_ne_zero (hl : Succession l) (hne : l ≠ []) : lastId l ≠ .zero := by
  intro h
  have hnum := hl.num_lastId
  rw [h] at hnum
  exact hne (List.length_eq_zero_iff.mp hnum.symm)

lemma lastId_append {l' : List (SignedBlock β)} (hne : l' ≠ []) : lastId (l ++ l') = lastId l' := by
  rw [lastId, lastId, List.getLast?_append_of_ne_nil _ hne]

namespace Database

/-- `if (low_block_num == 0) low_block_num = 1;` -/
lemma atLeastOne_eq (n : ℕ) : (if n = 0 then 1 else n) = max 1 n := by
  split_ifs <;> omega

/-- Without a reference point the range goes up to the head. -/
lemma synopsisRange_zero (lastNonUndoable : ℕ) (hhead : db.objects.headBlockNumber ≠ 0) :
    db.synopsisRange lastNonUndoable .zero = .ok (some ⟨max 1 lastNonUndoable,
      db.objects.headBlockNumber, db.objects.headBlockNumber, []⟩) := by
  rw [← atLeastOne_eq]
  simp [synopsisRange, hhead, pure, Except.pure]

/-- The block database has no entry of the number of the reference point. -/
lemma synopsisRange_missing (lastNonUndoable : ℕ) (hne : ref ≠ .zero)
    (hnone : db.getBlockIdForNum ref.num = none) :
    db.synopsisRange lastNonUndoable ref = .error .keyNotFound := by
  simp [synopsisRange, hne, isIncludedBlock, hnone, bind, Except.bind]

/-- The reference point is the block of its number in the block database. -/
lemma synopsisRange_included (lastNonUndoable : ℕ) (hne : ref ≠ .zero)
    (hsome : db.getBlockIdForNum ref.num = some ref) :
    db.synopsisRange lastNonUndoable ref =
      .ok (some ⟨max 1 (min lastNonUndoable ref.num), ref.num, ref.num, []⟩) := by
  have hmin : (if ref.num < lastNonUndoable then ref.num else lastNonUndoable) =
      min lastNonUndoable ref.num := by
    split_ifs <;> omega
  rw [← atLeastOne_eq, ← hmin]
  simp [synopsisRange, hne, isIncludedBlock, hsome, bind, Except.bind, pure, Except.pure]

/-- The reference point is on a fork that leaves the chain after the block `last`. -/
lemma synopsisRange_fork (lastNonUndoable : ℕ) {id last : BlockId} {history : List BlockId}
    (hne : ref ≠ .zero)
    (hsome : db.getBlockIdForNum ref.num = some id) (hid : id ≠ ref)
    (hfork : db.getBlockIdsOnFork ref = .ok (history.reverse ++ [last])) :
    db.synopsisRange lastNonUndoable ref =
      if last.num < lastNonUndoable then .error .blockOlderThanUndoHistory
      else .ok (some ⟨max 1 lastNonUndoable, last.num + history.length, last.num, history⟩) := by
  have hnum : (if last = .zero then 0 else last.num) = last.num := by
    split_ifs with h
    · rw [h]
      rfl
    · rfl
  rw [← atLeastOne_eq]
  simp [synopsisRange, hne, isIncludedBlock, hsome, hid.symm, hfork, hnum, Except.mapError, bind,
    Except.bind, pure, Except.pure]
  rfl

/-- The ids of the branch of a known fork, newest first, down to the block it follows. Where it
follows the head, the head is taken for a block of the fork. -/
lemma getBlockIdsOnFork_eq (hmain : db.MainChain main) {k : ℕ} {fork : List (SignedBlock β)}
    (hfork : OnFork db.forkDb main k fork) (hne : main ≠ []) :
    db.getBlockIdsOnFork (lastId (main.take k ++ fork)) =
      .ok ((((main.take k ++ fork).drop (min k (main.length - 1))).map (·.id)).reverse ++
        [lastId (main.take (min k (main.length - 1)))]) := by
  have hpos := List.length_pos_iff.mpr hne
  have hfpos := List.length_pos_iff.mpr hfork.ne_nil
  have hk := hfork.le
  have hlen : (main.take k ++ fork).length = k + fork.length := by simp [hk]
  have hsame : main.take (min k (main.length - 1)) =
      (main.take k ++ fork).take (min k (main.length - 1)) := by
    rw [List.take_append_of_le_length (by simp), List.take_take, min_eq_left (min_le_left _ _)]
  obtain ⟨l, r, hrun, hl, hr⟩ := ForkDatabase.fetchBranchFrom_of_held hmain.succession
    hfork.succession (by omega) (by omega) hsame
    (fun i b c hi hix _ hb hc => by
      rw [List.getElem?_append_right (by simp; omega)] at hc
      exact (hfork.apart c (List.mem_of_getElem? hc) b (List.mem_of_getElem? hb)).symm)
    hfork.holdsMain hfork.holdsFork
  have hlast : l.getLast?.map (·.data.previous) =
      some (lastId (main.take (min k (main.length - 1)))) := by
    have hget := List.getElem?_eq_getElem (show min k (main.length - 1) < main.length by omega)
    have hdata : l.getLast?.map (·.data) = main[min k (main.length - 1)]? := by
      rw [← List.getLast?_map, hl, List.getLast?_reverse, List.head?_drop]
    rw [hget] at hdata
    obtain ⟨it, hit, hitdata⟩ := Option.map_eq_some_iff.mp hdata
    rw [hit, Option.map_some, hitdata, hmain.succession.previous _ _ hget]
  have hids : r.map (·.id) =
      (((main.take k ++ fork).drop (min k (main.length - 1))).map (·.id)).reverse := by
    rw [← List.map_reverse, ← hr, List.map_map]
    rfl
  rw [getBlockIdsOnFork, hmain.headBlockId, hrun]
  simp only [bind, Except.bind, pure, Except.pure, hlast, hids, Option.toList_some]

/-! ### When a synopsis is made -/

section

variable {m : ℕ} (hids : Consecutive m ids)

include hids

/-- At the largest number the second loop does not return. -/
lemma completeSynopsis_ne_ok (hne : ids ≠ []) (hlast : m + ids.length = 2 ^ 32 - 1) (fuel : ℕ)
    (s s' : List BlockId) : completeSynopsis fuel ids s ≠ some (.ok s') := by
  have hid := List.head?_eq_some_head hne
  have hnum : (ids.head hne).num = m + 1 := hids 0 _ (List.head?_eq_getElem? ▸ hid)
  intro h
  rw [completeSynopsis_of_head? hid (hnum ▸ lastAnnounced_eq (by omega))] at h
  obtain ⟨t, ht, hres⟩ := Option.map_eq_some_iff.mp h
  obtain ⟨t', rfl, rfl⟩ := except_map_eq_ok.mp hres
  refine doWhile_ne_ok (fun t t' hround => ?_) fuel _ _ ht
  exact decide_eq_true ((visitRound_next hround).trans hlast.ge)

/-- At the largest number no synopsis is made. -/
lemma createBlockchainSynopsis_ne_ok (hrange : db.synopsisRange lastNonUndoable ref = .ok (some r))
    (hhigh : r.highBlockNum = m) (hlast : m + ids.length = 2 ^ 32 - 1) (fuel : ℕ)
    (s : List BlockId) :
    createBlockchainSynopsis fuel db lastNonUndoable ref ids ≠ some (.ok s) := by
  intro h
  obtain ⟨s₁, hget, hcomplete⟩ := createBlockchainSynopsis_eq_ok h
  rcases eq_or_ne ids [] with rfl | hne
  · simp only [getBlockchainSynopsis, hrange] at hget
    obtain ⟨t, ht, hres⟩ := Option.map_eq_some_iff.mp hget
    obtain ⟨t', rfl, rfl⟩ := except_map_eq_ok.mp hres
    refine doWhile_ne_ok (fun t t' hround => ?_) fuel _ _ ht
    exact decide_eq_true ((visitRound_next hround).trans (hhigh ▸ hlast.ge))
  · exact completeSynopsis_ne_ok hids hne hlast fuel s₁ s hcomplete

/-- From a range that ends at the reference point the synopsis is made exactly if the largest number
is not reached, and the node finds the ids of the visited numbers. -/
lemma made_iff_of_range (upto : List BlockId) (hm : upto.length = m)
    (hrange : db.synopsisRange lastNonUndoable ref = .ok (some r)) (hpos : 0 < upto.length)
    (hlow : r.lowBlockNum = max 1 (min lastNonUndoable upto.length))
    (hhigh : r.highBlockNum = upto.length) (hupto : Consecutive 0 upto)
    (hsize : upto.length + ids.length < 2 ^ 32)
    (hnum : ∀ n id, r.idFor db n = .ok id → id.num = n) :
    (∃ fuel s, createBlockchainSynopsis fuel db lastNonUndoable ref ids = some (.ok s) ∧
      Synopsis (upto ++ ids) (max 1 (min lastNonUndoable upto.length)) s) ↔
    upto.length + ids.length < 2 ^ 32 - 1 ∧
      ∀ n ∈ halvings (upto.length + ids.length)
          (upto.length + ids.length + 1 - max 1 (min lastNonUndoable upto.length)),
        n ≤ upto.length → r.idFor db n = .ok (idAt upto n) := by
  subst hm
  rcases lt_or_ge (upto.length + ids.length) (2 ^ 32 - 1) with hlast | hlast
  · rw [and_iff_right hlast, ← hlow]
    exact makes_iff hrange (by omega) (by omega) hhigh hupto hids hlast hnum
  · refine iff_of_false (fun ⟨fuel, s, hs, _⟩ => ?_) fun h => absurd h.1 hlast.not_gt
    exact createBlockchainSynopsis_ne_ok hids hrange hhigh (by omega) fuel s hs

end

end Database

end Range

/-! ### The reference points -/

section Points

variable {β ω : Type} {db : Database β ω} {main : List (SignedBlock β)} {lastNonUndoable : ℕ}
  {ids : List BlockId} {r : Database.SynopsisRange}

lemma idAt_map {l : List (SignedBlock β)} {n : ℕ} {b : SignedBlock β} (h : l[n - 1]? = some b) :
    idAt (l.map (·.id)) n = b.id := by
  rw [idAt, List.getD_eq_getElem?_getD, List.getElem?_map, h]
  rfl

namespace Database

/-- The block database shows the main chain. -/
lemma MainChain.getBlockIdForNum_eq (hmain : db.MainChain main) {n : ℕ} {b : SignedBlock β}
    (hpos : 0 < n) (hb : main[n - 1]? = some b) : db.getBlockIdForNum n = some b.id := by
  have hstored := hmain.stored (n - 1) b hb
  rwa [Nat.sub_add_cancel hpos] at hstored

lemma idFor_eq_ok_iff {n : ℕ} {id : BlockId} (hn : n ≤ r.nonForkHighBlockNum) :
    r.idFor db n = .ok id ↔ db.getBlockIdForNum n = some id := by
  rw [SynopsisRange.idFor, if_pos hn]
  cases db.getBlockIdForNum n <;> simp

/-- The ids that are found without a fork have the numbers that are asked for. -/
lemma num_idFor (hmain : db.MainChain main) (hhistory : r.forkHistory = []) (n : ℕ) (id : BlockId)
    (h : r.idFor db n = .ok id) : id.num = n := by
  rcases le_or_gt n r.nonForkHighBlockNum with hn | hn
  · exact hmain.entries n id ((idFor_eq_ok_iff hn).mp h)
  · rw [SynopsisRange.idFor, if_neg hn.not_ge] at h
    simp [hhistory] at h

/-- **The synopsis of the chain up to a block of the main chain.** -/
lemma made_iff_of_included (hmain : db.MainChain main) {upto : List (SignedBlock β)} {ref : BlockId}
    (hrange : db.synopsisRange lastNonUndoable ref =
      .ok (some ⟨max 1 (min lastNonUndoable upto.length), upto.length, upto.length, []⟩))
    (hpos : 0 < upto.length) (hupto : Succession upto) (hids : Consecutive upto.length ids)
    (hsize : upto.length + ids.length < 2 ^ 32) :
    (∃ fuel s, createBlockchainSynopsis fuel db lastNonUndoable ref ids = some (.ok s) ∧
      Synopsis (upto.map (·.id) ++ ids) (max 1 (min lastNonUndoable upto.length)) s) ↔
    upto.length + ids.length < 2 ^ 32 - 1 ∧
      ∀ n ∈ halvings (upto.length + ids.length)
          (upto.length + ids.length + 1 - max 1 (min lastNonUndoable upto.length)),
        n ≤ upto.length → db.getBlockIdForNum n = (upto[n - 1]?).map (·.id) := by
  have hlen : (upto.map (·.id)).length = upto.length := List.length_map _
  have hiff := made_iff_of_range (hlen ▸ hids) (upto.map (·.id)) rfl hrange (hlen ▸ hpos)
    (by rw [hlen]) (by rw [hlen]) hupto.consecutive (by rwa [hlen]) (num_idFor hmain rfl)
  rw [hlen] at hiff
  rw [hiff]
  refine and_congr_right fun _ => forall₂_congr fun n hn => forall_congr' fun hle => ?_
  have hn' := mem_halvings hn
  have hget := List.getElem?_eq_getElem (show n - 1 < upto.length by omega)
  rw [idFor_eq_ok_iff hle, hget, idAt_map hget, Option.map_some]

/-- Without a range no synopsis is made. -/
lemma createBlockchainSynopsis_of_error {ref : BlockId} {e : SynopsisError}
    (hrange : db.synopsisRange lastNonUndoable ref = .error e) (fuel : ℕ) (s : List BlockId) :
    createBlockchainSynopsis fuel db lastNonUndoable ref ids ≠ some (.ok s) := by
  simp [createBlockchainSynopsis, getBlockchainSynopsis, hrange]

/-- On an empty chain there is no head to find a fork from. -/
lemma synopsisRange_of_empty (hmain : db.MainChain []) {ref id : BlockId} (hne : ref ≠ .zero)
    (hentry : db.getBlockIdForNum ref.num = some id) (hid : id ≠ ref) :
    ∃ e, db.synopsisRange lastNonUndoable ref = .error e := by
  have hfetch : db.forkDb.fetchBlock .zero = none := by
    refine List.find?_eq_none.mpr fun it _ hit => ?_
    have hzero : it.id = .zero := of_decide_eq_true hit
    exact absurd (congrArg BlockId.num hzero) (Nat.succ_ne_zero _)
  have hhead : db.objects.headBlockId = .zero := hmain.headBlockId
  refine ⟨.chain .unknownBranch, ?_⟩
  simp [synopsisRange, hne, isIncludedBlock, hentry, hid.symm, getBlockIdsOnFork, hhead,
    ForkDatabase.fetchBranchFrom, hfetch, Except.mapError, bind, Except.bind]

section Forks

variable {k : ℕ} {fork : List (SignedBlock β)}

/-- Up to the fork the ids are those of the main chain, and above it those of the fork. -/
lemma idFor_fork (hmain : db.MainChain main) {chain : List (SignedBlock β)} {low high top n : ℕ}
    (hsame : ∀ i, i < top → main[i]? = chain[i]?) (hpos : 0 < n) (hn : n ≤ chain.length) :
    SynopsisRange.idFor db ⟨low, high, top, (chain.drop top).map (·.id)⟩ n =
      .ok (idAt (chain.map (·.id)) n) := by
  have hget := List.getElem?_eq_getElem (show n - 1 < chain.length by omega)
  rw [idAt_map hget]
  rcases le_or_gt n top with hle | hgt
  · exact (idFor_eq_ok_iff hle).mpr
      (hmain.getBlockIdForNum_eq hpos ((hsame (n - 1) (by omega)).trans hget))
  · have hindex : top + (n - top - 1) = n - 1 := by omega
    rw [SynopsisRange.idFor, if_neg hgt.not_ge]
    simp only [List.getElem?_map, List.getElem?_drop, hindex, hget, Option.map_some]

/-- The ids that are found have the numbers that are asked for. -/
lemma num_idFor_fork (hmain : db.MainChain main) {chain : List (SignedBlock β)}
    (hchain : Succession chain) {low high top : ℕ} (n : ℕ) (id : BlockId)
    (h : SynopsisRange.idFor db ⟨low, high, top, (chain.drop top).map (·.id)⟩ n = .ok id) :
    id.num = n := by
  rcases le_or_gt n top with hle | hgt
  · exact hmain.entries n id ((idFor_eq_ok_iff hle).mp h)
  · rw [SynopsisRange.idFor, if_neg hgt.not_ge] at h
    simp only [List.getElem?_map, List.getElem?_drop] at h
    cases hget : chain[top + (n - top - 1)]? with
    | none => simp [hget] at h
    | some b =>
        simp only [hget, Option.map_some, Except.ok.injEq] at h
        rw [← h, SignedBlock.id_num, hchain.blockNum hget]
        omega

/-- The synopsis of the chain up to a block of a fork that leaves the main chain below the head or,
if the head can be undone, at the head. -/
lemma made_iff_of_fork (hmain : db.MainChain main) (hfork : OnFork db.forkDb main k fork)
    (hlow : lastNonUndoable ≤ k) {id : BlockId}
    (hentry : db.getBlockIdForNum (k + fork.length) = some id) (hid : id ≠ lastId fork)
    (hids : Consecutive (main.take k ++ fork).length ids)
    (hsize : (main.take k ++ fork).length + ids.length < 2 ^ 32) :
    (∃ fuel s, createBlockchainSynopsis fuel db lastNonUndoable (lastId (main.take k ++ fork)) ids =
        some (.ok s) ∧
      Synopsis ((main.take k ++ fork).map (·.id) ++ ids)
        (max 1 (min lastNonUndoable (main.take k ++ fork).length)) s) ↔
    (main.take k ++ fork).length + ids.length < 2 ^ 32 - 1 ∧
      (k < main.length ∨ lastNonUndoable < main.length) := by
  have hk := hfork.le
  have hfpos := List.length_pos_iff.mpr hfork.ne_nil
  set chain := main.take k ++ fork with hchain
  have hlen : chain.length = k + fork.length := by simp [hchain, hk]
  have hne : chain ≠ [] := by
    rw [← List.length_pos_iff]
    omega
  have hnum : (lastId chain).num = k + fork.length := hfork.succession.num_lastId.trans hlen
  have hlast : lastId chain = lastId fork := lastId_append hfork.ne_nil
  have hzero := hfork.succession.lastId_ne_zero hne
  have hentry' : db.getBlockIdForNum (lastId chain).num = some id := hnum ▸ hentry
  have hid' : id ≠ lastId chain := hlast ▸ hid
  rcases eq_or_ne main [] with rfl | hmne
  · obtain ⟨e, he⟩ := synopsisRange_of_empty hmain hzero hentry' hid'
    refine iff_of_false (fun ⟨fuel, s, hs, _⟩ => createBlockchainSynopsis_of_error he fuel s hs) ?_
    simp
  have hmpos := List.length_pos_iff.mpr hmne
  set top := min k (main.length - 1) with htop
  have htopnum : (lastId (main.take top)).num = top := by
    rw [(hmain.succession.take top).num_lastId, List.length_take]
    omega
  have hrange := synopsisRange_fork lastNonUndoable hzero hentry' hid'
    (getBlockIdsOnFork_eq hmain hfork hmne)
  rw [← hchain, ← htop, htopnum] at hrange
  by_cases hthrow : top < lastNonUndoable
  · rw [if_pos hthrow] at hrange
    refine iff_of_false
      (fun ⟨fuel, s, hs, _⟩ => createBlockchainSynopsis_of_error hrange fuel s hs) ?_
    omega
  · rw [if_neg hthrow] at hrange
    have hsame : ∀ i, i < top → main[i]? = chain[i]? := fun i hi => by
      rw [List.getElem?_append_left (by simp; omega), List.getElem?_take_of_lt (by omega)]
    have hmap : (chain.map (·.id)).length = chain.length := List.length_map _
    have hiff := made_iff_of_range (hmap ▸ hids) (chain.map (·.id)) rfl hrange (by omega)
      (by rw [hmap, hlen, min_eq_left (by omega)])
      (by simp only [List.length_map, List.length_drop]; omega)
      hfork.succession.consecutive (by rwa [hmap]) (num_idFor_fork hmain hfork.succession)
    rw [hmap] at hiff
    rw [hiff]
    refine and_congr_right fun _ => iff_of_true (fun n hn hle => ?_) (by omega)
    have hn' := mem_halvings hn
    exact idFor_fork hmain hsame (by omega) hle

end Forks

/-- A chain of no blocks is summarised by the ids that the peer has announced. -/
lemma made_iff_of_empty (hmain : db.MainChain []) (hids : Consecutive 0 ids)
    (hsize : ids.length < 2 ^ 32) :
    (∃ fuel s, createBlockchainSynopsis fuel db lastNonUndoable .zero ids = some (.ok s) ∧
      Synopsis ids 1 s) ↔ ids.length < 2 ^ 32 - 1 := by
  have hhead : db.objects.headBlockNumber = 0 := hmain.headBlockNumber
  have hmade : ∀ fuel, createBlockchainSynopsis fuel db lastNonUndoable .zero ids =
      completeSynopsis fuel ids [] := fun fuel => by
    simp [createBlockchainSynopsis, getBlockchainSynopsis, synopsisRange, hhead, pure, Except.pure]
  constructor
  · rintro ⟨fuel, s, hs, -⟩
    by_contra hlast
    rw [hmade] at hs
    refine completeSynopsis_ne_ok hids ?_ (by omega) fuel [] s hs
    rintro rfl
    simp at hlast
  · intro hlast
    refine ⟨ids.length + 1, (halvings ids.length ids.length).map (idAt ids), ?_, ?_⟩
    · have hall : (halvings ids.length ids.length).filter (0 < ·) = halvings ids.length ids.length :=
        List.filter_eq_self.mpr fun n hn => decide_eq_true (by have := mem_halvings hn; omega)
      have hrun := completeSynopsis_eq (s := []) (ids.length + 1) hids one_pos le_rfl
        (by omega) (by omega)
      simpa only [hmade, firstBlockNum, Nat.zero_add, Nat.add_sub_cancel, hall, Nat.sub_zero,
        List.nil_append] using hrun
    · rcases eq_or_ne ids [] with rfl | hne
      · exact ⟨by simp, by simp, by simp, by simp, by simp⟩
      · simpa only [Nat.add_sub_cancel] using
          synopsis_halvings hids one_pos (List.length_pos_iff.mpr hne)

/-- The synopsis of the whole chain. -/
lemma made_iff_of_none (hmain : db.MainChain main) (hlow : lastNonUndoable ≤ main.length)
    (hids : Consecutive main.length ids) (hsize : main.length + ids.length < 2 ^ 32) :
    (∃ fuel s, createBlockchainSynopsis fuel db lastNonUndoable .zero ids = some (.ok s) ∧
      Synopsis (main.map (·.id) ++ ids) (max 1 (min lastNonUndoable main.length)) s) ↔
    main.length + ids.length < 2 ^ 32 - 1 := by
  rcases eq_or_ne main [] with rfl | hne
  · rw [List.length_nil, Nat.zero_add] at hsize
    simpa using made_iff_of_empty hmain hids hsize
  · have hpos := List.length_pos_iff.mpr hne
    have hrange := synopsisRange_zero lastNonUndoable
      (hmain.headBlockNumber.trans_ne hpos.ne')
    have hmin : max 1 lastNonUndoable = max 1 (min lastNonUndoable main.length) := by
      rw [min_eq_left hlow]
    rw [hmain.headBlockNumber, hmin] at hrange
    rw [made_iff_of_included hmain hrange hpos hmain.succession hids hsize]
    refine and_iff_left fun n hn hle => ?_
    have hn' := mem_halvings hn
    have hget := List.getElem?_eq_getElem (show n - 1 < main.length by omega)
    rw [hmain.getBlockIdForNum_eq (by omega) hget, hget, Option.map_some]

/-- The synopsis of the chain up to one of its blocks. -/
lemma made_iff_of_onMain (hmain : db.MainChain main) {num : ℕ} (hpos : 0 < num)
    (hle : num ≤ main.length) (hids : Consecutive (main.take num).length ids)
    (hsize : (main.take num).length + ids.length < 2 ^ 32) :
    (∃ fuel s, createBlockchainSynopsis fuel db lastNonUndoable (lastId (main.take num)) ids =
        some (.ok s) ∧
      Synopsis ((main.take num).map (·.id) ++ ids)
        (max 1 (min lastNonUndoable (main.take num).length)) s) ↔
    (main.take num).length + ids.length < 2 ^ 32 - 1 := by
  have hupto := hmain.succession.take num
  have hlen : (main.take num).length = num := List.length_take_of_le hle
  have hne : main.take num ≠ [] := by
    rw [← List.length_pos_iff, hlen]
    exact hpos
  have hget := List.getElem?_eq_getElem (show num - 1 < main.length by omega)
  have hlast : lastId (main.take num) = main[num - 1].id := by
    have htake := lastId_take_succ hget
    rwa [Nat.sub_add_cancel hpos] at htake
  have hentry : db.getBlockIdForNum (lastId (main.take num)).num = some (lastId (main.take num)) := by
    rw [hupto.num_lastId, hlen, hmain.getBlockIdForNum_eq hpos hget, hlast]
  have hrange := synopsisRange_included lastNonUndoable
    (hupto.lastId_ne_zero hne) hentry
  rw [hupto.num_lastId] at hrange
  rw [made_iff_of_included hmain hrange (by omega) hupto hids hsize]
  refine and_iff_left fun n hn hle' => ?_
  have hn' := mem_halvings hn
  have hget := List.getElem?_eq_getElem (show n - 1 < main.length by omega)
  rw [hmain.getBlockIdForNum_eq (by omega) hget, List.getElem?_take_of_lt (by omega), hget,
    Option.map_some]

/-- The synopsis of the chain up to a block of a fork. -/
lemma made_iff_of_onFork (hmain : db.MainChain main) {k : ℕ} {fork : List (SignedBlock β)}
    (hfork : OnFork db.forkDb main k fork) (hlow : lastNonUndoable ≤ k)
    (hids : Consecutive (main.take k ++ fork).length ids)
    (hsize : (main.take k ++ fork).length + ids.length < 2 ^ 32) :
    (∃ fuel s, createBlockchainSynopsis fuel db lastNonUndoable (lastId (main.take k ++ fork)) ids =
        some (.ok s) ∧
      Synopsis ((main.take k ++ fork).map (·.id) ++ ids)
        (max 1 (min lastNonUndoable (main.take k ++ fork).length)) s) ↔
    (main.take k ++ fork).length + ids.length < 2 ^ 32 - 1 ∧
      (Point.onFork k fork).Readable db main lastNonUndoable ids.length := by
  have hlen : (main.take k ++ fork).length = k + fork.length := by simp [hfork.le]
  have hne : main.take k ++ fork ≠ [] := List.append_ne_nil_of_right_ne_nil _ hfork.ne_nil
  have hnum : (lastId (main.take k ++ fork)).num = k + fork.length :=
    hfork.succession.num_lastId.trans hlen
  have hlast : lastId (main.take k ++ fork) = lastId fork := lastId_append hfork.ne_nil
  have hzero := hfork.succession.lastId_ne_zero hne
  cases hentry : db.getBlockIdForNum (k + fork.length) with
  | none =>
      have hrange := synopsisRange_missing lastNonUndoable hzero (hnum ▸ hentry)
      exact iff_of_false
        (fun ⟨fuel, s, hs, _⟩ => createBlockchainSynopsis_of_error hrange fuel s hs)
        fun h => by simpa [Point.Readable, hentry] using h.2
  | some id =>
      by_cases hid : id = lastId fork
      · -- the block database has the fork's own block: it takes the fork for the main chain
        have hrange := synopsisRange_included lastNonUndoable hzero
          (by rw [hnum, hentry, hid, hlast])
        rw [hfork.succession.num_lastId] at hrange
        have hmin : min lastNonUndoable (k + fork.length) = lastNonUndoable := by omega
        rw [made_iff_of_included hmain hrange (List.length_pos_iff.mpr hne) hfork.succession hids
          hsize]
        simp only [Point.Readable, hentry, hid, if_true, hlen, hmin]
      · rw [made_iff_of_fork hmain hfork hlow hentry hid hids hsize]
        simp only [Point.Readable, hentry, hid, if_false]

/-- **When a synopsis is made, and is well formed**: the last number is not the largest one, and the
ids up to the reference point can be read. -/
theorem createBlockchainSynopsis_iff (hmain : db.MainChain main) (hlow : lastNonUndoable ≤ main.length)
    {p : Point β} (hp : p.Known db main lastNonUndoable)
    (hids : Consecutive (p.chain main).length ids)
    (hsize : (p.chain main).length + ids.length < 2 ^ 32) :
    (∃ fuel s, createBlockchainSynopsis fuel db lastNonUndoable (p.id main) ids = some (.ok s) ∧
      Synopsis ((p.chain main).map (·.id) ++ ids)
        (max 1 (min lastNonUndoable (p.chain main).length)) s) ↔
    (p.chain main).length + ids.length < 2 ^ 32 - 1 ∧
      p.Readable db main lastNonUndoable ids.length := by
  cases p with
  | none => exact (made_iff_of_none hmain hlow hids hsize).trans (and_iff_left trivial).symm
  | onMain n =>
      exact (made_iff_of_onMain hmain hp.1 hp.2 hids hsize).trans (and_iff_left trivial).symm
  | onFork k fork => exact made_iff_of_onFork hmain hp.2 hp.1 hids hsize

end Database

end Points

/-! ### Two nodes -/

section Nodes

open Database ForkDatabase

/-- A node with a main chain of three blocks, which its block database and its fork database hold. -/
def threeBlocks (forks : List (ForkItem Unit)) (entries : List IndexEntry) : Database Unit Unit where
  objects :=
    { headBlockNumber := 3
      headBlockId := ⟨3, 3⟩
      activeWitnesses := []
      world := () }
  forkDb :=
    { index := forks ++ [⟨2, some 1, blockOn ⟨2, 2⟩ 3⟩, ⟨1, some 0, blockOn ⟨1, 1⟩ 2⟩,
        ⟨0, none, blockOn .zero 1⟩] }
  blockDb := { index := [{}, ⟨0, 1, ⟨1, 1⟩⟩, ⟨1, 1, ⟨2, 2⟩⟩, ⟨2, 1, ⟨3, 3⟩⟩] ++ entries }

/-- The main chain of three blocks. -/
def threeChain : List (SignedBlock Unit) :=
  [blockOn .zero 1, blockOn ⟨1, 1⟩ 2, blockOn ⟨2, 2⟩ 3]

/-- Another second block, on the first one. -/
def secondBlock : SignedBlock Unit := blockOn ⟨1, 1⟩ 4

/-- A fourth block, on the head. -/
def fourthBlock : SignedBlock Unit := blockOn ⟨3, 3⟩ 5

lemma threeBlocks_mainChain (forks : List (ForkItem Unit)) (entries : List IndexEntry)
    (hentries : ∀ i e, entries[i]? = some e → e.blockId.num = i + 4) :
    (threeBlocks forks entries).MainChain threeChain where
  succession := ⟨by rintro (_ | _ | _ | i) b hb <;> cases hb <;> rfl⟩
  headBlockNumber := rfl
  headBlockId := rfl
  stored := by rintro (_ | _ | _ | i) b hb <;> cases hb <;> rfl
  entries := by
    rintro (_ | _ | _ | _ | n) id hid
    · cases hid
    · cases hid; rfl
    · cases hid; rfl
    · cases hid; rfl
    · have hindex : (threeBlocks forks entries).blockDb.index[n + 4]? = entries[n]? := rfl
      rw [getBlockIdForNum, BlockDatabase.fetchBlockId, hindex] at hid
      cases hget : entries[n]? with
      | none => simp [hget] at hid
      | some e =>
          simp only [hget] at hid
          split_ifs at hid
          cases hid
          exact hentries n e hget

/-- A synopsis of a chain with a fork, and a block that the peer has announced. -/
theorem createBlockchainSynopsis_iff_secondBlock :
    ∃ fuel s, Database.createBlockchainSynopsis fuel
        (threeBlocks [⟨3, some 0, secondBlock⟩] []) 1 ⟨2, 4⟩ [⟨3, 7⟩] = some (.ok s) ∧
      Synopsis [⟨1, 1⟩, ⟨2, 4⟩, ⟨3, 7⟩] 1 s := by
  have hfork : OnFork (threeBlocks [⟨3, some 0, secondBlock⟩] []).forkDb threeChain 1 [secondBlock] :=
    { ne_nil := by simp
      le := by decide
      succession := ⟨by rintro (_ | _ | i) b hb <;> cases hb <;> rfl⟩
      apart := by decide
      holdsMain := ⟨[⟨2, some 1, blockOn ⟨2, 2⟩ 3⟩, ⟨1, some 0, blockOn ⟨1, 1⟩ 2⟩], rfl,
        .cons_cons rfl (.singleton _), by rintro _ ⟨⟩; rfl⟩
      holdsFork := ⟨[⟨3, some 0, secondBlock⟩], rfl, .singleton _, by rintro _ ⟨⟩; rfl⟩ }
  have hids : Consecutive 2 [⟨3, 7⟩] := by rintro (_ | i) id hid <;> cases hid; rfl
  have hlow : 1 ≤ threeChain.length := by decide
  exact (Database.createBlockchainSynopsis_iff (threeBlocks_mainChain _ _ (by simp)) hlow
    (p := .onFork 1 [secondBlock]) ⟨le_rfl, hfork⟩ hids (by decide)).mpr ⟨by decide, .inl (by decide)⟩

/-- A fork on the head is not found where the head cannot be undone: the head itself is taken for a
block of the fork. -/
theorem not_made_fourthBlock :
    (threeBlocks [⟨3, some 2, fourthBlock⟩] [⟨3, 1, ⟨4, 9⟩⟩]).MainChain threeChain ∧
      (Point.onFork 3 [fourthBlock]).Known (threeBlocks [⟨3, some 2, fourthBlock⟩] [⟨3, 1, ⟨4, 9⟩⟩])
        threeChain 3 ∧
      ¬ ∃ fuel s, Database.createBlockchainSynopsis fuel
        (threeBlocks [⟨3, some 2, fourthBlock⟩] [⟨3, 1, ⟨4, 9⟩⟩]) 3 ⟨4, 5⟩ [] = some (.ok s) ∧
          Synopsis [⟨1, 1⟩, ⟨2, 2⟩, ⟨3, 3⟩, ⟨4, 5⟩] 3 s := by
  have hmain := threeBlocks_mainChain [⟨3, some 2, fourthBlock⟩] [⟨3, 1, ⟨4, 9⟩⟩]
    (by rintro (_ | i) e he <;> cases he; rfl)
  have hfork : OnFork (threeBlocks [⟨3, some 2, fourthBlock⟩] [⟨3, 1, ⟨4, 9⟩⟩]).forkDb threeChain 3
      [fourthBlock] :=
    { ne_nil := by simp
      le := by decide
      succession := ⟨by rintro (_ | _ | _ | _ | i) b hb <;> cases hb <;> rfl⟩
      apart := by decide
      holdsMain := ⟨[⟨2, some 1, blockOn ⟨2, 2⟩ 3⟩], rfl, .singleton _, by rintro _ ⟨⟩; rfl⟩
      holdsFork := ⟨[⟨3, some 2, fourthBlock⟩, ⟨2, some 1, blockOn ⟨2, 2⟩ 3⟩], rfl,
        .cons_cons rfl (.singleton _), by rintro _ ⟨⟩; rfl⟩ }
  refine ⟨hmain, ⟨le_rfl, hfork⟩, fun h => ?_⟩
  have hids : Consecutive 4 [] := by simp [Consecutive]
  have hid : (⟨4, 9⟩ : BlockId) ≠ lastId [fourthBlock] := by decide
  have hiff := Database.made_iff_of_fork hmain hfork le_rfl rfl hid hids (by decide)
  exact absurd (hiff.mp h).2 (by decide)

end Nodes

end ZosCore
