import ZosCore.Chain.Horizon
import ZosCore.Chain.Synopsis
import ZosCore.Net.Node

/-!
`app/application.cpp`, `get_block_ids`: which ids a node sends to a peer that asks for those after
its synopsis, and `net/node.cpp`, the checks of the peer that gets them.

The function looks for the last id of the synopsis that the node knows and that the index of the
block database has at its number, and lists that index from there to the head.

* `isKnownBlock`, `lastKnownBlock`, `blockIdsFrom`, `getBlockIds`: the functions of the source.
* `Dynamic.Counted`: the blocks of the chain have the numbers from 1 to that of the head.
* `HonestReply`: what a reply is to be.
* `Answers`: the index and the fork database answer as the main chain does.
* **`getBlockIds_honest`**: then the reply is honest, and it passes the checks.
-/

namespace ZosCore

open Net

/-! ### The functions of the source -/

/-- What `get_block_ids` throws. -/
inductive BlockIdsError where
  /-- "Unable to provide a list of blocks starting at any of the blocks in peer's synopsis" -/
  | unreachableFork
  /-- An exception of `get_block_id_for_num`. -/
  | chain (e : SynopsisError)
  deriving DecidableEq

namespace Database

variable {β ω : Type}

/-- `is_known_block`. -/
def isKnownBlock (db : Database β ω) (id : BlockId) : Bool :=
  (db.forkDb.fetchBlock id).isSome || db.blockDb.contains id

/-- The loop over the synopsis, which is listed from its end on. -/
def lastKnownBlock (db : Database β ω) : List BlockId → Except BlockIdsError (Option BlockId)
  | [] => .ok none
  | id :: ids =>
      if id = .zero then .ok (some id)
      else if db.isKnownBlock id then
        match db.isIncludedBlock id with
        | .error e => .error (.chain e)
        | .ok true => .ok (some id)
        | .ok false => db.lastKnownBlock ids
      else db.lastKnownBlock ids

/-- The loop over the blocks from the number `num` on, for so many ids at most. The number is a
`uint32_t`, and there is no block 0. -/
def blockIdsFrom (db : Database β ω) : ℕ → ℕ → Except BlockIdsError (List BlockId)
  | 0, _ => .ok []
  | limit + 1, num =>
      let num := if num = 0 then 1 else num
      if num ≤ db.objects.headBlockNumber then
        match db.getBlockIdForNum num with
        | none => .error (.chain .keyNotFound)
        | some id => (db.blockIdsFrom limit ((num + 1) % 2 ^ 32)).map (id :: ·)
      else .ok []

/-- `last_known_block_id`. An old peer without blocks sends a block id of zeros. -/
def lastKnownBlockId (db : Database β ω) (synopsis : List BlockId) : Except BlockIdsError BlockId :=
  if synopsis = [] ∨ synopsis = [.zero] then .ok .zero
  else
    match db.lastKnownBlock synopsis.reverse with
    | .error e => .error e
    | .ok none => .error .unreachableFork
    | .ok (some id) => .ok id

/-- The number of the last id, 0 if there is none. -/
def lastNum (ids : List BlockId) : ℕ := ids.getLast?.elim 0 (·.num)

/-- `get_block_ids`: the ids, and `remaining_item_count`. -/
def getBlockIds (db : Database β ω) (synopsis : List BlockId) (limit : ℕ) :
    Except BlockIdsError (List BlockId × ℕ) :=
  if db.objects.headBlockNumber = 0 then .ok ([], 0)
  else
    match db.lastKnownBlockId synopsis with
    | .error e => .error e
    | .ok id => (db.blockIdsFrom limit id.num).map fun ids =>
        (ids, if ids = [] then 0 else db.objects.headBlockNumber - lastNum ids)

end Database

/-! ### The numbers of the chain -/

section Counted

variable {β ω : Type} {R : Rules β ω} {d : ℕ}

/-- The blocks of the chain have the numbers from 1 to that of the head. -/
structure Dynamic.Counted (c : Dynamic β) : Prop where
  sound : c.Sound
  headBlockNumber : c.headBlockNumber = c.chain.length
  consecutive : Consecutive 0 (c.chain.reverse.map (·.id))

/-- A block that follows the head has the next number. -/
lemma Dynamic.Counted.withHead {c : Dynamic β} (h : c.Counted) {b : SignedBlock β}
    (hprev : c.headBlockId = b.previous) : (c.withHead b).Counted := by
  have hnum : b.blockNum = c.chain.length + 1 := by
    rw [h.sound.blockNum_eq hprev, h.headBlockNumber]
  refine ⟨(Dynamic.leads_withHead hprev h.sound).2, hnum, ?_⟩
  have hids : ((c.withHead b).chain.reverse).map (·.id) = c.chain.reverse.map (·.id) ++ [b.id] := by
    simp [Dynamic.withHead]
  rw [hids]
  refine h.consecutive.append fun i id hi => ?_
  obtain ⟨rfl, rfl⟩ : i = 0 ∧ id = b.id := by
    cases i with
    | zero => simpa using hi.symm
    | succ i => simp at hi
  simpa [SignedBlock.blockNum] using hnum

/-- What comes after the head has moved leaves the numbers. -/
lemma Dynamic.Counted.concluded {o o' : Objects β ω} (h : o.dynamic.Counted) (ho : o.Concluded o') :
    o'.dynamic.Counted := by
  have hchain : o'.dynamic.chain = o.dynamic.chain := ho.chain
  have hhead : o'.dynamic.headBlockNumber = o.dynamic.headBlockNumber := ho.headBlockNumber
  refine ⟨(ho.leads h.sound).2, ?_, ?_⟩
  · rw [hhead, hchain, h.headBlockNumber]
  · rw [hchain]
    exact h.consecutive

/-- The calls of a node keep the numbers, in every undo state. -/
lemma counted_chainInvariant (R : Rules β ω) (d : ℕ) :
    ChainInvariant R d (fun _ => True) (fun _ => True) (fun _ => True)
      (fun _ => (Throughout (fun _ _ => True) (·.dynamic.Counted) : Database β ω → Prop))
      (Throughout (fun _ _ => True) (·.dynamic.Counted)) fun _ => True := by
  have hinv : OperationInvariant (0 + d) (fun _ => True)
      (fun _ => (Throughout (fun _ _ => True) (·.dynamic.Counted) : Database β ω → Prop))
      fun _ => True :=
    Throughout.operationInvariant _ (fun _ _ h ho => ho.dynamic ▸ h) fun _ _ _ _ => trivial
  have hoperates := hinv.operates_all (R := R) (d := d) (k := 0) le_rfl
  have htransaction : ∀ trx : Transaction β,
      Upholds (Throughout (fun _ _ => True) (·.dynamic.Counted)) (fun _ => True)
        (Database.applyTransaction R d trx) := fun trx =>
    Upholds.applyTransaction (fun op _ => hoperates.operation op (op.admitted_true R))
      fun db h => h.record h.2.2.1
  refine Throughout.chainInvariant (fun _ _ _ _ => trivial) (fun _ _ _ _ _ => trivial)
    (fun trx _ => htransaction trx) fun b skip _ _ db hdb => ?_
  have hsteps : ∀ skip', BlockSteps R d (0 + d) (fun _ => True) db.objects.dynamic b skip'
      (fun _ => Throughout (fun _ _ => True) (·.dynamic.Counted))
      (Throughout (fun _ _ => True) (·.dynamic.Counted)) fun _ => True := fun skip' =>
    { hinv with
      operates := hoperates
      transactions := fun _ => (Upholds.forEach _ fun trx _ => htransaction trx).conseq
        (fun _ h => h.1) (fun _ _ h => h) fun _ _ h => h
      rule := hinv.runRule (k := 0)
      head := fun {s} hprev _ h hc => by
        have hcounted : s.objects.dynamic.Counted := h.2.2.1
        exact h.record (hcounted.withHead ((congrArg Dynamic.headBlockId hc).trans hprev))
      concluded := fun h ho => h.record (h.2.2.1.concluded ho)
      other := fun _ _ _ h => h
      ended := fun _ _ _ => trivial
      resize := fun _ h => h }
  obtain ⟨hok, herr⟩ := BlockSteps.applyBlock
    (I := fun _ => Throughout (fun _ _ => True) (·.dynamic.Counted))
    (fun _ skip' _ _ _ => hsteps skip') db ⟨hdb, rfl⟩
  exact ⟨fun a s' hx => (hok a s' hx).1, herr⟩

/-- A run from a chain without blocks leaves the chain counted. -/
lemma Database.Run.counted {db₀ db : Database β ω} {l : List (Call β)}
    (hrun : Database.Run R d db₀ l db) (h₀ : db₀.Begins)
    (hhead : db₀.objects.headBlockNumber = 0) : db.objects.dynamic.Counted := by
  have hchain : db₀.objects.dynamic.chain = [] := h₀.chain
  have hbegin : db₀.objects.dynamic.Counted := by
    refine ⟨h₀.sound, ?_, ?_⟩
    · rw [hchain]
      exact hhead
    · simp [hchain, Consecutive]
  have hdb := (counted_chainInvariant R d).run hrun (Database.within_true l)
    ⟨h₀.toFresh.holds, trivial, h₀.enabled, hbegin, by simp [h₀.stack]⟩
  exact hdb.2.2.2.1

end Counted

/-! ### Parts of the chain -/

section Chains

variable {chain ids : List BlockId} {m n : ℕ}

/-- The first block that is listed, and those behind it. -/
lemma drop_eq_idAt_cons (hpos : 0 < n) (hn : n ≤ chain.length) :
    chain.drop (n - 1) = idAt chain n :: chain.drop n := by
  have hlt : n - 1 < chain.length := by omega
  rw [List.drop_eq_getElem_cons hlt, Nat.sub_add_cancel hpos]
  simp [idAt, List.getD_eq_getElem?_getD, hlt]

lemma Consecutive.tail {id : BlockId} (h : Consecutive m (id :: ids)) :
    id.num = m + 1 ∧ Consecutive (m + 1) ids := by
  refine ⟨h 0 id rfl, fun i x hx => ?_⟩
  have hnum := h (i + 1) x hx
  omega

/-- The blocks above a number. -/
lemma Consecutive.countP_num (h : Consecutive m chain) (k : ℕ) :
    chain.countP (k < ·.num) = chain.length - (k - m) := by
  induction chain generalizing m with
  | nil => simp
  | cons id l ih =>
      obtain ⟨hnum, hl⟩ := h.tail
      rw [List.countP_cons, ih hl, List.length_cons, hnum]
      by_cases hk : k < m + 1
      · simp only [hk, decide_true, if_true]
        omega
      · simp only [hk, decide_false, Bool.false_eq_true, if_false]
        omega

lemma Consecutive.isChain (h : Consecutive m chain) :
    chain.IsChain fun a b => b.num = a.num + 1 := by
  induction chain generalizing m with
  | nil => exact .nil
  | cons id l ih =>
      obtain ⟨hnum, hl⟩ := h.tail
      cases l with
      | nil => exact .singleton _
      | cons id' l =>
          have hnext := hl.tail.1
          exact .cons_cons (by omega) (ih hl)

lemma Consecutive.num_of_mem (h : Consecutive 0 chain) {id : BlockId} (hid : id ∈ chain) :
    0 < id.num ∧ id.num ≤ chain.length := by
  obtain ⟨i, hi⟩ := List.mem_iff_getElem?.mp hid
  obtain ⟨hlt, -⟩ := List.getElem?_eq_some_iff.mp hi
  have hnum := h i id hi
  omega

lemma num_of_isChain {first id : BlockId} {i : ℕ}
    (h : (first :: ids).IsChain fun a b => b.num = a.num + 1) (hi : (first :: ids)[i]? = some id) :
    id.num = first.num + i := by
  induction ids generalizing first i with
  | nil =>
      cases i with
      | zero => exact (congrArg BlockId.num (Option.some.inj hi)).symm
      | succ i => simp at hi
  | cons next ids ih =>
      cases i with
      | zero => exact (congrArg BlockId.num (Option.some.inj hi)).symm
      | succ i =>
          obtain ⟨hnext, htail⟩ := List.isChain_cons_cons.mp h
          have hnum := ih htail hi
          omega

/-- Ids of the chain whose numbers follow one another are a part of it. -/
lemma Consecutive.isPrefix_drop (h : Consecutive 0 chain) (honChain : ∀ id ∈ ids, id ∈ chain)
    (hconsecutive : ids.IsChain fun a b => b.num = a.num + 1) (hpos : 0 < n)
    (hfirst : ∀ id ∈ ids.head?, id.num = n) : ids <+: chain.drop (n - 1) := by
  induction ids generalizing n with
  | nil => exact List.nil_prefix
  | cons id l ih =>
      have hid : id ∈ chain := honChain id List.mem_cons_self
      obtain rfl : id.num = n := hfirst id rfl
      rw [drop_eq_idAt_cons hpos (h.num_of_mem hid).2, ← h.eq_idAt hid, List.cons_prefix_cons]
      refine ⟨rfl, ?_⟩
      have hl := ih (n := id.num + 1) (fun x hx => honChain x (List.mem_cons_of_mem _ hx))
        hconsecutive.tail (Nat.succ_pos _) fun x hx => ?_
      · simpa using hl
      · cases l with
        | nil => cases hx
        | cons y l =>
            obtain rfl := Option.some.inj hx
            exact (List.isChain_cons_cons.mp hconsecutive).1

end Chains

/-! ### The loops -/

section Loops

variable {β ω : Type} {db : Database β ω} {chain : List BlockId}

namespace Database

/-- An id that the loop over the synopsis stops at is known and included. -/
lemma lastKnownBlock_eq_some {l : List BlockId} (hids : ∀ id ∈ l, id ≠ .zero) {id : BlockId}
    (h : db.lastKnownBlock l = .ok (some id)) :
    id ∈ l ∧ db.isKnownBlock id = true ∧ db.getBlockIdForNum id.num = some id := by
  induction l with
  | nil => cases h
  | cons x l ih =>
      have hl : ∀ id ∈ l, id ≠ .zero := fun id hid => hids id (List.mem_cons_of_mem _ hid)
      have hrest (h : db.lastKnownBlock l = .ok (some id)) :
          id ∈ x :: l ∧ db.isKnownBlock id = true ∧ db.getBlockIdForNum id.num = some id :=
        ⟨List.mem_cons_of_mem _ (ih hl h).1, (ih hl h).2⟩
      rw [lastKnownBlock, if_neg (hids x List.mem_cons_self)] at h
      cases hknown : db.isKnownBlock x with
      | false =>
          rw [hknown, if_neg Bool.false_ne_true] at h
          exact hrest h
      | true =>
          rw [hknown, if_pos rfl, isIncludedBlock] at h
          cases hentry : db.getBlockIdForNum x.num with
          | none => simp [hentry] at h
          | some y =>
              by_cases hxy : x = y
              · subst hxy
                obtain rfl : x = id := by simpa [hentry] using h
                exact ⟨List.mem_cons_self, hknown, hentry⟩
              · exact hrest (by simpa [hentry, hxy] using h)

/-- **The loop over the synopsis** stops at the first id of the chain exactly if the index and the fork
database answer for the ids up to it as the chain does. -/
lemma lastKnownBlock_iff (chain : List BlockId) {l : List BlockId} (hids : ∀ id ∈ l, id ≠ .zero) :
    db.lastKnownBlock l = .ok (l.find? (· ∈ chain)) ↔
      (∀ id ∈ l.takeWhile (· ∉ chain), db.isKnownBlock id = true →
        ∃ id', db.getBlockIdForNum id.num = some id' ∧ id' ≠ id) ∧
      ∀ id ∈ l.find? (· ∈ chain), db.isKnownBlock id = true ∧
        db.getBlockIdForNum id.num = some id := by
  induction l with
  | nil => simp [lastKnownBlock]
  | cons x l ih =>
      have hl : ∀ id ∈ l, id ≠ .zero := fun id hid => hids id (List.mem_cons_of_mem _ hid)
      by_cases hx : x ∈ chain
      · have hfind : (x :: l).find? (· ∈ chain) = some x := by simp [hx]
        have hbefore : (x :: l).takeWhile (· ∉ chain) = [] := by simp [hx]
        rw [hfind, hbefore]
        refine ⟨fun h => ⟨nofun, fun id hid => ?_⟩, fun h => ?_⟩
        · obtain rfl := Option.some.inj hid
          exact (lastKnownBlock_eq_some hids h).2
        · obtain ⟨hknown, hentry⟩ := h.2 x rfl
          simp [lastKnownBlock, hids x List.mem_cons_self, hknown, isIncludedBlock, hentry]
      · have hfind : (x :: l).find? (· ∈ chain) = l.find? (· ∈ chain) := by simp [hx]
        have hbefore : (x :: l).takeWhile (· ∉ chain) = x :: l.takeWhile (· ∉ chain) := by simp [hx]
        rw [hfind, hbefore, List.forall_mem_cons, lastKnownBlock, if_neg (hids x List.mem_cons_self),
          and_assoc, ← ih hl]
        cases hknown : db.isKnownBlock x with
        | false => simp
        | true =>
            simp only [if_true, forall_const, isIncludedBlock]
            cases hentry : db.getBlockIdForNum x.num with
            | none => simp
            | some y =>
                by_cases hxy : x = y
                · -- the loop stops at an id that is not on the chain
                  subst hxy
                  refine iff_of_false (fun h => ?_) fun h => ?_
                  · have hmem : (some x : Option BlockId) = l.find? (· ∈ chain) := by simpa using h
                    exact hx (by simpa using List.find?_some hmem.symm)
                  · obtain ⟨⟨id', hid', hne⟩, -⟩ := h
                    exact hne (Option.some.inj hid').symm
                · simp [hxy, Ne.symm hxy]

/-- Block 0 is passed over. -/
lemma blockIdsFrom_zero (limit : ℕ) : db.blockIdsFrom (limit + 1) 0 = db.blockIdsFrom (limit + 1) 1 := by
  simp [blockIdsFrom]

/-- A list from a number of the chain on. -/
lemma blockIdsFrom_succ_eq_ok {n limit : ℕ} (hpos : 0 < n) (hn : n ≤ db.objects.headBlockNumber)
    {ids : List BlockId} : db.blockIdsFrom (limit + 1) n = .ok ids ↔
      ∃ id rest, db.getBlockIdForNum n = some id ∧
        db.blockIdsFrom limit ((n + 1) % 2 ^ 32) = .ok rest ∧ ids = id :: rest := by
  simp only [blockIdsFrom, hpos.ne', if_false, if_pos hn]
  cases hentry : db.getBlockIdForNum n with
  | none => simp
  | some id =>
      constructor
      · intro h
        obtain ⟨rest, hrest, rfl⟩ := except_map_eq_ok.mp h
        exact ⟨id, rest, rfl, hrest, rfl⟩
      · rintro ⟨_, rest, hid, hrest, rfl⟩
        obtain rfl := Option.some.inj hid
        exact except_map_eq_ok.mpr ⟨rest, hrest, rfl⟩

lemma blockIdsFrom_length_le {n limit : ℕ} {ids : List BlockId}
    (h : db.blockIdsFrom limit n = .ok ids) : ids.length ≤ limit := by
  induction limit generalizing n ids with
  | zero =>
      cases h
      exact le_rfl
  | succ limit ih =>
      simp only [blockIdsFrom] at h
      generalize (if n = 0 then 1 else n) = num at h
      by_cases hn : num ≤ db.objects.headBlockNumber
      · rw [if_pos hn] at h
        cases hentry : db.getBlockIdForNum num with
        | none => simp [hentry] at h
        | some id =>
            rw [hentry] at h
            obtain ⟨rest, hrest, rfl⟩ := except_map_eq_ok.mp h
            exact Nat.succ_le_succ (ih hrest)
      · rw [if_neg hn] at h
        cases h
        exact Nat.zero_le _

lemma blockIdsFrom_ne_nil {n : ℕ} (limit : ℕ) (hhead : 0 < db.objects.headBlockNumber)
    (hn : n ≤ db.objects.headBlockNumber) : db.blockIdsFrom (limit + 1) n ≠ .ok [] := by
  intro h
  rcases Nat.eq_zero_or_pos n with rfl | hpos
  · rw [blockIdsFrom_zero] at h
    obtain ⟨id, rest, -, -, hids⟩ := (blockIdsFrom_succ_eq_ok one_pos hhead).mp h
    cases hids
  · obtain ⟨id, rest, -, -, hids⟩ := (blockIdsFrom_succ_eq_ok hpos hn).mp h
    cases hids

/-- A list begins with what the index has at its first number. -/
lemma getBlockIdForNum_of_blockIdsFrom {n limit : ℕ} {id : BlockId} {ids : List BlockId}
    (hpos : 0 < n) (h : db.blockIdsFrom limit n = .ok (id :: ids)) :
    db.getBlockIdForNum n = some id := by
  cases limit with
  | zero => cases h
  | succ limit =>
      by_cases hn : n ≤ db.objects.headBlockNumber
      · obtain ⟨id', rest, hentry, -, hids⟩ := (blockIdsFrom_succ_eq_ok hpos hn).mp h
        obtain ⟨rfl, -⟩ := List.cons.inj hids
        exact hentry
      · simp [blockIdsFrom, hpos.ne', hn] at h

/-- **The loop over the blocks** gives the ids of the chain exactly if the index has them, and the
number does not start from 0 again. -/
lemma blockIdsFrom_iff (hhead : db.objects.headBlockNumber = chain.length)
    (hlength : chain.length < 2 ^ 32) {n : ℕ} (limit : ℕ) (hpos : 0 < n) (hn : n ≤ chain.length + 1)
    (hlt : n < 2 ^ 32) :
    (∃ ids, db.blockIdsFrom limit n = .ok ids ∧ ids <+: chain.drop (n - 1)) ↔
      (∀ m, n ≤ m → m ≤ chain.length → m < n + limit →
        db.getBlockIdForNum m = some (idAt chain m)) ∧
      (chain.length + 1 < 2 ^ 32 ∨ n + limit ≤ chain.length + 1) := by
  induction limit generalizing n with
  | zero =>
      refine iff_of_true ⟨[], rfl, List.nil_prefix⟩ ⟨fun m _ _ _ => by omega, .inr hn⟩
  | succ limit ih =>
      by_cases hle : n ≤ chain.length
      · have hfirst : (∀ m, n ≤ m → m ≤ chain.length → m < n + (limit + 1) →
              db.getBlockIdForNum m = some (idAt chain m)) ↔
            db.getBlockIdForNum n = some (idAt chain n) ∧
              ∀ m, n + 1 ≤ m → m ≤ chain.length → m < n + 1 + limit →
                db.getBlockIdForNum m = some (idAt chain m) := by
          refine ⟨fun h => ⟨h n le_rfl hle (by omega), fun m h₁ h₂ h₃ =>
            h m (by omega) h₂ (by omega)⟩, fun h m h₁ h₂ h₃ => ?_⟩
          rcases Nat.lt_or_eq_of_le h₁ with h₁ | rfl
          · exact h.2 m h₁ h₂ (by omega)
          · exact h.1
        have hrest : (∃ ids, db.blockIdsFrom (limit + 1) n = .ok ids ∧ ids <+: chain.drop (n - 1)) ↔
            db.getBlockIdForNum n = some (idAt chain n) ∧
              ∃ ids, db.blockIdsFrom limit ((n + 1) % 2 ^ 32) = .ok ids ∧ ids <+: chain.drop n := by
          rw [drop_eq_idAt_cons hpos hle]
          constructor
          · rintro ⟨ids, hids, hinit⟩
            obtain ⟨id, rest, hentry, hrest, rfl⟩ :=
              (blockIdsFrom_succ_eq_ok hpos (hle.trans_eq hhead.symm)).mp hids
            obtain ⟨rfl, hbehind⟩ := List.cons_prefix_cons.mp hinit
            exact ⟨hentry, rest, hrest, hbehind⟩
          · rintro ⟨hentry, rest, hrest, hinit⟩
            exact ⟨_, (blockIdsFrom_succ_eq_ok hpos (hle.trans_eq hhead.symm)).mpr
              ⟨_, rest, hentry, hrest, rfl⟩, List.cons_prefix_cons.mpr ⟨rfl, hinit⟩⟩
        rw [hfirst, and_assoc, hrest]
        refine and_congr_right fun _ => ?_
        by_cases hwrap : n + 1 < 2 ^ 32
        · have hnext := ih (n := n + 1) (Nat.succ_pos n) (by omega) hwrap
          rw [Nat.add_sub_cancel] at hnext
          rw [Nat.mod_eq_of_lt hwrap, hnext, Nat.add_right_comm n 1 limit, Nat.add_assoc n limit 1]
        · -- the number starts from 0 again
          obtain rfl : n = chain.length := by omega
          have hzero : (chain.length + 1) % 2 ^ 32 = 0 := by
            rw [show chain.length + 1 = 2 ^ 32 by omega, Nat.mod_self]
          rw [hzero, List.drop_length]
          cases limit with
          | zero =>
              exact iff_of_true ⟨[], rfl, List.prefix_rfl⟩ ⟨fun m _ _ _ => by omega, .inr le_rfl⟩
          | succ limit =>
              refine iff_of_false ?_ fun h => by omega
              rintro ⟨ids, hids, hinit⟩
              rw [List.prefix_nil.mp hinit] at hids
              exact blockIdsFrom_ne_nil limit (by omega) (Nat.zero_le _) hids
      · have hnil : chain.drop (n - 1) = [] := List.drop_eq_nil_of_le (by omega)
        rw [hnil]
        refine iff_of_true ⟨[], ?_, List.prefix_rfl⟩ ⟨fun m _ _ _ => by omega, .inl (by omega)⟩
        simp only [blockIdsFrom, hpos.ne', if_false, hhead, if_neg hle]

lemma blockIdsFrom_ne_unreachableFork (limit n : ℕ) :
    db.blockIdsFrom limit n ≠ .error .unreachableFork := by
  induction limit generalizing n with
  | zero => exact nofun
  | succ limit ih =>
      simp only [blockIdsFrom]
      generalize (if n = 0 then 1 else n) = num
      by_cases hn : num ≤ db.objects.headBlockNumber
      · rw [if_pos hn]
        cases hentry : db.getBlockIdForNum num with
        | none => exact nofun
        | some id =>
            specialize ih ((num + 1) % 2 ^ 32)
            cases hrest : db.blockIdsFrom limit ((num + 1) % 2 ^ 32) with
            | ok rest => exact nofun
            | error e =>
                rw [hrest] at ih
                exact fun h => ih (congrArg Except.error (Except.error.inj h))
      · rw [if_neg hn]
        exact nofun

lemma lastKnownBlock_ne_unreachableFork (l : List BlockId) :
    db.lastKnownBlock l ≠ .error .unreachableFork := by
  induction l with
  | nil => exact nofun
  | cons x l ih =>
      rw [lastKnownBlock]
      by_cases hx : x = .zero
      · rw [if_pos hx]
        exact nofun
      · rw [if_neg hx]
        cases hknown : db.isKnownBlock x with
        | false => exact ih
        | true =>
            rw [if_pos rfl]
            rcases db.isIncludedBlock x with e | _ | _
            · exact nofun
            · exact ih
            · exact nofun

end Database

end Loops

/-! ### Honest replies -/

/-- The last id of the synopsis that is on the chain. -/
def lastCommon (chain synopsis : List BlockId) : Option BlockId := synopsis.reverse.find? (· ∈ chain)

/-- There is a block from which on the chain is to be listed. -/
def Listed (chain synopsis : List BlockId) : Prop := synopsis = [] ∨ ∃ id ∈ synopsis, id ∈ chain

/-- The number of the block from which on the chain is to be listed. -/
def firstNum (chain synopsis : List BlockId) : ℕ := (lastCommon chain synopsis).elim 1 (·.num)

/-- The ids are those of blocks of the chain, one after the other, as many as `limit` at most, from the
last common one on, and as many blocks are behind them as is said. -/
structure HonestIds (chain synopsis : List BlockId) (limit : ℕ) (ids : List BlockId)
    (remaining : ℕ) : Prop where
  onChain : ∀ id ∈ ids, id ∈ chain
  consecutive : ids.IsChain fun a b => b.num = a.num + 1
  length_le : ids.length ≤ limit
  ne_nil : chain ≠ [] → ids ≠ []
  first : ∀ id ∈ ids.head?, if synopsis = [] then id.num = 1 else lastCommon chain synopsis = some id
  remaining_eq : remaining = chain.countP (Database.lastNum ids < ·.num)

/-- What a reply is to be: the exception exactly if no id of the synopsis is on the chain. -/
def HonestReply (chain synopsis : List BlockId) (limit : ℕ) :
    Except BlockIdsError (List BlockId × ℕ) → Prop
  | .error e => e = .unreachableFork ∧ ¬ Listed chain synopsis
  | .ok (ids, remaining) => Listed chain synopsis ∧ HonestIds chain synopsis limit ids remaining

section Replies

variable {chain synopsis ids : List BlockId} {limit remaining : ℕ}

lemma lastCommon_mem {id : BlockId} (h : lastCommon chain synopsis = some id) :
    id ∈ synopsis ∧ id ∈ chain :=
  ⟨List.mem_reverse.mp (List.mem_of_find?_eq_some h), by simpa using List.find?_some h⟩

/-- There is a last common id, unless the synopsis is empty. -/
lemma Listed.exists_lastCommon (h : Listed chain synopsis) (hne : synopsis ≠ []) :
    ∃ id, lastCommon chain synopsis = some id := by
  obtain ⟨id, hid, hmem⟩ := h.resolve_left hne
  refine Option.isSome_iff_exists.mp (List.find?_isSome.mpr ⟨id, List.mem_reverse.mpr hid, ?_⟩)
  simpa using hmem

lemma lastCommon_eq_none (h : ¬ Listed chain synopsis) : lastCommon chain synopsis = none := by
  cases hcommon : lastCommon chain synopsis with
  | none => rfl
  | some id => exact absurd (.inr ⟨id, lastCommon_mem hcommon⟩) h

lemma firstNum_of_lastCommon {id : BlockId} (h : lastCommon chain synopsis = some id) :
    firstNum chain synopsis = id.num := by
  rw [firstNum, h]
  rfl

/-- The chain is listed from one of its blocks on. -/
lemma firstNum_mem (synopsis : List BlockId) (hchain : Consecutive 0 chain) (hne : chain ≠ []) :
    0 < firstNum chain synopsis ∧ firstNum chain synopsis ≤ chain.length := by
  cases hcommon : lastCommon chain synopsis with
  | none =>
      have hpos := List.length_pos_iff.mpr hne
      rw [firstNum, hcommon]
      exact ⟨one_pos, hpos⟩
  | some id =>
      rw [firstNum_of_lastCommon hcommon]
      exact hchain.num_of_mem (lastCommon_mem hcommon).2

/-- Honest ids are a part of the chain. -/
lemma HonestIds.isPrefix_drop (h : HonestIds chain synopsis limit ids remaining)
    (hchain : Consecutive 0 chain) (hne : chain ≠ []) :
    ids <+: chain.drop (firstNum chain synopsis - 1) := by
  refine hchain.isPrefix_drop h.onChain h.consecutive (firstNum_mem _ hchain hne).1 fun id hid => ?_
  have hfirst := h.first id hid
  by_cases hsynopsis : synopsis = []
  · rw [if_pos hsynopsis] at hfirst
    rw [hfirst, hsynopsis]
    rfl
  · rw [if_neg hsynopsis] at hfirst
    exact (firstNum_of_lastCommon hfirst).symm

/-- And parts of the chain are honest ids. -/
lemma HonestIds.of_isPrefix (hchain : Consecutive 0 chain) (hne : chain ≠ [])
    (hlisted : Listed chain synopsis) (hids : ids ≠ [])
    (hinit : ids <+: chain.drop (firstNum chain synopsis - 1)) (hlength : ids.length ≤ limit) :
    HonestIds chain synopsis limit ids (chain.length - Database.lastNum ids) := by
  obtain ⟨hpos, hle⟩ := firstNum_mem synopsis hchain hne
  refine ⟨fun id hid => List.mem_of_mem_drop (hinit.subset hid), ?_, hlength, fun _ => hids,
    fun id hid => ?_, ?_⟩
  · have hdrop := hchain.isChain.drop (firstNum chain synopsis - 1)
    exact hdrop.prefix hinit
  · have hfirst : id = idAt chain (firstNum chain synopsis) := by
      rw [drop_eq_idAt_cons hpos hle] at hinit
      cases ids with
      | nil => cases hid
      | cons x l =>
          obtain rfl := Option.some.inj hid
          exact (List.cons_prefix_cons.mp hinit).1
    by_cases hsynopsis : synopsis = []
    · rw [if_pos hsynopsis, hfirst, hchain.num_idAt hpos hle, hsynopsis]
      rfl
    · obtain ⟨id', hcommon⟩ := hlisted.exists_lastCommon hsynopsis
      rw [if_neg hsynopsis, hcommon, hfirst, firstNum_of_lastCommon hcommon,
        ← hchain.eq_idAt (lastCommon_mem hcommon).2]
  · rw [hchain.countP_num, Nat.sub_zero]

/-- **Honest replies pass the checks** of the peer that has sent the synopsis. -/
lemma HonestIds.passesChecks (h : HonestIds chain synopsis limit ids remaining)
    (hchain : Consecutive 0 chain) (hlength : chain.length < 2 ^ 32) :
    NodeImpl.passesChecks synopsis ⟨remaining, ids⟩ = true := by
  cases ids with
  | nil => rfl
  | cons first rest =>
      have hsequential : NodeImpl.sequential (first :: rest) = true := by
        refine List.all_eq_true.mpr fun ⟨id, i⟩ hid => ?_
        have hget : (first :: rest)[i + 1]? = some id := List.mem_zipIdx_iff_getElem?.mp hid
        have hnum := num_of_isChain h.consecutive hget
        have hle := (hchain.num_of_mem (h.onChain id (List.mem_of_getElem? hget))).2
        rw [decide_eq_true_eq, hnum, Nat.mod_eq_of_lt (by omega)]
      have hbuildsOn : NodeImpl.buildsOn synopsis (first :: rest) = true := by
        have hfirst := h.first first rfl
        by_cases hsynopsis : synopsis = []
        · rw [if_pos hsynopsis] at hfirst
          simp [NodeImpl.buildsOn, hsynopsis, hfirst]
        · rw [if_neg hsynopsis] at hfirst
          simp [NodeImpl.buildsOn, hsynopsis, (lastCommon_mem hfirst).1]
      rw [NodeImpl.passesChecks, hsequential, hbuildsOn]
      rfl

end Replies

/-! ### The reply of a node -/

namespace Database

variable {β ω : Type} {db : Database β ω} {synopsis : List BlockId} {limit : ℕ}

/-- The ids of the main chain, from its first block on. -/
def mainIds (db : Database β ω) : List BlockId := db.objects.chain.reverse.map (·.id)

/-- The fork database and the index of the block database answer for a synopsis and `limit` blocks as
the main chain does: an id behind the last common one is unknown, or its number has the entry of
another block; the last common id is known; the blocks to be listed have their entries; and their
numbers fit in a `uint32_t`. -/
structure Answers (db : Database β ω) (synopsis : List BlockId) (limit : ℕ) : Prop where
  others : ∀ id ∈ synopsis.reverse.takeWhile (· ∉ db.mainIds), db.isKnownBlock id = true →
    ∃ id', db.getBlockIdForNum id.num = some id' ∧ id' ≠ id
  known : ∀ id ∈ lastCommon db.mainIds synopsis, db.isKnownBlock id = true
  listed : Listed db.mainIds synopsis → ∀ n, firstNum db.mainIds synopsis ≤ n →
    n ≤ db.mainIds.length → n < firstNum db.mainIds synopsis + limit →
    db.getBlockIdForNum n = some (idAt db.mainIds n)
  noWrap : Listed db.mainIds synopsis → db.mainIds.length + 1 < 2 ^ 32 ∨
    firstNum db.mainIds synopsis + limit ≤ db.mainIds.length + 1

lemma headBlockNumber_eq (h : db.objects.dynamic.Counted) :
    db.objects.headBlockNumber = db.mainIds.length := by
  rw [mainIds, List.length_map, List.length_reverse]
  exact h.headBlockNumber

section

variable (hcounted : db.objects.dynamic.Counted) (hne : db.mainIds ≠ [])
  (hhead : db.objects.headBlockNumber < 2 ^ 32) (hids : ∀ id ∈ synopsis, id ≠ .zero)
  (hlimit : 1 ≤ limit)

include hcounted hne in
lemma getBlockIds_of_ne_nil : db.getBlockIds synopsis limit =
    match db.lastKnownBlockId synopsis with
    | .error e => .error e
    | .ok id => (db.blockIdsFrom limit id.num).map fun ids =>
        (ids, if ids = [] then 0 else db.mainIds.length - lastNum ids) := by
  have hpos := List.length_pos_iff.mpr hne
  rw [getBlockIds, if_neg (by rw [headBlockNumber_eq hcounted]; omega), headBlockNumber_eq hcounted]

include hids in
lemma lastKnownBlockId_of_ne_nil (hsynopsis : synopsis ≠ []) : db.lastKnownBlockId synopsis =
    match db.lastKnownBlock synopsis.reverse with
    | .error e => .error e
    | .ok none => .error .unreachableFork
    | .ok (some id) => .ok id := by
  have hzero : synopsis ≠ [.zero] := fun h => hids .zero (by simp [h]) rfl
  rw [lastKnownBlockId, if_neg (not_or.mpr ⟨hsynopsis, hzero⟩)]

include hcounted hne hhead hids hlimit in
/-- **Where the node answers as the main chain does, its reply is honest.** -/
lemma Answers.honestReply (h : db.Answers synopsis limit) :
    HonestReply db.mainIds synopsis limit (db.getBlockIds synopsis limit) := by
  obtain ⟨limit, rfl⟩ := Nat.exists_eq_add_of_le' hlimit
  have hchain : Consecutive 0 db.mainIds := hcounted.consecutive
  obtain ⟨hpos, hle⟩ := firstNum_mem synopsis hchain hne
  have hlength := headBlockNumber_eq hcounted
  rw [getBlockIds_of_ne_nil hcounted hne]
  by_cases hlisted : Listed db.mainIds synopsis
  · have hstart : ∃ id, db.lastKnownBlockId synopsis = .ok id ∧
        db.blockIdsFrom (limit + 1) id.num = db.blockIdsFrom (limit + 1) (firstNum db.mainIds synopsis) := by
      by_cases hsynopsis : synopsis = []
      · refine ⟨.zero, by simp [lastKnownBlockId, hsynopsis], ?_⟩
        rw [hsynopsis]
        exact blockIdsFrom_zero limit
      · obtain ⟨id, hcommon⟩ := hlisted.exists_lastCommon hsynopsis
        have hnum := firstNum_of_lastCommon hcommon
        refine ⟨id, ?_, by rw [hnum]⟩
        have hloop : db.lastKnownBlock synopsis.reverse = .ok (some id) := by
          refine hcommon ▸ (lastKnownBlock_iff db.mainIds
            fun id hid => hids id (List.mem_reverse.mp hid)).mpr ⟨h.others, fun id' hid' => ?_⟩
          obtain rfl := Option.some.inj (hcommon.symm.trans hid')
          refine ⟨h.known id hcommon, ?_⟩
          have hentry := h.listed hlisted id.num hnum.le (hnum ▸ hle) (by omega)
          rwa [← hchain.eq_idAt (lastCommon_mem hcommon).2] at hentry
        rw [lastKnownBlockId_of_ne_nil hids hsynopsis, hloop]
    obtain ⟨id, hid, hfrom⟩ := hstart
    obtain ⟨ids, hok, hinit⟩ := (blockIdsFrom_iff hlength (hlength ▸ hhead) (limit + 1) hpos
      (by omega) (by omega)).mpr ⟨h.listed hlisted, h.noWrap hlisted⟩
    have hnil : ids ≠ [] := fun hnil =>
      blockIdsFrom_ne_nil limit (by omega) (hle.trans_eq hlength.symm) (hnil ▸ hok)
    simp only [hid, hfrom, hok, Except.map, if_neg hnil]
    exact ⟨hlisted, .of_isPrefix hchain hne hlisted hnil hinit (blockIdsFrom_length_le hok)⟩
  · have hsynopsis : synopsis ≠ [] := fun h => hlisted (.inl h)
    have hcommon := lastCommon_eq_none hlisted
    have hloop : db.lastKnownBlock synopsis.reverse = .ok none := by
      refine hcommon ▸ (lastKnownBlock_iff db.mainIds
        fun id hid => hids id (List.mem_reverse.mp hid)).mpr ⟨h.others, fun id hid => ?_⟩
      cases hcommon.symm.trans hid
    rw [lastKnownBlockId_of_ne_nil hids hsynopsis, hloop]
    exact ⟨rfl, hlisted⟩

include hcounted hne hhead hids hlimit in
/-- The reply is honest in no other case, if the ids of the synopsis have numbers. -/
lemma answers_of_honestReply (hnum : ∀ id ∈ synopsis, 0 < id.num)
    (h : HonestReply db.mainIds synopsis limit (db.getBlockIds synopsis limit)) :
    db.Answers synopsis limit := by
  obtain ⟨limit, rfl⟩ := Nat.exists_eq_add_of_le' hlimit
  have hchain : Consecutive 0 db.mainIds := hcounted.consecutive
  obtain ⟨hpos, hle⟩ := firstNum_mem synopsis hchain hne
  have hlength := headBlockNumber_eq hcounted
  have hreverse : ∀ id ∈ synopsis.reverse, id ≠ .zero := fun id hid => hids id (List.mem_reverse.mp hid)
  have hloop : db.lastKnownBlock synopsis.reverse = .ok (lastCommon db.mainIds synopsis) ↔ _ :=
    lastKnownBlock_iff db.mainIds hreverse
  have hfrom := blockIdsFrom_iff hlength (hlength ▸ hhead) (limit + 1) hpos (by omega) (by omega)
  -- what is left when the list is known to be a part of the chain
  have hanswers : ∀ ids remaining,
      db.blockIdsFrom (limit + 1) (firstNum db.mainIds synopsis) = .ok ids →
      HonestIds db.mainIds synopsis (limit + 1) ids remaining →
      (∀ id ∈ synopsis.reverse.takeWhile (· ∉ db.mainIds), db.isKnownBlock id = true →
        ∃ id', db.getBlockIdForNum id.num = some id' ∧ id' ≠ id) →
      (∀ id ∈ lastCommon db.mainIds synopsis, db.isKnownBlock id = true) →
      db.Answers synopsis (limit + 1) := by
    intro ids remaining hok hhonest hothers hknown
    obtain ⟨hlisted, hwrap⟩ := hfrom.mp ⟨ids, hok, hhonest.isPrefix_drop hchain hne⟩
    exact ⟨hothers, hknown, fun _ => hlisted, fun _ => hwrap⟩
  rw [getBlockIds_of_ne_nil hcounted hne] at h
  by_cases hsynopsis : synopsis = []
  · have hlast : db.lastKnownBlockId synopsis = .ok .zero := by simp [lastKnownBlockId, hsynopsis]
    have hfirst : firstNum db.mainIds synopsis = 1 := by
      rw [hsynopsis]
      rfl
    simp only [hlast] at h
    cases hok : db.blockIdsFrom (limit + 1) BlockId.zero.num with
    | error e =>
        rw [hok] at h
        exact absurd (h.1 ▸ hok) (blockIdsFrom_ne_unreachableFork _ _)
    | ok ids =>
        rw [hok] at h
        refine hanswers ids _ ?_ h.2 (by simp [hsynopsis]) (by simp [hsynopsis, lastCommon])
        rw [hfirst, ← blockIdsFrom_zero]
        exact hok
  · rw [lastKnownBlockId_of_ne_nil hids hsynopsis] at h
    rcases hlast : db.lastKnownBlock synopsis.reverse with e | _ | id
    · simp only [hlast] at h
      exact absurd (h.1 ▸ hlast) (lastKnownBlock_ne_unreachableFork _)
    · simp only [hlast] at h
      have hcommon := lastCommon_eq_none h.2
      refine ⟨(hloop.mp (hlast.trans (congrArg Except.ok hcommon.symm))).1, fun id hid => ?_,
        fun hlisted => absurd hlisted h.2, fun hlisted => absurd hlisted h.2⟩
      cases hcommon.symm.trans hid
    · simp only [hlast] at h
      obtain ⟨hmem, hknown, hentry⟩ := lastKnownBlock_eq_some hreverse hlast
      cases hok : db.blockIdsFrom (limit + 1) id.num with
      | error e =>
          rw [hok] at h
          exact absurd (h.1 ▸ hok) (blockIdsFrom_ne_unreachableFork _ _)
      | ok ids =>
          rw [hok] at h
          -- the reply starts with the id at which the loop has stopped
          cases ids with
          | nil => exact absurd rfl (h.2.ne_nil hne)
          | cons first rest =>
              have hfirst := getBlockIdForNum_of_blockIdsFrom (hnum id (List.mem_reverse.mp hmem)) hok
              obtain rfl := Option.some.inj (hentry.symm.trans hfirst)
              have hcommon : lastCommon db.mainIds synopsis = some id := by
                have hcommon := h.2.first id rfl
                rwa [if_neg hsynopsis] at hcommon
              obtain ⟨hothers, -⟩ := hloop.mp (hlast.trans (congrArg Except.ok hcommon.symm))
              refine hanswers _ _ (firstNum_of_lastCommon hcommon ▸ hok) h.2 hothers fun id' hid' => ?_
              obtain rfl := Option.some.inj (hcommon.symm.trans hid')
              exact hknown

end

end Database

section Nodes

variable {β ω : Type}

/-- **Sync replies.** In every state that is reached, a node without blocks sends none; a node with
blocks that answers as its main chain does sends an honest reply, and otherwise it does not, if the ids
of the synopsis have numbers. The peer that has sent the synopsis accepts these replies. -/
theorem getBlockIds_honest (R : Rules β ω) (d : ℕ) {db₀ db : Database β ω} {l : List (Call β)}
    (h₀ : db₀.Begins) (hzero : db₀.objects.headBlockNumber = 0) (hrun : Database.Run R d db₀ l db)
    (hhead : db.objects.headBlockNumber < 2 ^ 32) {synopsis : List BlockId}
    (hids : ∀ id ∈ synopsis, id ≠ .zero) {limit : ℕ} (hlimit : 1 ≤ limit) :
    (db.objects.chain = [] → db.getBlockIds synopsis limit = .ok ([], 0)) ∧
    (db.objects.chain ≠ [] →
      (db.Answers synopsis limit →
        HonestReply db.mainIds synopsis limit (db.getBlockIds synopsis limit)) ∧
      ((∀ id ∈ synopsis, 0 < id.num) →
        HonestReply db.mainIds synopsis limit (db.getBlockIds synopsis limit) →
        db.Answers synopsis limit)) ∧
    ∀ ids remaining, db.getBlockIds synopsis limit = .ok (ids, remaining) →
      db.objects.chain = [] ∨ db.Answers synopsis limit →
      ∀ (e : Delegate β) (p : ℕ) (s : NodeImpl β),
        (s.peer p).itemIdsRequestedFromPeer = some synopsis →
        s.onBlockchainItemIdsInventoryMessage e p ⟨remaining, ids⟩ =
          s.acceptItemIds e p ⟨remaining, ids⟩ := by
  have hcounted := hrun.counted h₀ hzero
  have hnone (hchain : db.objects.chain = []) : db.getBlockIds synopsis limit = .ok ([], 0) := by
    have hnumber : db.objects.headBlockNumber = db.objects.chain.length := hcounted.headBlockNumber
    rw [Database.getBlockIds, if_pos (by rw [hnumber, hchain]; rfl)]
  have hmain (hchain : db.objects.chain ≠ []) : db.mainIds ≠ [] := by
    simpa [Database.mainIds] using hchain
  refine ⟨hnone, fun hchain => ⟨fun h => ?_, fun hnum h => ?_⟩, fun ids remaining hreply h e p s hs => ?_⟩
  · exact h.honestReply hcounted (hmain hchain) hhead hids hlimit
  · exact Database.answers_of_honestReply hcounted (hmain hchain) hhead hids hlimit hnum h
  · have hpasses : NodeImpl.passesChecks synopsis ⟨remaining, ids⟩ = true := by
      by_cases hchain : db.objects.chain = []
      · cases (hnone hchain).symm.trans hreply
        rfl
      · have hhonest := (h.resolve_left hchain).honestReply hcounted (hmain hchain) hhead hids hlimit
        rw [hreply] at hhonest
        exact hhonest.2.passesChecks hcounted.consecutive
          (Database.headBlockNumber_eq hcounted ▸ hhead)
    rw [NodeImpl.onBlockchainItemIdsInventoryMessage, hs]
    exact if_pos hpasses

lemma mainIds_twoBlocks : twoBlocks.mainIds = [⟨1, 1⟩, ⟨2, 2⟩] := by decide +kernel

/-- A node with two blocks knows that a peer has the first, and another one after it. -/
lemma answers_twoBlocks : twoBlocks.Answers [⟨1, 1⟩, ⟨2, 3⟩] 2 := by
  have hfirst : firstNum [⟨1, 1⟩, ⟨2, 2⟩] [⟨1, 1⟩, ⟨2, 3⟩] = 1 := by decide +kernel
  refine ⟨?_, ?_, fun _ n hn hle _ => ?_, fun _ => .inl ?_⟩
  · rw [mainIds_twoBlocks]
    decide +kernel
  · rw [mainIds_twoBlocks]
    decide +kernel
  · rw [mainIds_twoBlocks] at hn hle ⊢
    rw [hfirst] at hn
    rw [List.length_cons, List.length_singleton] at hle
    obtain rfl | rfl : n = 1 ∨ n = 2 := by omega
    · decide +kernel
    · decide +kernel
  · rw [mainIds_twoBlocks]
    decide

/-- It lists both blocks for the peer. -/
lemma getBlockIds_twoBlocks :
    twoBlocks.getBlockIds [⟨1, 1⟩, ⟨2, 3⟩] 2 = .ok ([⟨1, 1⟩, ⟨2, 2⟩], 0) := by
  decide +kernel

lemma chain_twoBlocks : twoBlocks.objects.chain ≠ [] := by
  have hlength : twoBlocks.objects.chain.length = 2 := by decide +kernel
  exact List.ne_nil_of_length_pos (by omega)

/-- The list is honest. -/
theorem getBlockIds_honest_twoBlocks :
    twoBlocks.getBlockIds [⟨1, 1⟩, ⟨2, 3⟩] 2 = .ok ([⟨1, 1⟩, ⟨2, 2⟩], 0) ∧
      HonestReply [⟨1, 1⟩, ⟨2, 2⟩] [⟨1, 1⟩, ⟨2, 3⟩] 2 (.ok ([⟨1, 1⟩, ⟨2, 2⟩], 0)) := by
  have hids : ∀ id ∈ ([⟨1, 1⟩, ⟨2, 3⟩] : List BlockId), id ≠ .zero := by decide
  have hreply := (getBlockIds_honest calmRules 1 (newChain_begins _) rfl twoBlocks_run
    (by decide +kernel) hids one_le_two).2.1 chain_twoBlocks
  rw [mainIds_twoBlocks, getBlockIds_twoBlocks] at hreply
  exact ⟨getBlockIds_twoBlocks, hreply.1 answers_twoBlocks⟩

/-- A block that cannot be applied, on a branch that is longer than the chain of `twoBlocks`. -/
def staleBranch : SignedBlock Unit := { emptyBlock ⟨2, 3⟩ 4 with timestamp := 1700000006 }

/-- A chain without blocks sends no ids, where no id of the synopsis is on it. And a switch to another
branch that fails leaves its block in the index. -/
theorem not_honestReply :
    (¬ ∀ (db : Database Unit Unit) (l : List (Call Unit)), Database.Run calmRules 1 (newChain [0]) l db →
      ∀ synopsis : List BlockId, (∀ id ∈ synopsis, id ≠ .zero) → ∀ limit, 1 ≤ limit →
      HonestReply db.mainIds synopsis limit (db.getBlockIds synopsis limit)) ∧
    ∃ db : Database Unit Unit, Database.Run calmRules 1 (newChain [0])
        [.pushBlock (emptyBlock .zero 1) {}, .pushBlock (emptyBlock ⟨1, 1⟩ 2) {},
          .pushBlock (emptyBlock ⟨1, 1⟩ 3) {}, .pushBlock staleBranch {}] db ∧
      db.mainIds = [⟨1, 1⟩, ⟨2, 2⟩] ∧ db.getBlockIds [] 2 = .ok ([⟨1, 1⟩, ⟨2, 3⟩], 0) := by
  constructor
  · intro h
    have hreply := h _ _ (.nil _) [⟨1, 1⟩] (by simp [BlockId.zero]) 1 le_rfl
    rcases hreply.1 with hnil | ⟨id, -, hid⟩
    · cases hnil
    · cases hid
  · have hrun := (twoBlocks_run.returns (c := .pushBlock (emptyBlock ⟨1, 1⟩ 3) {}) (by decide +kernel))
    have hthrows : (Database.call calmRules 1 (.pushBlock staleBranch {})
        (Database.call calmRules 1 (.pushBlock (emptyBlock ⟨1, 1⟩ 3) {}) twoBlocks).2).1 =
          .error (.fc .timestampNotLater) := by decide +kernel
    refine ⟨_, hrun.snoc ⟨rfl, ?_⟩, by decide +kernel, by decide +kernel⟩
    rw [hthrows]
    nofun

end Nodes

end ZosCore
