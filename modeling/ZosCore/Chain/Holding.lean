import ZosCore.Chain.BlockFiles
import ZosCore.Chain.Branches
import ZosCore.Chain.ForkTree

/-!
Which blocks of a chain the fork database and the block database hold.

`dropBelow` takes the lowest items out of the fork database, so what matters of a chain is this: if
an item is held that is not higher than a block of the chain, then so is that block.

* `ForkDatabase.Pointed`: the weak pointers of the items lead down. Then the branch of the head that
  `fetch_branch_from` finds is in the index: `fetchBranchFrom_mem_index`.
* `ForkDatabase.Holding`: the fork database holds a chain, as far as it reaches down. The calls that
  `push_block` of a node makes keep it, among them **`Holding.pushBlock`**.
* `BlockDatabase.Stores`: the block database has a chain under its numbers.
-/

namespace ZosCore

variable {β : Type}

namespace ForkDatabase

variable {f f' : ForkDatabase β} {b : SignedBlock β} {l l' : List (SignedBlock β)}

/-! ### Pointers -/

/-- Items have pointers of their own, as far as their numbers go, and `prev` of an item leads to a
lower one. -/
structure Pointed (f : ForkDatabase β) : Prop where
  ptr_lt : ∀ it ∈ f.alive, it.ptr < f.nextPtr
  prev_lt : ∀ it ∈ f.alive, ∀ p ∈ it.prev, p < f.nextPtr
  num_eq : ∀ it ∈ f.alive, ∀ jt ∈ f.alive, it.ptr = jt.ptr → it.num = jt.num
  num_lt : ∀ it ∈ f.alive, ∀ jt ∈ f.alive, it.prev = some jt.ptr → jt.num < it.num

namespace Pointed

/-- Items may leave. -/
lemma mono (h : f.Pointed) (halive : ∀ it ∈ f'.alive, it ∈ f.alive) (hnext : f.nextPtr ≤ f'.nextPtr) :
    f'.Pointed where
  ptr_lt it hit := (h.ptr_lt it (halive it hit)).trans_le hnext
  prev_lt it hit p hp := (h.prev_lt it (halive it hit) p hp).trans_le hnext
  num_eq it hit jt hjt := h.num_eq it (halive it hit) jt (halive jt hjt)
  num_lt it hit jt hjt := h.num_lt it (halive it hit) jt (halive jt hjt)

/-- A new item, which points to a lower one. -/
lemma add (h : f.Pointed) {n : ForkItem β} (hptr : n.ptr = f.nextPtr)
    (hprev : ∀ p ∈ n.prev, ∃ it ∈ f.alive, it.ptr = p ∧ it.num < n.num)
    (halive : ∀ it ∈ f'.alive, it = n ∨ it ∈ f.alive) (hnext : f'.nextPtr = f.nextPtr + 1) :
    f'.Pointed where
  ptr_lt it hit := by
    rcases halive it hit with rfl | hit
    · omega
    · have := h.ptr_lt it hit
      omega
  prev_lt it hit p hp := by
    rcases halive it hit with rfl | hit
    · obtain ⟨jt, hjt, rfl, -⟩ := hprev p hp
      have := h.ptr_lt jt hjt
      omega
    · have := h.prev_lt it hit p hp
      omega
  num_eq it hit jt hjt heq := by
    rcases halive it hit with rfl | hit <;> rcases halive jt hjt with rfl | hjt
    · rfl
    · exact absurd (heq.symm.trans hptr) (h.ptr_lt jt hjt).ne
    · exact absurd (heq.trans hptr) (h.ptr_lt it hit).ne
    · exact h.num_eq it hit jt hjt heq
  num_lt it hit jt hjt heq := by
    rcases halive it hit with rfl | hit <;> rcases halive jt hjt with rfl | hjt
    · obtain ⟨kt, hkt, hkptr, -⟩ := hprev _ heq
      exact absurd (hkptr.trans hptr) (h.ptr_lt kt hkt).ne
    · obtain ⟨kt, hkt, hkptr, hlt⟩ := hprev _ heq
      exact (h.num_eq jt hjt kt hkt hkptr.symm).trans_lt hlt
    · exact absurd hptr (h.prev_lt it hit _ heq).ne
    · exact h.num_lt it hit jt hjt heq

/-- The item before is lower. -/
lemma lock_lt (h : f.Pointed) {it prev : ForkItem β} (hit : it ∈ f.alive)
    (hlock : f.lock it = some prev) : prev.num < it.num := by
  have hmem := lock_mem_alive hlock
  obtain ⟨p, hp, hfind⟩ := Option.bind_eq_some_iff.mp hlock
  have hptr : prev.ptr = p := by simpa using List.find?_some hfind
  exact h.num_lt it hit prev hmem (hptr ▸ hp)

/-- If nothing is pinned, the branch of the head is in the index. -/
lemma fetchBranchFrom_mem_index (h : f.Pointed) (hpinned : f.pinned = []) {hd : ForkItem β}
    (hhead : f.head = some hd) {second : BlockId} {new old : List (ForkItem β)}
    (hfetch : f.fetchBranchFrom hd.id second = .ok (new, old)) : ∀ it ∈ new, it ∈ f.index := by
  -- below the head everything that is alive is in the index
  have hclosed : ∀ {it prev : ForkItem β}, it ∈ f.index ∧ it.num ≤ hd.num →
      f.lock it = some prev → prev ∈ f.index ∧ prev.num ≤ hd.num := by
    intro it prev ⟨hit, hle⟩ hlock
    have hlt := h.lock_lt (mem_alive.mpr (.inl hit)) hlock
    refine ⟨?_, by omega⟩
    rcases mem_alive.mp (lock_mem_alive hlock) with hindex | hprev | hpin
    · exact hindex
    · cases hhead.symm.trans hprev
      omega
    · rw [hpinned] at hpin
      cases hpin
  have hfirst : ∀ a, f.fetchBlock hd.id = some a → a ∈ f.index ∧ a.num ≤ hd.num :=
    fun a ha => ⟨fetchBlock_mem_index ha, (congrArg BlockId.num (fetchBlock_id ha)).le⟩
  exact fun it hit => ((fetchBranchFrom_closed (T := fun _ => True) hclosed (fun _ _ => trivial)
    hfetch hfirst fun _ _ => trivial).1 it hit).1

end Pointed

/-! ### The blocks of a chain -/

/-- Every block of `l` has its item, if there is an item that is not higher. -/
def Covers (f : ForkDatabase β) (l : List (SignedBlock β)) : Prop :=
  ∀ m ∈ l, ∀ it ∈ f.index, it.num ≤ m.blockNum → ∃ jt ∈ f.index, jt.data = m

namespace Covers

lemma subset (h : f.Covers l) (hl : ∀ m ∈ l', m ∈ l) : f.Covers l' := fun m hm => h m (hl m hm)

/-- The lowest items may leave. -/
lemma dropBelow (h : f.Covers l) (n : ℕ) : (f.dropBelow n).Covers l := by
  intro m hm it hit hle
  simp only [ForkDatabase.dropBelow, List.mem_filter, decide_eq_true_eq] at hit ⊢
  obtain ⟨jt, hjt, rfl⟩ := h m hm it hit.1 hle
  exact ⟨jt, ⟨hjt, hit.2.trans hle⟩, rfl⟩

/-- So may an item with none of the ids. -/
lemma remove (h : f.Covers l) {id : BlockId} (hne : ∀ m ∈ l, m.id ≠ id) : (f.remove id).Covers l := by
  intro m hm it hit hle
  obtain ⟨jt, hjt, rfl⟩ := h m hm it (List.mem_of_mem_filter hit) hle
  exact ⟨jt, List.mem_filter.mpr ⟨hjt, decide_eq_true (hne _ hm)⟩, rfl⟩

/-- A block that is held covers itself. -/
lemma cons (h : f.Covers l) {it : ForkItem β} (hit : it ∈ f.index) : f.Covers (it.data :: l) := by
  intro m hm
  rcases List.mem_cons.mp hm with rfl | hm
  · exact fun _ _ _ => ⟨it, hit, rfl⟩
  · exact h m hm

end Covers

lemma setMaxSize_pinned (f : ForkDatabase β) (n : ℕ) : (f.setMaxSize n).pinned = f.pinned := by
  rw [setMaxSize]
  split <;> rfl

lemma pushBlock_pinned (hpush : f.pushBlock b = .ok f') : f'.pinned = f.pinned := by
  obtain ⟨_, -, ⟨-, rfl⟩ | ⟨_, -, -, -, rfl⟩ | ⟨_, -, -, -, rfl⟩⟩ := pushBlock_eq_ok hpush
  · rfl
  · rfl
  · rfl

/-- What a switch in progress holds does not change when items leave the index. -/
lemma removeAll_pinned (f : ForkDatabase β) (items : List (ForkItem β)) :
    (items.foldl (fun f it => f.remove it.id) f).pinned = f.pinned :=
  List.foldlRecOn items (fun f it => f.remove it.id)
    (motive := fun f' : ForkDatabase β => f'.pinned = f.pinned) rfl fun _ hf _ _ => hf

/-- The fork database holds the chain `l`, as far as it reaches down. -/
structure Holding (l : List (SignedBlock β)) (f : ForkDatabase β) : Prop where
  covers : f.Covers l
  head : l ≠ [] → f.head.isSome = true
  pointed : f.Pointed

namespace Holding

lemma subset (h : f.Holding l) (hl : ∀ m ∈ l', m ∈ l) : f.Holding l' where
  covers := h.covers.subset hl
  head hne := by
    obtain ⟨m, hm⟩ := List.exists_mem_of_ne_nil l' hne
    exact h.head (List.ne_nil_of_mem (hl m hm))
  pointed := h.pointed

lemma dropBelow (h : f.Holding l) (n : ℕ) : (f.dropBelow n).Holding l where
  covers := h.covers.dropBelow n
  head := h.head
  pointed :=
    h.pointed.mono (mem_alive_of_subset (fun _ => List.mem_of_mem_filter) rfl rfl) le_rfl

lemma setMaxSize (h : f.Holding l) (n : ℕ) : (f.setMaxSize n).Holding l := by
  have hsize : ({ f with maxSize := n } : ForkDatabase β).Holding l :=
    ⟨h.covers, h.head, h.pointed.mono (fun _ hit => hit) le_rfl⟩
  rw [ForkDatabase.setMaxSize]
  split
  · exact hsize
  · exact hsize.dropBelow _

lemma remove (h : f.Holding l) {id : BlockId} (hne : ∀ m ∈ l, m.id ≠ id) :
    (f.remove id).Holding l where
  covers := h.covers.remove hne
  head := h.head
  pointed :=
    h.pointed.mono (mem_alive_of_subset (fun _ => List.mem_of_mem_filter) rfl rfl) le_rfl

/-- An item that is alive may become the head. -/
lemma setHead (h : f.Holding l) {it : ForkItem β} (hit : it ∈ f.alive) : (f.setHead it).Holding l := by
  refine ⟨h.covers, fun _ => rfl, h.pointed.mono (fun jt hjt => ?_) le_rfl⟩
  rcases mem_alive.mp hjt with hi | hh | hp
  · exact mem_alive.mpr (.inl hi)
  · cases hh
    exact hit
  · exact mem_alive.mpr (.inr (.inr hp))

lemma popBlock (h : f.Holding l) (hf : f.popBlock = .ok f') : f'.Holding l := by
  obtain ⟨hd, prev, -, hlock, rfl⟩ := popBlock_eq_ok.mp hf
  exact h.setHead (lock_mem_alive hlock)

/-- Items with none of the ids may leave. -/
lemma removeAll (h : f.Holding l) {items : List (ForkItem β)}
    (hne : ∀ it ∈ items, ∀ m ∈ l, m.id ≠ it.id) :
    (items.foldl (fun f it => f.remove it.id) f).Holding l :=
  List.foldlRecOn items (fun f it => f.remove it.id) (motive := ForkDatabase.Holding l) h
    fun _ hf it hit => hf.remove (hne it hit)

/-- What is in the index is held. -/
lemma items (h : f.Holding l) (hhead : f.head.isSome = true) {items : List (ForkItem β)}
    (hitems : ∀ it ∈ items, it ∈ f.index) : f.Holding (items.map (·.data) ++ l) := by
  refine ⟨fun m hm => ?_, fun _ => hhead, h.pointed⟩
  rcases List.mem_append.mp hm with hm | hm
  · obtain ⟨it, hit, rfl⟩ := List.mem_map.mp hm
    exact fun _ _ _ => ⟨it, hitems it hit, rfl⟩
  · exact h.covers m hm

/-- Items that are alive may be pinned. -/
lemma pin (h : f.Holding l) {items : List (ForkItem β)} (hitems : ∀ it ∈ items, it ∈ f.alive) :
    ({ f with pinned := items } : ForkDatabase β).Holding l := by
  refine ⟨h.covers, h.head, h.pointed.mono (fun it hit => ?_) le_rfl⟩
  rcases mem_alive.mp hit with hi | hh | hp
  · exact mem_alive.mpr (.inl hi)
  · exact mem_alive.mpr (.inr (.inl hh))
  · exact hitems it hp

/-- The item of a block that is pushed points down. -/
lemma pointed_pushBlock (h : f.Pointed) (hpush : f.pushBlock b = .ok f') : f'.Pointed := by
  have hadd : ∀ prev, f.link b = .ok prev → (∀ it ∈ f'.alive, it = ⟨f.nextPtr, prev, b⟩ ∨ it ∈ f.alive) →
      f'.nextPtr = f.nextPtr + 1 → f'.Pointed := by
    intro prev hlink halive hnext
    refine h.add rfl (fun p hp => ?_) halive hnext
    unfold link at hlink
    split_ifs at hlink with hc
    · cases hfetch : f.fetchBlock b.previous with
      | none => simp [hfetch] at hlink
      | some it =>
          simp only [hfetch, Except.ok.injEq] at hlink
          subst hlink
          cases hp
          refine ⟨it, mem_alive.mpr (.inl (fetchBlock_mem_index hfetch)), rfl, ?_⟩
          have hnum : it.num + 1 = b.blockNum := congrArg (·.num + 1) (fetchBlock_id hfetch)
          change it.num < b.blockNum
          omega
    · cases hlink
      cases hp
  obtain ⟨prev, hlink, ⟨-, rfl⟩ | ⟨_, -, -, -, rfl⟩ | ⟨_, -, -, -, rfl⟩⟩ := pushBlock_eq_ok hpush
  · refine hadd prev hlink (fun it hit => ?_) rfl
    rcases mem_alive.mp hit with hi | hh | hp
    · exact (mem_insert hi).imp id fun hi => mem_alive.mpr (.inl hi)
    · cases hh
      exact .inl rfl
    · exact .inr (mem_alive.mpr (.inr (.inr hp)))
  · refine hadd prev hlink (fun it hit => ?_) rfl
    rcases mem_alive.mp hit with hi | hh | hp
    · exact (mem_insert (List.mem_of_mem_filter hi)).imp id fun hi => mem_alive.mpr (.inl hi)
    · cases hh
      exact .inl rfl
    · exact .inr (mem_alive.mpr (.inr (.inr hp)))
  · refine hadd prev hlink (fun it hit => ?_) rfl
    rcases mem_alive.mp hit with hi | hh | hp
    · exact (mem_insert hi).imp id fun hi => mem_alive.mpr (.inl hi)
    · exact .inr (mem_alive.mpr (.inr (.inl hh)))
    · exact .inr (mem_alive.mpr (.inr (.inr hp)))

/-- A new item is above an item that is covered already, if a first block is no exception. -/
lemma covers_insert (h : f.Holding l) {prev : Option ℕ} (hlink : f.link b = .ok prev)
    (hfirst : b.previous = .zero → l = [] ∨ f.fetchBlockByNumber 1 ≠ []) :
    (f.insert ⟨f.nextPtr, prev, b⟩).Covers l := by
  intro m hm it hit hle
  have hcovered : ∃ jt ∈ f.index, jt.data = m := by
    rcases mem_insert hit with rfl | hit
    · have hhead := h.head (List.ne_nil_of_mem hm)
      by_cases hzero : b.previous = .zero
      · rcases hfirst hzero with rfl | hone
        · cases hm
        · obtain ⟨jt, hjt⟩ := List.exists_mem_of_ne_nil _ hone
          simp only [fetchBlockByNumber, List.mem_filter, decide_eq_true_eq] at hjt
          exact h.covers m hm jt hjt.1 (hjt.2.trans_le (Nat.succ_pos _))
      · obtain ⟨p, hp, hid⟩ := exists_of_link hlink hhead hzero
        refine h.covers m hm p hp ?_
        have hnum : p.num + 1 = b.blockNum := congrArg (·.num + 1) hid
        change b.blockNum ≤ m.blockNum at hle
        omega
    · exact h.covers m hm it hit hle
  obtain ⟨jt, hjt, hjm⟩ := hcovered
  exact ⟨jt, mem_insert_of_mem hjt, hjm⟩

/-- **A block that is pushed** leaves the chain held, unless it is a first block and the first block
of the chain is not held any more; and it is held itself, unless another block is held under its
id. -/
theorem pushBlock (h : f.Holding l) (hpush : f.pushBlock b = .ok f')
    (hfirst : b.previous = .zero → l = [] ∨ f.fetchBlockByNumber 1 ≠ []) :
    f'.Holding l ∧ ((∀ it ∈ f.index, it.id = b.id → it.data = b) → f'.Holding (b :: l)) := by
  have hpointed := pointed_pushBlock h.pointed hpush
  obtain ⟨prev, hlink, hcase⟩ := pushBlock_eq_ok hpush
  have hcovers := h.covers_insert hlink hfirst
  have hself : (∀ it ∈ f.index, it.id = b.id → it.data = b) →
      (f.insert ⟨f.nextPtr, prev, b⟩).Covers (b :: l) := by
    intro hsame
    by_cases hheld : (f.fetchBlock b.id).isSome
    · obtain ⟨it, hit, hid⟩ := isSome_fetchBlock_iff.mp hheld
      exact hsame it hit hid ▸ hcovers.cons (mem_insert_of_mem hit)
    · have hnew : ⟨f.nextPtr, prev, b⟩ ∈ (f.insert ⟨f.nextPtr, prev, b⟩).index := mem_insert_self hheld
      exact hcovers.cons hnew
  rcases hcase with ⟨-, rfl⟩ | ⟨_, -, -, -, rfl⟩ | ⟨hd, hhead, -, -, rfl⟩
  · exact ⟨⟨hcovers, fun _ => rfl, hpointed⟩, fun hsame => ⟨hself hsame, fun _ => rfl, hpointed⟩⟩
  · exact ⟨⟨Covers.dropBelow (f := (f.insert _).setHead _) hcovers _, fun _ => rfl, hpointed⟩,
      fun hsame => ⟨Covers.dropBelow (f := (f.insert _).setHead _) (hself hsame) _, fun _ => rfl,
        hpointed⟩⟩
  · have hsome : (f.insert ⟨f.nextPtr, prev, b⟩).head.isSome = true := by
      change f.head.isSome = true
      rw [hhead]
      rfl
    exact ⟨⟨hcovers, fun _ => hsome, hpointed⟩, fun hsame => ⟨hself hsame, fun _ => hsome, hpointed⟩⟩

end Holding

end ForkDatabase

/-! ### The block database -/

namespace BlockDatabase

variable {pack : SignedBlock β → ℕ} {d d' : BlockDatabase β} {b : SignedBlock β}
  {l l' : List (SignedBlock β)}

/-- The entry of every block of `l` has its id and leads to it. -/
def Stores (pack : SignedBlock β → ℕ) (d : BlockDatabase β) (l : List (SignedBlock β)) : Prop :=
  ∀ m ∈ l, (d.entry m.blockNum).blockId = m.id ∧ d.unpack pack (d.entry m.blockNum) = some m

namespace Stores

lemma subset (h : d.Stores pack l) (hl : ∀ m ∈ l', m ∈ l) : d.Stores pack l' :=
  fun m hm => h m (hl m hm)

lemma fetchByNumber (h : d.Stores pack l) {m : SignedBlock β} (hm : m ∈ l) :
    d.fetchByNumber pack m.blockNum = some m := by
  rw [fetchByNumber_eq, (h m hm).2]

lemma fetchBlockId (h : d.Stores pack l) {m : SignedBlock β} (hm : m ∈ l) :
    d.fetchBlockId m.blockNum = some m.id := by
  rw [fetchBlockId_eq, (h m hm).1, if_neg m.id_ne_zero]

/-- What is stored under the id of another number does not matter. -/
lemma store_other (h : d.Stores pack l) {id : BlockId} (hid : id ≠ .zero)
    (hne : ∀ m ∈ l, m.blockNum ≠ id.num) (hst : d.store pack id b = .ok d') : d'.Stores pack l := by
  intro m hm
  have hentry := entry_store hid hst m.blockNum
  rw [if_neg (hne m hm)] at hentry
  obtain ⟨-, rfl⟩ := (store_eq_ok hid).mp hst
  obtain ⟨hblock, hunpack⟩ := h m hm
  refine ⟨hentry ▸ hblock, ?_⟩
  rw [hentry]
  rw [unpack] at hunpack ⊢
  cases hget : d.blocks[(d.entry m.blockNum).blockPos]? with
  | none => simp [hget] at hunpack
  | some b' =>
      rw [hget] at hunpack
      rw [List.getElem?_append_left (List.getElem?_eq_some_iff.mp hget).1, hget]
      exact hunpack

/-- A block of another number, stored under its id. -/
lemma store (h : d.Stores pack l) (hne : ∀ m ∈ l, m.blockNum ≠ b.blockNum)
    (hst : d.store pack b.id b = .ok d') : d'.Stores pack (b :: l) := by
  refine List.forall_mem_cons.mpr ⟨?_, h.store_other b.id_ne_zero hne hst⟩
  have hentry := entry_store b.id_ne_zero hst b.blockNum
  rw [if_pos (show b.blockNum = b.id.num from rfl)] at hentry
  obtain ⟨-, rfl⟩ := (store_eq_ok b.id_ne_zero).mp hst
  rw [hentry]
  exact ⟨rfl, by simp [unpack]⟩

end Stores

end BlockDatabase

end ZosCore
