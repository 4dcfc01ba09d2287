import ZosCore.Lib.Exec
import ZosCore.Chain.Types

/-!
`chain/fork_database.hpp`, `chain/fork_database.cpp`: the blocks of the last few
heights, linked by their `prev` pointers, and the head of the longest branch.

An item is shared between the index, `_head`, the local vectors of branches and
the `prev` pointers of its successors; the last are weak and keep nothing alive.
So an item has an identity `ptr` of its own: an item that has left the index and
is held by nobody is gone for its successors, also when a block of the same id is
pushed again later. The index `_unlinked_index` is never filled (`push_block`
throws before it would insert) and is left out.

* `pushBlock`, `popBlock`, `setHead`, `remove`, `setMaxSize`, `fetchBlock`,
  `fetchBlockByNumber`, `fetchBranchFrom`: the functions of `fork_database`.
* `All`: a property of all blocks that are held.
-/

namespace ZosCore

/-- `fork_item`: a block with a weak pointer to the item before it. -/
structure ForkItem (β : Type) where
  ptr : ℕ
  prev : Option ℕ := none
  data : SignedBlock β

namespace ForkItem

variable {β : Type}

/-- `fork_item::num`. -/
def num (it : ForkItem β) : ℕ := it.data.blockNum

/-- `fork_item::id`. -/
def id (it : ForkItem β) : BlockId := it.data.id

end ForkItem

/-- `fork_database`. `pinned` are the items that the branches of a switch in progress
keep alive, and `nextPtr` is an address that no item has yet. -/
structure ForkDatabase (β : Type) where
  index : List (ForkItem β) := []
  head : Option (ForkItem β) := none
  maxSize : ℕ := 1024
  pinned : List (ForkItem β) := []
  nextPtr : ℕ := 0

namespace ForkDatabase

variable {β : Type}

/-- The items that somebody holds. -/
def alive (f : ForkDatabase β) : List (ForkItem β) := f.index ++ f.head.toList ++ f.pinned

/-- `prev.lock()`. -/
def lock (f : ForkDatabase β) (it : ForkItem β) : Option (ForkItem β) :=
  it.prev.bind fun p => f.alive.find? (·.ptr = p)

/-- `fetch_block`. -/
def fetchBlock (f : ForkDatabase β) (id : BlockId) : Option (ForkItem β) :=
  f.index.find? (·.id = id)

/-- `fetch_block_by_number`. -/
def fetchBlockByNumber (f : ForkDatabase β) (num : ℕ) : List (ForkItem β) :=
  f.index.filter (·.num = num)

/-- The loops that erase the items of the lowest numbers. -/
def dropBelow (f : ForkDatabase β) (n : ℕ) : ForkDatabase β :=
  { f with index := f.index.filter (n ≤ ·.num) }

/-- `start_block`. -/
def startBlock (f : ForkDatabase β) (b : SignedBlock β) : ForkDatabase β :=
  let it : ForkItem β := { ptr := f.nextPtr, data := b }
  { f with
    index := if (f.fetchBlock b.id).isSome then f.index else it :: f.index
    head := some it
    nextPtr := f.nextPtr + 1 }

/-- The pointer of a new item to the one before it. -/
def link (f : ForkDatabase β) (b : SignedBlock β) : Except ChainError (Option ℕ) :=
  if f.head.isSome ∧ b.previous ≠ .zero then
    match f.fetchBlock b.previous with
    | some it => .ok (some it.ptr)
    | none => .error .unlinkableBlock
  else .ok none

/-- The item of a block that is pushed, and the index with it. An item whose id is
there already is not inserted. -/
def insert (f : ForkDatabase β) (it : ForkItem β) : ForkDatabase β :=
  { f with
    index := if (f.fetchBlock it.id).isSome then f.index else it :: f.index
    nextPtr := f.nextPtr + 1 }

/-- `fork_database::push_block`. -/
def pushBlock (f : ForkDatabase β) (b : SignedBlock β) : Except ChainError (ForkDatabase β) := do
  match f.head with
  | some h => if ¬ h.num - f.maxSize < b.blockNum then throw .blockTooOld
  | none => pure ()
  let prev ← f.link b
  let it : ForkItem β := { ptr := f.nextPtr, prev, data := b }
  let f := f.insert it
  match f.head with
  | none => return { f with head := some it }
  | some h =>
      if h.num < it.num then
        return { f with head := some it }.dropBelow (it.num - f.maxSize)
      else return f

/-- `fork_database::pop_block`. -/
def popBlock (f : ForkDatabase β) : Except ChainError (ForkDatabase β) :=
  match f.head with
  | none => .error .noBlocksToPop
  | some h =>
      match f.lock h with
      | none => .error .headBlockNull
      | some prev => .ok { f with head := some prev }

/-- `fork_database::set_head`. -/
def setHead (f : ForkDatabase β) (it : ForkItem β) : ForkDatabase β := { f with head := some it }

/-- `fork_database::remove`. -/
def remove (f : ForkDatabase β) (id : BlockId) : ForkDatabase β :=
  { f with index := f.index.filter (·.id ≠ id) }

/-- `fork_database::set_max_size`. -/
def setMaxSize (f : ForkDatabase β) (s : ℕ) : ForkDatabase β :=
  match f.head with
  | none => { f with maxSize := s }
  | some h => { f with maxSize := s }.dropBelow (h.num - s)

/-! ### `fetch_branch_from` -/

/-- The first two loops of `fetch_branch_from`: down to the height `n`. The fuel is the
number of the item, by which every step goes down. -/
def descend (f : ForkDatabase β) : ℕ → ForkItem β → ℕ →
    Except ChainError (List (ForkItem β) × ForkItem β)
  | 0, it, n => if n < it.num then .error .brokenBranch else .ok ([], it)
  | fuel + 1, it, n =>
      if n < it.num then
        match f.lock it with
        | none => .error .brokenBranch
        | some prev => do
            let (l, low) ← f.descend fuel prev n
            return (it :: l, low)
      else .ok ([], it)

/-- The third loop of `fetch_branch_from`: down to the block above the common
ancestor. -/
def meet (f : ForkDatabase β) : ℕ → ForkItem β → ForkItem β →
    Except ChainError (List (ForkItem β) × List (ForkItem β))
  | 0, _, _ => .error .brokenBranch
  | fuel + 1, a, b =>
      if a.data.previous ≠ b.data.previous then
        match f.lock a, f.lock b with
        | some a', some b' => do
            let (l, r) ← f.meet fuel a' b'
            return (a :: l, b :: r)
        | _, _ => .error .brokenBranch
      else .ok ([a], [b])

/-- `fork_database::fetch_branch_from`: the two branches, newest item first, down to the
common ancestor, which is in neither. -/
def fetchBranchFrom (f : ForkDatabase β) (first second : BlockId) :
    Except ChainError (List (ForkItem β) × List (ForkItem β)) :=
  match f.fetchBlock first, f.fetchBlock second with
  | some a, some b => do
      let (l₁, a) ← f.descend a.num a b.num
      let (l₂, b) ← f.descend b.num b a.num
      let (l, r) ← f.meet a.num a b
      return (l₁ ++ l, l₂ ++ r)
  | _, _ => .error .unknownBranch

/-! ### What is held -/

section Held

variable {P : SignedBlock β → Prop} {f f' : ForkDatabase β}

/-- Every block that the fork database holds, or that a switch in progress holds, is in `P`. -/
def All (P : SignedBlock β → Prop) (f : ForkDatabase β) : Prop := ∀ it ∈ f.alive, P it.data

lemma mem_alive {it : ForkItem β} :
    it ∈ f.alive ↔ it ∈ f.index ∨ f.head = some it ∨ it ∈ f.pinned := by
  simp [alive]

/-- Items may leave the index. -/
lemma mem_alive_of_subset (hindex : ∀ it ∈ f'.index, it ∈ f.index) (hhead : f'.head = f.head)
    (hpinned : f'.pinned = f.pinned) : ∀ it ∈ f'.alive, it ∈ f.alive := by
  intro it hit
  rcases mem_alive.mp hit with hi | hh | hp
  · exact mem_alive.mpr (.inl (hindex it hi))
  · exact mem_alive.mpr (.inr (.inl (hhead ▸ hh)))
  · exact mem_alive.mpr (.inr (.inr (hpinned ▸ hp)))

/-- A previous item is alive. -/
lemma lock_mem_alive {it prev : ForkItem β} (h : f.lock it = some prev) : prev ∈ f.alive := by
  obtain ⟨p, -, hp⟩ := Option.bind_eq_some_iff.mp h
  exact List.mem_of_find?_eq_some hp

lemma fetchBlock_mem_index {id : BlockId} {it : ForkItem β} (h : f.fetchBlock id = some it) :
    it ∈ f.index := List.mem_of_find?_eq_some h

/-- What `push_block` does if it does not throw: the block becomes an item, and if it is higher
than the head it becomes the head and the lowest items leave. -/
lemma pushBlock_eq_ok {b : SignedBlock β} (hf : f.pushBlock b = .ok f') :
    ∃ prev, f.link b = .ok prev ∧
      ((f.head = none ∧ f' = (f.insert ⟨f.nextPtr, prev, b⟩).setHead ⟨f.nextPtr, prev, b⟩) ∨
      (∃ h, f.head = some h ∧ h.num - f.maxSize < b.blockNum ∧ h.num < b.blockNum ∧
        f' = ((f.insert ⟨f.nextPtr, prev, b⟩).setHead ⟨f.nextPtr, prev, b⟩).dropBelow
          (b.blockNum - f.maxSize)) ∨
      ∃ h, f.head = some h ∧ h.num - f.maxSize < b.blockNum ∧ b.blockNum ≤ h.num ∧
        f' = f.insert ⟨f.nextPtr, prev, b⟩) := by
  unfold pushBlock at hf
  cases hh : f.head with
  | none =>
      simp only [hh] at hf
      obtain ⟨prev, hprev, hf⟩ := except_bind_eq_ok.mp hf
      refine ⟨prev, hprev, .inl ⟨rfl, ?_⟩⟩
      simp only [insert, hh] at hf
      cases hf
      rfl
  | some h =>
      simp only [hh] at hf
      by_cases hold : h.num - f.maxSize < b.blockNum
      · simp only [hold, not_true_eq_false, if_false] at hf
        obtain ⟨prev, hprev, hf⟩ := except_bind_eq_ok.mp hf
        simp only [insert, hh] at hf
        refine ⟨prev, hprev, .inr ?_⟩
        by_cases hlt : h.num < (ForkItem.mk f.nextPtr prev b).num
        · refine .inl ⟨h, rfl, hold, hlt, ?_⟩
          rw [if_pos hlt] at hf
          cases hf
          rfl
        · refine .inr ⟨h, rfl, hold, not_lt.mp hlt, ?_⟩
          rw [if_neg hlt] at hf
          cases hf
          simp only [insert, hh]
      · simp only [hold, not_false_eq_true, if_true] at hf
        cases hf

/-- What holds of an item and of all that are found by following `prev` holds of the items that are
passed on the way down. -/
lemma descend_closed {S : ForkItem β → Prop} (hS : ∀ {it prev}, S it → f.lock it = some prev → S prev)
    {fuel n : ℕ} {it low : ForkItem β} {l : List (ForkItem β)}
    (h : f.descend fuel it n = .ok (l, low)) (hit : S it) : (∀ x ∈ l, S x) ∧ S low := by
  induction fuel generalizing it l low with
  | zero =>
      unfold descend at h
      split_ifs at h
      cases h
      exact ⟨nofun, hit⟩
  | succ fuel ih =>
      unfold descend at h
      split_ifs at h
      · cases hl : f.lock it with
        | none => rw [hl] at h; cases h
        | some prev =>
            rw [hl] at h
            obtain ⟨⟨l', low'⟩, hd, hr⟩ := except_bind_eq_ok.mp h
            cases hr
            obtain ⟨hl', hlow⟩ := ih hd (hS hit hl)
            exact ⟨List.forall_mem_cons.mpr ⟨hit, hl'⟩, hlow⟩
      · cases h
        exact ⟨nofun, hit⟩

/-- So it does of the items that are passed on the way to the common ancestor. -/
lemma meet_closed {S T : ForkItem β → Prop}
    (hS : ∀ {it prev}, S it → f.lock it = some prev → S prev)
    (hT : ∀ {it prev}, T it → f.lock it = some prev → T prev) {fuel : ℕ} {a b : ForkItem β}
    {l r : List (ForkItem β)} (h : f.meet fuel a b = .ok (l, r)) (ha : S a) (hb : T b) :
    (∀ x ∈ l, S x) ∧ ∀ x ∈ r, T x := by
  induction fuel generalizing a b l r with
  | zero => cases h
  | succ fuel ih =>
      unfold meet at h
      split_ifs at h
      · cases hla : f.lock a with
        | none => simp only [hla] at h; cases h
        | some a' =>
            cases hlb : f.lock b with
            | none => simp only [hla, hlb] at h; cases h
            | some b' =>
                simp only [hla, hlb] at h
                obtain ⟨⟨l', r'⟩, hm, hr⟩ := except_bind_eq_ok.mp h
                cases hr
                obtain ⟨hl', hr'⟩ := ih hm (hS ha hla) (hT hb hlb)
                exact ⟨List.forall_mem_cons.mpr ⟨ha, hl'⟩, List.forall_mem_cons.mpr ⟨hb, hr'⟩⟩
      · cases h
        exact ⟨List.forall_mem_singleton.mpr ha, List.forall_mem_singleton.mpr hb⟩

/-- And of the items of both branches. -/
lemma fetchBranchFrom_closed {S T : ForkItem β → Prop}
    (hS : ∀ {it prev}, S it → f.lock it = some prev → S prev)
    (hT : ∀ {it prev}, T it → f.lock it = some prev → T prev) {first second : BlockId}
    {l r : List (ForkItem β)} (h : f.fetchBranchFrom first second = .ok (l, r))
    (hfirst : ∀ a, f.fetchBlock first = some a → S a)
    (hsecond : ∀ b, f.fetchBlock second = some b → T b) : (∀ x ∈ l, S x) ∧ ∀ x ∈ r, T x := by
  unfold fetchBranchFrom at h
  cases ha : f.fetchBlock first with
  | none => simp only [ha] at h; cases h
  | some a =>
      cases hb : f.fetchBlock second with
      | none => simp only [ha, hb] at h; cases h
      | some b =>
          simp only [ha, hb] at h
          obtain ⟨⟨l₁, a'⟩, h₁, h⟩ := except_bind_eq_ok.mp h
          obtain ⟨⟨l₂, b'⟩, h₂, h⟩ := except_bind_eq_ok.mp h
          obtain ⟨⟨l', r'⟩, h₃, h⟩ := except_bind_eq_ok.mp h
          cases h
          obtain ⟨hl₁, ha'⟩ := descend_closed hS h₁ (hfirst a ha)
          obtain ⟨hl₂, hb'⟩ := descend_closed hT h₂ (hsecond b hb)
          obtain ⟨hl', hr'⟩ := meet_closed hS hT h₃ ha' hb'
          exact ⟨List.forall_mem_append.mpr ⟨hl₁, hl'⟩, List.forall_mem_append.mpr ⟨hl₂, hr'⟩⟩

/-- The items of the branches are alive. -/
lemma fetchBranchFrom_mem_alive {first second : BlockId} {l r : List (ForkItem β)}
    (h : f.fetchBranchFrom first second = .ok (l, r)) : ∀ x ∈ l ++ r, x ∈ f.alive := by
  obtain ⟨hl, hr⟩ := fetchBranchFrom_closed (S := (· ∈ f.alive)) (T := (· ∈ f.alive))
    (fun _ hlock => lock_mem_alive hlock) (fun _ hlock => lock_mem_alive hlock) h
    (fun _ ha => mem_alive.mpr (.inl (fetchBlock_mem_index ha)))
    fun _ hb => mem_alive.mpr (.inl (fetchBlock_mem_index hb))
  exact List.forall_mem_append.mpr ⟨hl, hr⟩

namespace All

/-- Items may leave. -/
lemma mono (h : f.All P) (hf : ∀ it ∈ f'.alive, it ∈ f.alive) : f'.All P :=
  fun it hit => h it (hf it hit)

lemma dropBelow (h : f.All P) (n : ℕ) : (f.dropBelow n).All P :=
  h.mono (mem_alive_of_subset (fun _ => List.mem_of_mem_filter) rfl rfl)

lemma remove (h : f.All P) (id : BlockId) : (f.remove id).All P :=
  h.mono (mem_alive_of_subset (fun _ => List.mem_of_mem_filter) rfl rfl)

lemma setHead (h : f.All P) {it : ForkItem β} (hit : P it.data) : (f.setHead it).All P := by
  intro x hx
  rcases mem_alive.mp hx with hi | hh | hp
  · exact h x (mem_alive.mpr (.inl hi))
  · cases hh; exact hit
  · exact h x (mem_alive.mpr (.inr (.inr hp)))

lemma setMaxSize (h : f.All P) (n : ℕ) : (f.setMaxSize n).All P := by
  rw [ForkDatabase.setMaxSize]
  split
  · exact h
  · exact All.dropBelow (f := { f with maxSize := n }) h _

lemma popBlock (h : f.All P) (hf : f.popBlock = .ok f') : f'.All P := by
  unfold ForkDatabase.popBlock at hf
  split at hf
  · cases hf
  · split at hf
    · cases hf
    · rename_i prev hlock
      cases hf
      exact h.setHead (h prev (lock_mem_alive hlock))

lemma insert (h : f.All P) {it : ForkItem β} (hit : P it.data) : (f.insert it).All P := by
  intro x hx
  rcases mem_alive.mp hx with hi | hh | hp
  · unfold ForkDatabase.insert at hi
    split_ifs at hi
    · exact h x (mem_alive.mpr (.inl hi))
    · rcases List.mem_cons.mp hi with rfl | hi
      · exact hit
      · exact h x (mem_alive.mpr (.inl hi))
  · exact h x (mem_alive.mpr (.inr (.inl hh)))
  · exact h x (mem_alive.mpr (.inr (.inr hp)))

lemma pushBlock (h : f.All P) {b : SignedBlock β} (hb : P b) (hf : f.pushBlock b = .ok f') :
    f'.All P := by
  obtain ⟨prev, -, ⟨-, rfl⟩ | ⟨_, -, -, -, rfl⟩ | ⟨_, -, -, -, rfl⟩⟩ := pushBlock_eq_ok hf
  · exact (h.insert hb).setHead hb
  · exact ((h.insert hb).setHead hb).dropBelow _
  · exact h.insert hb

lemma pin (h : f.All P) {items : List (ForkItem β)} (hitems : ∀ it ∈ items, P it.data) :
    { f with pinned := items }.All P := by
  intro x hx
  rcases mem_alive.mp hx with hi | hh | hp
  · exact h x (mem_alive.mpr (.inl hi))
  · exact h x (mem_alive.mpr (.inr (.inl hh)))
  · exact hitems x hp

end All

end Held

end ForkDatabase

end ZosCore
