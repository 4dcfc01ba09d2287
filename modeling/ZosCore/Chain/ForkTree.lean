import ZosCore.Chain.ForkCalls
import ZosCore.Chain.Irreversible

/-!
The fork database as a tree: its items hang together down to the lowest ones that are held, and the
head is the highest of them.

`remove` takes an item out and leaves those that follow it; `pop_block` and `set_head` move the head
whatever is held above it. `_push_block` uses all three in a fork switch, so that the head ends up
below the blocks of the branch that the chain has switched to.

* `ForkDatabase.calls`: the calls of the fork database, one after the other.
* `ForkDatabase.Tree`: the items hang together, and the head is the highest of those that do.
* `ForkDatabase.Keeps`: what a call has to find for the tree to stay one.
* **`ForkDatabase.tree_calls_iff`**: a run goes through trees only exactly if every call finds it.
* `Database.Run.forkDb`: whatever a node does to its fork database is such a run.
-/

namespace ZosCore

variable {β ω : Type}

/-! ### Trees -/

section Items

/-- Every item above the lowest number has the item of its previous block, one below. -/
def Connected (l : List (ForkItem β)) : Prop :=
  ∀ it ∈ l, (∃ jt ∈ l, jt.num < it.num) → ∃ p ∈ l, p.id = it.data.previous ∧ p.num + 1 = it.num

/-- The ancestors of an item are there down to the lowest number. -/
inductive Rooted (l : List (ForkItem β)) : ForkItem β → Prop
  | lowest {it : ForkItem β} : it ∈ l → (∀ jt ∈ l, it.num ≤ jt.num) → Rooted l it
  | follows {it p : ForkItem β} : it ∈ l → p.id = it.data.previous → Rooted l p → Rooted l it

variable {l : List (ForkItem β)} {it p : ForkItem β}

/-- An item is one above that of its previous block. -/
lemma ForkItem.num_eq_of_previous (h : p.id = it.data.previous) : p.num + 1 = it.num :=
  congrArg (·.num + 1) h

lemma Rooted.mem (h : Rooted l it) : it ∈ l := by
  cases h <;> assumption

namespace Connected

/-- Where the items are connected, all of them are rooted. -/
lemma rooted (h : Connected l) (hit : it ∈ l) : Rooted l it := by
  induction hn : it.num using Nat.strong_induction_on generalizing it with
  | _ n ih =>
      by_cases hlow : ∃ jt ∈ l, jt.num < it.num
      · obtain ⟨p, hp, hid, hnum⟩ := h it hit hlow
        exact .follows hit hid (ih p.num (by omega) hp rfl)
      · push Not at hlow
        exact .lowest hit hlow

/-- The items of the lowest numbers may leave. -/
lemma filter_num (h : Connected l) (n : ℕ) : Connected (l.filter (n ≤ ·.num)) := by
  intro it hit ⟨jt, hjt, hlt⟩
  simp only [List.mem_filter, decide_eq_true_eq] at hit hjt
  obtain ⟨p, hp, hid, hnum⟩ := h it hit.1 ⟨jt, hjt.1, hlt⟩
  refine ⟨p, List.mem_filter.mpr ⟨hp, decide_eq_true ?_⟩, hid, hnum⟩
  exact hjt.2.trans (by omega)

/-- A new item has to find its previous one, if it is not the lowest, and to be the previous one of
the lowest items, if it is lower than these. -/
lemma cons_iff (h : Connected l) :
    Connected (it :: l) ↔
      ((∃ jt ∈ l, jt.num < it.num) → ∃ p ∈ l, p.id = it.data.previous) ∧
      ∀ jt ∈ l, (∀ kt ∈ l, jt.num ≤ kt.num) → it.num < jt.num → it.id = jt.data.previous := by
  constructor
  · intro hcons
    refine ⟨fun ⟨jt, hjt, hlt⟩ => ?_, fun jt hjt hlow hlt => ?_⟩
    · obtain ⟨p, hp, hid, hnum⟩ := hcons it List.mem_cons_self ⟨jt, List.mem_cons_of_mem _ hjt, hlt⟩
      rcases List.mem_cons.mp hp with rfl | hp
      · omega
      · exact ⟨p, hp, hid⟩
    · obtain ⟨p, hp, hid, hnum⟩ :=
        hcons jt (List.mem_cons_of_mem _ hjt) ⟨it, List.mem_cons_self, hlt⟩
      rcases List.mem_cons.mp hp with rfl | hp
      · exact hid
      · have hle := hlow p hp
        omega
  · rintro ⟨hprev, hnext⟩ jt hjt ⟨kt, hkt, hlt⟩
    rcases List.mem_cons.mp hjt with rfl | hjt'
    · rcases List.mem_cons.mp hkt with rfl | hkt'
      · exact absurd hlt (lt_irrefl _)
      · obtain ⟨p, hp, hid⟩ := hprev ⟨kt, hkt', hlt⟩
        exact ⟨p, List.mem_cons_of_mem _ hp, hid, ForkItem.num_eq_of_previous hid⟩
    · by_cases hlow : ∃ kt ∈ l, kt.num < jt.num
      · obtain ⟨p, hp, hid, hnum⟩ := h jt hjt' hlow
        exact ⟨p, List.mem_cons_of_mem _ hp, hid, hnum⟩
      · -- only the new item is lower
        push Not at hlow
        rcases List.mem_cons.mp hkt with rfl | hkt'
        · have hid := hnext jt hjt' hlow hlt
          exact ⟨kt, List.mem_cons_self, hid, ForkItem.num_eq_of_previous hid⟩
        · have hle := hlow kt hkt'
          omega

/-- An item may leave if those that follow it are the lowest of the others. -/
lemma filter_id_iff (h : Connected l) (id : BlockId) :
    Connected (l.filter (·.id ≠ id)) ↔ ∀ it ∈ l, it.id ≠ id → it.data.previous = id →
      ∀ jt ∈ l, jt.id ≠ id → it.num ≤ jt.num := by
  constructor
  · intro hfilter it hit hne hprev jt hjt hjne
    by_contra! hlt
    obtain ⟨p, hp, hid, -⟩ := hfilter it (List.mem_filter.mpr ⟨hit, decide_eq_true hne⟩)
      ⟨jt, List.mem_filter.mpr ⟨hjt, decide_eq_true hjne⟩, hlt⟩
    exact of_decide_eq_true (List.mem_filter.mp hp).2 (hid.trans hprev)
  · rintro hfollow it hit ⟨jt, hjt, hlt⟩
    simp only [List.mem_filter, decide_eq_true_eq] at hit hjt
    obtain ⟨p, hp, hid, hnum⟩ := h it hit.1 ⟨jt, hjt.1, hlt⟩
    refine ⟨p, List.mem_filter.mpr ⟨hp, decide_eq_true fun hpid => ?_⟩, hid, hnum⟩
    have hle := hfollow it hit.1 hit.2 (hid.symm.trans hpid) jt hjt.1 hjt.2
    omega

end Connected

end Items

namespace ForkDatabase

variable {f f' : ForkDatabase β} {b : SignedBlock β}

/-- The items are connected, and the head is at least as high as every item whose ancestors are
there. -/
structure Tree (f : ForkDatabase β) : Prop where
  connected : Connected f.index
  highest : ∀ it, Rooted f.index it → ∃ h, f.head = some h ∧ it.num ≤ h.num

/-- No item is below the window of the head. -/
def Trimmed (f : ForkDatabase β) : Prop :=
  ∀ h, f.head = some h → ∀ it ∈ f.index, h.num - f.maxSize ≤ it.num

lemma tree_iff : f.Tree ↔
    Connected f.index ∧ ∀ it ∈ f.index, ∃ h, f.head = some h ∧ it.num ≤ h.num := by
  constructor
  · exact fun h => ⟨h.connected, fun it hit => h.highest it (h.connected.rooted hit)⟩
  · exact fun h => ⟨h.1, fun it hit => h.2 it hit.mem⟩

instance (l : List (ForkItem β)) : Decidable (Connected l) :=
  inferInstanceAs (Decidable (∀ it ∈ l, _))

instance (f : ForkDatabase β) : Decidable f.Tree :=
  decidable_of_iff (Connected f.index ∧ ∀ it ∈ f.index, ∃ h ∈ f.head.toList, it.num ≤ h.num)
    (by simp [tree_iff])

/-- With nothing held there is a tree. -/
lemma tree_of_index (h : f.index = []) : f.Tree := by
  simp [tree_iff, Connected, h]

lemma Tree.index_eq_nil (h : f.Tree) (hhead : f.head = none) : f.index = [] := by
  refine List.eq_nil_iff_forall_not_mem.mpr fun it hit => ?_
  obtain ⟨_, hh, -⟩ := (tree_iff.mp h).2 it hit
  rw [hhead] at hh
  cases hh

lemma Tree.num_le {h : ForkItem β} (hf : f.Tree) (hhead : f.head = some h) {it : ForkItem β}
    (hit : it ∈ f.index) : it.num ≤ h.num := by
  obtain ⟨_, hh, hle⟩ := (tree_iff.mp hf).2 it hit
  cases hhead.symm.trans hh
  exact hle

/-! ### Runs of calls -/

/-- The calls of a run, from an empty fork database on. -/
def calls (l : List (ForkCall β)) : ForkDatabase β := l.foldl call {}

/-- A push that advances the head, or a change of the size. -/
def Trims (f : ForkDatabase β) : ForkCall β → Prop
  | .pushBlock b => ∃ f', f.pushBlock b = .ok f' ∧ ∀ h, f.head = some h → h.num < b.blockNum
  | .setMaxSize _ => True
  | _ => False

/-- What a call has to find so that the tree stays one. A first block has to be the previous one of
the lowest items, an item that is taken out must have no other followers than the lowest of the
other items, and where the head is set nothing may be above it. -/
def Keeps (f : ForkDatabase β) : ForkCall β → Prop
  | .startBlock b =>
      (∀ it ∈ f.index, it.num ≤ b.blockNum) ∧
        ((f.fetchBlock b.id).isSome ∨ (∀ it ∈ f.index, b.blockNum ≤ it.num) ∨
          ∃ p ∈ f.index, p.id = b.previous)
  | .pushBlock b =>
      b.previous = .zero → (∀ h, f.head = some h → h.num ≤ f.maxSize) →
        ∀ it ∈ f.index, (∀ jt ∈ f.index, it.num ≤ jt.num) → 1 < it.num → it.data.previous = b.id
  | .popBlock =>
      ∀ h prev, f.head = some h → f.lock h = some prev → ∀ it ∈ f.index, it.num ≤ prev.num
  | .remove id =>
      ∀ it ∈ f.index, it.id ≠ id → it.data.previous = id →
        ∀ jt ∈ f.index, jt.id ≠ id → it.num ≤ jt.num
  | .setHead h => ∀ it ∈ f.index, it.num ≤ h.num
  | _ => True

/-! ### One call -/

lemma fetchBlock_id {id : BlockId} {it : ForkItem β} (h : f.fetchBlock id = some it) :
    it.id = id := by
  unfold fetchBlock at h
  simpa using List.find?_some h

lemma isSome_fetchBlock_iff {id : BlockId} :
    (f.fetchBlock id).isSome ↔ ∃ it ∈ f.index, it.id = id := by
  simp [fetchBlock, List.find?_isSome]

/-- A block that has a previous one is linked to its item. -/
lemma exists_of_link {prev : Option ℕ} (h : f.link b = .ok prev) (hhead : f.head.isSome)
    (hne : b.previous ≠ .zero) : ∃ p ∈ f.index, p.id = b.previous := by
  unfold link at h
  rw [if_pos ⟨hhead, hne⟩] at h
  cases hfetch : f.fetchBlock b.previous with
  | none => simp [hfetch] at h
  | some p => exact ⟨p, fetchBlock_mem_index hfetch, fetchBlock_id hfetch⟩

/-- Whether a new item leaves the items connected. -/
lemma connected_insert_iff {it : ForkItem β} (h : Connected f.index) :
    Connected (f.insert it).index ↔ (f.fetchBlock it.id).isSome ∨
      ((∃ jt ∈ f.index, jt.num < it.num) → ∃ p ∈ f.index, p.id = it.data.previous) ∧
      ∀ jt ∈ f.index, (∀ kt ∈ f.index, jt.num ≤ kt.num) → it.num < jt.num →
        it.id = jt.data.previous := by
  rw [insert]
  split_ifs with hheld
  · exact ⟨fun _ => .inl hheld, fun _ => h⟩
  · rw [h.cons_iff, or_iff_right hheld]

lemma mem_insert {it jt : ForkItem β} (h : jt ∈ (f.insert it).index) : jt = it ∨ jt ∈ f.index := by
  unfold insert at h
  split_ifs at h
  · exact .inr h
  · exact List.mem_cons.mp h

lemma mem_insert_of_mem {it jt : ForkItem β} (h : jt ∈ f.index) : jt ∈ (f.insert it).index := by
  rw [insert]
  split_ifs
  · exact h
  · exact List.mem_cons_of_mem _ h

lemma mem_insert_self {it : ForkItem β} (h : ¬ (f.fetchBlock it.id).isSome) :
    it ∈ (f.insert it).index := by
  rw [insert]
  rw [if_neg h]
  exact List.mem_cons_self

/-- A block that starts the fork database has to be the highest, and held, the lowest or linked. -/
lemma tree_startBlock_iff (hf : f.Tree) : (f.startBlock b).Tree ↔ f.Keeps (.startBlock b) := by
  have hstart : f.startBlock b =
      (f.insert ⟨f.nextPtr, none, b⟩).setHead ⟨f.nextPtr, none, b⟩ := rfl
  rw [hstart]
  constructor
  · intro htree
    have hle : ∀ it ∈ f.index, it.num ≤ b.blockNum := fun it hit => htree.num_le rfl (mem_insert_of_mem hit)
    refine ⟨hle, ?_⟩
    rcases (connected_insert_iff hf.connected).mp htree.connected with hheld | ⟨hprev, -⟩
    · exact .inl hheld
    · by_cases hlow : ∃ jt ∈ f.index, jt.num < b.blockNum
      · exact .inr (.inr (hprev hlow))
      · push Not at hlow
        exact .inr (.inl hlow)
  · rintro ⟨hle, hlinked⟩
    refine tree_iff.mpr ⟨(connected_insert_iff hf.connected).mpr ?_, fun it hit => ⟨_, rfl, ?_⟩⟩
    · rcases hlinked with hheld | hlow | hprev
      · exact .inl hheld
      · exact .inr ⟨fun ⟨jt, hjt, hlt⟩ => absurd hlt (hlow jt hjt).not_gt,
          fun jt hjt _ hlt => absurd hlt (hle jt hjt).not_gt⟩
      · exact .inr ⟨fun _ => hprev, fun jt hjt _ hlt => absurd hlt (hle jt hjt).not_gt⟩
    · rcases mem_insert hit with rfl | hit
      · exact le_rfl
      · exact hle it hit

/-- A first block is accepted where the window of the head reaches down to it. -/
lemma pushBlock_of_zero (hprev : b.previous = .zero)
    (hwindow : ∀ h, f.head = some h → h.num ≤ f.maxSize) : ∃ f', f.pushBlock b = .ok f' := by
  have hlink : f.link b = .ok none := by simp [link, hprev]
  rw [pushBlock]
  cases hhead : f.head with
  | none => exact ⟨_, by simp [hlink, bind, Except.bind, insert, hhead]; rfl⟩
  | some h =>
      have hold : h.num - f.maxSize < b.blockNum := by
        rw [Nat.sub_eq_zero_of_le (hwindow h hhead)]
        exact Nat.succ_pos _
      simp only [hold, not_true_eq_false, if_false, hlink]
      by_cases hlt : h.num < (ForkItem.mk f.nextPtr none b).num
      · exact ⟨_, by simp [bind, Except.bind, pure, Except.pure, insert, hhead, hlt]; rfl⟩
      · exact ⟨_, by simp [bind, Except.bind, pure, Except.pure, insert, hhead, hlt]; rfl⟩

/-- A block that is pushed keeps the tree, unless it is a first block that the lowest items do not
follow. -/
lemma tree_pushBlock_iff (hf : f.Tree) (hpush : f.pushBlock b = .ok f') :
    f'.Tree ↔ f.Keeps (.pushBlock b) := by
  obtain ⟨prev, hlink, ⟨hnone, rfl⟩ | ⟨h, hh, hold, hlt, rfl⟩ | ⟨h, hh, hold, hle, rfl⟩⟩ :=
    pushBlock_eq_ok hpush
  · -- nothing is held yet
    have hindex := hf.index_eq_nil hnone
    refine iff_of_true (tree_iff.mpr ⟨?_, fun it hit => ⟨_, rfl, ?_⟩⟩) ?_
    · refine (connected_insert_iff hf.connected).mpr (.inr ?_)
      simp [hindex]
    · rcases mem_insert hit with rfl | hit
      · exact le_rfl
      · simp [hindex] at hit
    · simp [Keeps, hindex]
  · -- the block is above all items, so it is not held, and it has a previous one
    have hle : ∀ it ∈ f.index, it.num < b.blockNum := fun it hit => (hf.num_le hh hit).trans_lt hlt
    have hne : b.previous ≠ .zero := by
      intro hzero
      have hnum : b.blockNum = 1 := by rw [SignedBlock.blockNum, hzero]; rfl
      have hpos : 0 < h.num := Nat.succ_pos _
      omega
    have hprev := exists_of_link hlink (by rw [hh]; rfl) hne
    refine iff_of_true (tree_iff.mpr ⟨?_, fun it hit => ⟨_, rfl, ?_⟩⟩) fun hzero => absurd hzero hne
    · refine Connected.filter_num ((connected_insert_iff hf.connected).mpr (.inr ?_)) _
      exact ⟨fun _ => hprev, fun jt hjt _ hjlt => absurd hjlt (hle jt hjt).not_gt⟩
    · rcases mem_insert (List.mem_of_mem_filter hit) with rfl | hit
      · exact le_rfl
      · exact (hle it hit).le
  · -- the head stays
    have hhighest : ∀ it ∈ (f.insert ⟨f.nextPtr, prev, b⟩).index,
        ∃ h, (f.insert ⟨f.nextPtr, prev, b⟩).head = some h ∧ it.num ≤ h.num := by
      intro it hit
      refine ⟨h, hh, ?_⟩
      rcases mem_insert hit with rfl | hit
      · exact hle
      · exact hf.num_le hh hit
    have htree : (f.insert ⟨f.nextPtr, prev, b⟩).Tree ↔
        Connected (f.insert ⟨f.nextPtr, prev, b⟩).index := by
      rw [tree_iff, and_iff_left hhighest]
    rw [htree, connected_insert_iff hf.connected]
    by_cases hzero : b.previous = .zero
    · have hnum : b.blockNum = 1 := by rw [SignedBlock.blockNum, hzero]; rfl
      constructor
      · rintro (hheld | ⟨-, hnext⟩) - - jt hjt hlow hlt
        · obtain ⟨it, hit, hid⟩ := isSome_fetchBlock_iff.mp hheld
          have hitnum : it.num = b.blockNum := congrArg BlockId.num hid
          have hle := hlow it hit
          omega
        · exact (hnext jt hjt hlow (hnum.trans_lt hlt)).symm
      · refine fun hkeeps => .inr ⟨?_, fun jt hjt hlow hlt => ?_⟩
        · rintro ⟨jt, -, hlt⟩
          have hpos : 0 < jt.num := Nat.succ_pos _
          change jt.num < b.blockNum at hlt
          omega
        · refine (hkeeps hzero (fun h' hh' => ?_) jt hjt hlow (hnum.symm.trans_lt hlt)).symm
          cases hh.symm.trans hh'
          omega
    · obtain ⟨p, hp, hid⟩ := exists_of_link hlink (by rw [hh]; rfl) hzero
      refine iff_of_true (.inr ⟨fun _ => ⟨p, hp, hid⟩, fun jt hjt hlow hlt => ?_⟩)
        fun h => absurd h hzero
      -- the previous item is below a lowest one
      have hnum : p.num + 1 = b.blockNum := congrArg (·.num + 1) hid
      have hle := hlow p hp
      change b.blockNum < jt.num at hlt
      omega

/-- `pop_block` sets the head to its previous item. -/
lemma popBlock_eq_ok : f.popBlock = .ok f' ↔
    ∃ h prev, f.head = some h ∧ f.lock h = some prev ∧ f' = f.setHead prev := by
  rw [popBlock]
  cases hhead : f.head with
  | none => simp
  | some h =>
      cases hlock : f.lock h with
      | none => simp [hlock]
      | some prev => simp [hlock, setHead, eq_comm]

/-- An item that is taken out. -/
lemma tree_remove_iff (hf : f.Tree) {id : BlockId} :
    (f.remove id).Tree ↔ f.Keeps (.remove id) := by
  have hhighest : ∀ it ∈ (f.remove id).index, ∃ h, (f.remove id).head = some h ∧ it.num ≤ h.num :=
    fun it hit => (tree_iff.mp hf).2 it (List.mem_of_mem_filter hit)
  rw [tree_iff, and_iff_left hhighest]
  exact hf.connected.filter_id_iff id

/-- The head that is set has to be the highest. -/
lemma tree_setHead_iff (hf : f.Tree) {h : ForkItem β} :
    (f.setHead h).Tree ↔ f.Keeps (.setHead h) := by
  constructor
  · exact fun htree it hit => htree.num_le rfl hit
  · exact fun hkeeps => tree_iff.mpr ⟨hf.connected, fun it hit => ⟨h, rfl, hkeeps it hit⟩⟩

lemma Tree.dropBelow (hf : f.Tree) (n : ℕ) : (f.dropBelow n).Tree :=
  tree_iff.mpr ⟨hf.connected.filter_num n,
    fun it hit => (tree_iff.mp hf).2 it (List.mem_of_mem_filter hit)⟩

lemma Tree.setMaxSize (hf : f.Tree) (s : ℕ) : (f.setMaxSize s).Tree := by
  have hsize : ({ f with maxSize := s } : ForkDatabase β).Tree := ⟨hf.connected, hf.highest⟩
  rw [ForkDatabase.setMaxSize]
  split
  · exact hsize
  · exact hsize.dropBelow _

/-- **One call** leads from a tree to a tree exactly if it finds what it has to. -/
theorem tree_call_iff (hf : f.Tree) (c : ForkCall β) : (f.call c).Tree ↔ f.Keeps c := by
  cases c with
  | reset => exact iff_of_true (tree_of_index rfl) trivial
  | startBlock b => exact tree_startBlock_iff hf
  | pushBlock b =>
      cases hpush : f.pushBlock b with
      | ok f' =>
          simp only [call, hpush]
          exact tree_pushBlock_iff hf hpush
      | error e =>
          simp only [call, hpush]
          refine iff_of_true hf fun hzero hwindow => ?_
          obtain ⟨f', hok⟩ := pushBlock_of_zero hzero hwindow
          cases hpush.symm.trans hok
  | popBlock =>
      cases hpop : f.popBlock with
      | ok f' =>
          obtain ⟨h, prev, hhead, hlock, rfl⟩ := popBlock_eq_ok.mp hpop
          simp only [call, hpop]
          rw [tree_setHead_iff hf]
          refine ⟨fun hkeeps h' prev' hhead' hlock' => ?_, fun hkeeps => hkeeps h prev hhead hlock⟩
          cases hhead.symm.trans hhead'
          cases hlock.symm.trans hlock'
          exact hkeeps
      | error e =>
          simp only [call, hpop]
          refine iff_of_true hf fun h prev hhead hlock => ?_
          cases hpop.symm.trans (popBlock_eq_ok.mpr ⟨h, prev, hhead, hlock, rfl⟩)
  | remove id => exact tree_remove_iff hf
  | setHead h => exact tree_setHead_iff hf
  | setMaxSize s => exact iff_of_true (hf.setMaxSize s) trivial
  | hold items => exact iff_of_true ⟨hf.connected, hf.highest⟩ trivial

lemma trimmed_dropBelow {h : ForkItem β} (hhead : f.head = some h) :
    (f.dropBelow (h.num - f.maxSize)).Trimmed := by
  intro h' hh' it hit
  cases hhead.symm.trans hh'
  exact of_decide_eq_true (List.mem_filter.mp hit).2

/-- A push that advances the head, and a change of the size, leave no item below the window. -/
lemma trimmed_call (hf : f.Tree) {c : ForkCall β} (hc : f.Trims c) : (f.call c).Trimmed := by
  cases c with
  | pushBlock b =>
      obtain ⟨f', hpush, hadvance⟩ := hc
      simp only [call, hpush]
      obtain ⟨prev, -, ⟨hnone, rfl⟩ | ⟨h, -, -, -, rfl⟩ | ⟨h, hh, -, hle, -⟩⟩ :=
        pushBlock_eq_ok hpush
      · -- the block is the only item
        intro h hh it hit
        cases hh
        rcases mem_insert hit with rfl | hit
        · exact Nat.sub_le _ _
        · simp [hf.index_eq_nil hnone] at hit
      · exact trimmed_dropBelow (h := ⟨f.nextPtr, prev, b⟩) rfl
      · exact absurd (hadvance h hh) hle.not_gt
  | setMaxSize s =>
      change (f.setMaxSize s).Trimmed
      rw [ForkDatabase.setMaxSize]
      split
      · rename_i hnone
        intro h hh
        cases hnone.symm.trans hh
      · rename_i h hh
        exact trimmed_dropBelow (f := { f with maxSize := s }) hh
  | _ => exact hc.elim

/-! ### Runs -/

lemma calls_concat (l : List (ForkCall β)) (c : ForkCall β) :
    calls (l ++ [c]) = (calls l).call c := by
  simp [calls]

/-- **The fork database stays a tree** in a run exactly if every call finds what it has to: the
items are connected, the head is the highest, and whenever the head was advanced or the size was
changed no item is below the window. -/
theorem tree_calls_iff (l : List (ForkCall β)) :
    (∀ l', l' <+: l → (calls l').Tree ∧
      ∀ l₁ c, l' = l₁ ++ [c] → (calls l₁).Trims c → (calls l').Trimmed) ↔
      ∀ l' c, l' ++ [c] <+: l → (calls l').Keeps c := by
  constructor
  · intro htree l' c hl'
    have hbefore := (htree l' ((List.prefix_append _ _).trans hl')).1
    have hafter := (htree (l' ++ [c]) hl').1
    rw [calls_concat] at hafter
    exact (tree_call_iff hbefore c).mp hafter
  · intro hkeeps
    have htree : ∀ l', l' <+: l → (calls l').Tree := by
      intro l'
      induction l' using List.reverseRecOn with
      | nil => exact fun _ => tree_of_index rfl
      | append_singleton l' c ih =>
          intro hl'
          rw [calls_concat]
          exact (tree_call_iff (ih ((List.prefix_append _ _).trans hl')) c).mpr (hkeeps l' c hl')
    refine fun l' hl' => ⟨htree l' hl', ?_⟩
    rintro l₁ c rfl htrims
    rw [calls_concat]
    exact trimmed_call (htree l₁ ((List.prefix_append _ _).trans hl')) htrims

end ForkDatabase

/-! ### The fork database of a node -/

/-- **The fork database of a node** goes through a run of its calls, whatever the node is called
with. -/
theorem Database.Run.exists_calls {R : Rules β ω} {d : ℕ} {db₀ db : Database β ω} {l : List (Call β)}
    (h : Database.Run R d db₀ l db) (h₀ : db₀.Fresh) {k : List (ForkCall β)}
    (hk : db₀.forkDb = ForkDatabase.calls k) :
    ∃ k', k <+: k' ∧ db.forkDb = ForkDatabase.calls k' := by
  have hF : PushInvariant fun db : Database β ω =>
      ∃ k', k <+: k' ∧ db.forkDb = ForkDatabase.calls k' :=
    { change := fun _ _ _ _ _ _ h => h
      call := by
        rintro db c ⟨k', hprefix, hk'⟩
        refine ⟨k' ++ [c], hprefix.trans (List.prefix_append _ _), ?_⟩
        rw [ForkDatabase.calls_concat, ← hk']
      other := fun _ _ _ _ _ _ h => h }
  exact hF.run (fun _ _ hdb => hdb) h h₀ ⟨k, List.prefix_rfl, hk⟩

theorem Database.Run.exists_calls_twoBlocks :
    ∃ k', [] <+: k' ∧ twoBlocks.forkDb = ForkDatabase.calls k' :=
  twoBlocks_run.exists_calls (newChain_begins _).toFresh rfl

/-- A block on the first one that cannot be applied, as it is not later than the one before it. -/
def lateBlock : SignedBlock Unit := { emptyBlock ⟨1, 1⟩ 3 with timestamp := 1700000003 }

/-- Three blocks, and a branch off the first one with two ends. -/
def threeBranches : Database Unit Unit :=
  ([.pushBlock (emptyBlock .zero 1) {}, .pushBlock (emptyBlock ⟨1, 1⟩ 2) {},
    .pushBlock (emptyBlock ⟨2, 2⟩ 3) {}, .pushBlock lateBlock {},
    .pushBlock (emptyBlock ⟨2, 3⟩ 4) {}, .pushBlock (emptyBlock ⟨2, 3⟩ 5) {}].foldl
      (fun db c => (Database.call calmRules 1 c db).2) (newChain [0, 1, 2, 3]) : Database Unit Unit)

/-- A switch to another branch leaves the head of the fork database below the block it has switched
to. A switch that fails takes the blocks of the new branch out, and the other end of that branch is
left without the block it follows. -/
theorem not_tree_otherBranch :
    (Database.Run calmRules 1 (newChain [0])
      [.pushBlock (emptyBlock .zero 1) {}, .pushBlock (emptyBlock ⟨1, 1⟩ 2) {},
        .pushBlock (emptyBlock ⟨1, 1⟩ 3) {}, .pushBlock (emptyBlock ⟨2, 3⟩ 4) {}] otherBranch ∧
      twoBlocks.forkDb.Tree ∧ ¬ otherBranch.forkDb.Tree) ∧
    ∃ db, Database.Run calmRules 1 (newChain [0, 1, 2, 3])
      [.pushBlock (emptyBlock .zero 1) {}, .pushBlock (emptyBlock ⟨1, 1⟩ 2) {},
        .pushBlock (emptyBlock ⟨2, 2⟩ 3) {}, .pushBlock lateBlock {},
        .pushBlock (emptyBlock ⟨2, 3⟩ 4) {}, .pushBlock (emptyBlock ⟨2, 3⟩ 5) {},
        .pushBlock (emptyBlock ⟨3, 4⟩ 6) {}] db ∧
      threeBranches.forkDb.Tree ∧ ¬ Connected db.forkDb.index := by
  refine ⟨⟨?_, by decide +kernel, by decide +kernel⟩, ?_⟩
  · exact (twoBlocks_run.returns (by decide +kernel)).returns (by decide +kernel)
  · have hrun : Database.Run calmRules 1 (newChain [0, 1, 2, 3])
        [.pushBlock (emptyBlock .zero 1) {}, .pushBlock (emptyBlock ⟨1, 1⟩ 2) {},
          .pushBlock (emptyBlock ⟨2, 2⟩ 3) {}, .pushBlock lateBlock {},
          .pushBlock (emptyBlock ⟨2, 3⟩ 4) {}, .pushBlock (emptyBlock ⟨2, 3⟩ 5) {}]
        threeBranches :=
      ((((((Database.Run.nil _).returns (by decide +kernel)).returns (by decide +kernel)).returns
        (by decide +kernel)).returns (by decide +kernel)).returns (by decide +kernel)).returns
        (by decide +kernel)
    have hthrows : (Database.call calmRules 1 (.pushBlock (emptyBlock ⟨3, 4⟩ 6) {})
        threeBranches).1 = .error (.fc .timestampNotLater) := by decide +kernel
    refine ⟨_, hrun.snoc ⟨rfl, ?_⟩, by decide +kernel, by decide +kernel⟩
    rw [hthrows]
    nofun

end ZosCore
