import ZosCore.Chain.Slots

/-!
`update_witness_schedule` and `get_scheduled_witness`: the schedule of the witnesses.

* `swap_perm`, `shuffle_perm`: a swap in range permutes the vector, and the loop of the shuffle
  stays in range.
* `Reachable`, `StepUnshuffled`: the states of a chain, and the blocks that leave the schedule.
* `Reachable.currentAslot_le`: the absolute slot does not reach 64 bits.
* **`schedule_fair`**: the schedule is a permutation of the active witnesses, and between two
  shuffles it gives as many slots in a row as there are scheduled witnesses to each of them once.
-/

namespace ZosCore

namespace SlotState

variable {s s' : SlotState} {b : SlotBlock}

/-! ### The shuffle -/

/-- A swap in range permutes the vector. -/
lemma swap_perm {l : List ℕ} {i j : ℕ} (hi : i < l.length) (hj : j < l.length) :
    ∃ l', swap l i j = some l' ∧ l'.Perm l := by
  refine ⟨(l.set i l[j]).set j l[i], ?_, List.set_set_perm hi hj⟩
  simp [swap, hi, hj]

/-- The places are swapped with later ones. -/
lemma shuffleIndex_lt {time n i : ℕ} (h : i < n) : shuffleIndex time n i < n := by
  have hpos : 0 < n - i := by omega
  unfold shuffleIndex
  dsimp only
  generalize UInt64.toNat _ = k
  have := Nat.mod_lt k hpos
  omega

/-- The loop of the shuffle over places in range permutes the vector. -/
lemma foldlM_swap_perm {n : ℕ} {j : ℕ → ℕ} (hj : ∀ i < n, j i < n) :
    ∀ (is l : List ℕ), l.length = n → (∀ i ∈ is, i < n) →
      ∃ l', is.foldlM (fun l i => swap l i (j i)) l = some l' ∧ l'.Perm l := by
  intro is
  induction is with
  | nil => exact fun l _ _ => ⟨l, rfl, .refl l⟩
  | cons i is ih =>
      intro l hl his
      have hi : i < n := his i List.mem_cons_self
      obtain ⟨l₁, hswap, hperm⟩ := swap_perm (hl ▸ hi) (hl ▸ hj i hi)
      obtain ⟨l₂, hrest, hperm'⟩ :=
        ih l₁ (hperm.length_eq.trans hl) fun k hk => his k (List.mem_cons_of_mem i hk)
      refine ⟨l₂, ?_, hperm'.trans hperm⟩
      rw [List.foldlM_cons, hswap]
      exact hrest

lemma shuffle_perm (time : ℕ) (l : List ℕ) : ∃ l', shuffle time l = some l' ∧ l'.Perm l :=
  foldlM_swap_perm (fun _ => shuffleIndex_lt) _ l rfl fun _ => List.mem_range.mp

/-- The witnesses are shuffled at every head block whose number is a multiple of theirs. -/
def Reshuffles (s : SlotState) : Prop := s.headBlockNumber % s.activeWitnesses.length = 0

lemma updateWitnessSchedule_of_reshuffles (hne : s.activeWitnesses ≠ []) (h : s.Reshuffles) :
    ∃ l, s.updateWitnessSchedule = some { s with currentShuffledWitnesses := l } ∧
      l.Perm s.activeWitnesses := by
  obtain ⟨l, hl, hperm⟩ := shuffle_perm s.time s.activeWitnesses
  refine ⟨l, ?_, hperm⟩
  unfold Reshuffles at h
  rw [updateWitnessSchedule, if_neg (List.length_eq_zero_iff.not.mpr hne), if_pos h, hl]
  rfl

/-- `update_witness_schedule` changes the schedule only, and only if it reshuffles. -/
lemma updateWitnessSchedule_eq_some (h : s.updateWitnessSchedule = some s') :
    ∃ l, s' = { s with currentShuffledWitnesses := l } ∧
      (¬ s.Reshuffles → l = s.currentShuffledWitnesses) := by
  unfold updateWitnessSchedule at h
  split_ifs at h with hne hshuffle
  · obtain ⟨l, -, hl⟩ := Option.bind_eq_some_iff.mp h
    exact ⟨l, (Option.some.inj hl).symm, fun hno => absurd hshuffle hno⟩
  · exact ⟨s.currentShuffledWitnesses, (Option.some.inj h).symm, fun _ => rfl⟩

/-! ### The states of a chain -/

/-- What `init_genesis` makes of the slots. -/
structure Genesis (s : SlotState) : Prop where
  headBlockNumber : s.headBlockNumber = 0
  time_lt : s.time < 2 ^ 32
  currentAslot : s.currentAslot = 0
  recentSlotsFilled : s.recentSlotsFilled = BitVec.allOnes 128
  maintenanceFlag : s.maintenanceFlag = false
  currentShuffledWitnesses : s.currentShuffledWitnesses = s.activeWitnesses

/-- The states that blocks lead to. -/
inductive Reachable : SlotState → Prop
  | genesis {s : SlotState} (h : s.Genesis) : Reachable s
  | applyBlock {s s' : SlotState} {b : SlotBlock} (h : Reachable s) (hb : s.applyBlock b = some s') :
      Reachable s'

/-- What a block does to the slots. -/
lemma applyBlock_eq_some (h : s.applyBlock b = some s') :
    s.validateBlockHeader b.skip b.timestamp b.witness = .ok () ∧
    s'.headBlockNumber = s.headBlockNumber + 1 ∧ s'.time = b.timestamp ∧
    s'.currentAslot = (s.currentAslot + (s.missedBlocks b.timestamp + 1) % 2 ^ 32) % 2 ^ 64 ∧
    s'.recentSlotsFilled = ((s.recentSlotsFilled <<< 1) + 1) <<< s.missedBlocks b.timestamp ∧
    (¬ s'.Reshuffles → s'.currentShuffledWitnesses = s.currentShuffledWitnesses) := by
  unfold applyBlock at h
  cases hv : s.validateBlockHeader b.skip b.timestamp b.witness with
  | error e => simp [hv] at h
  | ok _ =>
      rw [hv] at h
      obtain ⟨l, rfl, hl⟩ := updateWitnessSchedule_eq_some h
      cases hm : b.maintenance <;> rw [hm] at hl <;> exact ⟨rfl, rfl, rfl, rfl, rfl, hl⟩

/-- The absolute slot is bounded by the time, as every block is later than the one before. -/
lemma Reachable.currentAslot_le (h : s.Reachable) :
    s.currentAslot ≤ s.time * (2 ^ 32 - 1) ∧ s.time < 2 ^ 32 := by
  induction h with
  | genesis h => exact ⟨h.currentAslot ▸ Nat.zero_le _, h.time_lt⟩
  | @applyBlock s s' b _ hb ih =>
      obtain ⟨hv, -, htime, haslot, -⟩ := applyBlock_eq_some hb
      have hlater : s.time + 1 ≤ b.timestamp := (validateBlockHeader_eq_ok.mp hv).1
      have hmul := Nat.mul_le_mul_right (2 ^ 32 - 1) hlater
      have hmod := Nat.mod_lt (s.missedBlocks b.timestamp + 1) (Nat.two_pow_pos 32)
      have hwrap := Nat.mod_le (s.currentAslot + (s.missedBlocks b.timestamp + 1) % 2 ^ 32) (2 ^ 64)
      rw [Nat.add_mul] at hmul
      rw [htime]
      exact ⟨by omega, b.timestamp_lt⟩

/-- No absolute slot that is asked for reaches 64 bits. -/
lemma Reachable.aslot_lt (h : s.Reachable) {n : ℕ} (hn : n < 2 ^ 32) :
    s.currentAslot + n < 2 ^ 64 := by
  obtain ⟨hle, ht⟩ := h.currentAslot_le
  have hmul := Nat.mul_le_mul_right (2 ^ 32 - 1) (Nat.le_sub_one_of_lt ht)
  omega

/-! ### The fair schedule -/

/-- A block after which the witnesses are not shuffled. -/
def StepUnshuffled (s s' : SlotState) : Prop :=
  ∃ b, s.applyBlock b = some s' ∧ ¬ s'.Reshuffles

/-- Between two shuffles the schedule stays. -/
lemma Reachable.of_unshuffled (h : s.Reachable) (hs : Relation.ReflTransGen StepUnshuffled s s') :
    s'.Reachable ∧ s'.currentShuffledWitnesses = s.currentShuffledWitnesses := by
  induction hs with
  | refl => exact ⟨h, rfl⟩
  | tail _ hstep ih =>
      obtain ⟨b, hb, hno⟩ := hstep
      exact ⟨ih.1.applyBlock hb, ((applyBlock_eq_some hb).2.2.2.2.2 hno).trans ih.2⟩

/-- **A fair schedule.** If there are active witnesses, a shuffle swaps places that are in range and
leaves a permutation of them. Between two shuffles, whatever slots are missed, as many absolute slots
in a row as there are scheduled witnesses go to each of these once: the slot `a + i` may be asked for
at any head block. -/
theorem schedule_fair :
    (∀ s : SlotState, s.activeWitnesses ≠ [] → s.Reshuffles →
      ∃ l, s.updateWitnessSchedule = some { s with currentShuffledWitnesses := l } ∧
        l.Perm s.activeWitnesses) ∧
    ∀ s : SlotState, s.Reachable → ∀ (a : ℕ)
      (head : Fin s.currentShuffledWitnesses.length → SlotState)
      (slotNum : Fin s.currentShuffledWitnesses.length → ℕ),
      (∀ i, Relation.ReflTransGen StepUnshuffled s (head i) ∧ slotNum i < 2 ^ 32 ∧
        (head i).currentAslot + slotNum i = a + i) →
      (List.ofFn fun i => (head i).getScheduledWitness (slotNum i)).Perm
        (s.currentShuffledWitnesses.map some) := by
  refine ⟨fun s => updateWitnessSchedule_of_reshuffles, fun s hs a head slotNum hhead => ?_⟩
  have hslot : ∀ i, (head i).getScheduledWitness (slotNum i) =
      s.currentShuffledWitnesses[(i + a) % s.currentShuffledWitnesses.length]? := by
    intro i
    obtain ⟨hrun, hlt, haslot⟩ := hhead i
    obtain ⟨hreach, hsched⟩ := hs.of_unshuffled hrun
    rw [getScheduledWitness, hsched, Nat.mod_eq_of_lt (hreach.aslot_lt hlt), haslot, Nat.add_comm]
  -- the slots in a row read the schedule round from the place of the first
  have hround : (List.ofFn fun i => (head i).getScheduledWitness (slotNum i)) =
      (s.currentShuffledWitnesses.rotate a).map some := by
    refine List.ext_getElem (by simp) fun k hk _ => ?_
    have hk' : k < s.currentShuffledWitnesses.length := by simpa using hk
    have hmod := Nat.mod_lt (k + a) (Nat.zero_lt_of_lt hk')
    rw [List.getElem_ofFn, hslot, List.getElem?_eq_getElem hmod, List.getElem_map,
      List.getElem_rotate]
  rw [hround]
  exact (List.rotate_perm _ a).map some

/-- A chain of three witnesses before its first block. -/
def threeWitnesses : SlotState where
  time := 1500000000
  blockInterval := 3
  blockInterval_pos := by decide
  maintenanceSkipSlots := 3
  activeWitnesses := [4, 5, 6]
  currentShuffledWitnesses := [4, 5, 6]

lemma threeWitnesses_genesis : threeWitnesses.Genesis := ⟨rfl, by decide, rfl, rfl, rfl, rfl⟩

theorem schedule_fair_threeWitnesses :
    (∃ l, threeWitnesses.updateWitnessSchedule =
      some { threeWitnesses with currentShuffledWitnesses := l } ∧ l.Perm [4, 5, 6]) ∧
    (List.ofFn fun i : Fin 3 => threeWitnesses.getScheduledWitness (i + 1)).Perm
      [some 4, some 5, some 6] :=
  ⟨schedule_fair.1 threeWitnesses (by decide) rfl,
    schedule_fair.2 threeWitnesses (.genesis threeWitnesses_genesis) 1 (fun _ => threeWitnesses)
      (fun i => i + 1) fun i => ⟨.refl, by have := i.isLt; simp [threeWitnesses] at this; omega,
        by simp only [threeWitnesses]; omega⟩⟩

end SlotState

end ZosCore
