import ZosCore.Chain.Block

/-!
`db_witness_schedule.cpp` and `update_global_dynamic_data`: the slots of the blocks.

* `SlotState`: the fields of the dynamic and the global properties and of the witness schedule that
  say which slot a block is in. A transaction writes none of them.
* `getSlotTime`, `getSlotAtTime`: the time of a slot and the slot at a time, in 32 bits.
* `applyBlock`: what a block does to these fields.
* **`slotTime_galois`**: the two are a Galois pair as long as no time wraps, and a block whose
  header is accepted with the schedule checked does not underflow the number of missed blocks.
-/

namespace ZosCore

/-- The fields that the slots depend on. `chain_parameters::validate` does not let the interval be
zero. -/
structure SlotState where
  /-- `dynamic_global_property_object` -/
  headBlockNumber : ℕ := 0
  time : ℕ
  currentAslot : ℕ := 0
  recentSlotsFilled : BitVec 128 := BitVec.allOnes 128
  maintenanceFlag : Bool := false
  /-- `global_property_object` -/
  blockInterval : ℕ
  blockInterval_pos : 0 < blockInterval
  maintenanceSkipSlots : ℕ
  activeWitnesses : List ℕ
  /-- `witness_schedule_object` -/
  currentShuffledWitnesses : List ℕ

/-- The parameters and the active witnesses after a maintenance. -/
structure Maintenance where
  blockInterval : ℕ
  blockInterval_pos : 0 < blockInterval
  maintenanceSkipSlots : ℕ
  activeWitnesses : List ℕ

/-- The header and the maintenance of a block. -/
structure SlotBlock where
  timestamp : ℕ
  timestamp_lt : timestamp < 2 ^ 32
  witness : ℕ
  skip : SkipFlags := {}
  maintenance : Option Maintenance := none

namespace SlotState

/-! ### The time of a slot -/

/-- `get_slot_time`: times and numbers of slots have 32 bits. -/
def getSlotTime (s : SlotState) (slotNum : ℕ) : ℕ :=
  if slotNum = 0 then 0
  else if s.headBlockNumber = 0 then
    (s.time + slotNum * s.blockInterval % 2 ^ 32) % 2 ^ 32
  else
    let headBlockAbsSlot := s.time / s.blockInterval
    let headSlotTime := headBlockAbsSlot * s.blockInterval % 2 ^ 32
    let slotNum :=
      if s.maintenanceFlag then (slotNum + s.maintenanceSkipSlots) % 2 ^ 32 else slotNum
    (headSlotTime + slotNum * s.blockInterval % 2 ^ 32) % 2 ^ 32

/-- `get_slot_at_time`. -/
def getSlotAtTime (s : SlotState) (time : ℕ) : ℕ :=
  let firstSlotTime := s.getSlotTime 1
  if time < firstSlotTime then 0
  else ((time - firstSlotTime) / s.blockInterval + 1) % 2 ^ 32

/-- The time that "slot 0" would have: the head slot's, and the slots that are skipped after
maintenance. -/
def slotZeroTime (s : SlotState) : ℕ :=
  if s.headBlockNumber = 0 then s.time
  else s.time / s.blockInterval * s.blockInterval +
    if s.maintenanceFlag then s.maintenanceSkipSlots * s.blockInterval else 0

/-- The time of a slot as a natural number. -/
def slotTime (s : SlotState) (n : ℕ) : ℕ :=
  if n = 0 then 0 else s.slotZeroTime + n * s.blockInterval

variable {s : SlotState} {n t : ℕ}

@[simp] lemma slotTime_zero : s.slotTime 0 = 0 := rfl

lemma slotTime_of_pos (h : 0 < n) : s.slotTime n = s.slotZeroTime + n * s.blockInterval :=
  if_neg h.ne'

lemma le_mul_blockInterval (s : SlotState) (n : ℕ) : n ≤ n * s.blockInterval :=
  Nat.le_mul_of_pos_right n s.blockInterval_pos

/-- Without wrap-around `get_slot_time` is the time of the slot. -/
lemma getSlotTime_eq (h : s.slotTime n < 2 ^ 32) : s.getSlotTime n = s.slotTime n := by
  rcases Nat.eq_zero_or_pos n with rfl | hn
  · rfl
  rw [slotTime_of_pos hn] at h ⊢
  rw [getSlotTime, if_neg hn.ne']
  by_cases h0 : s.headBlockNumber = 0
  · rw [slotZeroTime, if_pos h0] at h ⊢
    rw [if_pos h0, Nat.mod_eq_of_lt (a := n * _) (by omega), Nat.mod_eq_of_lt h]
  have hskip := s.le_mul_blockInterval (n + s.maintenanceSkipSlots)
  rw [Nat.add_mul] at hskip
  rw [slotZeroTime, if_neg h0] at h ⊢
  rw [if_neg h0]
  cases hflag : s.maintenanceFlag
  all_goals
    rw [hflag] at h
    simp only [Bool.false_eq_true, if_true, if_false] at h ⊢
  · rw [Nat.mod_eq_of_lt (a := s.time / _ * _) (by omega),
      Nat.mod_eq_of_lt (a := n * _) (by omega), Nat.mod_eq_of_lt (by omega)]
    omega
  · rw [Nat.mod_eq_of_lt (a := n + _) (by omega), Nat.add_mul,
      Nat.mod_eq_of_lt (a := s.time / _ * _) (by omega),
      Nat.mod_eq_of_lt (a := n * _ + _) (by omega), Nat.mod_eq_of_lt (by omega)]
    omega

/-- The head block is before "slot 1". -/
lemma time_lt_slotTime_one (s : SlotState) : s.time < s.slotTime 1 := by
  have hfloor := Nat.lt_div_mul_add (a := s.time) s.blockInterval_pos
  have hpos := s.blockInterval_pos
  rw [slotTime_of_pos Nat.one_pos, slotZeroTime, Nat.one_mul]
  split <;> omega

lemma slotTime_strictMonoOn (s : SlotState) : StrictMonoOn s.slotTime {n | 1 ≤ n} := by
  intro m hm n hn hlt
  rw [slotTime_of_pos hm, slotTime_of_pos hn]
  have := Nat.mul_lt_mul_of_pos_right hlt s.blockInterval_pos
  omega

/-- From "slot 1" on, a slot is not after `t` iff it is not above the slot at `t`. -/
lemma slotTime_le_iff (hn : 1 ≤ n) (ht : s.slotTime 1 ≤ t) :
    s.slotTime n ≤ t ↔ n ≤ (t - s.slotTime 1) / s.blockInterval + 1 := by
  obtain ⟨k, rfl⟩ := Nat.exists_eq_add_of_le' hn
  rw [Nat.add_le_add_iff_right, Nat.le_div_iff_mul_le s.blockInterval_pos]
  rw [slotTime_of_pos hn, slotTime_of_pos Nat.one_pos, Nat.add_mul] at *
  omega

/-- Without wrap-around the two functions form a Galois pair: a slot is not after `t` iff it is not
above the slot at `t`. -/
lemma slotTime_le_iff_le_getSlotAtTime (h1 : s.slotTime 1 < 2 ^ 32) (ht : t < 2 ^ 32) :
    s.slotTime n ≤ t ↔ n ≤ s.getSlotAtTime t := by
  rcases Nat.eq_zero_or_pos n with rfl | hn
  · simp
  rw [getSlotAtTime, getSlotTime_eq h1]
  by_cases hfirst : t < s.slotTime 1
  · have hle := s.slotTime_strictMonoOn.monotoneOn (Set.mem_Ici.mpr le_rfl) (Set.mem_Ici.mpr hn) hn
    rw [if_pos hfirst]
    omega
  · have hpos := s.time_lt_slotTime_one
    have hdiv := Nat.div_le_self (t - s.slotTime 1) s.blockInterval
    rw [if_neg hfirst, Nat.mod_eq_of_lt (by omega)]
    exact slotTime_le_iff hn (not_lt.mp hfirst)

/-- The slot at `t` does not wrap. -/
lemma slotTime_getSlotAtTime_le (h1 : s.slotTime 1 < 2 ^ 32) (ht : t < 2 ^ 32) :
    s.slotTime (s.getSlotAtTime t) ≤ t :=
  (slotTime_le_iff_le_getSlotAtTime h1 ht).mpr le_rfl

/-! ### The blocks -/

/-- `get_scheduled_witness`; without a schedule there is none. -/
def getScheduledWitness (s : SlotState) (slotNum : ℕ) : Option ℕ :=
  let currentAslot := (s.currentAslot + slotNum) % 2 ^ 64
  s.currentShuffledWitnesses[currentAslot % s.currentShuffledWitnesses.length]?

/-- What `validate_block_header` checks about the slot of a block. -/
def validateBlockHeader (skip : SkipFlags) (s : SlotState) (timestamp witness : ℕ) :
    Except ChainError Unit := do
  if ¬ s.time < timestamp then throw .timestampNotLater
  if !skip.witnessScheduleCheck then
    let slotNum := s.getSlotAtTime timestamp
    if slotNum = 0 then throw .slotZero
    if s.getScheduledWitness slotNum ≠ some witness then throw .wrongWitness

/-- `missed_blocks` in `update_global_dynamic_data`, a number of 32 bits. -/
def missedBlocks (s : SlotState) (timestamp : ℕ) : ℕ :=
  (s.getSlotAtTime timestamp + (2 ^ 32 - 1)) % 2 ^ 32

/-- `update_global_dynamic_data`. -/
def updateGlobalDynamicData (s : SlotState) (timestamp : ℕ) : SlotState :=
  let missedBlocks := s.missedBlocks timestamp
  { s with
    headBlockNumber := s.headBlockNumber + 1
    time := timestamp
    recentSlotsFilled := ((s.recentSlotsFilled <<< 1) + 1) <<< missedBlocks
    currentAslot := (s.currentAslot + (missedBlocks + 1) % 2 ^ 32) % 2 ^ 64 }

/-- `perform_chain_maintenance` and `update_maintenance_flag`. -/
def maintain (s : SlotState) : Option Maintenance → SlotState
  | none => { s with maintenanceFlag := false }
  | some m =>
      { s with
        maintenanceFlag := true
        blockInterval := m.blockInterval
        blockInterval_pos := m.blockInterval_pos
        maintenanceSkipSlots := m.maintenanceSkipSlots
        activeWitnesses := m.activeWitnesses }

/-- The place that `update_witness_schedule` swaps the place `i` of `n` with: a xorshift
generator of 64 bits, reduced to the places from `i` on. -/
def shuffleIndex (time n i : ℕ) : ℕ :=
  let nowHi : UInt64 := UInt64.ofNat time <<< 32
  let k := nowHi + UInt64.ofNat i * 2685821657736338717
  let k := k ^^^ (k >>> 12)
  let k := k ^^^ (k <<< 25)
  let k := k ^^^ (k >>> 27)
  let k := k * 2685821657736338717
  let jmax := n - i
  i + k.toNat % jmax

/-- `std::swap` of two places of a vector; there is none if a place is out of range. -/
def swap (l : List ℕ) (i j : ℕ) : Option (List ℕ) := do
  let a ← l[i]?
  let b ← l[j]?
  return (l.set i b).set j a

/-- The loop of `update_witness_schedule`. -/
def shuffle (time : ℕ) (l : List ℕ) : Option (List ℕ) :=
  let size := l.length
  (List.range size).foldlM (fun l i => swap l i (shuffleIndex time size i)) l

/-- `update_witness_schedule`; without active witnesses it divides by zero. -/
def updateWitnessSchedule (s : SlotState) : Option SlotState :=
  if s.activeWitnesses.length = 0 then none
  else if s.headBlockNumber % s.activeWitnesses.length = 0 then do
    let l ← shuffle s.time s.activeWitnesses
    return { s with currentShuffledWitnesses := l }
  else return s

/-- What `_apply_block` does to the slots. The transactions do nothing to them, the maintenance
comes after `update_global_dynamic_data` and the schedule is the last. -/
def applyBlock (s : SlotState) (b : SlotBlock) : Option SlotState :=
  match s.validateBlockHeader b.skip b.timestamp b.witness with
  | .error _ => none
  | .ok () => ((s.updateGlobalDynamicData b.timestamp).maintain b.maintenance).updateWitnessSchedule

/-- The slot at a time is a number of 32 bits. -/
lemma getSlotAtTime_lt (s : SlotState) (t : ℕ) : s.getSlotAtTime t < 2 ^ 32 := by
  unfold getSlotAtTime
  dsimp only
  split
  · decide
  · exact Nat.mod_lt _ (by decide)

/-- From "slot 1" on the number of missed blocks does not underflow. -/
lemma missedBlocks_add_one (h : 1 ≤ s.getSlotAtTime t) :
    s.missedBlocks t + 1 = s.getSlotAtTime t := by
  have := s.getSlotAtTime_lt t
  rw [missedBlocks]
  omega

/-- What is accepted is after the head block, and is in the slot of its witness unless the check of
the schedule is skipped. -/
lemma validateBlockHeader_eq_ok {skip : SkipFlags} {witness : ℕ} :
    s.validateBlockHeader skip t witness = .ok () ↔
      s.time < t ∧ (skip.witnessScheduleCheck = false →
        1 ≤ s.getSlotAtTime t ∧ s.getScheduledWitness (s.getSlotAtTime t) = some witness) := by
  rw [validateBlockHeader]
  rw [ite_throw_eq_ok, not_not]
  cases hskip : skip.witnessScheduleCheck
  · simp only [Bool.not_false, if_true, forall_const]
    rw [ite_throw_eq_ok, ite_throw_eq_ok_unit, not_not, Nat.one_le_iff_ne_zero]
  · simp [pure, Except.pure]

/-- **The slots.** As long as no time wraps, `get_slot_time` is strictly increasing from "slot 1"
on, "slot 1" is after the head block, `get_slot_at_time` is the greatest slot that is not later, and
so the one undoes the other. A header that is accepted with the schedule checked is in "slot 1" or
later, so that the number of missed blocks does not underflow. -/
theorem slots_galois (s : SlotState) (h1 : s.slotTime 1 < 2 ^ 32) :
    StrictMonoOn s.getSlotTime {n | 1 ≤ n ∧ s.slotTime n < 2 ^ 32} ∧
    s.time < s.getSlotTime 1 ∧
    (∀ t < 2 ^ 32,
      IsGreatest {n | s.slotTime n < 2 ^ 32 ∧ s.getSlotTime n ≤ t} (s.getSlotAtTime t)) ∧
    (∀ n, s.slotTime n < 2 ^ 32 → s.getSlotAtTime (s.getSlotTime n) = n) ∧
    ∀ (skip : SkipFlags) (t witness : ℕ), s.validateBlockHeader skip t witness = .ok () →
      skip.witnessScheduleCheck = false →
      1 ≤ s.getSlotAtTime t ∧ s.missedBlocks t + 1 = s.getSlotAtTime t := by
  have hmono := s.slotTime_strictMonoOn
  refine ⟨?_, ?_, ?_, ?_, ?_⟩
  · rintro m ⟨hm, hm'⟩ n ⟨hn, hn'⟩ hlt
    rw [getSlotTime_eq hm', getSlotTime_eq hn']
    exact hmono hm hn hlt
  · rw [getSlotTime_eq h1]
    exact s.time_lt_slotTime_one
  · intro t ht
    have hle := slotTime_getSlotAtTime_le h1 ht
    have hwrap := hle.trans_lt ht
    refine ⟨⟨hwrap, (getSlotTime_eq hwrap).trans_le hle⟩, ?_⟩
    rintro n ⟨hn, hnt⟩
    exact (slotTime_le_iff_le_getSlotAtTime h1 ht).mp (getSlotTime_eq hn ▸ hnt)
  · intro n hn
    rw [getSlotTime_eq hn]
    have hle : n ≤ s.getSlotAtTime (s.slotTime n) :=
      (slotTime_le_iff_le_getSlotAtTime h1 hn).mp le_rfl
    refine le_antisymm (not_lt.mp fun hlt => ?_) hle
    -- a later slot would not be later
    have hback := slotTime_getSlotAtTime_le h1 hn
    rcases Nat.eq_zero_or_pos n with rfl | hpos
    · rw [slotTime_of_pos hlt] at hback
      have := Nat.mul_pos hlt s.blockInterval_pos
      simp only [slotTime_zero] at hback this
      omega
    · have := hmono hpos (hpos.trans hlt) hlt
      omega
  · intro skip t witness haccept hcheck
    have hslot := ((validateBlockHeader_eq_ok.mp haccept).2 hcheck).1
    exact ⟨hslot, missedBlocks_add_one hslot⟩

/-- A chain with the blocks 5 seconds apart, whose head block was a maintenance block and is not at
a multiple of the interval. -/
def afterMaintenance : SlotState where
  headBlockNumber := 7
  time := 103
  currentAslot := 9
  maintenanceFlag := true
  blockInterval := 5
  blockInterval_pos := by decide
  maintenanceSkipSlots := 3
  activeWitnesses := [0]
  currentShuffledWitnesses := [0]

theorem slots_galois_afterMaintenance :
    afterMaintenance.slotTime 1 < 2 ^ 32 ∧ afterMaintenance.getSlotTime 1 = 120 ∧
    afterMaintenance.getSlotAtTime (afterMaintenance.getSlotTime 4) = 4 :=
  ⟨by decide, by decide, (slots_galois afterMaintenance (by decide)).2.2.2.1 4 (by decide)⟩

/-- With the check of the schedule skipped, a header one second after the head block is accepted; it
is in "slot 0" and the number of missed blocks underflows. -/
theorem slotZero_accepted :
    ¬ ∀ (s : SlotState) (skip : SkipFlags) (t witness : ℕ), s.slotTime 1 < 2 ^ 32 → t < 2 ^ 32 →
      s.validateBlockHeader skip t witness = .ok () →
      1 ≤ s.getSlotAtTime t ∧ s.missedBlocks t + 1 = s.getSlotAtTime t := by
  intro h
  have hskip : afterMaintenance.validateBlockHeader { witnessScheduleCheck := true } 104 0 = .ok () :=
    rfl
  have := h afterMaintenance _ 104 0 (by decide) (by decide) hskip
  exact absurd this.1 (by decide)

end SlotState

end ZosCore
