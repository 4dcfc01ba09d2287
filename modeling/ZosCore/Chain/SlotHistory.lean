import ZosCore.Chain.Schedule

/-!
`update_global_dynamic_data` and `witness_participation_rate`: the history of the slots.

* `SlotHistory`: the slots of a chain, and which of them have been filled and missed.
* `Exact`: the fields of the dynamic global properties say what the history says.
* `Exact.applyBlock`: a block in the next slot keeps this; `missed_not_exact`: a block in any other
  slot breaks it, as the filled bit is shifted in before the missed ones.
* **`slotHistory_exact_iff`**: the history is exact throughout a run iff no block misses a slot.
-/

namespace ZosCore

/-- The slots of a chain with their history: the absolute numbers of the slots that blocks have
filled, and how many were missed. -/
structure SlotHistory where
  state : SlotState
  filled : List ℕ := []
  missed : ℕ := 0

namespace SlotHistory

variable {h h' : SlotHistory} {b : SlotBlock}

/-- A block fills its slot and misses those between it and the head block's. -/
def applyBlock (h : SlotHistory) (b : SlotBlock) : Option SlotHistory := do
  let s ← h.state.applyBlock b
  let slotNum := h.state.getSlotAtTime b.timestamp
  return {
    state := s
    filled := (h.state.currentAslot + slotNum) :: h.filled
    missed := h.missed + (slotNum - 1) }

/-- The slot with the absolute number `k` was filled by a block. The initial value of the bits says
so of the slots up to the genesis. -/
def Filled (h : SlotHistory) (k : ℤ) : Prop := k ≤ 0 ∨ ∃ n ∈ h.filled, k = n

instance (h : SlotHistory) (k : ℤ) : Decidable (h.Filled k) := by
  rw [Filled]
  infer_instance

end SlotHistory

/-- `witness_participation_rate`. -/
def SlotState.witnessParticipationRate (s : SlotState) : ℕ :=
  hundredPercent * (List.range 128).countP (s.recentSlotsFilled.getLsbD ·) / 128

namespace SlotHistory

variable {h h' : SlotHistory} {b : SlotBlock}

/-- The dynamic global properties say what the history says. -/
structure Exact (h : SlotHistory) : Prop where
  currentAslot : h.state.currentAslot = h.state.headBlockNumber + h.missed
  bits : ∀ i < 128, h.state.recentSlotsFilled.getLsbD i = true ↔
    h.Filled (h.state.currentAslot - i)
  participation : h.state.witnessParticipationRate =
    hundredPercent * (List.range 128).countP (fun i : ℕ => h.Filled (h.state.currentAslot - i)) / 128

/-! ### The bits -/

/-- A filled bit is shifted in. -/
lemma getLsbD_shiftLeft_add_one (x : BitVec 128) {i : ℕ} (hi : i < 128) :
    ((x <<< 1) + 1).getLsbD i = if i = 0 then true else x.getLsbD (i - 1) := by
  have hdisjoint : x <<< 1 &&& 1 = 0 := by
    ext j hj
    cases j <;> simp
  rw [BitVec.add_eq_or_of_and_eq_zero _ _ hdisjoint]
  cases i with
  | zero => simp
  | succ i => simp [hi, BitVec.getLsbD_eq_getElem (show i < 128 by omega)]

/-- Once missed bits are shifted in, the last bit is not that of a filled slot. -/
lemma getLsbD_shiftLeft_zero (x : BitVec 128) {n : ℕ} (hn : 0 < n) :
    (x <<< n).getLsbD 0 = false := by
  simp [hn]

/-- The participation rate is exact if the bits are. -/
lemma Exact.of_bits (haslot : h.state.currentAslot = h.state.headBlockNumber + h.missed)
    (hbits : ∀ i < 128, h.state.recentSlotsFilled.getLsbD i = true ↔
      h.Filled (h.state.currentAslot - i)) : h.Exact := by
  refine ⟨haslot, hbits, ?_⟩
  rw [SlotState.witnessParticipationRate]
  congr 2
  refine List.countP_congr fun i hi => ?_
  rw [hbits i (List.mem_range.mp hi), decide_eq_true_iff]

/-! ### One block -/

/-- What a block does to the slots and to their history. -/
lemma applyBlock_eq_some (hb : h.applyBlock b = some h') :
    h.state.applyBlock b = some h'.state ∧
    h'.filled = (h.state.currentAslot + h.state.getSlotAtTime b.timestamp) :: h.filled ∧
    h'.missed = h.missed + (h.state.getSlotAtTime b.timestamp - 1) := by
  obtain ⟨s, hs, heq⟩ := Option.bind_eq_some_iff.mp hb
  obtain rfl := Option.some.inj heq
  exact ⟨hs, rfl, rfl⟩

/-- The head block is in the slot with the absolute number that the properties give, also where the
number of missed blocks underflows. -/
lemma currentAslot_applyBlock (hreach : h.state.Reachable) (hb : h.applyBlock b = some h') :
    h'.state.currentAslot = h.state.currentAslot + h.state.getSlotAtTime b.timestamp := by
  have hlt := h.state.getSlotAtTime_lt b.timestamp
  have hmissed : (h.state.missedBlocks b.timestamp + 1) % 2 ^ 32 =
      h.state.getSlotAtTime b.timestamp := by
    rw [SlotState.missedBlocks]
    omega
  rw [(SlotState.applyBlock_eq_some (applyBlock_eq_some hb).1).2.2.2.1, hmissed,
    Nat.mod_eq_of_lt (hreach.aslot_lt hlt)]

/-- A block in the next slot keeps the history exact. -/
lemma Exact.applyBlock (hexact : h.Exact) (hreach : h.state.Reachable)
    (hb : h.applyBlock b = some h') (hslot : h.state.getSlotAtTime b.timestamp = 1) : h'.Exact := by
  have haslot := currentAslot_applyBlock hreach hb
  obtain ⟨hs, hfilled, hmissed⟩ := applyBlock_eq_some hb
  obtain ⟨-, hhead, -, -, hbits, -⟩ := SlotState.applyBlock_eq_some hs
  have hnone : h.state.missedBlocks b.timestamp = 0 := by
    have := SlotState.missedBlocks_add_one hslot.ge
    omega
  rw [hslot] at haslot hfilled hmissed
  rw [hnone, BitVec.shiftLeft_zero] at hbits
  refine .of_bits (by rw [haslot, hhead, hmissed, hexact.currentAslot]; omega) fun i hi => ?_
  rw [hbits, getLsbD_shiftLeft_add_one _ hi, haslot, Filled, hfilled]
  rcases Nat.eq_zero_or_pos i with rfl | hpos
  · simp
  · -- the slots before are filled as they were
    rw [if_neg hpos.ne', hexact.bits (i - 1) (by omega), Filled]
    have hsub : ((h.state.currentAslot + 1 : ℕ) : ℤ) - i = h.state.currentAslot - (i - 1 : ℕ) := by
      omega
    rw [hsub, List.exists_mem_cons_iff]
    have hne : ¬ (h.state.currentAslot : ℤ) - (i - 1 : ℕ) = (h.state.currentAslot + 1 : ℕ) := by
      omega
    simp only [hne, false_or]

/-- A block in another slot is not seen in the bit of its slot. -/
lemma missed_not_exact (hreach : h.state.Reachable) (hb : h.applyBlock b = some h')
    (hslot : h.state.getSlotAtTime b.timestamp ≠ 1) : ¬ h'.Exact := by
  intro hexact
  have haslot := currentAslot_applyBlock hreach hb
  obtain ⟨hs, hfilled, -⟩ := applyBlock_eq_some hb
  obtain ⟨-, -, -, -, hbits, -⟩ := SlotState.applyBlock_eq_some hs
  have hlt := h.state.getSlotAtTime_lt b.timestamp
  have hmissed : 0 < h.state.missedBlocks b.timestamp := by
    rw [SlotState.missedBlocks]
    omega
  have hfalse := getLsbD_shiftLeft_zero ((h.state.recentSlotsFilled <<< 1) + 1) hmissed
  rw [← hbits] at hfalse
  have htrue := (hexact.bits 0 (by decide)).mpr
    (.inr ⟨h'.state.currentAslot, by rw [hfilled, haslot]; exact List.mem_cons_self, by simp⟩)
  rw [hfalse] at htrue
  cases htrue

/-! ### Runs -/

/-- `P` holds in every state that the blocks lead to. -/
def Always (P : SlotHistory → Prop) (h : SlotHistory) : List SlotBlock → Prop
  | [] => P h
  | b :: bs => P h ∧ ∀ h', h.applyBlock b = some h' → Always P h' bs

/-- Every block that is applied is in the slot after that of the block before. -/
def NoneMissed (h : SlotHistory) : List SlotBlock → Prop
  | [] => True
  | b :: bs => ∀ h', h.applyBlock b = some h' →
      h.state.getSlotAtTime b.timestamp = 1 ∧ NoneMissed h' bs

/-- The history stays exact as long as no block misses a slot. -/
lemma always_exact_iff (bs : List SlotBlock) : ∀ {h : SlotHistory}, h.state.Reachable → h.Exact →
    (Always Exact h bs ↔ NoneMissed h bs) := by
  induction bs with
  | nil => exact fun _ hexact => iff_of_true hexact trivial
  | cons b bs ih =>
      intro h hreach hexact
      simp only [Always, NoneMissed, hexact, true_and]
      refine forall_congr' fun h' => forall_congr' fun hb => ?_
      have hreach' : h'.state.Reachable := hreach.applyBlock (applyBlock_eq_some hb).1
      by_cases hslot : h.state.getSlotAtTime b.timestamp = 1
      · rw [ih hreach' (hexact.applyBlock hreach hb hslot)]
        simp only [hslot, true_and]
      · have hnot := missed_not_exact hreach hb hslot
        refine iff_of_false (fun halways => hnot ?_) fun hnone => hslot hnone.1
        cases bs with
        | nil => exact halways
        | cons _ _ => exact halways.1

lemma exact_of_genesis {s : SlotState} (hs : s.Genesis) : Exact { state := s } := by
  refine .of_bits (by rw [hs.currentAslot, hs.headBlockNumber]; rfl) fun i hi => ?_
  rw [hs.recentSlotsFilled, hs.currentAslot, BitVec.getLsbD_allOnes]
  simp [hi, Filled]

/-- **The slot history.** From the genesis on, `current_aslot`, `recent_slots_filled` and
`witness_participation_rate` are exact in every state that the blocks lead to iff none of these
blocks misses a slot. -/
theorem slotHistory_exact_iff (s : SlotState) (hs : s.Genesis) (bs : List SlotBlock) :
    Always Exact { state := s } bs ↔ NoneMissed { state := s } bs :=
  always_exact_iff bs (.genesis hs) (exact_of_genesis hs)

open SlotState (threeWitnesses threeWitnesses_genesis)

/-- The first block of the chain, in the first slot. -/
def inFirstSlot : SlotBlock :=
  { timestamp := 1500000003, timestamp_lt := by decide, witness := 5 }

theorem slotHistory_exact_iff_inFirstSlot :
    (applyBlock { state := threeWitnesses } inFirstSlot).isSome = true ∧
    Always Exact { state := threeWitnesses } [inFirstSlot] :=
  ⟨by decide +kernel, (slotHistory_exact_iff threeWitnesses threeWitnesses_genesis _).mpr
    fun _ _ => ⟨by decide, trivial⟩⟩

/-- The first block of the chain, in the second slot. -/
def inSecondSlot : SlotBlock :=
  { timestamp := 1500000006, timestamp_lt := by decide, witness := 6 }

/-- After a missed slot the last bit is not that of the head block. -/
theorem missedSlot_not_exact :
    ¬ ∀ s : SlotState, s.Genesis → ∀ bs, Always Exact { state := s } bs := by
  intro h
  obtain ⟨h', hb⟩ := Option.isSome_iff_exists.mp
    (show (applyBlock { state := threeWitnesses } inSecondSlot).isSome = true by decide +kernel)
  have halways := h threeWitnesses threeWitnesses_genesis [inSecondSlot]
  exact missed_not_exact (.genesis threeWitnesses_genesis) hb (by decide) (halways.2 h' hb)

end SlotHistory

end ZosCore
