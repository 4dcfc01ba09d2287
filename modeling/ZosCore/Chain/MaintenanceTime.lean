import Mathlib.Tactic

/-!
`db_maint.cpp`, `db_block.cpp`: when there is maintenance.

A block at or after `next_maintenance_time` is one of maintenance, and moves that time on: by the least
multiple of the interval that brings it past the block, or for the first block to the next multiple.
The time has 32 bits.

* `MaintenanceState.applyBlock`: a block, as far as these times are concerned.
* `exactNext`: the next time as a natural number.
* `MovesForward`: what is to hold of a block of maintenance, with `time_to_maint > 0`.
* **`maintenance_iff`**: it holds all along a run iff no exact next time reaches `2 ^ 32`.
-/

namespace ZosCore

/-- `head_block_num()`, `head_block_time()`, `next_maintenance_time` and `maintenance_interval`. -/
structure MaintenanceState where
  headBlockNum : ℕ := 0
  headBlockTime : ℕ
  nextMaintenanceTime : ℕ := 0
  maintenanceInterval : ℕ
  deriving DecidableEq

/-- A block: its time, and the interval of the parameters that are pending at maintenance. Neither
`validate` lets it be zero. -/
structure MaintenanceBlock where
  timestamp : ℕ
  timestamp_lt : timestamp < 2 ^ 32
  pendingInterval : Option ℕ := none
  pendingInterval_pos : ∀ i ∈ pendingInterval, 0 < i

namespace MaintenanceState

/-- `perform_chain_maintenance`, of the next maintenance time. There is no result where the division by
zero ends the program. The head block is the next block here, so that the difference of the times is
not negative. -/
def nextTime (blockNum timestamp headBlockTime next interval : ℕ) : Option ℕ :=
  if next ≤ timestamp then
    if interval = 0 then none
    else if blockNum = 1 then some ((timestamp / interval + 1) % 2 ^ 32 * interval % 2 ^ 32)
    else
      let y := (headBlockTime - next) / interval
      some ((next + (y + 1) * interval % 2 ^ 32) % 2 ^ 32)
  else some next

/-- `maint_needed` -/
def maintNeeded (s : MaintenanceState) (b : MaintenanceBlock) : Bool :=
  s.nextMaintenanceTime ≤ b.timestamp

/-- `_apply_block`: the header is to be later than the head block, then the head block is updated, and
maintenance applies the pending parameters before it moves its time on. -/
def applyBlock (s : MaintenanceState) (b : MaintenanceBlock) : Option MaintenanceState :=
  if ¬ s.headBlockTime < b.timestamp then none
  else
    let num := s.headBlockNum + 1
    if s.maintNeeded b then
      let interval := b.pendingInterval.getD s.maintenanceInterval
      (nextTime num b.timestamp b.timestamp s.nextMaintenanceTime interval).map fun next =>
        { headBlockNum := num
          headBlockTime := b.timestamp
          nextMaintenanceTime := next
          maintenanceInterval := interval }
    else some { s with headBlockNum := num, headBlockTime := b.timestamp }

/-- `time_to_maint` in `budget_miners`. -/
def timeToMaint (s : MaintenanceState) : ℤ := s.nextMaintenanceTime - s.headBlockTime

end MaintenanceState

/-- The next maintenance time that is meant, as a natural number. -/
def exactNext (blockNum timestamp next interval : ℕ) : ℕ :=
  if blockNum = 1 then (timestamp / interval + 1) * interval
  else next + ((timestamp - next) / interval + 1) * interval

/-- A block of maintenance moves its time on as it should, with the interval that comes into force. -/
structure MovesForward (s : MaintenanceState) (b : MaintenanceBlock) (s' : MaintenanceState) :
    Prop where
  later : b.timestamp < s'.nextMaintenanceTime
  within : s'.nextMaintenanceTime ≤ b.timestamp + s'.maintenanceInterval
  /-- For the first block it is the next multiple of the interval. -/
  first : s.headBlockNum = 0 → s'.maintenanceInterval ∣ s'.nextMaintenanceTime ∧
    ∀ t, s'.maintenanceInterval ∣ t → b.timestamp < t → s'.nextMaintenanceTime ≤ t
  /-- For another block it is the first one that is some intervals later. -/
  least : s.headBlockNum ≠ 0 →
    (∃ k, s'.nextMaintenanceTime = s.nextMaintenanceTime + k * s'.maintenanceInterval) ∧
    ∀ k, b.timestamp < s.nextMaintenanceTime + k * s'.maintenanceInterval →
      s'.nextMaintenanceTime ≤ s.nextMaintenanceTime + k * s'.maintenanceInterval
  /-- `assert( time_to_maint > 0 )` -/
  asserted : 0 < s'.timeToMaint

/-- A block does what it should: maintenance is exactly where its time has come, and moves it on. -/
structure Timely (s : MaintenanceState) (b : MaintenanceBlock) (s' : MaintenanceState) : Prop where
  maintenance : s.nextMaintenanceTime ≤ b.timestamp → MovesForward s b s'
  otherwise : b.timestamp < s.nextMaintenanceTime →
    s' = { s with headBlockNum := s.headBlockNum + 1, headBlockTime := b.timestamp } ∧
      0 < s'.timeToMaint

/-- One block after the other, with the states before and after each of them. -/
inductive MaintenanceRun (s₀ : MaintenanceState) :
    List (MaintenanceState × MaintenanceBlock × MaintenanceState) → MaintenanceState → Prop where
  | nil : MaintenanceRun s₀ [] s₀
  | snoc {es : List (MaintenanceState × MaintenanceBlock × MaintenanceState)}
      {s s' : MaintenanceState} {b : MaintenanceBlock} : MaintenanceRun s₀ es s →
      s.applyBlock b = some s' → MaintenanceRun s₀ (es ++ [(s, b, s')]) s'

/-! ### The next time -/

section

variable {t next interval k : ℕ}

/-- One interval more than fit into the time that has passed leads past it, by one interval at most. -/
lemma lt_next (hinterval : 0 < interval) (h : next ≤ t) :
    t < next + ((t - next) / interval + 1) * interval := by
  have := Nat.lt_div_mul_add hinterval (a := t - next)
  rw [add_one_mul]
  omega

lemma next_le (h : next ≤ t) : next + ((t - next) / interval + 1) * interval ≤ t + interval := by
  have := Nat.div_mul_le_self (t - next) interval
  rw [add_one_mul]
  omega

/-- No fewer intervals do. -/
lemma next_least (hinterval : 0 < interval) (h : next ≤ t) (hk : t < next + k * interval) :
    next + ((t - next) / interval + 1) * interval ≤ next + k * interval := by
  have hdiv : (t - next) / interval < k := by
    rw [Nat.div_lt_iff_lt_mul hinterval]
    omega
  exact Nat.add_le_add_left (Nat.mul_le_mul_right _ hdiv) _

end

section

variable {s s' : MaintenanceState} {b : MaintenanceBlock} {num t next interval : ℕ}

/-- The exact next time is as it should be. -/
lemma lt_exactNext (hinterval : 0 < interval) (h : next ≤ t) : t < exactNext num t next interval := by
  rw [exactNext]
  split_ifs with hfirst
  · have := lt_next hinterval (Nat.zero_le t)
    rwa [Nat.sub_zero, Nat.zero_add] at this
  · exact lt_next hinterval h

lemma exactNext_le (h : next ≤ t) : exactNext num t next interval ≤ t + interval := by
  rw [exactNext]
  split_ifs with hfirst
  · have : 0 + ((t - 0) / interval + 1) * interval ≤ t + interval := next_le (Nat.zero_le t)
    rwa [Nat.sub_zero, Nat.zero_add] at this
  · exact next_le h

/-- What is stored is the low 32 bits of the exact next time. -/
lemma nextTime_eq (hinterval : 0 < interval) (h : next ≤ t) :
    MaintenanceState.nextTime num t t next interval = some (exactNext num t next interval % 2 ^ 32) := by
  rw [MaintenanceState.nextTime, if_pos h, if_neg hinterval.ne', exactNext]
  split_ifs with hfirst
  · rw [Nat.mod_mul_mod]
  · exact congrArg some (Nat.add_mod_mod _ _ _)

/-- No other multiple of the interval is past the time before it: for the first block, of those from
zero on. -/
lemma exactNext_least_first (hinterval : 0 < interval) {m : ℕ} (hm : interval ∣ m) (ht : t < m) :
    exactNext 1 t next interval ≤ m := by
  obtain ⟨k, rfl⟩ := hm
  have := next_least (k := k) hinterval (Nat.zero_le t) (by rwa [Nat.zero_add, mul_comm])
  rw [exactNext, if_pos rfl, mul_comm interval k]
  rwa [Nat.sub_zero, Nat.zero_add, Nat.zero_add] at this

lemma exactNext_least {k : ℕ} (hinterval : 0 < interval) (h : next ≤ t) (hnum : num ≠ 1)
    (ht : t < next + k * interval) : exactNext num t next interval ≤ next + k * interval := by
  rw [exactNext, if_neg hnum]
  exact next_least hinterval h ht

/-! ### One block -/

/-- What an accepted block of maintenance leads to. -/
lemma applyBlock_maintenance (hpos : 0 < s.maintenanceInterval) (hneeded : s.nextMaintenanceTime ≤ b.timestamp)
    (h : s.applyBlock b = some s') :
    0 < s'.maintenanceInterval ∧ s'.headBlockTime = b.timestamp ∧
      s'.nextMaintenanceTime = exactNext (s.headBlockNum + 1) b.timestamp s.nextMaintenanceTime
        s'.maintenanceInterval % 2 ^ 32 := by
  have hinterval : 0 < b.pendingInterval.getD s.maintenanceInterval := by
    cases hpending : b.pendingInterval with
    | none => exact hpos
    | some i => exact b.pendingInterval_pos i hpending
  rw [MaintenanceState.applyBlock] at h
  split_ifs at h with htime hmaint
  · change (MaintenanceState.nextTime _ _ _ _ _).map _ = some s' at h
    rw [nextTime_eq hinterval hneeded, Option.map_some] at h
    cases h
    exact ⟨hinterval, rfl, rfl⟩
  · exact absurd (decide_eq_true hneeded) hmaint

/-- What another accepted block leads to. -/
lemma applyBlock_otherwise (hneeded : b.timestamp < s.nextMaintenanceTime)
    (h : s.applyBlock b = some s') :
    s' = { s with headBlockNum := s.headBlockNum + 1, headBlockTime := b.timestamp } := by
  rw [MaintenanceState.applyBlock] at h
  split_ifs at h with htime hmaint
  · exact absurd (of_decide_eq_true hmaint) (not_le.mpr hneeded)
  · exact (Option.some_inj.mp h).symm

/-- **A block of maintenance** moves its time on iff the exact next time has 32 bits. -/
theorem movesForward_iff (hpos : 0 < s.maintenanceInterval)
    (hneeded : s.nextMaintenanceTime ≤ b.timestamp) (h : s.applyBlock b = some s') :
    MovesForward s b s' ↔
      exactNext (s.headBlockNum + 1) b.timestamp s.nextMaintenanceTime s'.maintenanceInterval <
        2 ^ 32 := by
  obtain ⟨hinterval, htime, hnext⟩ := applyBlock_maintenance hpos hneeded h
  obtain ⟨exact, hexact⟩ : ∃ n, n = exactNext (s.headBlockNum + 1) b.timestamp s.nextMaintenanceTime
      s'.maintenanceInterval := ⟨_, rfl⟩
  have hlt : b.timestamp < exact := hexact ▸ lt_exactNext hinterval hneeded
  have hle : exact ≤ b.timestamp + s'.maintenanceInterval := hexact ▸ exactNext_le hneeded
  rw [← hexact] at hnext ⊢
  constructor
  · intro hmoves
    -- What is stored is itself such a time, and the exact one is the least.
    have hleast : exact ≤ s'.nextMaintenanceTime := by
      rw [hexact]
      by_cases hfirst : s.headBlockNum = 0
      · rw [hfirst]
        exact exactNext_least_first hinterval (hmoves.first hfirst).1 hmoves.later
      · obtain ⟨⟨k, hk⟩, -⟩ := hmoves.least hfirst
        have hlater := hmoves.later
        rw [hk] at hlater ⊢
        exact exactNext_least hinterval hneeded (by omega) hlater
    omega
  · intro hbits
    rw [Nat.mod_eq_of_lt hbits] at hnext
    rw [← hnext] at hlt hle
    refine ⟨hlt, hle, fun hfirst => ?_, fun hother => ?_, ?_⟩
    · rw [hnext, hexact, hfirst]
      refine ⟨?_, fun m hm ht => exactNext_least_first hinterval hm ht⟩
      rw [exactNext, if_pos rfl]
      exact dvd_mul_left _ _
    · have hnum : s.headBlockNum + 1 ≠ 1 := by omega
      rw [hnext, hexact]
      refine ⟨?_, fun k ht => exactNext_least hinterval hneeded hnum ht⟩
      rw [exactNext, if_neg hnum]
      exact ⟨_, rfl⟩
    · rw [MaintenanceState.timeToMaint, htime]
      omega

/-- A block is timely iff the exact next time has 32 bits, if there is maintenance. -/
lemma timely_iff (hpos : 0 < s.maintenanceInterval) (h : s.applyBlock b = some s') :
    Timely s b s' ↔ (s.nextMaintenanceTime ≤ b.timestamp →
      exactNext (s.headBlockNum + 1) b.timestamp s.nextMaintenanceTime s'.maintenanceInterval <
        2 ^ 32) := by
  constructor
  · exact fun htimely hneeded => (movesForward_iff hpos hneeded h).mp (htimely.maintenance hneeded)
  · refine fun hbits => ⟨fun hneeded => (movesForward_iff hpos hneeded h).mpr (hbits hneeded),
      fun hneeded => ?_⟩
    have hsame := applyBlock_otherwise hneeded h
    refine ⟨hsame, ?_⟩
    rw [hsame, MaintenanceState.timeToMaint]
    show (0 : ℤ) < s.nextMaintenanceTime - b.timestamp
    omega

/-! ### Runs -/

/-- The interval is never zero. -/
lemma applyBlock_interval_pos (hpos : 0 < s.maintenanceInterval) (h : s.applyBlock b = some s') :
    0 < s'.maintenanceInterval := by
  by_cases hneeded : s.nextMaintenanceTime ≤ b.timestamp
  · exact (applyBlock_maintenance hpos hneeded h).1
  · rw [applyBlock_otherwise (not_le.mp hneeded) h]
    exact hpos

variable {s₀ : MaintenanceState}
  {es : List (MaintenanceState × MaintenanceBlock × MaintenanceState)}

/-- Each step of a run is a block that is applied with an interval that is not zero. -/
lemma MaintenanceRun.steps (h : MaintenanceRun s₀ es s) (hpos : 0 < s₀.maintenanceInterval) :
    0 < s.maintenanceInterval ∧
      ∀ e ∈ es, 0 < e.1.maintenanceInterval ∧ e.1.applyBlock e.2.1 = some e.2.2 := by
  induction h with
  | nil => exact ⟨hpos, fun e he => absurd he List.not_mem_nil⟩
  | snoc _ happly ih =>
      refine ⟨applyBlock_interval_pos ih.1 happly, fun e he => ?_⟩
      rcases List.mem_append.mp he with he | he
      · exact ih.2 e he
      · rw [List.mem_singleton.mp he]
        exact ⟨ih.1, happly⟩

/-- **All blocks of a run are timely iff no exact next maintenance time reaches `2 ^ 32`.** -/
theorem maintenance_iff (s₀ s : MaintenanceState)
    (es : List (MaintenanceState × MaintenanceBlock × MaintenanceState))
    (hpos : 0 < s₀.maintenanceInterval) (h : MaintenanceRun s₀ es s) :
    (∀ e ∈ es, Timely e.1 e.2.1 e.2.2) ↔
      ∀ e ∈ es, e.1.nextMaintenanceTime ≤ e.2.1.timestamp →
        exactNext (e.1.headBlockNum + 1) e.2.1.timestamp e.1.nextMaintenanceTime
          e.2.2.maintenanceInterval < 2 ^ 32 := by
  refine forall₂_congr fun e he => ?_
  obtain ⟨hinterval, happly⟩ := (h.steps hpos).2 e he
  exact timely_iff hinterval happly

end

/-- A chain with maintenance every hour. -/
def hourly : MaintenanceState where
  headBlockTime := 1700000000
  maintenanceInterval := 3600

/-- It after its first block. -/
def hourlyFirst : MaintenanceState where
  headBlockNum := 1
  headBlockTime := 1700000003
  nextMaintenanceTime := 1700002800
  maintenanceInterval := 3600

/-- The first block. -/
def firstBlock : MaintenanceBlock where
  timestamp := 1700000003
  timestamp_lt := by norm_num
  pendingInterval_pos := by simp

/-- A block of maintenance more than an hour later, when an interval may be pending. -/
def laterBlock (pendingInterval : Option ℕ) (h : ∀ i ∈ pendingInterval, 0 < i) :
    MaintenanceBlock where
  timestamp := 1700009000
  timestamp_lt := by norm_num
  pendingInterval := pendingInterval
  pendingInterval_pos := h

lemma hourly_firstBlock : MaintenanceRun hourly [(hourly, firstBlock, hourlyFirst)] hourlyFirst :=
  .snoc .nil rfl

/-- It after a block of maintenance that comes more than an hour late. -/
def hourlyLater : MaintenanceState where
  headBlockNum := 2
  headBlockTime := 1700009000
  nextMaintenanceTime := 1700010000
  maintenanceInterval := 3600

/-- Both blocks are timely. -/
theorem maintenance_iff_hourly :
    Timely hourly firstBlock hourlyFirst ∧
      Timely hourlyFirst (laterBlock none (by simp)) hourlyLater := by
  have htimely := (maintenance_iff hourly hourlyLater
    [(hourly, firstBlock, hourlyFirst), (hourlyFirst, laterBlock none (by simp), hourlyLater)]
    (by decide) (hourly_firstBlock.snoc rfl)).mpr (by decide)
  exact ⟨htimely _ List.mem_cons_self, htimely _ (List.mem_cons_of_mem _ List.mem_cons_self)⟩

/-- The committee sets an interval of 95 years: the next maintenance is in the past. -/
theorem not_timely : ¬ ∀ (s₀ s : MaintenanceState)
    (es : List (MaintenanceState × MaintenanceBlock × MaintenanceState)),
    0 < s₀.maintenanceInterval → MaintenanceRun s₀ es s → ∀ e ∈ es, Timely e.1 e.2.1 e.2.2 := by
  intro h
  have hrun := hourly_firstBlock.snoc
    (show hourlyFirst.applyBlock (laterBlock (some 3000000000) (by simp)) = some
      { headBlockNum := 2
        headBlockTime := 1700009000
        nextMaintenanceTime := 405035504
        maintenanceInterval := 3000000000 } from rfl)
  have hlater := ((h hourly _ _ (by decide) hrun _ (List.mem_append_right _ List.mem_cons_self)).maintenance
    (by decide)).later
  exact absurd hlater (by decide)

end ZosCore
