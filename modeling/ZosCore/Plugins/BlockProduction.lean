import ZosCore.Chain.History
import ZosCore.Chain.SlotHistory

/-!
`witness.cpp`: the loop in which a node produces its blocks.

Once a second the loop asks for the slot at the time, rounded to the next second, and calls
`generate_block` if a witness of the node is scheduled. Nothing says what has been signed: a second
block for the same slot is prevented by the head of the chain, which is not before the slot then. But
a tick that is half a second late rounds to the second of the tick after it, and in between another
branch may have brought the head back.

* `WitnessPlugin`, `Node`: the plugin, and the database with it.
* `maybeProduceBlock`, `blockProductionLoop`, `scheduleProductionLoop`: a tick.
* `Node.Run`: ticks and calls of the database in any order.
* **`generated_sound`**: a block is generated after the head block, at most twice for a slot, and once
  if no tick is late.
-/

namespace ZosCore

/-! ### The plugin -/

/-- `block_production_condition_enum` -/
inductive BlockProductionCondition where
  | produced
  | notSynced
  | notMyTurn
  | notTimeYet
  | noPrivateKey
  | lowParticipation
  | lag
  | consecutive
  | exceptionProducingBlock
  | syning
  deriving DecidableEq

/-- A call of `generate_block`: the time for which the tick was scheduled and at which it ran, in
microseconds, the slots as they were, and the arguments. -/
structure Generated where
  wakeup : ℕ
  start : ℕ
  slots : SlotState
  witness : ℕ
  time : ℕ

/-- `witness_plugin`. `generated` is a history variable: the calls of `generate_block`, newest
first. -/
structure WitnessPlugin where
  productionEnabled : Bool := false
  requiredWitnessParticipation : ℕ := 33 * 100
  productionSkipFlags : SkipFlags := {}
  /-- The public keys of which the node has the private ones. -/
  privateKeys : List ℕ
  witnesses : List ℕ
  blockHeadNumber : ℕ := 0
  /-- When `_block_production_task` is to run. -/
  nextWakeup : ℕ := 0
  generated : List Generated := []

/-- The database, and the plugin. -/
structure Node (β ω : Type) where
  db : Database β ω
  plugin : WitnessPlugin

/-- What the plugin reads of the objects, and the rules of the chain. -/
structure ProductionRules (β ω : Type) where
  rules : Rules β ω
  /-- How deep proposals may nest. -/
  depth : ℕ
  slots : Objects β ω → SlotState
  /-- `witness_object::signing_key`; there may be no such witness. -/
  signingKey : ℕ → Objects β ω → Option ℕ

/-- `block_syncstep` -/
def blockSyncstep : ℕ := 10000

/-- `now_fine + fc::microseconds( 500000 )` as a `time_point_sec` -/
def roundedSecond (nowFine : ℕ) : ℕ := (nowFine + 500000) / 1000000 % 2 ^ 32

namespace Node

variable {β ω : Type} (W : ProductionRules β ω)

/-- `schedule_production_loop`: the next whole second, but not within 50 milliseconds. -/
def scheduleProductionLoop (now : ℕ) (n : Node β ω) : Node β ω :=
  let timeToNextSecond := 1000000 - now % 1000000
  let timeToNextSecond :=
    if timeToNextSecond < 50000 then timeToNextSecond + 1000000 else timeToNextSecond
  { n with plugin := { n.plugin with nextWakeup := now + timeToNextSecond } }

/-- The end of `maybe_produce_block`: the block is generated and its witness is looked up. -/
def produceBlock (nowFine scheduledWitness scheduledTime : ℕ) (n : Node β ω) :
    Except Failure BlockProductionCondition × Node β ω :=
  let call : Generated :=
    { wakeup := n.plugin.nextWakeup, start := nowFine, slots := W.slots n.db.objects,
      witness := scheduledWitness, time := scheduledTime }
  let r := Database.generateBlock W.rules W.depth scheduledTime scheduledWitness
    n.plugin.productionSkipFlags n.db
  let n := { db := r.2, plugin := { n.plugin with generated := call :: n.plugin.generated } }
  match r.1 with
  | .error e => (.error e, n)
  | .ok _ =>
      if (W.signingKey scheduledWitness n.db.objects).isSome then (.ok .produced, n)
      else (.error (.fc .unknownWitness), n)

/-- `maybe_produce_block` from the look at the slot on. -/
def produceInSlot (nowFine : ℕ) (n : Node β ω) :
    Except Failure BlockProductionCondition × Node β ω :=
  let now := roundedSecond nowFine
  let s := W.slots n.db.objects
  let slot := s.getSlotAtTime now
  if slot = 0 then (.ok .notTimeYet, n)
  else
    match s.getScheduledWitness slot with
    | none => (.error .crash, n)
    | some scheduledWitness =>
        if scheduledWitness ∉ n.plugin.witnesses then (.ok .notMyTurn, n)
        else
          let scheduledTime := s.getSlotTime slot
          match W.signingKey scheduledWitness n.db.objects with
          | none => (.error (.fc .unknownWitness), n)
          | some scheduledKey =>
              if scheduledKey ∉ n.plugin.privateKeys then (.ok .noPrivateKey, n)
              else if s.witnessParticipationRate < n.plugin.requiredWitnessParticipation then
                (.ok .lowParticipation, n)
              else if 500000 < ((scheduledTime : ℤ) - now).natAbs * 1000000 then (.ok .lag, n)
              else n.produceBlock W nowFine scheduledWitness scheduledTime

/-- `maybe_produce_block` -/
def maybeProduceBlock (nowFine : ℕ) (n : Node β ω) :
    Except Failure BlockProductionCondition × Node β ω :=
  let s := W.slots n.db.objects
  if n.plugin.productionEnabled then n.produceInSlot W nowFine
  else if roundedSecond nowFine ≤ s.getSlotTime 1 then
    produceInSlot W nowFine { n with plugin := { n.plugin with productionEnabled := true } }
  else if n.plugin.blockHeadNumber < (s.headBlockNumber + (2 ^ 64 - blockSyncstep)) % 2 ^ 64 then
    (.ok .notSynced, { n with plugin := { n.plugin with blockHeadNumber := s.headBlockNumber } })
  else (.ok .syning, n)

/-- `block_production_loop`, from `start` to `stop`; `none` is the end of the program. -/
def blockProductionLoop (start stop : ℕ) (n : Node β ω) :
    Option (BlockProductionCondition × Node β ω) :=
  match n.maybeProduceBlock W start with
  | (.ok result, n) => some (result, n.scheduleProductionLoop stop)
  | (.error (.fc _), n) => some (.exceptionProducingBlock, n.scheduleProductionLoop stop)
  | (.error .crash, _) => none

/-- A run of the node: ticks, each at the scheduled time or later, and calls of the database; and
production may be allowed or forbidden. -/
inductive Run (n₀ : Node β ω) : Node β ω → Prop
  | refl : Run n₀ n₀
  | tick {n n' : Node β ω} {start stop : ℕ} {result : BlockProductionCondition} (h : Run n₀ n)
      (hwakeup : n.plugin.nextWakeup ≤ start) (hstop : start ≤ stop)
      (hloop : n.blockProductionLoop W start stop = some (result, n')) : Run n₀ n'
  | call {n : Node β ω} {c : Call β} {db : Database β ω} (h : Run n₀ n)
      (hcall : Database.Calls W.rules W.depth n.db c db) : Run n₀ { n with db }
  | setBlockProduction {n : Node β ω} (h : Run n₀ n) (allow : Bool) :
      Run n₀ { n with plugin := { n.plugin with productionEnabled := allow } }

/-! ### What a tick may do -/

variable {W}

/-- At most one call of `generate_block` is added, for the second that the time is rounded to. -/
def MayGenerate (nowFine : ℕ) (n n' : Node β ω) : Prop :=
  n'.plugin.nextWakeup = n.plugin.nextWakeup ∧
    (n'.plugin.generated = n.plugin.generated ∨ ∃ e, n'.plugin.generated = e :: n.plugin.generated ∧
      e.wakeup = n.plugin.nextWakeup ∧ e.start = nowFine ∧ e.time = roundedSecond nowFine ∧
      e.slots.getSlotAtTime e.time ≠ 0)

variable {nowFine : ℕ} {n n' : Node β ω}

lemma MayGenerate.refl (nowFine : ℕ) (n : Node β ω) : MayGenerate nowFine n n := ⟨rfl, .inl rfl⟩

lemma produceBlock_generated (nowFine witness time : ℕ) (n : Node β ω) :
    (n.produceBlock W nowFine witness time).2.plugin.nextWakeup = n.plugin.nextWakeup ∧
    (n.produceBlock W nowFine witness time).2.plugin.generated =
      ⟨n.plugin.nextWakeup, nowFine, W.slots n.db.objects, witness, time⟩ :: n.plugin.generated := by
  rw [produceBlock]
  dsimp only
  split
  · exact ⟨rfl, rfl⟩
  · split <;> exact ⟨rfl, rfl⟩

lemma produceInSlot_mayGenerate (nowFine : ℕ) (n : Node β ω) :
    MayGenerate nowFine n (n.produceInSlot W nowFine).2 := by
  rw [produceInSlot]
  dsimp only
  split
  case isTrue => exact .refl _ _
  case isFalse hslot =>
    split
    · exact .refl _ _
    · split
      · exact .refl _ _
      · split
        · exact .refl _ _
        · split_ifs with hkey hrate hlag
          · exact .refl _ _
          · exact .refl _ _
          · obtain ⟨hwakeup, hgenerated⟩ := produceBlock_generated (W := W) nowFine _ _ n
            -- the times are whole seconds, so they are the same
            have htime : (W.slots n.db.objects).getSlotTime
                ((W.slots n.db.objects).getSlotAtTime (roundedSecond nowFine)) =
                  roundedSecond nowFine := by omega
            refine ⟨hwakeup, .inr ⟨_, hgenerated, rfl, rfl, htime, ?_⟩⟩
            dsimp only
            rwa [htime]
          · exact .refl _ _

/-- What `maybe_produce_block` may do. -/
lemma maybeProduceBlock_mayGenerate (nowFine : ℕ) (n : Node β ω) :
    MayGenerate nowFine n (n.maybeProduceBlock W nowFine).2 := by
  rw [maybeProduceBlock]
  dsimp only
  split_ifs
  · exact produceInSlot_mayGenerate nowFine n
  · exact produceInSlot_mayGenerate nowFine
      { n with plugin := { n.plugin with productionEnabled := true } }
  · exact .refl _ _
  · exact .refl _ _

/-! ### Ticks in order -/

/-- The next tick is at a whole second, and not within 50 milliseconds. -/
lemma scheduleProductionLoop_nextWakeup (now : ℕ) (n : Node β ω) :
    1000000 ∣ (n.scheduleProductionLoop now).plugin.nextWakeup ∧
      now + 50000 ≤ (n.scheduleProductionLoop now).plugin.nextWakeup := by
  rw [scheduleProductionLoop]
  dsimp only
  split <;> omega

/-- The calls of `generate_block` were made at ticks one after the other, each for the second that
the time was rounded to. -/
structure Ordered (n : Node β ω) : Prop where
  dvd : 1000000 ∣ n.plugin.nextWakeup
  rounded : ∀ e ∈ n.plugin.generated, e.time = roundedSecond e.start ∧
    e.slots.getSlotAtTime e.time ≠ 0 ∧ 1000000 ∣ e.wakeup ∧ e.wakeup ≤ e.start
  before : ∀ e ∈ n.plugin.generated, e.start + 50000 ≤ n.plugin.nextWakeup
  pairwise : n.plugin.generated.Pairwise fun e e' => e'.start + 50000 ≤ e.wakeup

lemma Ordered.of_plugin {n n' : Node β ω} (h : Ordered n)
    (hwakeup : n'.plugin.nextWakeup = n.plugin.nextWakeup)
    (hgenerated : n'.plugin.generated = n.plugin.generated) : Ordered n' where
  dvd := hwakeup ▸ h.dvd
  rounded := hgenerated ▸ h.rounded
  before := by rw [hgenerated, hwakeup]; exact h.before
  pairwise := hgenerated ▸ h.pairwise

/-- A tick keeps the order, once the next one is scheduled. -/
lemma Ordered.tick {start stop : ℕ} (h : Ordered n) (hmay : MayGenerate start n n')
    (hwakeup : n.plugin.nextWakeup ≤ start) (hstop : start ≤ stop) :
    Ordered (n'.scheduleProductionLoop stop) := by
  obtain ⟨hdvd, hnext⟩ := scheduleProductionLoop_nextWakeup stop n'
  have hbefore : ∀ e ∈ n.plugin.generated,
      e.start + 50000 ≤ (n'.scheduleProductionLoop stop).plugin.nextWakeup := by
    intro e he
    have := h.before e he
    omega
  obtain ⟨-, hsame | ⟨e, hgenerated, hw, hs, htime, hslot⟩⟩ := hmay
  · refine ⟨hdvd, ?_, ?_, ?_⟩
    · exact hsame ▸ h.rounded
    · exact hsame ▸ hbefore
    · exact hsame ▸ h.pairwise
  · have hfirst : e.start + 50000 ≤ (n'.scheduleProductionLoop stop).plugin.nextWakeup := by omega
    refine ⟨hdvd, ?_, ?_, ?_⟩
    · change ∀ e ∈ n'.plugin.generated, _
      rw [hgenerated, List.forall_mem_cons]
      exact ⟨⟨hs ▸ htime, hslot, hw ▸ h.dvd, by omega⟩, h.rounded⟩
    · change ∀ e ∈ n'.plugin.generated, _
      rw [hgenerated, List.forall_mem_cons]
      exact ⟨hfirst, hbefore⟩
    · change n'.plugin.generated.Pairwise _
      rw [hgenerated, List.pairwise_cons]
      exact ⟨fun e' he' => hw ▸ h.before e' he', h.pairwise⟩

lemma Ordered.blockProductionLoop {start stop : ℕ} {result : BlockProductionCondition}
    (h : Ordered n) (hwakeup : n.plugin.nextWakeup ≤ start) (hstop : start ≤ stop)
    (hloop : n.blockProductionLoop W start stop = some (result, n')) : Ordered n' := by
  have hmay := maybeProduceBlock_mayGenerate (W := W) start n
  rw [Node.blockProductionLoop] at hloop
  split at hloop
  case h_1 _ _ m hmaybe =>
    obtain ⟨-, rfl⟩ := Prod.mk.inj (Option.some.inj hloop)
    rw [hmaybe] at hmay
    exact h.tick hmay hwakeup hstop
  case h_2 _ _ m hmaybe =>
    obtain ⟨-, rfl⟩ := Prod.mk.inj (Option.some.inj hloop)
    rw [hmaybe] at hmay
    exact h.tick hmay hwakeup hstop
  case h_3 => cases hloop

/-- **The run lemma.** The order is kept in every run. -/
lemma Run.ordered {n₀ : Node β ω} (h₀ : Ordered n₀) (h : Run W n₀ n) : Ordered n := by
  induction h with
  | refl => exact h₀
  | tick _ hwakeup hstop hloop ih => exact ih.blockProductionLoop hwakeup hstop hloop
  | call _ _ ih => exact ih.of_plugin rfl rfl
  | setBlockProduction _ _ ih => exact ih.of_plugin rfl rfl

end Node

/-! ### Blocks for one slot -/

/-- Two calls for one slot: the first is at least 50 milliseconds early and was made at a late tick,
the second is in time. -/
lemma generated_twice {w start start' t : ℕ} (ht : t = roundedSecond start)
    (ht' : t = roundedSecond start') (hlt : start + 500000 < 2 ^ 32 * 1000000)
    (hdvd : 1000000 ∣ w) (hw : w ≤ start) (hbefore : start' + 50000 ≤ w) :
    start' + 50000 ≤ t * 1000000 ∧ t * 1000000 ≤ start' + 500000 ∧ t * 1000000 ≤ start := by
  rw [roundedSecond, Nat.mod_eq_of_lt (by omega)] at ht ht'
  omega

/-- A call for a slot is made after the head block. -/
lemma time_lt_of_slot {s : SlotState} {t : ℕ} (hwrap : s.slotTime 1 < 2 ^ 32)
    (h : s.getSlotAtTime t ≠ 0) : s.time < t := by
  have hfirst : s.slotTime 1 ≤ t := by
    rw [SlotState.getSlotAtTime, SlotState.getSlotTime_eq hwrap] at h
    exact not_lt.mp fun hlt => h (if_pos hlt)
  exact s.time_lt_slotTime_one.trans_le hfirst

/-- Where no three in a row may satisfy `p`, no three do. -/
lemma countP_le_two {α : Type} {R : α → α → Prop} {p : α → Prop} [DecidablePred p] {l : List α}
    (h : l.Pairwise R) (hp : ∀ a b c, p a → p b → p c → R a b → R b c → False) :
    l.countP (fun a => decide (p a)) ≤ 2 := by
  have hpairs := h.filter fun a => decide (p a)
  have hall : ∀ a ∈ l.filter (fun a => decide (p a)), p a := fun a ha =>
    of_decide_eq_true (List.mem_filter.mp ha).2
  rw [List.countP_eq_length_filter]
  cases hfilter : l.filter (fun a => decide (p a)) with
  | nil => exact Nat.zero_le 2
  | cons a l₁ =>
      cases l₁ with
      | nil => exact one_le_two
      | cons b l₂ =>
          cases l₂ with
          | nil => exact le_rfl
          | cons c l₃ =>
              rw [hfilter] at hpairs hall
              simp only [List.pairwise_cons, List.forall_mem_cons] at hpairs hall
              exact (hp a b c hall.1 hall.2.1 hall.2.2.1 hpairs.1.1 hpairs.2.1.1).elim

/-- **What a node generates in a run.** As long as the times have 32 bits: every block is generated
after the head block of that time. A second one for a slot time is generated only if the first was at
a tick that ran in the half second before the slot time and not in its last 50 milliseconds, and the
second at the slot time or later; so there are never three, and no two if no tick that generated a
block ran half a second or more after its time. -/
theorem generated_sound {β ω : Type} (W : ProductionRules β ω) {n₀ n : Node β ω} {begin : ℕ}
    (h₀ : n₀.plugin.generated = []) (hrun : Node.Run W (n₀.scheduleProductionLoop begin) n)
    (htimes : ∀ e ∈ n.plugin.generated,
      e.slots.slotTime 1 < 2 ^ 32 ∧ e.start + 500000 < 2 ^ 32 * 1000000) :
    (∀ e ∈ n.plugin.generated, e.slots.time < e.time) ∧
    (n.plugin.generated.Pairwise fun e e' => e.time = e'.time →
      e'.start + 50000 ≤ e.time * 1000000 ∧ e.time * 1000000 ≤ e'.start + 500000 ∧
        e.time * 1000000 ≤ e.start) ∧
    (∀ t, n.plugin.generated.countP (·.time = t) ≤ 2) ∧
    ((∀ e ∈ n.plugin.generated, e.start < e.wakeup + 500000) →
      (n.plugin.generated.map fun e => (e.witness, e.time)).Nodup) := by
  have hordered : n.Ordered := hrun.ordered
    ⟨(Node.scheduleProductionLoop_nextWakeup begin n₀).1, by simp [Node.scheduleProductionLoop, h₀],
      by simp [Node.scheduleProductionLoop, h₀], by simp [Node.scheduleProductionLoop, h₀]⟩
  have htwice : n.plugin.generated.Pairwise fun e e' => e.time = e'.time →
      e'.start + 50000 ≤ e.time * 1000000 ∧ e.time * 1000000 ≤ e'.start + 500000 ∧
        e.time * 1000000 ≤ e.start := by
    refine hordered.pairwise.imp_of_mem fun {e e'} he he' hbefore heq => ?_
    obtain ⟨htime, -, hdvd, hw⟩ := hordered.rounded e he
    exact generated_twice htime (heq.trans (hordered.rounded e' he').1) (htimes e he).2 hdvd hw hbefore
  refine ⟨?_, htwice, ?_, ?_⟩
  · intro e he
    exact time_lt_of_slot (htimes e he).1 (hordered.rounded e he).2.1
  · intro t
    refine countP_le_two htwice fun e₁ e₂ e₃ h₁ h₂ h₃ h₁₂ h₂₃ => ?_
    -- the second call was in time, so there is no third
    have hintime := h₁₂ (h₁.trans h₂.symm)
    have hearly := h₂₃ (h₂.trans h₃.symm)
    rw [h₁] at hintime
    rw [h₂] at hearly
    omega
  · intro hlate
    refine List.pairwise_map.mpr (htwice.imp_of_mem fun {e e'} he he' hstart heq => ?_)
    obtain ⟨-, -, hdvd, hw⟩ := hordered.rounded e' he'
    have hearly := hstart (Prod.mk.inj heq).2
    have htick := hlate e' he'
    omega

/-! ### A late tick -/

lemma threeSeconds_pos : 0 < 3 := by decide

/-- A chain with the one witness 0 and a block every 3 seconds. -/
def threeSeconds : SlotState where
  time := 1700000001
  blockInterval := 3
  blockInterval_pos := threeSeconds_pos
  maintenanceSkipSlots := 3
  activeWitnesses := [0]
  currentShuffledWitnesses := [0]

/-- The slots after the blocks of the chain, which has no maintenance. -/
def slotsOf (o : Objects Unit Unit) : SlotState :=
  o.chain.foldr (fun b s => s.updateGlobalDynamicData b.timestamp) threeSeconds

def slotRules : ProductionRules Unit Unit where
  rules := { calmRules with
    getSlotAtTime := fun t o => (slotsOf o).getSlotAtTime t
    getScheduledWitness := fun n o => ((slotsOf o).getScheduledWitness n).getD 0
    mayGenerate := fun time witness o => 0 < (slotsOf o).getSlotAtTime time ∧
      (slotsOf o).getScheduledWitness ((slotsOf o).getSlotAtTime time) = some witness }
  depth := 1
  slots := slotsOf
  signingKey _ _ := some 7

/-- A node of the witness on a new chain. -/
def witnessNode : Node Unit Unit where
  db := { objects := { activeWitnesses := [0], world := (), time := 1700000001 } }
  plugin := { productionEnabled := true, privateKeys := [7], witnesses := [0] }

/-- The node after a tick that ran at once. -/
def Node.afterTick (start : ℕ) (n : Node Unit Unit) : Node Unit Unit :=
  (n.blockProductionLoop slotRules start start).elim n Prod.snd

/-- The node after a block has come in. -/
def Node.afterBlock (previous : BlockId) (timestamp digest : ℕ) (n : Node Unit Unit) :
    Node Unit Unit :=
  { n with db := (Database.call slotRules.rules 1
      (.pushBlock { previous, timestamp, digest } {}) n.db).2 }

/-- The second tick of the node runs 600 milliseconds late, for the slot one second later. -/
def lateNode : Node Unit Unit :=
  (witnessNode.scheduleProductionLoop 1700000008000000).afterTick 1700000009600000

/-- Two blocks of another branch, for the slots before that one. -/
def switchedNode : Node Unit Unit :=
  (lateNode.afterBlock .zero 1700000004 1).afterBlock ⟨1, 1⟩ 1700000007 2

lemma Node.Run.afterTick {n₀ n : Node Unit Unit} {start : ℕ} (h : Node.Run slotRules n₀ n)
    (hwakeup : n.plugin.nextWakeup ≤ start)
    (hloop : (n.blockProductionLoop slotRules start start).isSome) :
    Node.Run slotRules n₀ (n.afterTick start) := by
  obtain ⟨⟨result, n'⟩, hsome⟩ := Option.isSome_iff_exists.mp hloop
  rw [Node.afterTick, hsome]
  exact h.tick hwakeup le_rfl hsome

lemma lateNode_run :
    Node.Run slotRules (witnessNode.scheduleProductionLoop 1700000008000000) lateNode :=
  Node.Run.refl.afterTick (by decide) (by decide +kernel)

/-- The block of the late tick is the only one. -/
theorem generated_sound_lateNode :
    lateNode.plugin.generated.map (·.time) = [1700000010] ∧
      (∀ e ∈ lateNode.plugin.generated, e.slots.time < e.time) ∧
      ∀ t, lateNode.plugin.generated.countP (·.time = t) ≤ 2 := by
  have htimes : ∀ e ∈ lateNode.plugin.generated,
      e.slots.slotTime 1 < 2 ^ 32 ∧ e.start + 500000 < 2 ^ 32 * 1000000 := by decide +kernel
  have hsound := generated_sound slotRules rfl lateNode_run htimes
  exact ⟨by decide +kernel, hsound.1, hsound.2.2.1⟩

/-- **Two blocks for a slot.** The late tick generates a block for the slot that is 400 milliseconds
ahead. Then two blocks of another branch come in, and the head is before the slot again when the next
tick runs, at the slot time. -/
theorem not_generated_once :
    Node.Run slotRules (witnessNode.scheduleProductionLoop 1700000008000000)
      (switchedNode.afterTick 1700000010000000) ∧
    (switchedNode.afterTick 1700000010000000).plugin.generated.map (fun e => (e.witness, e.time)) =
      [(0, 1700000010), (0, 1700000010)] ∧
    ¬ ((switchedNode.afterTick 1700000010000000).plugin.generated.map
      fun e => (e.witness, e.time)).Nodup := by
  have hrun : Node.Run slotRules (witnessNode.scheduleProductionLoop 1700000008000000)
      switchedNode :=
    (lateNode_run.call ⟨rfl, by decide +kernel⟩).call ⟨rfl, by decide +kernel⟩
  have hcalls : (switchedNode.afterTick 1700000010000000).plugin.generated.map
      (fun e => (e.witness, e.time)) = [(0, 1700000010), (0, 1700000010)] := by decide +kernel
  refine ⟨hrun.afterTick (by decide +kernel) (by decide +kernel), hcalls, ?_⟩
  rw [hcalls]
  decide

end ZosCore
