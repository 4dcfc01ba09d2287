import Mathlib.Algebra.Order.Floor.Div
import ZosCore.Lib.Quantile
import ZosCore.Chain.Irreversible

/-!
`update_last_irreversible_block`: the last irreversible block is confirmed by so many witnesses.

* `applyUntilSigned`, `finishBlock`: `_apply_block` before and after
  `update_last_irreversible_block`.
* `isGreatest_confirmedByThreshold`: `nth_element` finds the greatest block that a supermajority of
  the active witnesses has confirmed.
* **`irreversible_supermajority`**: the last irreversible block is not above the head in any state
  that is reached, no block that is applied lowers it, and if one raises it, it is that greatest
  block.
-/

namespace ZosCore

open Exec

variable {β ω : Type} {R : Rules β ω} {d : ℕ}

/-! ### The supermajority -/

/-- `GRAPHENE_IRREVERSIBLE_THRESHOLD` of the active witnesses, rounded up, have confirmed the block
`n` or a later one. -/
def Objects.ConfirmedBySupermajority (o : Objects β ω) (n : ℕ) : Prop :=
  irreversibleThreshold * o.activeWitnesses.length ⌈/⌉ hundredPercent ≤
    o.activeWitnesses.countP (n ≤ o.lastConfirmed ·)

/-- What `nth_element` puts at the place `offset` is the greatest block that a supermajority of the
active witnesses has confirmed. -/
lemma isGreatest_confirmedByThreshold {o : Objects β ω} {n : ℕ}
    (h : Database.confirmedByThreshold o = some n) :
    IsGreatest {n | o.ConfirmedBySupermajority n} n := by
  have hgreatest := isGreatest_nth h
  -- rounding the offset down rounds the number of witnesses up
  have hround : ∀ k, o.activeWitnesses.length - (hundredPercent - irreversibleThreshold) *
      ((o.activeWitnesses.map o.lastConfirmed).insertionSort (· ≤ ·)).length / hundredPercent ≤ k ↔
      irreversibleThreshold * o.activeWitnesses.length ⌈/⌉ hundredPercent ≤ k := by
    intro k
    rw [ceilDiv_le_iff_le_mul (by decide), List.length_insertionSort, List.length_map]
    simp only [hundredPercent, irreversibleThreshold]
    omega
  simp only [hround] at hgreatest
  exact hgreatest

/-! ### The parts of `_apply_block` -/

namespace Database

variable (R : Rules β ω) (d : ℕ)

/-- `_apply_block` before `update_last_irreversible_block`; it returns whether there is
maintenance. -/
def applyUntilSigned (b : SignedBlock β) : Act β ω Bool := do
  let skip ← gets (·.skipFlags)
  fcAssert (skip.merkleCheck = true ∨ b.transactionMerkleRoot = R.calculateMerkleRoot b.transactions)
    .merkleMismatch
  let o ← gets (·.objects)
  fcLift (validateBlockHeader R skip b o)
  let maintNeeded := R.maintenanceNeeded b.timestamp o
  forEach (applyTransaction R d) b.transactions
  updateGlobalDynamicData R b
  updateSigningWitness R b
  return maintNeeded

/-- `_apply_block` after `update_last_irreversible_block`. -/
def finishBlock (b : SignedBlock β) (maintNeeded : Bool) : Act β ω Unit := do
  if maintNeeded then
    runRule (R.performChainMaintenance b)
    let o ← gets (·.objects)
    update fun db => { db with
      blockDb := { db.blockDb with maxBlockSize := R.maximumBlockSize o * 11 / 10 } }
  createBlockSummary b
  clearExpiredTransactions
  clearExpiredProposals R d
  runRule (R.endOfBlock b)
  clearApplied
  notifyChangedObjects

lemma applyBlockLocked_eq (b : SignedBlock β) :
    applyBlockLocked R d b = (do
      let maintNeeded ← applyUntilSigned R d b
      updateLastIrreversibleBlock
      finishBlock R d b maintNeeded) := by
  rw [applyBlockLocked, applyUntilSigned]
  simp only [bind_assoc]
  rfl

/-- The state in which `_apply_block` begins. -/
def starting (skip : SkipFlags) (db : Database β ω) : Database β ω :=
  { db with
    skipFlags := skip
    appliedOps := []
    appliedBalances := []
    appStatus := { db.appStatus with applyBlock := true } }

end Database

/-- What `apply_block` returns with comes from the parts of `_apply_block`. -/
lemma applyBlock_eq_ok {b : SignedBlock β} {skip : SkipFlags} {db db' : Database β ω}
    (h : Database.applyBlock R d b skip db = (.ok (), db')) :
    ∃ skip' maintNeeded db₁ db₂ db₃,
      Database.checkpointFlags db.checkpoints skip b = .ok skip' ∧
      Database.applyUntilSigned R d b (db.starting skip') = (.ok maintNeeded, db₁) ∧
      Database.updateLastIrreversibleBlock db₁ = (.ok (), db₂) ∧
      Database.finishBlock R d b maintNeeded db₂ = (.ok (), db₃) ∧ db'.objects = db₃.objects := by
  obtain ⟨_, _, hgets, h⟩ := bind_eq_ok.mp h
  cases hgets
  obtain ⟨skip', _, hskip, h⟩ := bind_eq_ok.mp h
  cases hcheck : Database.checkpointFlags db.checkpoints skip b with
  | error e =>
      rw [hcheck] at hskip
      cases hskip
  | ok a =>
      rw [hcheck] at hskip
      cases hskip
      -- neither the flags nor the status are objects
      obtain ⟨hok, rfl⟩ := Prod.mk.inj h
      have hlocked : Database.applyBlockLocked R d b (db.starting skip') =
          (.ok (), (Database.applyBlockLocked R d b (db.starting skip')).2) := Prod.ext hok rfl
      rw [Database.applyBlockLocked_eq] at hlocked
      obtain ⟨maintNeeded, db₁, h₁, hlocked⟩ := bind_eq_ok.mp hlocked
      obtain ⟨_, db₂, h₂, h₃⟩ := bind_eq_ok.mp hlocked
      refine ⟨skip', maintNeeded, db₁, db₂, _, rfl, h₁, h₂, h₃, ?_⟩
      rw [← Database.applyBlockLocked_eq]
      rfl

/-! ### What a block does -/

/-- No invariant, across a block. -/
lemma blockInvariant_true (c : Dynamic β) (b : SignedBlock β) :
    BlockInvariant R d 0 (fun _ => True) c b (fun _ (_ : Database β ω) => True) fun _ => True :=
  have hapart : Apart fun _ : Database β ω => True := ⟨fun _ _ _ _ _ _ _ => trivial⟩
  { hapart.operationInvariant 0 with
    operates := hapart.operates
    objects := fun _ _ _ => trivial
    other := fun _ _ _ _ => trivial
    ended := fun _ _ _ => trivial
    resize := fun _ _ => trivial }

/-- Before `update_last_irreversible_block` the last irreversible block stays. -/
lemma lastIrreversible_applyUntilSigned (c : Dynamic β) (b : SignedBlock β) :
    Triple (fun db : Database β ω => db.objects.dynamic = c) (Database.applyUntilSigned R d b)
      (fun _ db => db.objects.dynamic = (c.withHead b).withConfirmed b) fun _ _ => True := by
  have hsteps := (blockInvariant_true (R := R) (d := d) (ω := ω) c b).steps
    (fun _ _ op _ => op.admitted_true R) {}
  refine Triple.bind (Keeps.gets _) fun _ => ?_
  refine Triple.bind (Q := fun _ db => db.objects.dynamic = c)
    (Triple.check (fun _ h _ => h) fun _ _ _ => trivial) fun _ => ?_
  refine Triple.gets_bind fun s hs => triple_fcLift_bind (fun _ _ _ _ => trivial) fun _ hv => ?_
  have hfollows : c.headBlockId = b.previous ∧ c.time < b.timestamp :=
    hs ▸ validateBlockHeader_eq_ok hv
  have htrxs : Triple (fun db => db = s) (Exec.forEach (Database.applyTransaction R d) b.transactions)
      (fun _ => DynamicIs c s.undo.maxSize) fun _ _ => True :=
    (DynamicIs.applyTransactions b.transactions).conseq (by rintro _ rfl; exact ⟨rfl, hs⟩)
      (fun _ _ h => h) fun _ _ _ => trivial
  refine Triple.bind htrxs fun _ => ?_
  refine Triple.bind ((hsteps.updateGlobalDynamicData hfollows.1 hfollows.2).conseq
    (fun _ h => ⟨trivial, h⟩) (fun _ _ h => h) fun _ _ _ => trivial) fun _ => ?_
  refine Triple.bind ((hsteps.updateSigningWitness rfl).conseq (fun _ h => h) (fun _ _ h => h)
    fun _ _ _ => trivial) fun _ => ?_
  exact Triple.pure fun _ h => h.2.2

/-- After `update_last_irreversible_block` the dynamic fields stay. -/
lemma dynamic_finishBlock (c : Dynamic β) (b : SignedBlock β) (maintNeeded : Bool) :
    Triple (fun db : Database β ω => db.objects.dynamic = c) (Database.finishBlock R d b maintNeeded)
      (fun _ db => db.objects.dynamic = c) fun _ _ => True := by
  have hsteps := (blockInvariant_true (R := R) (d := d) (ω := ω) c b).steps
    (fun _ _ op _ => op.admitted_true R) {}
  intro s hs
  have hend : Triple (DynamicIs c s.undo.maxSize) (do
        Database.createBlockSummary b
        Database.clearExpiredTransactions
        Database.clearExpiredProposals R d
        Database.runRule (R.endOfBlock b)
        Database.clearApplied
        Database.notifyChangedObjects)
      (fun _ db => db.objects.dynamic = c) fun _ _ => True :=
    (hsteps.endOfBlock (c := c)).conseq (fun _ h => ⟨trivial, h⟩) (fun _ _ h => h.2.2)
      fun _ _ _ => trivial
  refine (Triple.ite (fun _ => ?_) fun _ => hend :
    Triple (DynamicIs c s.undo.maxSize) _ _ _) s ⟨rfl, hs⟩
  refine Triple.bind (DynamicIs.runRule _) fun _ => Triple.bind (Keeps.gets _) fun o => ?_
  exact Triple.bind (Keeps.update fun _ h => h) fun _ => hend

/-- **A block that is applied** keeps the dynamic fields sound and does not lower the last
irreversible block; if it raises it, a supermajority has confirmed it, and no later one. -/
lemma irreversible_applyBlock {b : SignedBlock β} {skip : SkipFlags} {s s' : Database β ω}
    (hs : s.objects.dynamic.Sound) (h : Database.applyBlock R d b skip s = (.ok (), s')) :
    s'.objects.dynamic.Sound ∧
    s.objects.lastIrreversibleBlockNum ≤ s'.objects.lastIrreversibleBlockNum ∧
    (s.objects.lastIrreversibleBlockNum < s'.objects.lastIrreversibleBlockNum →
      ∃ skip' maintNeeded s₁, Database.checkpointFlags s.checkpoints skip b = .ok skip' ∧
        Database.applyUntilSigned R d b (s.starting skip') = (.ok maintNeeded, s₁) ∧
        IsGreatest {n | s₁.objects.ConfirmedBySupermajority n}
          s'.objects.lastIrreversibleBlockNum) := by
  have hinv := blockInvariant_true (R := R) (d := d) (ω := ω) s.objects.dynamic b
  have hext := ((hinv.applyBlock (fun _ _ op _ => op.admitted_true R) skip s ⟨trivial, rfl⟩).1 _ _ h).2.1
  refine ⟨hext.sound hs, hext.irreversible.1, fun hlt => ?_⟩
  obtain ⟨skip', maintNeeded, s₁, s₂, s₃, hskip, h₁, h₂, h₃, hobjects⟩ := applyBlock_eq_ok h
  refine ⟨skip', maintNeeded, s₁, hskip, h₁, ?_⟩
  -- the last irreversible block changes nowhere else
  have hbefore := (lastIrreversible_applyUntilSigned s.objects.dynamic b (s.starting skip') rfl).1 _ _ h₁
  have hafter := (dynamic_finishBlock s₂.objects.dynamic b maintNeeded s₂ rfl).1 _ _ h₃
  have hlow : s₁.objects.lastIrreversibleBlockNum = s.objects.lastIrreversibleBlockNum :=
    congrArg Dynamic.lastIrreversibleBlockNum hbefore
  have hhigh : s'.objects.lastIrreversibleBlockNum = s₂.objects.lastIrreversibleBlockNum := by
    rw [hobjects]
    exact congrArg Dynamic.lastIrreversibleBlockNum hafter
  obtain ⟨_, _, hgets, h₂⟩ := bind_eq_ok.mp h₂
  cases hgets
  cases hn : Database.confirmedByThreshold s₁.objects with
  | none =>
      rw [hn] at h₂
      cases h₂
  | some n =>
      rw [hn] at h₂
      simp only at h₂
      split_ifs at h₂
      · cases h₂
        rw [hhigh]
        exact isGreatest_confirmedByThreshold hn
      · cases h₂
        omega

/-! ### Runs -/

/-- The dynamic fields are sound in every state that is reached, and in every undo state. -/
lemma sound_run {db₀ db : Database β ω} {l : List (Call β)} (h₀ : db₀.Begins)
    (hrun : Database.Run R d db₀ l db) :
    ∀ o ∈ db.objects :: db.undo.stack, o.dynamic.Sound := by
  have hchain := Throughout.leads_chainInvariant (R := R) (d := d) (ω := ω)
    (Q := (·.dynamic.Sound)) fun _ _ hleads hs => (hleads hs).2
  have hbegin : Throughout (fun _ _ => True) (·.dynamic.Sound) db₀ :=
    ⟨trivial, h₀.enabled, h₀.sound, by simp [h₀.stack]⟩
  have hdb := hchain.run hrun (fun c _ => by cases c <;> simp [Call.Within])
    ⟨h₀.toFresh.holds, hbegin⟩
  exact List.forall_mem_cons.mpr hdb.2.2.2

/-- **The last irreversible block is a supermajority mark.** In every state that is reached it is not
above the head, nor in any undo state. A block that is applied to a sound state leads to a sound
state and does not lower it; if the block raises it, it is the greatest one that a supermajority of
the witnesses who are active then has confirmed. -/
theorem irreversible_supermajority (R : Rules β ω) (d : ℕ) {db₀ db : Database β ω}
    {l : List (Call β)} (h₀ : db₀.Begins) (hrun : Database.Run R d db₀ l db) :
    (∀ o ∈ db.objects :: db.undo.stack, o.dynamic.Sound ∧
      o.lastIrreversibleBlockNum ≤ o.headBlockNumber) ∧
    ∀ (b : SignedBlock β) (skip : SkipFlags) (s s' : Database β ω), s.objects.dynamic.Sound →
      Database.applyBlock R d b skip s = (.ok (), s') →
      s'.objects.dynamic.Sound ∧ s'.objects.lastIrreversibleBlockNum ≤ s'.objects.headBlockNumber ∧
      s.objects.lastIrreversibleBlockNum ≤ s'.objects.lastIrreversibleBlockNum ∧
      (s.objects.lastIrreversibleBlockNum < s'.objects.lastIrreversibleBlockNum →
        ∃ skip' maintNeeded s₁, Database.checkpointFlags s.checkpoints skip b = .ok skip' ∧
          Database.applyUntilSigned R d b (s.starting skip') = (.ok maintNeeded, s₁) ∧
          IsGreatest {n | s₁.objects.ConfirmedBySupermajority n}
            s'.objects.lastIrreversibleBlockNum) := by
  refine ⟨fun o ho => ?_, fun b skip s s' hs h => ?_⟩
  · have hsound := sound_run h₀ hrun o ho
    exact ⟨hsound, hsound.irreversible⟩
  · obtain ⟨hsound, hle, hgreatest⟩ := irreversible_applyBlock hs h
    exact ⟨hsound, hsound.irreversible, hle, hgreatest⟩

/-- With one witness the third block is irreversible at once. -/
theorem irreversible_supermajority_twoBlocks :
    twoBlocks.objects.lastIrreversibleBlockNum = 2 ∧
    ∃ s', Database.applyBlock calmRules 1 (emptyBlock ⟨2, 2⟩ 3) {} twoBlocks = (.ok (), s') ∧
      s'.objects.lastIrreversibleBlockNum = 3 ∧
      ∃ s₁ : Database Unit Unit, IsGreatest {n | s₁.objects.ConfirmedBySupermajority n} 3 := by
  have hirr : twoBlocks.objects.lastIrreversibleBlockNum = 2 := by decide +kernel
  have hok : (Database.applyBlock calmRules 1 (emptyBlock ⟨2, 2⟩ 3) {} twoBlocks).1 = .ok () := by
    decide +kernel
  have hirr' : (Database.applyBlock calmRules 1 (emptyBlock ⟨2, 2⟩ 3) {}
      twoBlocks).2.objects.lastIrreversibleBlockNum = 3 := by decide +kernel
  have hsound : twoBlocks.objects.dynamic.Sound :=
    ((irreversible_supermajority calmRules 1 (newChain_begins _) twoBlocks_run).1 _
      List.mem_cons_self).1
  generalize hx : Database.applyBlock calmRules 1 (emptyBlock ⟨2, 2⟩ 3) {} twoBlocks = x at hok hirr'
  obtain ⟨_, s'⟩ := x
  cases hok
  obtain ⟨-, -, -, hgreatest⟩ :=
    (irreversible_supermajority calmRules 1 (newChain_begins _) twoBlocks_run).2 _ _ _ _ hsound hx
  obtain ⟨_, _, s₁, -, -, hs₁⟩ := hgreatest (by rw [hirr]; exact hirr' ▸ by decide)
  exact ⟨hirr, s', rfl, hirr', s₁, hirr' ▸ hs₁⟩

end ZosCore
