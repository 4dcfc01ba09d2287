import ZosCore.Chain.Conditions
import ZosCore.Chain.Level

/-!
The head of the fork database and the head of the chain.

`_push_block` makes a block that is higher than the head of the fork database its head before the
block is applied, and takes it out of the index if it cannot be applied, but the head stays. In a
fork switch `pop_block` moves the head of the fork database back along the new branch while the chain
goes back along the old one.

* `Agreeing`: the head of the fork database is in its index and is the head of the chain.
* `KeepsHeads`: `_push_block` puts the block aside, or appends it.
* **`heads_agree`**: in a run where it always does so, the heads agree.
-/

namespace ZosCore

open Exec

variable {β ω : Type} {R : Rules β ω} {d : ℕ}

/-! ### The head of the fork database -/

namespace ForkDatabase

variable {f f' : ForkDatabase β} {h : ForkItem β} {b : SignedBlock β}

/-- The head is the item `h` of the index. -/
def HeadIs (f : ForkDatabase β) (h : ForkItem β) : Prop := f.head = some h ∧ h ∈ f.index

lemma HeadIs.dropBelow (hf : f.HeadIs h) {n : ℕ} (hn : n ≤ h.num) : (f.dropBelow n).HeadIs h :=
  ⟨hf.1, List.mem_filter.mpr ⟨hf.2, decide_eq_true hn⟩⟩

lemma HeadIs.setMaxSize (hf : f.HeadIs h) (n : ℕ) : (f.setMaxSize n).HeadIs h := by
  rw [ForkDatabase.setMaxSize]
  split
  · exact hf
  · rename_i h' hh'
    cases hf.1.symm.trans hh'
    exact HeadIs.dropBelow (f := { f with maxSize := n }) hf (Nat.sub_le _ _)

/-- A block that is not higher than the head leaves it. -/
lemma HeadIs.pushBlock_le (hf : f.HeadIs h) (hpush : f.pushBlock b = .ok f')
    (hle : b.blockNum ≤ h.num) : f'.HeadIs h := by
  obtain ⟨prev, -, ⟨hnone, -⟩ | ⟨h', hh', -, hlt, -⟩ | ⟨_, -, -, -, rfl⟩⟩ := pushBlock_eq_ok hpush
  · rw [hf.1] at hnone
    cases hnone
  · cases hf.1.symm.trans hh'
    omega
  · refine ⟨hf.1, ?_⟩
    rw [insert]
    split_ifs
    · exact hf.2
    · exact List.mem_cons_of_mem _ hf.2

/-- A block that is higher than the head, and is not known, becomes the head. -/
lemma HeadIs.pushBlock_lt (hf : f.HeadIs h) (hpush : f.pushBlock b = .ok f')
    (hlt : h.num < b.blockNum) (hnew : f.fetchBlock b.id = none) :
    ∃ it, it.data = b ∧ f'.HeadIs it := by
  obtain ⟨prev, -, ⟨hnone, -⟩ | ⟨_, -, -, -, rfl⟩ | ⟨h', hh', -, hle, -⟩⟩ := pushBlock_eq_ok hpush
  · rw [hf.1] at hnone
    cases hnone
  · refine ⟨⟨f.nextPtr, prev, b⟩, rfl, HeadIs.dropBelow ⟨rfl, ?_⟩ (Nat.sub_le _ _)⟩
    have hid : f.fetchBlock (ForkItem.mk f.nextPtr prev b).id = none := hnew
    simp [ForkDatabase.setHead, insert, hid]
  · cases hf.1.symm.trans hh'
    omega

end ForkDatabase

/-! ### Agreement -/

/-- The head of the fork database is in its index and is the head of the chain, which `k` open
sessions have not moved. -/
structure Agreeing (k : ℕ) (db : Database β ω) : Prop where
  enabled : db.undo.disabled = false
  sound : db.objects.dynamic.Sound
  heads : ∃ h, db.forkDb.HeadIs h ∧ h.id = db.objects.headBlockId
  states : ∀ o ∈ db.undo.stack.take k, o.dynamic = db.objects.dynamic

/-- The head of the fork database is in its index and is the head of the chain. -/
def Together (c : Dynamic β) (db : Database β ω) : Prop :=
  c.Sound ∧ ∃ h, db.forkDb.HeadIs h ∧ h.id = c.headBlockId

lemma agreeing_iff {k : ℕ} {db : Database β ω} :
    Agreeing k db ↔ Level (fun _ => True) Together k db :=
  ⟨fun h => ⟨h.enabled, h.states, fun _ => ⟨h.sound, h.heads⟩⟩, fun h =>
    ⟨h.enabled, (h.holds fun _ _ => trivial).1, (h.holds fun _ _ => trivial).2, h.states⟩⟩

/-- Pending transactions leave the heads. -/
lemma Agreeing.pendingInvariant :
    PendingInvariant R d (fun _ => True) (fun k => (Agreeing k : Database β ω → Prop))
      fun _ => True := by
  have hlevel : (fun k => (Agreeing k : Database β ω → Prop)) =
      fun k => Level (fun _ => True) Together k :=
    funext₂ fun _ _ => propext agreeing_iff
  rw [hlevel]
  exact Level.pendingInvariant (fun _ => ⟨fun _ _ _ _ _ _ h => h⟩) fun _ _ _ _ _ _ h => h

/-! ### Appending a block -/

/-- What holds when the body of a session has returned. -/
lemma triple_inSession_false {α : Type} {I K : Database β ω → Prop}
    {Q : α → Database β ω → Prop} {body : Act β ω α}
    (hstart : Triple I (Database.startUndoSession false) (fun _ => K) fun _ _ => True)
    (hbody : Triple K body Q fun _ _ => True) :
    Triple I (Database.inSession false body) Q fun _ _ => True := by
  refine Triple.gets_bind fun s hs => ?_
  refine Triple.bind (hstart.conseq (fun _ h => h ▸ hs) (fun _ _ h => h) fun _ _ h => h) fun _ => ?_
  refine Triple.bind (Triple.catchIf hbody (fun e _ => ?_)
    fun _ _ _ _ => trivial) fun a => ?_
  · refine Triple.bind Triple.top fun _ => Triple.bind Triple.top fun _ => ?_
    exact Triple.raise fun _ _ => trivial
  · refine Triple.bind (Q := fun _ => Q a) (Triple.ite (fun hc => ?_) fun _ => ?_) fun _ => ?_
    · simp at hc
    · exact Triple.pure fun _ h => h
    · exact Triple.pure fun _ h => h

/-- The fork database has the head `it`, and the dynamic fields are `c`. -/
def HeadsAt (it : ForkItem β) (c : Dynamic β) (db : Database β ω) : Prop :=
  db.undo.disabled = false ∧ db.forkDb.HeadIs it ∧ db.objects.dynamic = c

/-- `apply_block` leaves the head of the fork database. -/
lemma headIs_applyBlock (it : ForkItem β) (b : SignedBlock β) (skip : SkipFlags) :
    Upholds (fun db : Database β ω => db.forkDb.HeadIs it) (fun _ => True)
      (Database.applyBlock R d b skip) := by
  have hapart : Apart fun db : Database β ω => db.forkDb.HeadIs it := ⟨fun _ _ _ _ _ _ h => h⟩
  exact hapart.applyBlock (fun _ _ _ _ h => h) (fun _ n h => h.setMaxSize n) b skip

/-- `apply_block` leaves undo enabled, and the block extends the chain. -/
lemma enabled_applyBlock (c : Dynamic β) (b : SignedBlock β) (skip : SkipFlags) :
    Triple (fun db : Database β ω => db.undo.disabled = false ∧ db.objects.dynamic = c)
      (Database.applyBlock R d b skip)
      (fun _ db => db.undo.disabled = false ∧ c.Extends b db.objects.dynamic)
      fun _ _ => True := by
  let I : ℕ → Database β ω → Prop := fun _ => Throughout (fun _ _ => True) fun _ => True
  have hinv : OperationInvariant d (fun _ => True) I fun _ => True :=
    Throughout.operationInvariant d (fun _ _ _ _ => trivial) fun _ _ _ _ => trivial
  have hblock : BlockInvariant R d d (fun _ => True) c b I fun _ => True :=
    { hinv with
      operates := hinv.operates_all (k := 0) (by omega)
      objects := fun h _ _ => h.record trivial
      other := fun _ _ _ h => h
      ended := fun _ _ _ => trivial
      resize := fun _ h => h }
  refine (hblock.applyBlock (fun _ _ op _ => op.admitted_true R) skip).conseq
    (fun db h => ⟨⟨trivial, h.1, trivial, fun _ _ => trivial⟩, h.2⟩)
    (fun _ db h => ⟨h.1.2.1, h.2.1⟩) fun _ _ _ => trivial

section Append

variable {T : SkipFlags → Prop} {c : Dynamic β} {it : ForkItem β}

/-- The flags are in `T`, and no pending session is open. -/
def Cleared (T : SkipFlags → Prop) : Database β ω → Prop :=
  Outside (fun _ => True) (fun _ => True) T false

lemma Cleared.of_eq {db : Database β ω} (hT : T db.skipFlags) (hp : db.pendingTxSession = false) :
    Cleared T db :=
  ⟨⟨fun _ _ => trivial, fun _ _ => trivial, fun _ _ => trivial, fun _ _ => trivial⟩, hT, hp⟩

/-- A block that is appended is the head of the chain; the head of the fork database stays. -/
lemma headsAt_applyAndStore (b : SignedBlock β) (id : BlockId) (skip : SkipFlags) :
    Triple (fun db : Database β ω => Cleared T db ∧ HeadsAt it c db)
      (Database.applyAndStore R d b id skip)
      (fun _ db => Cleared T db ∧ ∃ c', c.Extends b c' ∧ HeadsAt it c' db) fun _ _ => True := by
  have hstart : Triple (fun db : Database β ω => Cleared T db ∧ HeadsAt it c db)
      (Database.startUndoSession false) (fun _ db => Cleared T db ∧ HeadsAt it c db)
      fun _ _ => True := by
    intro db hdb
    rw [startUndoSession_eq (by rw [hdb.2.1]; rfl)]
    refine ⟨fun _ _ hx => ?_, fun _ _ _ => trivial⟩
    cases hx
    exact ⟨hdb.1, rfl, hdb.2.2⟩
  have happly : Triple (fun db : Database β ω => Cleared T db ∧ HeadsAt it c db)
      (Database.applyBlock R d b skip)
      (fun _ db => Cleared T db ∧ ∃ c', c.Extends b c' ∧ HeadsAt it c' db) fun _ _ => True := by
    refine (Triple.and (Triple.and (outside_applyBlock b skip) (headIs_applyBlock it b skip))
      (enabled_applyBlock c b skip)).conseq (fun db h => ⟨⟨h.1, h.2.2.1⟩, h.2.1, h.2.2.2⟩)
      (fun _ db h => ⟨h.1.1, _, h.2.2, h.2.1, h.1.2, rfl⟩) fun _ _ _ => trivial
  refine triple_inSession_false hstart (Triple.bind happly fun _ => ?_)
  refine Triple.bind (Q := fun _ db => Cleared T db ∧ ∃ c', c.Extends b c' ∧ HeadsAt it c' db)
    ?_ fun _ => ?_
  · refine Triple.gets_bind fun s hs => triple_fcLift_bind (fun _ _ _ _ => trivial) fun blockDb _ => ?_
    refine Triple.update fun db hdb => ?_
    subst hdb
    exact ⟨Cleared.of_eq hs.1.2.1 hs.1.2.2, hs.2⟩
  · refine Triple.bind (Q := fun _ db => Cleared T db ∧ ∃ c', c.Extends b c' ∧ HeadsAt it c' db)
      (Triple.update fun _ h => h) fun _ => triple_onUndo (fun db o u h hu => ?_) fun _ _ _ _ => trivial
    obtain ⟨u', hcommit, hou⟩ := except_map_eq_ok.mp hu
    obtain ⟨rfl, rfl⟩ := Prod.mk.inj hou
    unfold UndoDatabase.commit at hcommit
    split_ifs at hcommit
    cases hcommit
    exact h

lemma headsAt_extendChain (b : SignedBlock β) (skip : SkipFlags) :
    Triple (fun db : Database β ω => Cleared T db ∧ HeadsAt it c db)
      (Database.extendChain R d b skip)
      (fun _ db => Cleared T db ∧ ∃ c', c.Extends b c' ∧ HeadsAt it c' db) fun _ _ => True := by
  refine Triple.catchIf (headsAt_applyAndStore b _ skip) (fun e _ => ?_)
    fun _ _ _ _ => trivial
  exact Triple.bind Triple.top fun _ => Triple.raise fun _ _ => trivial

end Append

/-! ### Pushing a block -/

/-- `_push_block` rejects the block or puts it aside, as it is not higher than the head; or the block
follows the head, is not known yet, and can be appended. -/
def Database.KeepsHeads (R : Rules β ω) (d : ℕ) (b : SignedBlock β) (db : Database β ω) : Prop :=
  ∀ f, db.forkDb.pushBlock b = .ok f →
    b.blockNum ≤ db.objects.headBlockNumber ∨
    b.previous = db.objects.headBlockId ∧ db.forkDb.fetchBlock b.id = none ∧
      (Database.extendChain R d b db.skipFlags { db with forkDb := f }).1 = .ok ()

/-- **`_push_block` keeps the heads together** where it puts the block aside or appends it. -/
lemma Agreeing.pushBlockInner (b : SignedBlock β) :
    Triple (fun db : Database β ω => Cleared (·.forkDb = false) db ∧ Agreeing 0 db ∧
        db.KeepsHeads R d b) (Database.pushBlockInner R d b)
      (fun _ db => Cleared (·.forkDb = false) db ∧ Agreeing 0 db)
      (OnFailure (fun db => Cleared (·.forkDb = false) db ∧ Agreeing 0 db) fun _ => True) := by
  refine Triple.gets_bind fun s ⟨hclear, hs, hkeeps⟩ => ?_
  have hskip : s.skipFlags.forkDb = false := hclear.2.1
  rw [hskip]
  refine Triple.gets_bind fun s' hs' => ?_
  subst hs'
  refine triple_fcLift_bind (fun _ _ hdb _ => hdb ▸ ⟨hclear, hs⟩) fun f hf => ?_
  obtain ⟨h, hhead, hid⟩ := hs.heads
  have hnum : h.num = s'.objects.headBlockNumber :=
    (congrArg BlockId.num hid).trans hs.sound.headBlockId
  refine Triple.bind (Q := fun _ db => db = { s' with forkDb := f })
    (Triple.update fun db hdb => by rw [hdb]) fun _ => ?_
  rcases hkeeps f hf with hle | ⟨hprev, hnew, hok⟩
  · -- the block is put aside: the head of the fork database stays, and there is nothing to switch to
    have hhead' := hhead.pushBlock_le hf (hnum ▸ hle)
    have hother : h.data.previous ≠ s'.objects.headBlockId := by
      intro heq
      have hlt : h.data.previous.num + 1 = s'.objects.headBlockId.num := congrArg BlockId.num hid
      rw [heq] at hlt
      omega
    rw [hhead'.1]
    refine Triple.gets_bind fun s'' hs'' => ?_
    subst hs''
    have hlow : ¬ s'.objects.headBlockNumber < h.data.blockNum := by
      have : h.data.blockNum = h.num := rfl
      omega
    refine Triple.ite (fun _ => Triple.ite (fun hc => absurd hc hlow) fun _ => ?_)
      fun hc => absurd hother hc
    refine Triple.pure fun db hdb => ?_
    subst hdb
    exact ⟨Cleared.of_eq hskip hclear.2.2, hs.enabled, hs.sound, ⟨h, hhead', hid⟩, hs.states⟩
  · -- the block is appended: it is the head of the fork database already
    have hlt : h.num < b.blockNum := by
      have : b.blockNum = s'.objects.headBlockId.num + 1 := by rw [← hprev]; rfl
      have : s'.objects.headBlockId.num = s'.objects.headBlockNumber := hs.sound.headBlockId
      omega
    obtain ⟨it, rfl, hhead'⟩ := hhead.pushBlock_lt hf hlt hnew
    rw [hhead'.1]
    refine Triple.gets_bind fun s'' hs'' => ?_
    subst hs''
    refine Triple.ite (fun hc => absurd hprev hc) fun _ => ?_
    have hbegin : Cleared (·.forkDb = false) { s' with forkDb := f } ∧
        HeadsAt it s'.objects.dynamic { s' with forkDb := f } :=
      ⟨Cleared.of_eq hskip hclear.2.2, hs.enabled, hhead', rfl⟩
    have hend := (headsAt_extendChain it.data s'.skipFlags (R := R) (d := d) _ hbegin).1
    refine Triple.bind (Q := fun _ db => Cleared (·.forkDb = false) db ∧ Agreeing 0 db) ?_ fun _ =>
      Triple.pure fun _ h => h
    rintro db rfl
    refine ⟨fun a s'' hx => ?_, fun e s'' hx => ?_⟩
    · obtain ⟨hclear', c', hext, henabled, hit, hc'⟩ := hend a s'' hx
      subst hc'
      refine ⟨hclear', henabled, hext.sound hs.sound, ⟨it, hit, ?_⟩, by simp⟩
      exact hext.headBlockId.symm
    · rw [hx] at hok
      cases hok

/-- So it does whatever transactions are pending. -/
lemma Agreeing.pushesUnder :
    PushesUnder R d (fun _ => True) (fun _ => True) (·.forkDb = false)
      (fun k => (Agreeing k : Database β ω → Prop)) (fun _ => True)
      fun b db => db.KeepsHeads R d b :=
  { Agreeing.pendingInvariant with
    assembled := fun _ _ _ _ => trivial
    push := fun {b} _ => (Agreeing.pushBlockInner b).conseq (fun _ h => ⟨h.1.1, h.1.2, h.2⟩)
      (fun _ _ h => h) fun _ _ h => h }

/-- **The head of the fork database is the head of the chain** in every run of `push_block` in which
every block is rejected by the fork database or put aside, or is appended: the head is in the index,
and has the id of the head block. -/
theorem heads_agree (R : Rules β ω) (d : ℕ) {db₀ db : Database β ω} {l : List (Call β)}
    (h₀ : Agreeing (if db₀.pendingTxSession then 1 else 0) db₀) (hrun : Database.Run R d db₀ l db)
    (hpush : ∀ c ∈ l, ∃ b skip, c = .pushBlock b skip ∧ skip.forkDb = false)
    (hkeeps : ∀ l₁ b skip l₂ db', l = l₁ ++ .pushBlock b skip :: l₂ → Database.Run R d db₀ l₁ db' →
      (db'.entering skip).KeepsHeads R d b) :
    ∃ h, db.forkDb.head = some h ∧ h ∈ db.forkDb.index ∧ h.id = db.objects.headBlockId := by
  have hwithin : ∀ c ∈ l, c.Within (fun _ => True) (fun _ => True) (·.forkDb = false) := by
    intro c hc
    obtain ⟨b, skip, rfl, hskip⟩ := hpush c hc
    exact ⟨trivial, hskip⟩
  have hmeets : ∀ l₁ c l₂ db', l = l₁ ++ c :: l₂ → Database.Run R d db₀ l₁ db' →
      c.Meets R d (fun b db => db.KeepsHeads R d b) db' := by
    intro l₁ c l₂ db' hl hrun'
    obtain ⟨b, skip, rfl, -⟩ := hpush c (hl ▸ List.mem_append_right l₁ List.mem_cons_self)
    exact hkeeps l₁ b skip l₂ db' hl hrun'
  have hidle : Idle (fun _ => True) (fun _ => True) (fun k => Agreeing k) db :=
    Agreeing.pushesUnder.run hrun hwithin hmeets
      ⟨⟨fun _ _ => trivial, fun _ _ => trivial, fun _ _ => trivial, fun _ _ => trivial⟩, h₀⟩
  obtain ⟨h, ⟨hhead, hmem⟩, hid⟩ := hidle.2.heads
  exact ⟨h, hhead, hmem, hid⟩

lemma oneBlock_lastConfirmed :
    oneBlock.objects.lastConfirmed = Function.update (fun _ => 0) 0 1 := rfl

lemma oneBlock_head : oneBlock.forkDb.head = some ⟨0, none, emptyBlock .zero 1⟩ := rfl

lemma oneBlock_index : oneBlock.forkDb.index = [⟨0, none, emptyBlock .zero 1⟩] := rfl

lemma oneBlock_headIs : oneBlock.forkDb.HeadIs ⟨0, none, emptyBlock .zero 1⟩ :=
  ⟨oneBlock_head, oneBlock_index ▸ List.mem_singleton_self _⟩

/-- After the first block the heads agree. -/
lemma oneBlock_agreeing : Agreeing 0 oneBlock := by
  have henabled : oneBlock.undo.disabled = false := by decide +kernel
  have hid : BlockId.mk 1 1 = oneBlock.objects.headBlockId := by decide +kernel
  have hnum : oneBlock.objects.headBlockNumber = 1 := by decide +kernel
  have hsound : ∀ o : Objects Unit Unit, o.headBlockId.num = 1 → o.headBlockNumber = 1 →
      o.lastIrreversibleBlockNum = 0 → o.lastConfirmed = Function.update (fun _ => 0) 0 1 →
      o.dynamic.Sound := by
    intro o hid hnum hirr hconfirmed
    refine ⟨hid.trans hnum.symm, hirr.le.trans (Nat.zero_le _), fun w => ?_⟩
    change o.lastConfirmed w ≤ o.headBlockNumber
    rw [hconfirmed, hnum, Function.update_apply]
    split_ifs <;> omega
  refine ⟨henabled, hsound _ ?_ hnum ?_ oneBlock_lastConfirmed, ⟨_, oneBlock_headIs, hid⟩,
    List.forall_mem_nil _⟩
  · decide +kernel
  · decide +kernel

/-- That a block is appended can be computed. -/
lemma Database.keepsHeads_of_append {b : SignedBlock β} {db : Database β ω}
    (hprev : b.previous = db.objects.headBlockId)
    (hnew : (db.forkDb.fetchBlock b.id).isNone = true)
    (hok : (match db.forkDb.pushBlock b with
      | .ok f => (Database.extendChain R d b db.skipFlags { db with forkDb := f }).1.isOk
      | .error _ => true) = true) : db.KeepsHeads R d b := by
  intro f hf
  rw [hf] at hok
  refine .inr ⟨hprev, Option.isNone_iff_eq_none.mp hnew, ?_⟩
  cases hx : (Database.extendChain R d b db.skipFlags { db with forkDb := f }).1 with
  | ok a => rfl
  | error e =>
      simp only [hx] at hok
      cases hok

/-- A second block on the first one is appended. -/
theorem heads_agree_oneBlock :
    ∃ db, Database.Run calmRules 1 oneBlock [.pushBlock (emptyBlock ⟨1, 1⟩ 2) {}] db ∧
      ∃ h, db.forkDb.head = some h ∧ h ∈ db.forkDb.index ∧ h.id = db.objects.headBlockId := by
  have hrun := (Database.Run.nil oneBlock).returns (R := calmRules) (d := 1)
    (c := .pushBlock (emptyBlock ⟨1, 1⟩ 2) {}) (by decide +kernel)
  have hkeeps : (oneBlock.entering {}).KeepsHeads calmRules 1 (emptyBlock ⟨1, 1⟩ 2) :=
    Database.keepsHeads_of_append (by decide +kernel) (by decide +kernel) (by decide +kernel)
  have hpending : oneBlock.pendingTxSession = false := by decide +kernel
  have hagree : Agreeing (if oneBlock.pendingTxSession then 1 else 0) oneBlock := by
    rw [hpending]
    exact oneBlock_agreeing
  refine ⟨_, hrun, heads_agree calmRules 1 hagree hrun ?_ ?_⟩
  · intro c hc
    rw [List.mem_singleton.mp hc]
    exact ⟨_, _, rfl, rfl⟩
  · intro l₁ b skip l₂ db' heq hrun'
    -- there is one call only, and it is the first
    have hlength := congrArg List.length heq
    simp only [List.length_append, List.length_cons, List.length_nil] at hlength
    obtain rfl := List.length_eq_zero_iff.mp (show l₁.length = 0 by omega)
    simp only [List.nil_append, List.cons.injEq, Call.pushBlock.injEq] at heq
    obtain ⟨⟨rfl, rfl⟩, -⟩ := heq
    generalize hl : ([] : List (Call Unit)) = l at hrun'
    cases hrun' with
    | nil => exact hkeeps
    | snoc _ _ => simp at hl

/-- A block that cannot be applied, as it is not later than the one before it. -/
def staleBlock : SignedBlock Unit := { emptyBlock ⟨1, 1⟩ 2 with timestamp := 1700000003 }

/-- A block on the first one cannot be applied: it is the head of the fork database, not in its index
any more, and the first block is still the head of the chain. -/
theorem not_heads_agree_staleBlock :
    Agreeing 0 oneBlock ∧ ∃ db, Database.Run calmRules 1 oneBlock [.pushBlock staleBlock {}] db ∧
      db.forkDb.head.map (·.id) = some ⟨2, 2⟩ ∧ db.forkDb.index.map (·.id) = [⟨1, 1⟩] ∧
      db.objects.headBlockId = ⟨1, 1⟩ := by
  have hcalls : (Database.call calmRules 1 (.pushBlock staleBlock {}) oneBlock).1 =
      .error (.fc .timestampNotLater) := by decide +kernel
  have hrun := (Database.Run.nil oneBlock).snoc (R := calmRules) (d := 1)
    (c := .pushBlock staleBlock {}) ⟨rfl, by rw [hcalls]; nofun⟩
  exact ⟨oneBlock_agreeing, _, hrun, by decide +kernel, by decide +kernel, by decide +kernel⟩

end ZosCore
