import ZosCore.Chain.Holding
import ZosCore.Chain.Irreversible
import ZosCore.Chain.Level
import ZosCore.Chain.Rising

/-!
`database::fetch_block_by_number` and `get_block_id_for_num`: the block of a number.

The first one takes the only block of that number in the fork database, whatever branch it is on, and
asks the block database otherwise; the second one always asks the block database. A fork switch
stores the blocks of the new branch under their numbers, and leaves those of the old branch in the
fork database beside them. When it fails, the recovery stores the blocks of the old branch under the
id of the block that was pushed, so that the entries of the new branch stay.

* `Kept`: what the block database stores and what the fork database holds, beside the chain.
* `SwitchPutsBack`: a switch that throws does so at its first block, and puts back the main chain.
* `KeepsMainChain`: what `_push_block` has to find for the main chain to be kept.
* **`answersMainChain_of_run`**: in a run where it always does, both functions answer with the blocks
  of the main chain.
-/

namespace ZosCore

open Exec

variable {β ω : Type} {R : Rules β ω} {d : ℕ}

/-! ### The main chain in the databases -/

/-- The block database stores the blocks `s` and the fork database holds the blocks `l`, with the
items `p` pinned; the chain is among both. -/
structure Kept (R : Rules β ω) (s l : List (SignedBlock β)) (p : List (ForkItem β)) (c : Dynamic β)
    (db : Database β ω) : Prop where
  chain : ∀ m ∈ c.chain, m ∈ s ∧ m ∈ l
  stores : db.blockDb.Stores R.packBlock s
  holds : db.forkDb.Holding l
  pinned : db.forkDb.pinned = p

/-- The databases keep the chain. -/
def KeptChain (R : Rules β ω) (p : List (ForkItem β)) (c : Dynamic β) (db : Database β ω) : Prop :=
  Kept R c.chain c.chain p c db

/-- `fetch_block_by_number` and `get_block_id_for_num` answer with the blocks of the main chain. -/
def Database.AnswersMainChain (R : Rules β ω) (db : Database β ω) : Prop :=
  ∀ n, 1 ≤ n → n ≤ db.objects.headBlockNumber → ∃ b ∈ db.objects.chain, b.blockNum = n ∧
    fetchBlockByNumber R db n = some b ∧ getBlockIdForNum db n = some b.id

namespace Kept

variable {s s' l l' : List (SignedBlock β)} {p p' : List (ForkItem β)} {c c' : Dynamic β}
  {db : Database β ω} {b : SignedBlock β}

/-- Fewer blocks matter. -/
lemma subset (h : Kept R s l p c db) (hs : ∀ m ∈ s', m ∈ s) (hl : ∀ m ∈ l', m ∈ l)
    (hchain : ∀ m ∈ c'.chain, m ∈ s' ∧ m ∈ l') : Kept R s' l' p c' db :=
  ⟨hchain, h.stores.subset hs, h.holds.subset hl, h.pinned⟩

lemma keptChain (h : Kept R s l p c db) : KeptChain R p c db :=
  h.subset (fun m hm => (h.chain m hm).1) (fun m hm => (h.chain m hm).2) fun _ hm => ⟨hm, hm⟩

/-- The fork database may change as long as it holds the blocks. -/
lemma withForkDb (h : Kept R s l p c db) {f : ForkDatabase β} (hf : f.Holding l)
    (hp : f.pinned = p') : Kept R s l p' c { db with forkDb := f } :=
  ⟨h.chain, h.stores, hf, hp⟩

lemma lasting (s l : Dynamic β → List (SignedBlock β)) (p : List (ForkItem β)) :
    Lasting fun c (db : Database β ω) => Kept R (s c) (l c) p c db where
  apart _ := ⟨fun _ _ _ _ _ _ h => ⟨h.chain, h.stores, h.holds, h.pinned⟩⟩
  other _ _ _ _ _ _ h := ⟨h.chain, h.stores, h.holds, h.pinned⟩
  resize n h := h.withForkDb (h.holds.setMaxSize n)
    ((ForkDatabase.setMaxSize_pinned _ n).trans h.pinned)

lemma receding (s l : List (SignedBlock β)) (p : List (ForkItem β)) :
    Receding (Kept R s l p : Dynamic β → Database β ω → Prop) where
  toLasting := lasting (fun _ => s) (fun _ => l) p
  popBlock {c db f} h hf := by
    have hholds := h.holds.popBlock hf
    obtain ⟨_, _, -, -, rfl⟩ := ForkDatabase.popBlock_eq_ok.mp hf
    exact h.withForkDb hholds h.pinned
  back {c c' b db} hext h := by
    refine ⟨fun m hm => h.chain m ?_, h.stores, h.holds, h.pinned⟩
    rw [hext.chain]
    exact List.mem_cons_of_mem b hm

/-- A block that is held is appended and stored under its id. -/
lemma append (h : Kept R s l p c db) (hnum : c.Numbered) (hs : c.Sound) (hext : c.Extends b c')
    (hb : b ∈ l) {blockDb : BlockDatabase β} (hst : db.blockDb.store R.packBlock b.id b = .ok blockDb) :
    Kept R c'.chain l p c' { db with blockDb } := by
  have hnum' : b.blockNum = c.headBlockNumber + 1 := hext.blockNum_eq hs
  have hne : ∀ m ∈ c.chain, m.blockNum ≠ b.blockNum := fun m hm => by
    have := hnum.le_head m hm
    omega
  refine ⟨fun m hm => ⟨hm, ?_⟩, ?_, h.holds, h.pinned⟩
  · rw [hext.chain] at hm
    rcases List.mem_cons.mp hm with rfl | hm
    · exact hb
    · exact (h.chain m hm).2
  · rw [hext.chain]
    exact (h.stores.subset fun m hm => (h.chain m hm).1).store hne hst

/-- **What is kept is answered.** -/
lemma answersMainChain (h : KeptChain R p db.objects.dynamic db) (hnum : db.objects.dynamic.Numbered)
    (hlength : db.objects.chain.length = db.objects.headBlockNumber) : db.AnswersMainChain R := by
  intro n hpos hn
  obtain ⟨b, hb, rfl⟩ := hnum.exists_block hlength hpos hn
  refine ⟨b, hb, rfl, ?_, h.stores.fetchBlockId hb⟩
  rw [Database.fetchBlockByNumber]
  split
  · rename_i it hit
    have hmem : it ∈ db.forkDb.index ∧ it.num = b.blockNum := by
      have hit' : it ∈ db.forkDb.fetchBlockByNumber b.blockNum := by
        rw [hit]
        exact List.mem_singleton_self it
      simpa [ForkDatabase.fetchBlockByNumber] using hit'
    obtain ⟨jt, hjt, hdata⟩ := h.holds.covers b hb it hmem.1 hmem.2.le
    have hjt' : jt ∈ db.forkDb.fetchBlockByNumber b.blockNum := by
      refine List.mem_filter.mpr ⟨hjt, decide_eq_true ?_⟩
      rw [← hdata]
      rfl
    rw [hit] at hjt'
    rw [← List.mem_singleton.mp hjt', hdata]
  · exact h.stores.fetchByNumber hb

/-- A block of the chain is put back and stored under the id of a higher one. -/
lemma putBack (h : Kept R s l p c db) (hext : c.Extends b c') (hs : b ∈ s) (hl : b ∈ l)
    {id : BlockId} (hid : id ≠ .zero) (habove : ∀ m ∈ s, m.blockNum < id.num)
    {blockDb : BlockDatabase β} (hst : db.blockDb.store R.packBlock id b = .ok blockDb) :
    Kept R s l p c' { db with blockDb } := by
  refine ⟨fun m hm => ?_, h.stores.store_other hid (fun m hm => (habove m hm).ne) hst, h.holds,
    h.pinned⟩
  rw [hext.chain] at hm
  rcases List.mem_cons.mp hm with rfl | hm
  · exact ⟨hs, hl⟩
  · exact h.chain m hm

end Kept

/-! ### Fork switches -/

/-- What a switch to the items `new`, oldest first, does in the state `s`. If the first block is
applied, the others do not throw; if it is not, what is put back are blocks of the main chain `main`,
the new blocks are not, and the block that was pushed is above it. -/
def Database.PutsBack (R : Rules β ω) (d : ℕ) (b : SignedBlock β) (main : List (SignedBlock β))
    (old : List (ForkItem β)) (forkPoint : BlockId) (skip : SkipFlags) (s : Database β ω) :
    List (ForkItem β) → Prop
  | [] => True
  | it :: rest =>
      match applyAndStore R d it.data it.id skip s with
      | (.ok _, s') => ∀ e, (switchLoop R d b old forkPoint skip rest s').1 ≠ .error (.fc e)
      | (.error (.fc _), _) => (∀ m ∈ main, m.blockNum < b.blockNum) ∧
          (∀ jt ∈ old, jt.data ∈ main) ∧ ∀ jt ∈ it :: rest, ∀ m ∈ main, m.id ≠ jt.id
      | (.error .crash, _) => True

/-- A switch to the branch of `newHead` that throws when the old branch has been popped does so at its
first block, and puts back the main chain. -/
def Database.SwitchPutsBack (R : Rules β ω) (d : ℕ) (b : SignedBlock β) (newHead : ForkItem β)
    (skip : SkipFlags) (db : Database β ω) : Prop :=
  ∀ new old last s,
    db.forkDb.fetchBranchFrom newHead.id db.objects.headBlockId = .ok (new, old) →
    old.getLast? = some last →
    popBlocksUntil R last.data.previous
      { db with forkDb := { db.forkDb with pinned := new ++ old } } = (.ok (), s) →
    PutsBack R d b db.objects.chain old last.data.previous skip s new.reverse

section Loop

variable {b : SignedBlock β} {it : ForkItem β} {old rest : List (ForkItem β)} {forkPoint : BlockId}
  {skip : SkipFlags} {db db' : Database β ω}

lemma switchLoop_ok {u : Unit}
    (h : Database.applyAndStore R d it.data it.id skip db = (.ok u, db')) :
    Database.switchLoop R d b old forkPoint skip (it :: rest) db =
      Database.switchLoop R d b old forkPoint skip rest db' := bind_ok (catchIf_ok h)

lemma switchLoop_crash
    (h : Database.applyAndStore R d it.data it.id skip db = (.error .crash, db')) :
    Database.switchLoop R d b old forkPoint skip (it :: rest) db = (.error .crash, db') :=
  bind_error (catchIf_missed h rfl)

/-- A block that cannot be applied: the main chain is put back, and the exception thrown again. -/
lemma switchLoop_error {e : ChainError}
    (h : Database.applyAndStore R d it.data it.id skip db = (.error (.fc e), db')) :
    Database.switchLoop R d b old forkPoint skip (it :: rest) db =
      (Database.recover R d b (it :: rest) old forkPoint skip >>= fun _ => Exec.raise (.fc e)) db' := by
  have hcaught : Database.catchFc (Database.applyAndStore R d it.data it.id skip)
      (fun e => Database.recover R d b (it :: rest) old forkPoint skip >>= fun _ => Exec.raise e) db =
        (Database.recover R d b (it :: rest) old forkPoint skip >>= fun _ => Exec.raise (.fc e)) db' :=
    catchIf_caught h rfl
  rcases hr : Database.recover R d b (it :: rest) old forkPoint skip db' with ⟨e' | u, s⟩
  · rw [bind_error hr] at hcaught ⊢
    exact bind_error hcaught
  · rw [bind_ok hr, raise_apply] at hcaught ⊢
    exact bind_error hcaught

end Loop

namespace During

variable {T : SkipFlags → Prop} {X Y : Dynamic β → Database β ω → Prop}
  {s l : List (SignedBlock β)} {p : List (ForkItem β)} {b : SignedBlock β}

/-- A change of the fork database. -/
lemma forkDb {g : ForkDatabase β → ForkDatabase β} {E : Failure → Database β ω → Prop}
    (hg : ∀ c db, X c db → Y c { db with forkDb := g db.forkDb }) :
    Triple (During T X) (Exec.update fun db => { db with forkDb := g db.forkDb })
      (fun _ => During T Y) E :=
  Triple.update fun db h => ⟨Cleared.of_eq h.cleared.2.1 h.cleared.2.2, h.rising,
    fun hN => hg _ db (h.holds hN)⟩

/-- **The recovery of a switch** whose first block could not be applied. -/
lemma recover {bad old : List (ForkItem β)} (hbad : ∀ it ∈ bad, ∀ m ∈ s, m.id ≠ it.id)
    (hold : ∀ it ∈ old, it.data ∈ s ∧ it ∈ p) (habove : ∀ m ∈ s, m.blockNum < b.blockNum)
    (hs : ∀ m ∈ s, m ∈ l) (forkPoint : BlockId) (skip : SkipFlags) :
    Triple (During T (Kept R s l p)) (Database.recover R d b bad old forkPoint skip)
      (fun _ => During T (Kept R s s p)) (OnFailure (During T (Kept R s s p)) fun _ => True) := by
  refine Triple.bind (forkDb (g := fun f => bad.foldl (fun f it => f.remove it.id) f)
    (Y := Kept R s s p) fun c db h => ?_) fun _ => ?_
  · have hkept : Kept R s s p c db := h.subset (fun _ hm => hm) hs fun m hm =>
      ⟨(h.chain m hm).1, (h.chain m hm).1⟩
    exact hkept.withForkDb (hkept.holds.removeAll hbad)
      ((ForkDatabase.removeAll_pinned _ bad).trans hkept.pinned)
  · cases hhead : old.head? with
    | none => exact Triple.raise fun _ _ => trivial
    | some it =>
        refine Triple.bind (forkDb (g := fun f => f.setHead it) (Y := Kept R s s p)
          fun c db h => ?_) fun _ => ?_
        · have hit : it ∈ p := (hold it (List.mem_of_head? hhead)).2
          refine h.withForkDb (h.holds.setHead (ForkDatabase.mem_alive.mpr (.inr (.inr ?_)))) h.pinned
          exact h.pinned ▸ hit
        · refine Upholds.bind (popBlocksUntil (Kept.receding s s p) forkPoint) fun _ => ?_
          refine Upholds.forEach _ fun it hit => ?_
          obtain ⟨hmem, -⟩ := hold it (List.mem_reverse.mp hit)
          have hlasting := Kept.lasting (R := R) (fun _ => s) (fun _ => s) p
          exact applyAndStore hlasting hlasting (fun _ _ hext h hst => h.putBack hext hmem hmem
            b.id_ne_zero habove hst) skip

/-- The blocks of the new branch, as long as none throws. -/
lemma switchLoop_returns {items old : List (ForkItem β)} (hitems : ∀ it ∈ items, it.data ∈ l)
    (forkPoint : BlockId) (skip : SkipFlags) :
    Triple (During T fun c (db : Database β ω) => Kept R c.chain l p c db)
      (Database.switchLoop R d b old forkPoint skip items)
      (fun _ => During T fun c db => Kept R c.chain l p c db) fun _ _ => True := by
  induction items with
  | nil => exact Triple.pure fun _ h => h
  | cons it rest ih =>
      obtain ⟨hit, hrest⟩ := List.forall_mem_cons.mp hitems
      refine Triple.bind (Triple.catchIf (applyAndStore (Kept.lasting (·.chain) (fun _ => l) p)
        (Kept.lasting (·.chain) (fun _ => l) p) (fun hs hnum hext h hst =>
          h.append hnum hs hext hit hst) skip) (fun e _ => ?_) fun _ _ _ _ => trivial) fun _ => ih hrest
      exact Triple.bind Triple.top fun _ => Triple.raise fun _ _ => trivial

/-- **The loop of a switch over the new branch**, which puts back the main chain if its first block
cannot be applied. -/
lemma switchLoop {items old : List (ForkItem β)} (hitems : ∀ it ∈ items, it.data ∈ l)
    (hold : ∀ it ∈ old, it ∈ p) (hs : ∀ m ∈ s, m ∈ l) (forkPoint : BlockId) (skip : SkipFlags) :
    Triple (fun db => During T (Kept R s l p) db ∧
        db.PutsBack R d b s old forkPoint skip items)
      (Database.switchLoop R d b old forkPoint skip items) (fun _ => During T (KeptChain R p))
      (OnFailure (During T (KeptChain R p)) fun _ => True) := by
  cases items with
  | nil => exact Triple.pure fun _ h => h.1.mono fun _ hkept => hkept.keptChain
  | cons it rest =>
      obtain ⟨hit, hrest⟩ := List.forall_mem_cons.mp hitems
      rintro db ⟨hdb, hputs⟩
      have hfirst : Triple (During T (Kept R s l p)) (Database.applyAndStore R d it.data it.id skip)
          (fun _ => During T fun c db => Kept R c.chain l p c db)
          (OnFailure (During T (Kept R s l p)) fun _ => True) :=
        applyAndStore (Kept.lasting (fun _ => s) (fun _ => l) p) (Kept.lasting (·.chain) (fun _ => l) p)
          (fun hs hnum hext h hst => h.append hnum hs hext hit hst) skip
      obtain ⟨hok, herr⟩ := hfirst db hdb
      rcases hx : Database.applyAndStore R d it.data it.id skip db with ⟨e | u, db'⟩
      · cases e with
        | crash =>
            rw [switchLoop_crash hx]
            exact ⟨fun _ _ hend => (by cases hend), fun _ _ hend => by cases hend; trivial⟩
        | fc e =>
            -- the first block cannot be applied
            simp only [Database.PutsBack, hx] at hputs
            obtain ⟨habove, hmain, hbad⟩ := hputs
            rw [switchLoop_error hx]
            have hrecover : Triple (During T (Kept R s l p))
                (Database.recover R d b (it :: rest) old forkPoint skip)
                (fun _ => During T (KeptChain R p))
                (OnFailure (During T (KeptChain R p)) fun _ => True) :=
              (recover hbad (fun jt hjt => ⟨hmain jt hjt, hold jt hjt⟩) habove hs forkPoint
                skip).conseq (fun _ h => h) (fun _ _ h => h.mono fun _ hkept => hkept.keptChain)
                fun _ _ h => h.imp (fun hI => hI.mono fun _ hkept => hkept.keptChain) id
            exact Triple.bind hrecover (fun _ => Upholds.fail e) db' (herr _ db' hx)
      · -- the first block is applied, and the others do not throw
        simp only [Database.PutsBack, hx] at hputs
        rw [switchLoop_ok hx]
        have hloop : Triple (During T fun c (db : Database β ω) => Kept R c.chain l p c db)
            (Database.switchLoop R d b old forkPoint skip rest)
            (fun _ => During T fun c db => Kept R c.chain l p c db) fun _ _ => True :=
          switchLoop_returns hrest forkPoint skip
        obtain ⟨hend, -⟩ := hloop db' (hok u db' hx)
        refine ⟨fun a db'' hx' => (hend a db'' hx').mono fun _ hkept => hkept.keptChain,
          fun e db'' hx' => ?_⟩
        cases e with
        | crash => trivial
        | fc e => exact absurd (congrArg Prod.fst hx') (hputs e)

/-- **The switch to another branch.** -/
lemma switchForks {newHead : ForkItem β} {db : Database β ω}
    (h : During T (KeptChain R []) db) (hN : Logged UndoEvent.Untrimmed db)
    (hhead : db.forkDb.head = some newHead) {skip : SkipFlags}
    (hputs : db.SwitchPutsBack R d b newHead skip) :
    Triple (fun s => s = db) (Database.switchForks R d b newHead skip)
      (fun _ => During T (KeptChain R [])) (OnFailure (During T (KeptChain R [])) fun _ => True) := by
  refine Triple.gets_bind fun s hs => ?_
  subst hs
  refine triple_fcLift_bind (fun _ _ hdb _ => hdb ▸ h) ?_
  rintro ⟨new, old⟩ hbranch
  simp only
  cases hlast : old.getLast? with
  | none => exact Triple.raise fun _ _ => trivial
  | some last =>
      have hkept := h.holds hN
      have halive := ForkDatabase.fetchBranchFrom_mem_alive hbranch
      have hnew := hkept.holds.pointed.fetchBranchFrom_mem_index hkept.pinned hhead hbranch
      -- while the branches are pinned, the new blocks are held as well
      have hpinned : During T (Kept R s.objects.chain (new.map (·.data) ++ s.objects.chain)
          (new ++ old)) { s with forkDb := { s.forkDb with pinned := new ++ old } } := by
        refine ⟨Cleared.of_eq h.cleared.2.1 h.cleared.2.2, h.rising, fun _ => ⟨fun m hm => ?_,
          hkept.stores, ?_, rfl⟩⟩
        · exact ⟨hm, List.mem_append_right _ hm⟩
        · refine (hkept.holds.items ?_ hnew).pin halive
          rw [hhead]
          rfl
      have hbody : Triple (fun db => db = { s with forkDb := { s.forkDb with pinned := new ++ old } })
          (do
            Database.popBlocksUntil R last.data.previous
            Database.switchLoop R d b old last.data.previous skip new.reverse)
          (fun _ => During T (KeptChain R (new ++ old)))
          (OnFailure (During T (KeptChain R (new ++ old))) fun _ => True) := by
        have hpop := (popBlocksUntil (R := R) (Kept.receding s.objects.chain
          (new.map (·.data) ++ s.objects.chain) (new ++ old)) last.data.previous).conseq
          (P := fun db => db = { s with forkDb := { s.forkDb with pinned := new ++ old } })
          (fun _ hdb => hdb ▸ hpinned) (fun _ _ hdb => hdb) fun _ _ hdb => hdb
        refine Triple.bind (hpop.traced.conseq (fun _ hdb => hdb) (fun _ _ hdb => hdb)
          fun _ _ hdb => hdb.1.imp (fun hI => hI.mono fun _ hkept => hkept.keptChain) id) fun _ => ?_
        have hnew' : ∀ it ∈ new.reverse, it.data ∈ new.map (·.data) ++ s.objects.chain := fun it hit =>
          List.mem_append_left _ (List.mem_map_of_mem (List.mem_reverse.mp hit))
        have hloop := switchLoop (R := R) (d := d) (T := T) (b := b) (s := s.objects.chain)
          (p := new ++ old) hnew' (fun it hit => List.mem_append_right new hit)
          (fun m hm => List.mem_append_right _ hm) last.data.previous skip
        exact hloop.conseq (fun db hdb => ⟨hdb.1, hputs new old last db hbranch hlast hdb.2⟩)
          (fun _ _ hdb => hdb) fun _ _ hdb => hdb
      have hback : ∀ db : Database β ω, During T (KeptChain R (new ++ old)) db →
          During T (KeptChain R []) { db with
            forkDb := { db.forkDb with pinned := s.forkDb.pinned } } := by
        refine fun db hdb => ⟨Cleared.of_eq hdb.cleared.2.1 hdb.cleared.2.2, hdb.rising, fun hN' => ?_⟩
        have hkept' := hdb.holds hN'
        rw [hkept.pinned]
        exact hkept'.withForkDb (hkept'.holds.pin (List.forall_mem_nil _)) rfl
      have hswitch : Triple (fun db => db = s) (Database.pinning (new ++ old) do
            Database.popBlocksUntil R last.data.previous
            Database.switchLoop R d b old last.data.previous skip new.reverse)
          (fun _ => During T (KeptChain R []))
          (OnFailure (During T (KeptChain R [])) fun _ => True) := by
        refine Triple.around (P := fun db => db = s)
          (g := fun db => { db with forkDb := { db.forkDb with pinned := new ++ old } })
          (h := fun db db' => { db' with forkDb := { db'.forkDb with pinned := db.forkDb.pinned } })
          hbody (fun db hdb => by rw [hdb]) (fun db _ db' hdb hdb' => ?_)
          fun db e db' hdb hdb' => ?_
        · subst hdb
          exact hback db' hdb'
        · subst hdb
          exact hdb'.imp (hback db') fun _ => trivial
      exact hswitch

/-- The block that is pushed extends the chain, or is taken out of the fork database again. -/
lemma extendChain (hne : ∀ m ∈ s, m.id ≠ b.id) (skip : SkipFlags) :
    Triple (During T (Kept R s (b :: s) [])) (Database.extendChain R d b skip)
      (fun _ => During T (KeptChain R [])) (OnFailure (During T (KeptChain R [])) fun _ => True) := by
  refine Upholds.catchFc ((applyAndStore (Kept.lasting (fun _ => s) (fun _ => b :: s) [])
    (Kept.lasting (·.chain) (fun _ => b :: s) []) (fun hs hnum hext h hst =>
      h.append hnum hs hext List.mem_cons_self hst) skip).conseq (fun _ h => h)
      (fun _ _ h => h.mono fun _ hkept => hkept.keptChain) fun _ _ h => h) (fun e => ?_)
    fun _ _ => trivial
  refine Triple.bind (forkDb (g := fun f => f.remove b.id) (Y := KeptChain R []) fun c db h => ?_)
    fun _ => Upholds.fail e
  have hkept : Kept R s s [] c db := h.subset (fun _ hm => hm) (fun _ hm => List.mem_cons_of_mem b hm)
    fun m hm => ⟨(h.chain m hm).1, (h.chain m hm).1⟩
  exact (hkept.withForkDb (hkept.holds.remove hne) hkept.pinned).keptChain

end During

/-! ### Pushing a block -/

/-- What `_push_block` has to find for the main chain to be kept. The block goes into the fork
database, and a first block finds one there. A block that is to extend the chain is not on it yet, and
no other block is held under its id. A switch that throws puts back the main chain. -/
structure Database.KeepsMainChain (R : Rules β ω) (d : ℕ) (b : SignedBlock β)
    (db : Database β ω) : Prop where
  forkDb : db.skipFlags.forkDb = false
  first : b.previous = .zero → db.objects.chain = [] ∨ db.forkDb.fetchBlockByNumber 1 ≠ []
  extends_ : ∀ f newHead, db.forkDb.pushBlock b = .ok f → f.head = some newHead →
    newHead.data.previous = db.objects.headBlockId →
    (∀ m ∈ db.objects.chain, m.id ≠ b.id) ∧ ∀ it ∈ db.forkDb.index, it.id = b.id → it.data = b
  switch : ∀ f newHead, db.forkDb.pushBlock b = .ok f → f.head = some newHead →
    newHead.data.previous ≠ db.objects.headBlockId →
    db.objects.headBlockNumber < newHead.data.blockNum →
    SwitchPutsBack R d b newHead db.skipFlags { db with forkDb := f }

/-- A loop that returns puts nothing back. -/
lemma Database.putsBack_of_ok {b : SignedBlock β} {main : List (SignedBlock β)}
    {old items : List (ForkItem β)} {forkPoint : BlockId} {skip : SkipFlags} {db : Database β ω}
    (hok : (Database.switchLoop R d b old forkPoint skip items db).1 = .ok ()) :
    db.PutsBack R d b main old forkPoint skip items := by
  cases items with
  | nil => trivial
  | cons it rest =>
      rcases hx : Database.applyAndStore R d it.data it.id skip db with ⟨e | u, db'⟩
      · cases e with
        | crash => simp only [Database.PutsBack, hx]
        | fc e =>
            rw [switchLoop_error hx] at hok
            rcases hr : Database.recover R d b (it :: rest) old forkPoint skip db' with ⟨e' | u, s⟩
            · rw [bind_error hr] at hok
              cases hok
            · rw [bind_ok hr] at hok
              cases hok
      · simp only [Database.PutsBack, hx]
        rw [switchLoop_ok hx] at hok
        rw [hok]
        exact fun _ he => by cases he

/-- Nor does a switch that returns. -/
lemma Database.switchPutsBack_of_ok {b : SignedBlock β} {newHead : ForkItem β} {skip : SkipFlags}
    {db : Database β ω} (hok : (Database.switchForks R d b newHead skip db).1 = .ok ()) :
    db.SwitchPutsBack R d b newHead skip := by
  intro new old last s hbranch hlast hpop
  refine putsBack_of_ok ?_
  have hswitch : Database.switchForks R d b newHead skip db =
      (Database.pinning (new ++ old) do
        Database.popBlocksUntil R last.data.previous
        Database.switchLoop R d b old last.data.previous skip new.reverse) db := by
    rw [Database.switchForks, bind_ok (x := Exec.gets fun db => db) (s := db) rfl, hbranch]
    have hlift : (Database.fcLift (.ok (new, old)) : Act β ω _) db = (.ok (new, old), db) := rfl
    rw [bind_ok hlift]
    simp only [hlast]
  rw [hswitch] at hok
  have hbody : ((Database.popBlocksUntil R last.data.previous >>= fun _ =>
      Database.switchLoop R d b old last.data.previous skip new.reverse)
        { db with forkDb := { db.forkDb with pinned := new ++ old } }).1 = .ok () := hok
  rw [bind_ok hpop] at hbody
  exact hbody

/-- A push that returns puts nothing back. -/
lemma Database.keepsMainChain_of_ok {b : SignedBlock β} {db : Database β ω}
    (hskip : db.skipFlags.forkDb = false) (hfirst : b.previous = .zero → db.objects.chain.length = 0)
    (hnew : ∀ m ∈ db.objects.chain, m.id ≠ b.id) (hunknown : ∀ it ∈ db.forkDb.index, it.id ≠ b.id)
    (hok : (Database.pushBlockInner R d b db).1.isOk = true) : db.KeepsMainChain R d b where
  forkDb := hskip
  first h := .inl (List.length_eq_zero_iff.mp (hfirst h))
  extends_ _ _ _ _ _ := ⟨hnew, fun it hit hid => absurd hid (hunknown it hit)⟩
  switch f newHead hf hhead hne hlt := by
    refine switchPutsBack_of_ok ?_
    have hpush : Database.pushBlockInner R d b db = (Database.switchForks R d b newHead db.skipFlags >>=
        fun _ => pure true) { db with forkDb := f } := by
      have hlift : (Database.fcLift (db.forkDb.pushBlock b) : Act β ω _) db = (.ok f, db) := by
        rw [hf]
        rfl
      rw [Database.pushBlockInner, bind_ok (x := Exec.gets (·.skipFlags)) (s := db) rfl, hskip,
        if_neg Bool.false_ne_true, bind_ok (x := Exec.gets (·.forkDb)) (s := db) rfl, bind_ok hlift,
        bind_ok (x := Exec.update _) rfl]
      simp only [hhead]
      exact (congrFun (if_pos hne) _).trans (congrFun (if_pos hlt) _)
    rw [hpush] at hok
    rcases hx : Database.switchForks R d b newHead db.skipFlags { db with forkDb := f } with ⟨e | u, s⟩
    · rw [bind_error hx] at hok
      cases hok
    · rfl

/-- **`_push_block` keeps the main chain** where it finds what it has to. -/
lemma During.pushBlockInner (b : SignedBlock β) :
    Triple (fun db : Database β ω => During (fun _ => True) (KeptChain R []) db ∧
        db.KeepsMainChain R d b) (Database.pushBlockInner R d b)
      (fun _ => During (fun _ => True) (KeptChain R []))
      (OnFailure (During (fun _ => True) (KeptChain R [])) fun _ => True) := by
  rintro s ⟨hs, hkeeps⟩
  by_cases hN : Logged UndoEvent.Untrimmed s
  swap
  · exact hs.of_lost (fun hinv => (hinv.chainInvariant R d).switch.pushBlockInner trivial) hN
  have hkept := hs.holds hN
  refine (?_ : Triple (fun db => db = s) (Database.pushBlockInner R d b)
    (fun _ => During (fun _ => True) (KeptChain R []))
    (OnFailure (During (fun _ => True) (KeptChain R [])) fun _ => True)) s rfl
  refine Triple.gets_bind fun s' hs' => ?_
  subst hs'
  rw [hkeeps.forkDb]
  refine Triple.gets_bind fun s'' hs'' => ?_
  subst hs''
  refine triple_fcLift_bind (fun _ _ hdb _ => hdb ▸ hs) fun f hf => ?_
  refine Triple.bind (Q := fun _ db => db = { s'' with forkDb := f })
    (Triple.update fun db hdb => by rw [hdb]) fun _ => ?_
  -- the fork database goes on to hold the chain
  obtain ⟨hholds, hpushed⟩ := hkept.holds.pushBlock hf hkeeps.first
  have hpinned : f.pinned = [] := (ForkDatabase.pushBlock_pinned hf).trans hkept.pinned
  have hbegin : During (fun _ => True) (KeptChain R []) { s'' with forkDb := f } :=
    ⟨Cleared.of_eq trivial hs.cleared.2.2, hs.rising, fun _ => hkept.withForkDb hholds hpinned⟩
  cases hhead : f.head with
  | none => exact Triple.raise fun _ _ => trivial
  | some newHead =>
      refine Triple.gets_bind fun s hs' => ?_
      subst hs'
      refine Triple.ite (fun hne => Triple.ite (fun hlt => ?_) fun _ => ?_) fun heq => ?_
      · refine Triple.bind (hbegin.switchForks hN hhead (hkeeps.switch f newHead hf hhead hne hlt))
          fun _ => Triple.pure fun _ hdb => hdb
      · exact Triple.pure fun db hdb => hdb ▸ hbegin
      · obtain ⟨hnew, hsame⟩ := hkeeps.extends_ f newHead hf hhead (not_not.mp heq)
        have hextend : During (fun _ => True) (Kept R s''.objects.chain (b :: s''.objects.chain) [])
            { s'' with forkDb := f } := by
          refine ⟨hbegin.cleared, hbegin.rising, fun _ => ⟨fun m hm => ?_, hkept.stores,
            hpushed hsame, hpinned⟩⟩
          exact ⟨hm, List.mem_cons_of_mem b hm⟩
        refine Triple.bind ((During.extendChain hnew _).conseq (fun db hdb => hdb ▸ hextend)
          (fun _ _ hdb => hdb) fun _ _ hdb => hdb) fun _ => Triple.pure fun _ hdb => hdb

/-! ### Runs -/

/-- The committed states rise, and `X` holds of the head as long as no state of an open session was
trimmed. -/
def Database.Keeping (X : Dynamic β → Database β ω → Prop) (k : ℕ) (db : Database β ω) : Prop :=
  Chronicle UndoEvent.Untrimmed Rising k db ∧ Level UndoEvent.Untrimmed X k db

section Keeping

variable {X : Dynamic β → Database β ω → Prop} {k : ℕ} {db : Database β ω}

lemma keeping_zero_iff {S : SkipFlags → Prop} :
    Inside (fun _ => True) (fun _ => True) S false (Database.Keeping X 0) db ↔ During S X db := by
  constructor
  · rintro ⟨hclear, hrising, hlevel⟩
    exact ⟨hclear, hrising, hlevel.holds⟩
  · exact fun h => ⟨h.cleared, h.rising, h.rising.1, by simp, h.holds⟩

/-- The calls of a node keep what `_push_block` keeps under the condition `K`. -/
lemma keeping_pushesUnder {K : SignedBlock β → Database β ω → Prop} (hX : Lasting X)
    (hpush : ∀ b, Triple (fun db => During (fun _ => True) X db ∧ K b db) (Database.pushBlockInner R d b)
      (fun _ => During (fun _ => True) X)
      (OnFailure (During (fun _ => True) X) fun _ => True)) :
    PushesUnder R d (fun _ => True) (fun _ => True) (fun _ => True) (Database.Keeping X)
      (fun db => SafeSoFar UndoEvent.Untrimmed db ∧ True) K :=
  { (rising_invariant.chainInvariant R d).pending.and (Level.pendingInvariant hX.apart
      fun _ db _ _ _ _ h => hX.other _ _ _ _ _ db.appStatus h) with
    assembled := fun _ _ _ _ => trivial
    push := fun {b} _ => by
      refine (Triple.and (hpush b)
        ((rising_invariant.chainInvariant R d).switch.pushBlockInner trivial)).conseq
        (fun db hdb => ?_) (fun _ _ hdb => keeping_zero_iff.mpr hdb.1) fun e db hdb => ?_
      · have hduring := keeping_zero_iff.mp hdb.1
        exact ⟨⟨hduring, hdb.2⟩, hduring.cleared, hduring.rising⟩
      · cases e with
        | fc e => exact keeping_zero_iff.mpr hdb.1
        | crash => exact ⟨hdb.2, trivial⟩ }

/-- The sessions have not moved the head. -/
lemma Database.Keeping.base (h : db.Keeping X k) (hN : Logged UndoEvent.Untrimmed db) :
    (db.undo.base db.objects).dynamic = db.objects.dynamic := by
  obtain ⟨A, P, hl, -⟩ := (h.1.2 hN).2
  rw [hl.base]
  cases hlast : A.getLast? with
  | none => rfl
  | some o =>
      refine h.2.states o ?_
      rw [hl.stack, List.take_left' hl.length]
      exact List.mem_of_getLast? hlast

/-- The blocks of the chain have the numbers up to that of the head. -/
lemma Database.Keeping.numbered (h : db.Keeping X k) (hN : Logged UndoEvent.Untrimmed db) :
    db.objects.dynamic.Sound ∧ db.objects.dynamic.Numbered ∧
      db.objects.chain.length = db.objects.headBlockNumber := by
  obtain ⟨P, hH, -⟩ := (h.1.2 hN).2.base
  have hbase := h.base hN
  have hchain := congrArg (·.chain.length) hbase
  have hhead := congrArg Dynamic.headBlockNumber hbase
  refine ⟨hbase ▸ hH.sound _ List.mem_cons_self, hbase ▸ hH.numbered _ List.mem_cons_self, ?_⟩
  exact hchain.symm.trans ((hH.length _ List.mem_cons_self).trans hhead)

/-- At the beginning the states rise. -/
lemma Database.Begins.keeping (h : db.Begins) (hzero : db.objects.headBlockNumber = 0)
    (hX : X db.objects.dynamic db) : db.Keeping X 0 := by
  have hchain : db.objects.dynamic.chain = [] := h.chain
  refine ⟨⟨h.enabled, fun _ => ⟨by simp [Logged, h.undoLog], [], [], ⟨h.activeSessions, h.stack, rfl⟩,
    ?_⟩⟩, h.enabled, by simp, fun _ => hX⟩
  refine ⟨⟨⟨List.forall_mem_singleton.mpr h.sound, List.isChain_singleton _⟩,
    List.forall_mem_singleton.mpr ⟨?_, ?_⟩⟩, List.forall_mem_singleton.mpr ?_⟩
  · exact hchain ▸ List.Pairwise.nil
  · exact hchain ▸ List.forall_mem_nil _
  · exact (congrArg List.length h.chain).trans hzero.symm

end Keeping

/-- Where the main chain is kept it is answered, whatever transactions are pending. -/
lemma Database.Keeping.answersMainChain {k : ℕ} {db : Database β ω}
    (h : db.Keeping (KeptChain R []) k) (hN : Logged UndoEvent.Untrimmed db) :
    db.AnswersMainChain R :=
  Kept.answersMainChain (h.2.holds hN) (h.numbered hN).2.1 (h.numbered hN).2.2

/-- At the beginning nothing is kept. -/
lemma Database.Begins.keptChain {db : Database β ω} (h : db.Begins) :
    KeptChain R [] db.objects.dynamic db := by
  have halive : db.forkDb.alive = [] := h.forkDb
  have hpinned : db.forkDb.pinned = [] := (List.append_eq_nil_iff.mp halive).2
  have hchain : db.objects.dynamic.chain = [] := h.chain
  have hpointed : db.forkDb.Pointed := by
    constructor <;> simp [halive]
  refine ⟨?_, ?_, ⟨?_, ?_, hpointed⟩, hpinned⟩
  · rw [hchain]
    exact List.forall_mem_nil _
  · rw [hchain]
    exact List.forall_mem_nil _
  · rw [hchain]
    exact List.forall_mem_nil _
  · exact fun hne => absurd hchain hne

/-- **The block of a number is that of the main chain** in every run from an empty chain on in which
`_push_block` always finds what it has to and no session trims the state of an open one:
`fetch_block_by_number` and `get_block_id_for_num` answer with it for every number up to that of the
head. -/
theorem answersMainChain_of_run (R : Rules β ω) (d : ℕ) {db₀ db : Database β ω} {l : List (Call β)}
    (h₀ : db₀.Begins) (hzero : db₀.objects.headBlockNumber = 0) (hrun : Database.Run R d db₀ l db)
    (hkeeps : ∀ l₁ c l₂ db', l = l₁ ++ c :: l₂ → Database.Run R d db₀ l₁ db' →
      c.Meets R d (fun b db => db.KeepsMainChain R d b) db')
    (huntrimmed : ∀ e ∈ db.undoLog, e.Untrimmed) : db.AnswersMainChain R := by
  have hbegin : Idle (fun _ => True) (fun _ => True) (Database.Keeping (KeptChain R [])) db₀ := by
    refine ⟨h₀.toFresh.holds, ?_⟩
    rw [h₀.pendingTxSession]
    exact h₀.keeping hzero h₀.keptChain
  have hpushes := keeping_pushesUnder (R := R) (d := d) (Kept.lasting (·.chain) (·.chain) [])
    During.pushBlockInner
  exact (hpushes.run hrun (Database.within_true l) hkeeps hbegin).2.answersMainChain huntrimmed

/-- Two blocks on another branch replace the second block, and are the blocks of their numbers. -/
theorem answersMainChain_of_run_otherBranch :
    Database.Run calmRules 1 (newChain [0])
      [.pushBlock (emptyBlock .zero 1) {}, .pushBlock (emptyBlock ⟨1, 1⟩ 2) {},
        .pushBlock (emptyBlock ⟨1, 1⟩ 3) {}, .pushBlock (emptyBlock ⟨2, 3⟩ 4) {}] otherBranch ∧
      otherBranch.AnswersMainChain calmRules := by
  have hrun₁ := (Database.Run.nil (newChain [0])).returns (R := calmRules) (d := 1)
    (c := .pushBlock (emptyBlock .zero 1) {}) (by decide +kernel)
  have hrun₃ := twoBlocks_run.returns (c := .pushBlock (emptyBlock ⟨1, 1⟩ 3) {}) (by decide +kernel)
  have hrun : Database.Run calmRules 1 (newChain [0]) _ otherBranch :=
    hrun₃.returns (c := .pushBlock (emptyBlock ⟨2, 3⟩ 4) {}) (by decide +kernel)
  refine ⟨hrun, answersMainChain_of_run calmRules 1 (newChain_begins _) rfl hrun ?_ ?_⟩
  · -- every block is new, and every push returns
    refine hrun₃.meets_snoc ?_ (twoBlocks_run.meets_snoc ?_ (hrun₁.meets_snoc ?_
      ((Database.Run.nil (newChain [0])).meets_snoc ?_ fun l₁ _ _ _ heq _ => by simp at heq)))
    all_goals
      exact Database.keepsMainChain_of_ok (by decide +kernel) (by decide +kernel) (by decide +kernel)
        (by decide +kernel) (by decide +kernel)
  · have huntrimmed : ∀ e ∈ otherBranch.undoLog, e.call = .start → e.activeSessions ≤ e.maxSize := by
      decide +kernel
    exact huntrimmed

/-- A second block of another branch that cannot be applied, as it is not later than the first. -/
def lateBranch : SignedBlock Unit := { emptyBlock ⟨2, 3⟩ 4 with timestamp := 1700000006 }

/-- Two blocks, and a switch to another branch that fails at its second block. -/
def failedSwitch : Database Unit Unit :=
  ([.pushBlock (emptyBlock ⟨1, 1⟩ 2) {}, .pushBlock (emptyBlock ⟨1, 1⟩ 3) {},
    .pushBlock lateBranch {}].foldl (fun db c => (Database.call calmRules 1 c db).2) oneBlock :
      Database Unit Unit)

/-- The second block of another branch cannot be applied. The chain is put back, and the number of its
second block stays that of the first block of the other branch. -/
theorem not_answersMainChain_failedSwitch :
    Database.Run calmRules 1 (newChain [0, 1, 2])
      [.pushBlock (emptyBlock .zero 1) {}, .pushBlock (emptyBlock ⟨1, 1⟩ 2) {},
        .pushBlock (emptyBlock ⟨1, 1⟩ 3) {}, .pushBlock lateBranch {}] failedSwitch ∧
      failedSwitch.objects.chain.map (·.id) = [⟨2, 2⟩, ⟨1, 1⟩] ∧
      (Database.fetchBlockByNumber calmRules failedSwitch 2).map (·.id) = some ⟨2, 3⟩ ∧
      Database.getBlockIdForNum failedSwitch 2 = some ⟨2, 3⟩ ∧
      ¬ failedSwitch.AnswersMainChain calmRules := by
  have hrun := (oneBlock_run.returns (c := .pushBlock (emptyBlock ⟨1, 1⟩ 2) {})
    (by decide +kernel)).returns (c := .pushBlock (emptyBlock ⟨1, 1⟩ 3) {}) (by decide +kernel)
  have hthrows : (Database.call calmRules 1 (.pushBlock lateBranch {})
      ([.pushBlock (emptyBlock ⟨1, 1⟩ 2) {}, .pushBlock (emptyBlock ⟨1, 1⟩ 3) {}].foldl
        (fun db c => (Database.call calmRules 1 c db).2) oneBlock)).1 =
        .error (.fc .timestampNotLater) := by decide +kernel
  have hchain : failedSwitch.objects.chain.map (·.id) = [⟨2, 2⟩, ⟨1, 1⟩] := by decide +kernel
  have hid : Database.getBlockIdForNum failedSwitch 2 = some ⟨2, 3⟩ := by decide +kernel
  have hcalls : (Database.call calmRules 1 (.pushBlock lateBranch {})
      ([.pushBlock (emptyBlock ⟨1, 1⟩ 2) {}, .pushBlock (emptyBlock ⟨1, 1⟩ 3) {}].foldl
        (fun db c => (Database.call calmRules 1 c db).2) oneBlock)).1 ≠ .error .crash := by
    rw [hthrows]
    nofun
  refine ⟨hrun.snoc ⟨rfl, hcalls⟩, hchain, by decide +kernel, hid, fun h => ?_⟩
  obtain ⟨b, hb, -, -, hb'⟩ := h 2 (by decide) (by decide +kernel)
  have hmem := List.mem_map_of_mem (f := (·.id)) hb
  rw [hchain, Option.some.inj (hb'.symm.trans hid)] at hmem
  exact absurd hmem (by decide)

end ZosCore
