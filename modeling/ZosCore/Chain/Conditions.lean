import ZosCore.Chain.Calls

/-!
Calls that keep an invariant if a condition holds before `_push_block`.

An invariant across pending transactions is not always kept by every block. `K b` is what has to hold
of the state in which `_push_block` is called with `b`: no session is open there, and the pending
transactions have been put aside.

* `Call.Meets`: the calls of a node that find `K` before they push a block.
* `PushesUnder`: `_push_block` keeps the invariant where `K` holds.
* **`PushesUnder.run`**: so does every run of calls that meet `K`.
-/

namespace ZosCore

open Exec

variable {β ω : Type} {R : Rules β ω} {d : ℕ} {U : Transaction β → Prop} {P : SignedBlock β → Prop}
  {S T : SkipFlags → Prop} {I I' : ℕ → Database β ω → Prop} {C C' : Database β ω → Prop}
  {K : SignedBlock β → Database β ω → Prop}

/-- Two invariants across pending transactions are one. -/
lemma PendingInvariant.and (h : PendingInvariant R d U I C) (h' : PendingInvariant R d U I' C') :
    PendingInvariant R d U (fun k db => I k db ∧ I' k db) fun db => C db ∧ C' db where
  crash hdb := ⟨h.crash hdb.1, h'.crash hdb.2⟩
  other _ _ _ _ hdb := ⟨h.other _ _ _ _ hdb.1, h'.other _ _ _ _ hdb.2⟩
  ended _ hdb := ⟨h.ended _ hdb.1, h'.ended _ hdb.2⟩
  enabled hdb := h.enabled hdb.1
  start hk hdb := ⟨h.start hk hdb.1, h'.start hk hdb.2⟩
  undo hk := (Triple.and (h.undo hk) (h'.undo hk)).conseq (fun _ hdb => hdb) (fun _ _ hdb => hdb)
    fun e _ hdb => by
      cases e with
      | fc e => exact hdb.1.elim
      | crash => exact hdb
  merge := (Triple.and h.merge h'.merge).conseq (fun _ hdb => hdb) (fun _ _ hdb => hdb)
    fun e _ hdb => by cases e <;> exact hdb
  transaction hU hk hk' := (Triple.and (h.transaction hU hk hk') (h'.transaction hU hk hk')).conseq
    (fun _ hdb => hdb) (fun _ _ hdb => hdb) fun e _ hdb => by cases e <;> exact hdb

/-- The state in which `_push_block` is called. -/
def Database.entering (skip : SkipFlags) (db : Database β ω) : Database β ω :=
  (Database.clearPending { db with skipFlags := skip }).2

/-- The call finds `K` before it pushes a block, if it does. -/
def Call.Meets (R : Rules β ω) (d : ℕ) (K : SignedBlock β → Database β ω → Prop)
    (db : Database β ω) : Call β → Prop
  | .pushBlock b skip => K b (db.entering skip)
  | .generateBlock time witness skip => ∀ b s,
      Database.prepareBlock R d time witness { db with skipFlags := skip } = (.ok b, s) →
        K b (s.entering skip)
  | .pushTransaction .. => True
  | .validateTransaction _ => True

/-- A condition that always holds. -/
lemma Call.meets_of_forall (h : ∀ b db, K b db) (c : Call β) (db : Database β ω) :
    c.Meets R d K db := by
  cases c with
  | pushBlock b skip => exact h b _
  | generateBlock time witness skip => exact fun b s _ => h b _
  | pushTransaction _ _ => trivial
  | validateTransaction _ => trivial

/-- An invariant across pending transactions, which `_push_block` keeps where `K` holds. What a node
assembles is in `P`. -/
structure PushesUnder (R : Rules β ω) (d : ℕ) (U : Transaction β → Prop)
    (P : SignedBlock β → Prop) (S : SkipFlags → Prop) (I : ℕ → Database β ω → Prop)
    (C : Database β ω → Prop) (K : SignedBlock β → Database β ω → Prop) : Prop
    extends PendingInvariant R d U I C where
  assembled : ∀ {trxs} time witness o, (∀ trx ∈ trxs, U trx) →
    P (Database.assembleBlock R time witness trxs o)
  push : ∀ {b}, P b → Triple (fun db => Inside U P S false (I 0) db ∧ K b db)
    (Database.pushBlockInner R d b) (fun _ => Inside U P S false (I 0))
    (OnFailure (Inside U P S false (I 0)) C)

namespace PushesUnder

/-- `push_block`. -/
lemma pushBlock (h : PushesUnder R d U P S I C K) {b : SignedBlock β} (hb : P b)
    {skip : SkipFlags} (hskip : S skip) (T : SkipFlags → Prop) :
    Triple (fun db => Settled U P T I db ∧ K b (db.entering skip)) (Database.pushBlock R d b skip)
      (fun _ => Settled U P T I) (OnFailure (Settled U P T I) C) := by
  refine h.withSkipFlags (S := S) (D := fun db => K b (Database.clearPending db).2)
    (h.withoutPendingTransactions ?_) hskip T
  refine (h.push hb).conseq (fun s hs => ?_) (fun _ _ hdb => hdb) fun _ _ hdb => hdb
  obtain ⟨hin, db, hK, rfl⟩ := hs
  exact ⟨hin, hK⟩

/-- `_generate_block`. -/
lemma generateBlockInner (h : PushesUnder R d U P S I C K) (time witness : ℕ) :
    Triple (fun db => Settled U P S I db ∧ ∀ b s,
        Database.prepareBlock R d time witness db = (.ok b, s) → K b (s.entering db.skipFlags))
      (Database.generateBlockInner R d time witness) (fun _ => Settled U P S I)
      (OnFailure (Settled U P S I) C) := by
  rw [Database.generateBlockInner_eq]
  refine Triple.gets_bind fun s ⟨hs, hK⟩ => ?_
  have hskip : S s.skipFlags := by
    obtain ⟨_, hs⟩ := hs
    exact hs.1.2.1
  have hprepare := (h.prepareBlock (P := P) (T := S) time witness).conseq
    (P := fun s' => s' = s) (fun _ hs' => hs' ▸ hs) (fun _ _ hdb => hdb) fun _ _ hdb => hdb
  refine Triple.bind (hprepare.traced.conseq (fun _ hs' => hs') (fun _ _ hdb => hdb)
    fun _ _ hdb => hdb.1) fun b => ?_
  rintro s' ⟨⟨⟨_, o, htrxs, hb⟩, hs'⟩, hprepared⟩
  have hassembled : P b := hb ▸ h.assembled time witness o htrxs
  have hpush : Triple (fun db => Settled U P S I db ∧ K b (db.entering s.skipFlags))
      (Database.pushBlock R d b s.skipFlags >>= fun _ => pure b) (fun _ => Settled U P S I)
      (OnFailure (Settled U P S I) C) :=
    Triple.bind (h.pushBlock hassembled hskip S) fun _ => Triple.pure fun _ hdb => hdb
  exact hpush s' ⟨hs', hK b s' hprepared⟩

/-- **A call that meets the condition** keeps the invariant. -/
theorem call (h : PushesUnder R d U P S I C K) {c : Call β} (hc : c.Within U P S) :
    Triple (fun db => Idle U P I db ∧ c.Meets R d K db) (Database.call R d c)
      (fun _ => Idle U P I) (OnFailure (Idle U P I) C) := by
  refine (?_ : Triple (fun db => Settled U P (fun _ => True) I db ∧ c.Meets R d K db)
    (Database.call R d c) (fun _ => Settled U P (fun _ => True) I)
    (OnFailure (Settled U P (fun _ => True) I) C)).conseq
    (fun _ hdb => ⟨settled_iff_idle.mpr hdb.1, hdb.2⟩) (fun _ _ hdb => settled_iff_idle.mp hdb)
    fun e _ hdb => hdb.imp settled_iff_idle.mp id
  cases c with
  | pushBlock b skip =>
      exact Triple.bind (h.pushBlock hc.1 hc.2 _) fun _ => Triple.pure fun _ hdb => hdb
  | pushTransaction trx skip =>
      exact (h.upholds_withSkipFlags (h.pushTransactionInner hc.1) hc.2 _).conseq
        (fun _ hdb => hdb.1) (fun _ _ hdb => hdb) fun _ _ hdb => hdb
  | validateTransaction trx =>
      exact (h.validateTransaction hc).conseq (fun _ hdb => hdb.1) (fun _ _ hdb => hdb)
        fun _ _ hdb => hdb
  | generateBlock time witness skip =>
      refine Triple.bind ?_ fun _ => Triple.pure fun _ hdb => hdb
      exact h.withSkipFlags (S := S) (h.generateBlockInner time witness) hc _

/-- **Every run of calls that meet the condition** keeps the invariant. -/
theorem run (h : PushesUnder R d U P S I C K) {db₀ db : Database β ω} {l : List (Call β)}
    (hrun : Database.Run R d db₀ l db) (hl : ∀ c ∈ l, c.Within U P S)
    (hK : ∀ l₁ c l₂ db', l = l₁ ++ c :: l₂ → Database.Run R d db₀ l₁ db' → c.Meets R d K db')
    (h₀ : Idle U P I db₀) : Idle U P I db := by
  induction hrun with
  | nil => exact h₀
  | @snoc db db' l c hrun hcall ih =>
      obtain ⟨hl, hc⟩ := List.forall_mem_append.mp hl
      have hdb := ih hl fun l₁ c' l₂ db' heq => by
        refine hK l₁ c' (l₂ ++ [c]) db' ?_
        rw [heq, List.append_assoc, List.cons_append]
      exact hcall.ends (h.call (hc c List.mem_cons_self)) ⟨hdb, hK l c [] db rfl hrun⟩

end PushesUnder

/-! ### Runs of calls that meet the condition -/

/-- The calls of a run decide where it leads. -/
lemma Database.Run.unique {db₀ db db' : Database β ω} {l : List (Call β)}
    (h : Database.Run R d db₀ l db) (h' : Database.Run R d db₀ l db') : db' = db := by
  induction h generalizing db' with
  | nil =>
      generalize hl : ([] : List (Call β)) = l at h'
      cases h' with
      | nil => rfl
      | snoc _ _ => simp at hl
  | @snoc _ _ l c _ hcall ih =>
      generalize hl : l ++ [c] = l' at h'
      cases h' with
      | nil => simp at hl
      | snoc hrun' hcall' =>
          obtain ⟨rfl, hc⟩ := List.append_inj' hl rfl
          obtain rfl := List.singleton_inj.mp hc
          rw [← hcall'.1, ih hrun', hcall.1]

/-- The run to which a call that meets the condition is added. -/
lemma Database.Run.meets_snoc {db₀ db : Database β ω} {l : List (Call β)} {c : Call β}
    (hrun : Database.Run R d db₀ l db) (hc : c.Meets R d K db)
    (hK : ∀ l₁ c' l₂ db', l = l₁ ++ c' :: l₂ → Database.Run R d db₀ l₁ db' → c'.Meets R d K db')
    (l₁ : List (Call β)) (c' : Call β) (l₂ : List (Call β)) (db' : Database β ω)
    (heq : l ++ [c] = l₁ ++ c' :: l₂) (hrun' : Database.Run R d db₀ l₁ db') :
    c'.Meets R d K db' := by
  rcases List.eq_nil_or_concat' l₂ with rfl | ⟨l₂, c'', rfl⟩
  · -- it is the call that is added
    obtain ⟨rfl, hlast⟩ := List.append_inj' heq rfl
    obtain rfl := List.singleton_inj.mp hlast
    rw [hrun.unique hrun']
    exact hc
  · rw [← List.cons_append, ← List.append_assoc] at heq
    exact hK l₁ c' l₂ db' (List.append_inj' heq rfl).1 hrun'

end ZosCore
