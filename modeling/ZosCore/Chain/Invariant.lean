import ZosCore.Chain.Block

/-!
Invariants of the database, and which steps have to keep them.

An invariant comes as a family `I k`, `k` being the number of sessions that are open. A
computation upholds `I k` if it ends in `I k` when it returns or throws an
`fc::exception`; where the program ends, `C` holds.

* `Upholds`: with rules that follow the program.
* `OperationInvariant`: what an invariant needs to hold across operations and the proposals they
  execute. **`OperationInvariant.operates`**: it does then.
* `Above`: what undo sessions may bring back.
* `BlockSteps`: what the steps of a block have to do. **`BlockSteps.applyBlock`**: the block keeps
  the invariant then, and extends the chain.
* `BlockInvariant`: what an invariant needs for all these steps to keep it.
-/

namespace ZosCore

open Exec

/-! ### Sessions -/

section Sessions

variable {β ω : Type} {db : Database β ω}

/-- The database after `start_undo_session`, if it does open a session. -/
def Database.opened (db : Database β ω) : Database β ω :=
  { db with
    undo := db.undo.opened db.objects
    undoLog := Database.undoEvent .start db.objects db.undo :: db.undoLog }

lemma startUndoSession_eq {forceEnable : Bool} (h : (db.undo.disabled && !forceEnable) = false) :
    Database.startUndoSession forceEnable db = (.ok (), db.opened) := by
  rw [Database.startUndoSession, Database.noteUndo]
  rw [bind_ok (update_apply _ _), update_apply]
  simp only [UndoDatabase.startUndoSession_eq_opened h, Database.opened]

/-- A session that is undone brings the objects back that it began with. -/
lemma sessionUndo_eq {o : Objects β ω} {l : List (Objects β ω)} (h : db.undo.disabled = false)
    (hactive : db.undo.activeSessions ≠ 0) (hstack : db.undo.stack = o :: l) :
    Database.sessionUndo db = (.ok (), { db with
      objects := o
      undo := { db.undo with stack := l, activeSessions := db.undo.activeSessions - 1 }
      undoLog := Database.undoEvent .undo db.objects db.undo :: db.undoLog }) := by
  have hu : db.undo.undo UndoDatabase.restoreSnapshot db.objects =
      .ok (o, { db.undo with stack := l, activeSessions := db.undo.activeSessions - 1 }) := by
    simp only [UndoDatabase.undo, h, hactive, hstack, if_false, Bool.false_eq_true]
    rfl
  exact (bind_ok (update_apply _ _)).trans (Database.onUndo_ok hu _)

/-- A session that is merged into the one before it. -/
lemma sessionMerge_eq {o : Objects β ω} {l : List (Objects β ω)}
    (hactive : db.undo.activeSessions ≠ 0) (hstack : db.undo.stack = o :: l)
    (hl : l ≠ [] ∨ db.undo.activeSessions = 1) :
    Database.sessionMerge db = (.ok (), { db with
      undo := { db.undo with stack := l, activeSessions := db.undo.activeSessions - 1 }
      undoLog := Database.undoEvent .merge db.objects db.undo :: db.undoLog }) := by
  have hu := UndoDatabase.merge_combineSnapshot_eq hactive hstack hl
  exact (bind_ok (update_apply _ _)).trans (Database.onUndo_ok (by rw [hu]; rfl) _)

end Sessions

/-! ### Upholding an invariant -/

section Upholds

variable {β ω α γ : Type} {I J C : Database β ω → Prop}

/-- What holds after a failure: `I` if it can be caught, and `C` if the program has ended. -/
def OnFailure (I C : Database β ω → Prop) : Failure → Database β ω → Prop
  | .fc _ => I
  | .crash => C

/-- What holds after a failure, weakened on both ways out. -/
lemma OnFailure.imp {I I' C C' : Database β ω → Prop} {e : Failure} {db db' : Database β ω}
    (h : OnFailure I C e db) (hI : I db → I' db') (hC : C db → C' db') : OnFailure I' C' e db' := by
  cases e with
  | fc e => exact hI h
  | crash => exact hC h

/-- The computation keeps `I`, and `C` holds where the program ends. -/
def Upholds (I C : Database β ω → Prop) (x : Act β ω α) : Prop := Keeps I (OnFailure I C) x

namespace Upholds

lemma pure (a : α) : Upholds I C (Pure.pure a : Act β ω α) := Keeps.pure a

lemma gets (f : Database β ω → α) : Upholds I C (Exec.gets f : Act β ω α) := Keeps.gets f

lemma update {g : Database β ω → Database β ω} (h : ∀ db, I db → I (g db)) :
    Upholds I C (Exec.update g : Act β ω Unit) := Keeps.update h

lemma fail (e : ChainError) : Upholds I C (Exec.raise (.fc e) : Act β ω α) :=
  Triple.raise fun _ h => h

lemma raise (hC : ∀ db, I db → C db) (e : Failure) : Upholds I C (Exec.raise e : Act β ω α) := by
  cases e with
  | fc e => exact fail e
  | crash => exact Triple.raise hC

lemma bind {x : Act β ω α} {f : α → Act β ω γ} (hx : Upholds I C x) (hf : ∀ a, Upholds I C (f a)) :
    Upholds I C (x >>= f) := Keeps.bind hx hf

/-- A look at the state, of which `I` is known. -/
lemma gets_bind {g : Database β ω → α} {f : α → Act β ω γ}
    (h : ∀ db, I db → Upholds I C (f (g db))) : Upholds I C (Exec.gets g >>= f) :=
  Triple.gets_bind fun db hdb => (h db hdb).conseq (fun _ h => h ▸ hdb) (fun _ _ h => h)
    fun _ _ h => h

lemma forEach {f : γ → Act β ω Unit} (l : List γ) (h : ∀ a ∈ l, Upholds I C (f a)) :
    Upholds I C (Exec.forEach f l) := Keeps.forEach l h

lemma ite {c : Prop} [Decidable c] {x y : Act β ω α} (hx : Upholds I C x) (hy : Upholds I C y) :
    Upholds I C (if c then x else y) := Triple.ite (fun _ => hx) fun _ => hy

lemma check (hC : ∀ db, I db → C db) (c : Prop) [Decidable c] (e : Failure) :
    Upholds I C (Exec.check c e : Act β ω Unit) := by
  rw [Exec.check]
  exact Upholds.ite (Upholds.pure ()) (Upholds.raise hC e)

lemma fcAssert (c : Prop) [Decidable c] (e : ChainError) :
    Upholds I C (Database.fcAssert c e : Act β ω Unit) :=
  Upholds.ite (Upholds.pure ()) (Upholds.fail e)

lemma fcLift (r : Except ChainError α) : Upholds I C (Database.fcLift r : Act β ω α) := by
  cases r with
  | ok a => exact Upholds.pure a
  | error e => exact Upholds.fail e

/-- A handler takes over where an exception is caught. -/
lemma catchFc {x : Act β ω α} {h : Failure → Act β ω α} {Q : α → Database β ω → Prop}
    {E : Failure → Database β ω → Prop} (hx : Triple I x Q (OnFailure J C))
    (hh : ∀ e, Triple J (h (.fc e)) Q E) (hE : ∀ db, C db → E .crash db) :
    Triple I (Database.catchFc x h) Q E := by
  refine Triple.catchIf hx (fun e he => ?_) fun e db he hdb => ?_
  · cases e with
    | fc e => exact hh e
    | crash => cases he
  · cases e with
    | fc e => cases he
    | crash => exact hE db hdb

/-- A session: the body closes it, or its destructor does. -/
lemma inSession {P K : Database β ω → Prop} {Q : α → Database β ω → Prop} {body : Act β ω α}
    {forceEnable : Bool}
    (hstart : Triple P (Database.startUndoSession forceEnable) (fun _ => K) (OnFailure I C))
    (hbody : Triple K body Q (OnFailure J C))
    (hundo : Triple J Database.sessionUndo (fun _ => I) (OnFailure I C))
    (hexit : ∀ db, P db → (db.undo.disabled && forceEnable) = true →
      (∀ db, I db → I { db with undo := db.undo.disable }) ∧
        ∀ a db, Q a db → Q a { db with undo := db.undo.disable }) :
    Triple P (Database.inSession forceEnable body) Q (OnFailure I C) := by
  refine Triple.gets_bind fun db hdb => ?_
  have hclose : ∀ {L : Database β ω → Prop} {E : Failure → Database β ω → Prop},
      ((db.undo.disabled && forceEnable) = true →
        ∀ db, L db → L { db with undo := db.undo.disable }) →
      Triple L (Database.disableOnExit (db.undo.disabled && forceEnable)) (fun _ => L) E := by
    intro L E h
    exact Triple.ite (fun hc => Triple.update (h hc)) fun _ => Triple.pure fun _ h => h
  refine Triple.bind (hstart.conseq (fun _ h => h ▸ hdb) (fun _ _ h => h) fun _ _ h => h) fun _ => ?_
  refine Triple.bind (catchFc hbody (fun e => ?_) fun _ h => h) fun a => ?_
  · refine Triple.bind hundo fun _ => ?_
    refine Triple.bind (hclose fun hc => (hexit db hdb hc).1) fun _ => ?_
    exact Triple.raise fun _ h => h
  · refine Triple.bind (hclose fun hc => (hexit db hdb hc).2 a) fun _ => ?_
    exact Triple.pure fun _ h => h

/-- A session that does not enable undo. -/
lemma inSession_false {P K : Database β ω → Prop} {Q : α → Database β ω → Prop}
    {body : Act β ω α}
    (hstart : Triple P (Database.startUndoSession false) (fun _ => K) (OnFailure I C))
    (hbody : Triple K body Q (OnFailure J C))
    (hundo : Triple J Database.sessionUndo (fun _ => I) (OnFailure I C)) :
    Triple P (Database.inSession false body) Q (OnFailure I C) :=
  inSession hstart hbody hundo fun _ _ hc => by simp at hc

end Upholds

/-- What a computation upholds, with what else is known about it when it returns. -/
lemma Upholds.also {x : Act β ω α} {P : Database β ω → Prop} {Q : α → Database β ω → Prop}
    (hx : Upholds I C x) (h : Triple P x Q fun _ _ => True) :
    Triple (fun db => I db ∧ P db) x (fun a db => I db ∧ Q a db) (OnFailure I C) :=
  (Triple.and hx h).conseq (fun _ hdb => hdb) (fun _ _ hdb => hdb) fun _ _ hdb => hdb.1

/-- A call on the undo database, by its two ways out. -/
lemma triple_onUndo {f : Database β ω → Except DbError (Objects β ω × UndoDatabase (Objects β ω))}
    {failure : Failure} {E : Failure → Database β ω → Prop}
    (hok : ∀ db o u, I db → f db = .ok (o, u) → J { db with objects := o, undo := u })
    (herr : ∀ db e, I db → f db = .error e → E failure db) :
    Triple I (Database.onUndo f failure) (fun _ => J) E := by
  intro db hdb
  cases hf : f db with
  | ok r =>
      rw [Database.onUndo_ok hf]
      refine ⟨fun _ _ hx => ?_, fun _ _ hx => ?_⟩
      · cases hx; exact hok db _ _ hdb hf
      · cases hx
  | error e =>
      rw [Database.onUndo_error hf]
      refine ⟨fun _ _ hx => ?_, fun _ _ hx => ?_⟩
      · cases hx
      · cases hx; exact herr db e hdb hf

/-- A result that was computed aside, by its two ways out. -/
lemma triple_fcLift_bind {r : Except ChainError α} {f : α → Act β ω γ}
    {Q : γ → Database β ω → Prop} {E : Failure → Database β ω → Prop}
    (herr : ∀ e db, I db → r = .error e → E (.fc e) db)
    (hok : ∀ a, r = .ok a → Triple I (f a) Q E) : Triple I (Database.fcLift r >>= f) Q E := by
  cases r with
  | error e =>
      refine Triple.bind (Q := fun _ _ => False) (Triple.raise fun db hdb => herr e db hdb rfl) ?_
      exact fun _ _ h => h.elim
  | ok a => exact hok a rfl

/-- The flags are set for a while. -/
lemma triple_withSkipFlags {x : Act β ω α} {Q : α → Database β ω → Prop}
    {E : Failure → Database β ω → Prop} {skip : SkipFlags} (hx : Triple J x Q E)
    (hI : ∀ db, I db → J { db with skipFlags := skip })
    (hQ : ∀ a db skip, Q a db → Q a { db with skipFlags := skip })
    (hE : ∀ e db skip, E e db → E e { db with skipFlags := skip }) :
    Triple I (Database.withSkipFlags skip x) Q E :=
  Triple.around hx hI (fun _ a db _ h => hQ a db _ h) fun _ e db _ h => hE e db _ h

/-- The application of a block is noted for a while. -/
lemma triple_appApplyBlock {x : Act β ω α} {Q : α → Database β ω → Prop}
    {E : Failure → Database β ω → Prop} (hx : Triple I x Q E)
    (hI : ∀ db status, I db → I { db with appStatus := status })
    (hQ : ∀ a db status, Q a db → Q a { db with appStatus := status })
    (hE : ∀ e db status, E e db → E e { db with appStatus := status }) :
    Triple I (Database.appApplyBlock x) Q E :=
  Triple.around hx (fun db h => hI db _ h) (fun _ a db _ h => hQ a db _ h)
    fun _ e db _ h => hE e db _ h

end Upholds

/-! ### Operations and proposals -/

section Operations

variable {β ω : Type}

/-- `o'` differs from `o` in what the steps of an evaluator may change: the balances, the active
witnesses and the objects that are not modelled. -/
def Objects.Effected (o o' : Objects β ω) : Prop :=
  ∃ activeWitnesses balances world, o' = { o with activeWitnesses, balances, world }

/-- `o'` differs from `o` in what operations may change: that, and the proposals, where the
operations of a new proposal are in `F`. -/
def Objects.Operated (F : List (Operation β) → Prop) (o o' : Objects β ω) : Prop :=
  (∃ proposals nextProposalId activeWitnesses balances world,
    o' = { o with proposals, nextProposalId, activeWitnesses, balances, world }) ∧
  ((∀ p ∈ o.proposals, F p.proposedOps) → ∀ p ∈ o'.proposals, F p.proposedOps)

namespace Objects.Operated

variable {F : List (Operation β) → Prop}

lemma of_effected {o o' : Objects β ω} (h : o.Effected o') : o.Operated F o' := by
  obtain ⟨_, _, _, rfl⟩ := h
  exact ⟨⟨_, _, _, _, _, rfl⟩, fun h => h⟩

lemma modifyProposal (o : Objects β ω) (id : ℕ) {f : ProposalObject β → ProposalObject β}
    (hf : ∀ p, (f p).proposedOps = p.proposedOps) : o.Operated F (o.modifyProposal id f) := by
  refine ⟨⟨_, _, _, _, _, rfl⟩, fun h p hp => ?_⟩
  obtain ⟨q, hq, rfl⟩ := List.mem_map.mp hp
  split_ifs
  · exact (hf q).symm ▸ h q hq
  · exact h q hq

lemma eraseProposal (o : Objects β ω) (id : ℕ) : o.Operated F (o.eraseProposal id) :=
  ⟨⟨_, _, _, _, _, rfl⟩, fun h p hp => h p (List.mem_of_mem_filter hp)⟩

lemma addProposal (o : Objects β ω) {p : ProposalObject β} (hp : F p.proposedOps) :
    o.Operated F (Database.addProposal p o) := by
  refine ⟨⟨_, _, _, _, _, rfl⟩, fun h q hq => ?_⟩
  rcases List.mem_append.mp hq with hq | hq
  · exact h q hq
  · rw [List.mem_singleton.mp hq]
    exact hp

end Objects.Operated

/-- `adjust_balance` changes the balances. -/
lemma Objects.Effected.adjustBalance {o o' : Objects β ω} {account asset : ℕ} {delta : ℤ}
    (h : o.adjustBalance account asset delta = .ok o') : o.Effected o' := by
  unfold Objects.adjustBalance at h
  by_cases hd : delta = 0
  · rw [if_pos hd] at h
    cases h
    exact ⟨_, _, _, rfl⟩
  · rw [if_neg hd] at h
    cases hb : o.balances.lookup (account, asset) with
    | none =>
        simp only [hb] at h
        split_ifs at h
        cases h
        exact ⟨_, _, _, rfl⟩
    | some balance =>
        simp only [hb] at h
        split_ifs at h
        cases h
        exact ⟨_, _, _, rfl⟩

/-- The steps of an evaluator keep what changes of the balances, the active witnesses and the
other objects, and of the applied operations and balances, keep. -/
lemma Upholds.runEffects {I C : Database β ω → Prop}
    (hmodify : ∀ db o, I db → db.objects.Effected o →
      I { db with undo := db.undo.record db.objects id, objects := o })
    (happlied : ∀ db ops balances, I db →
      I { db with appliedOps := ops, appliedBalances := balances }) (l : List (Effect β ω)) :
    Upholds I C (Database.runEffects l) := by
  refine Upholds.forEach l fun e _ => ?_
  cases e with
  | world f => exact Upholds.update fun db hdb => hmodify db _ hdb ⟨_, _, _, rfl⟩
  | virtualOperation op => exact Upholds.update fun db hdb => happlied db _ _ hdb
  | activeWitnesses ws => exact Upholds.update fun db hdb => hmodify db _ hdb ⟨_, _, _, rfl⟩
  | fail e => exact Upholds.fail e
  | adjustBalance utype info account asset delta =>
      refine Upholds.ite (Upholds.pure ()) (Triple.gets_bind fun db hdb => ?_)
      have hlift : Triple (fun s => s = db)
          (Database.fcLift (db.objects.adjustBalance account asset delta))
          (fun o s => s = db ∧ db.objects.Effected o) (OnFailure I C) := by
        cases hadj : db.objects.adjustBalance account asset delta with
        | error e => exact Triple.raise fun s hs => hs ▸ hdb
        | ok o => exact Triple.pure fun s hs => ⟨hs, Objects.Effected.adjustBalance hadj⟩
      refine Triple.bind hlift fun o => ?_
      have hmodify' : Triple (fun s => s = db ∧ db.objects.Effected o)
          (Database.modifyObjects fun _ => o) (fun _ => I) (OnFailure I C) :=
        Triple.update fun s hs => by
          obtain ⟨rfl, ho⟩ := hs
          exact hmodify s o hdb ho
      refine Triple.bind hmodify' fun _ => Upholds.bind (Upholds.gets _) fun _ => ?_
      refine Upholds.ite (Upholds.bind (Upholds.fcAssert _ _) fun _ => ?_) (Upholds.pure ())
      exact Upholds.update fun db hdb => happlied db _ _ hdb

namespace Operation

/-- The operation is a `proposal_create` or a `proposal_update`. -/
def isProposing : Operation β → Bool
  | .proposalCreate .. => true
  | .proposalUpdate _ => true
  | _ => false

/-- What the operation proposes is in `F`, as far as `is_must_review_period` lets it pass. -/
def Admitted (R : Rules β ω) (F : List (Operation β) → Prop) : Operation β → Prop
  | .proposalCreate _ _ _ ops =>
      ∀ mustReview, Database.isMustReviewPeriod R ops = .ok mustReview → F ops
  | _ => True

lemma admitted_true (R : Rules β ω) (op : Operation β) : op.Admitted R fun _ => True := by
  cases op with
  | proposalCreate _ _ _ _ => exact fun _ _ => trivial
  | _ => trivial

end Operation

/-- What the operations of the transaction propose is in `F`. -/
def Transaction.Admitted (R : Rules β ω) (F : List (Operation β) → Prop) (trx : Transaction β) :
    Prop := ∀ op ∈ trx.operations, op.Admitted R F

/-- What the transactions of the block propose is in `F`. -/
def SignedBlock.Admitted (R : Rules β ω) (F : List (Operation β) → Prop) (b : SignedBlock β) :
    Prop := ∀ trx ∈ b.transactions, trx.Admitted R F

/-- What `proposal_create_evaluator::do_evaluate` makes sure of. -/
lemma evaluateProposalCreate_eq_ok {R : Rules β ω} {o : Objects β ω} {payer expiration : ℕ}
    {review : Option ℕ} {ops : List (Operation β)} {noReview : Bool}
    (h : Database.evaluateProposalCreate R o payer expiration review ops = .ok noReview) :
    ∃ mustReview, Database.isMustReviewPeriod R ops = .ok mustReview ∧
      noReview = (!mustReview && Database.isNoReviewPeriod R ops) ∧
      (noReview = false → (mustReview || R.committeeRequired ops) = true →
        ∃ r, review = some r ∧ R.committeeProposalReviewPeriod o ≤ r) := by
  unfold Database.evaluateProposalCreate at h
  obtain ⟨-, h⟩ := ite_throw_eq_ok.mp h
  obtain ⟨-, h⟩ := ite_throw_eq_ok.mp h
  obtain ⟨-, h⟩ := ite_throw_eq_ok.mp h
  -- the review period is not needed
  have hunneeded : ∀ mustReview, ¬ (!(!mustReview && Database.isNoReviewPeriod R ops) &&
      (mustReview || R.committeeRequired ops)) = true →
      (do
        if !R.validateProposed ops then throw .invalidTransaction
        return !mustReview && Database.isNoReviewPeriod R ops : Except ChainError Bool) =
          .ok noReview →
      noReview = (!mustReview && Database.isNoReviewPeriod R ops) ∧
        ¬ (noReview = false ∧ (mustReview || R.committeeRequired ops) = true) := by
    intro mustReview hneeded hx
    obtain ⟨-, hx⟩ := ite_throw_eq_ok.mp hx
    cases hx
    refine ⟨rfl, fun hreview => hneeded ?_⟩
    rw [hreview.1, hreview.2]
    rfl
  cases review with
  | none =>
      obtain ⟨mustReview, hmust, h⟩ := except_bind_eq_ok.mp h
      obtain ⟨-, h⟩ := ite_throw_eq_ok.mp h
      refine ⟨mustReview, hmust, ?_⟩
      by_cases hneeded : (!(!mustReview && Database.isNoReviewPeriod R ops) &&
          (mustReview || R.committeeRequired ops)) = true
      · simp only [hneeded, if_true] at h
        cases h
      · simp only [hneeded, Bool.false_eq_true, if_false] at h
        obtain ⟨heq, hno⟩ := hunneeded mustReview hneeded h
        exact ⟨heq, fun hfalse hreq => absurd ⟨hfalse, hreq⟩ hno⟩
  | some r =>
      obtain ⟨-, h⟩ := ite_throw_eq_ok.mp h
      obtain ⟨mustReview, hmust, h⟩ := except_bind_eq_ok.mp h
      obtain ⟨-, h⟩ := ite_throw_eq_ok.mp h
      refine ⟨mustReview, hmust, ?_⟩
      by_cases hneeded : (!(!mustReview && Database.isNoReviewPeriod R ops) &&
          (mustReview || R.committeeRequired ops)) = true
      · simp only [hneeded, if_true] at h
        obtain ⟨hlt, h⟩ := ite_throw_eq_ok.mp h
        obtain ⟨-, h⟩ := ite_throw_eq_ok.mp h
        cases h
        exact ⟨rfl, fun _ _ => ⟨r, rfl, not_lt.mp hlt⟩⟩
      · simp only [hneeded, Bool.false_eq_true, if_false] at h
        obtain ⟨heq, hno⟩ := hunneeded mustReview hneeded h
        exact ⟨heq, fun hfalse hreq => absurd ⟨hfalse, hreq⟩ hno⟩

/-- What an invariant needs to hold across operations and the sessions they open, up to `n` of
them; the operations of the proposals are in `F`. -/
structure OperationInvariant (n : ℕ) (F : List (Operation β) → Prop)
    (I : ℕ → Database β ω → Prop) (C : Database β ω → Prop) : Prop where
  crash : ∀ {k db}, I k db → C db
  proposals : ∀ {k db}, I k db → ∀ p ∈ db.objects.proposals, F p.proposedOps
  modify : ∀ {k db o}, I k db → db.objects.Operated F o →
    I k { db with undo := db.undo.record db.objects id, objects := o }
  applied : ∀ {k db} ops balances, I k db →
    I k { db with appliedOps := ops, appliedBalances := balances }
  start : ∀ k < n, Triple (I k) (Database.startUndoSession true) (fun _ => I (k + 1))
    (OnFailure (I k) C)
  undo : ∀ k < n, Triple (I (k + 1)) Database.sessionUndo (fun _ => I k) (OnFailure (I k) C)
  merge : ∀ k < n, Triple (I (k + 1)) Database.sessionMerge (fun _ => I k)
    (OnFailure (I (k + 1)) C)
  exit : ∀ {k db₀ db}, I k db₀ → db₀.undo.disabled = true → I k db →
    I k { db with undo := db.undo.disable }

/-- Operations, and the execution of proposals, uphold the invariant. -/
structure Operates (R : Rules β ω) (d : ℕ) (F : List (Operation β) → Prop)
    (I C : Database β ω → Prop) : Prop where
  operation : ∀ op : Operation β, op.Admitted R F → Upholds I C (Database.applyOperation R d op)
  proposal : ∀ p : ProposalObject β, F p.proposedOps → Upholds I C (Database.pushProposal R d p)

/-- A transaction keeps what its operations and its entry in the transaction index keep. -/
lemma Upholds.applyTransaction {R : Rules β ω} {d : ℕ} {I C : Database β ω → Prop}
    {trx : Transaction β}
    (hops : ∀ op ∈ trx.operations, Upholds I C (Database.applyOperation R d op))
    (hadd : ∀ db, I db → I { db with
      undo := db.undo.record db.objects id, objects := Database.addTransaction trx db.objects }) :
    Upholds I C (Database.applyTransaction R d trx) := by
  refine Upholds.bind (Upholds.gets _) fun skip => Upholds.bind (Upholds.gets _) fun o => ?_
  refine Upholds.bind (Upholds.fcLift _) fun _ => ?_
  have hrest : Upholds I C (do
      Exec.forEach (Database.applyOperation R d) trx.operations
      let o ← Exec.gets (·.objects)
      Database.fcAssert (Database.tempAccountEmpty o) .tempAccountBalance : Act β ω Unit) :=
    Upholds.bind (Upholds.forEach _ hops) fun _ =>
      Upholds.bind (Upholds.gets _) fun o => Upholds.fcAssert _ _
  exact Upholds.ite (Upholds.bind (Upholds.update hadd) fun _ => hrest) hrest

/-- The first proposal to expire is one of the proposals. -/
lemma firstToExpire_mem {l : List (ProposalObject β)} {p : ProposalObject β}
    (h : Database.firstToExpire l = some p) : p ∈ l := by
  induction l generalizing p with
  | nil => cases h
  | cons q l ih =>
      unfold Database.firstToExpire at h
      cases hl : Database.firstToExpire l with
      | none =>
          simp only [hl] at h
          cases h
          exact List.mem_cons_self
      | some r =>
          simp only [hl] at h
          split_ifs at h
          · cases h
            exact List.mem_cons_of_mem _ (ih hl)
          · cases h
            exact List.mem_cons_self

namespace OperationInvariant

variable {R : Rules β ω} {k d n : ℕ} {F : List (Operation β) → Prop}
  {I : ℕ → Database β ω → Prop} {C : Database β ω → Prop} {op : Operation β}

lemma modifyObjects (h : OperationInvariant n F I C) {f : Objects β ω → Objects β ω}
    (hf : ∀ o, Objects.Operated F o (f o)) : Upholds (I k) C (Database.modifyObjects f) :=
  Upholds.update fun _ hdb => h.modify hdb (hf _)

lemma pushAppliedOperation (h : OperationInvariant n F I C) (op : AppliedOperation β) :
    Upholds (I k) C (Database.pushAppliedOperation op) :=
  Upholds.update fun _ hdb => h.applied _ _ hdb

/-- The steps of an evaluator. -/
lemma runEffects (h : OperationInvariant n F I C) (l : List (Effect β ω)) :
    Upholds (I k) C (Database.runEffects l) :=
  Upholds.runEffects (fun _ _ hdb ho => h.modify hdb (.of_effected ho))
    (fun _ ops balances hdb => h.applied ops balances hdb) l

lemma runRule (h : OperationInvariant n F I C) (f : Objects β ω → List (Effect β ω)) :
    Upholds (I k) C (Database.runRule f) :=
  Upholds.bind (Upholds.gets _) fun _ => h.runEffects _

lemma modifyProposal (h : OperationInvariant n F I C) (id : ℕ)
    {f : ProposalObject β → ProposalObject β} (hf : ∀ p, (f p).proposedOps = p.proposedOps) :
    Upholds (I k) C (Database.modifyProposal id f) := by
  refine Upholds.bind (Upholds.gets _) fun _ => Upholds.bind (Upholds.check (fun _ => h.crash) _ _)
    fun _ => ?_
  exact h.modifyObjects fun o => .modifyProposal o id hf

lemma removeProposal (h : OperationInvariant n F I C) (id : ℕ) :
    Upholds (I k) C (Database.removeProposal id) := by
  refine Upholds.bind (Upholds.gets _) fun o => ?_
  cases o.findProposal id with
  | none => exact Upholds.raise (fun _ => h.crash) _
  | some p =>
      have hremove : Upholds (I k) C (Database.removeProposalObject id) :=
        h.modifyObjects fun o => .eraseProposal o id
      refine Upholds.bind (Upholds.gets _) fun status => ?_
      exact Upholds.ite (Upholds.bind (h.pushAppliedOperation _) fun _ => hremove) hremove

/-- `push_proposal` opens one session more than its operations find. -/
lemma pushProposalWith (h : OperationInvariant n F I C) (hk : k < n) {p : ProposalObject β}
    {apply : Operation β → Act β ω Unit}
    (happly : ∀ op ∈ p.proposedOps, Upholds (I (k + 1)) C (apply op)) :
    Upholds (I k) C (Database.pushProposalWith apply p) := by
  refine Upholds.bind (Upholds.gets _) fun n => Upholds.catchFc (J := I k) ?_ (fun e => ?_)
    fun _ hC => hC
  · refine Upholds.inSession (h.start k hk) ?_ (h.undo k hk) fun db hdb hc => ?_
    refine Triple.bind (Q := fun _ => I (k + 1)) ?_ fun _ => ?_
    · refine Upholds.forEach _ fun op hop => Upholds.bind (happly op hop) fun _ => ?_
      exact Upholds.bind (Upholds.gets _) fun o => Upholds.check (fun _ => h.crash) _ _
    · refine Triple.bind (h.modifyProposal _ fun _ => rfl) fun _ => ?_
      exact Triple.bind (h.removeProposal _) fun _ => h.merge k hk
    · have hdis : db.undo.disabled = true := by simpa using hc
      exact ⟨fun _ h' => h.exit hdb hdis h', fun _ _ h' => h.exit hdb hdis h'⟩
  · exact Upholds.bind (Upholds.update fun _ hdb => h.applied _ _ hdb) fun _ => Upholds.fail e

/-- The evaluators of the operations on proposals. Only those that propose execute proposals. -/
lemma evaluateWith (h : OperationInvariant n F I C) {push : ProposalObject β → Act β ω Unit}
    (hop : op.Admitted R F)
    (hpush : op.isProposing = true → ∀ p, F p.proposedOps → Upholds (I k) C (push p)) :
    Upholds (I k) C (Database.evaluateWith R push op) := by
  have heffects : ∀ l : List (Effect β ω), Upholds (I k) C (Database.runEffects l) := h.runEffects
  have hcatch : ∀ {α : Type} {x y : Act β ω α}, Upholds (I k) C x → Upholds (I k) C y →
      Upholds (I k) C (Database.catchFc x fun _ => y) :=
    fun hx hy => Upholds.catchFc hx (fun _ => hy) fun _ hC => hC
  cases op with
  | basic o => exact h.runRule _
  | proposalCreate payer expiration review ops =>
      refine Upholds.bind (Upholds.gets _) fun o => Upholds.bind (heffects _) fun _ => ?_
      refine triple_fcLift_bind (fun _ _ hdb _ => hdb) fun noReview haccepted => ?_
      obtain ⟨mustReview, hmust, -⟩ := evaluateProposalCreate_eq_ok haccepted
      have hops : F ops := hop mustReview hmust
      refine Upholds.bind (heffects _) fun _ => ?_
      refine Upholds.bind ?_ fun paid => Upholds.ite (heffects _) (Upholds.pure ())
      refine Upholds.bind (h.modifyObjects fun o => .addProposal o hops) fun _ => ?_
      refine Upholds.bind (Upholds.gets _) fun o => Upholds.ite (hcatch ?_ ?_) (Upholds.pure _)
      · refine Upholds.bind (hpush rfl _ hops) fun _ => ?_
        exact Upholds.bind (heffects _) fun _ => Upholds.pure _
      · exact Upholds.bind (h.modifyProposal _ fun _ => rfl) fun _ => Upholds.pure _
  | proposalUpdate u =>
      refine Upholds.bind (Upholds.gets _) fun o => Upholds.bind (heffects _) fun _ => ?_
      refine Upholds.bind (Upholds.fcLift _) fun _ => Upholds.bind (heffects _) fun _ => ?_
      refine Upholds.bind ?_ fun _ => heffects _
      refine Upholds.bind (h.modifyProposal _ fun _ => rfl) fun _ => Upholds.gets_bind fun s hs => ?_
      cases hp : s.objects.findProposal u.proposal with
      | none => exact Upholds.raise (fun _ => h.crash) _
      | some p =>
          have hops : F p.proposedOps := h.proposals hs p (List.mem_of_find?_eq_some hp)
          refine Upholds.ite (Upholds.ite (h.modifyProposal _ fun _ => rfl) (Upholds.pure ())) ?_
          exact Upholds.ite (hcatch (hpush rfl p hops) (h.modifyProposal _ fun _ => rfl))
            (Upholds.pure ())
  | proposalDelete u =>
      refine Upholds.bind (Upholds.gets _) fun o => Upholds.bind (heffects _) fun _ => ?_
      refine Upholds.bind (Upholds.fcLift _) fun _ => Upholds.bind (heffects _) fun _ => ?_
      refine Upholds.bind ?_ fun _ => heffects _
      exact h.modifyObjects fun o => .eraseProposal o _

/-- An operation that does not propose needs no room on the call stack. -/
lemma applyOperation_zero (h : OperationInvariant n F I C) (hop : op.Admitted R F)
    (hstack : op.isProposing = true → Upholds (I k) C Database.stackOverflow) :
    Upholds (I k) C (Database.applyOperation R 0 op) :=
  Upholds.bind (h.pushAppliedOperation _) fun _ => h.evaluateWith hop fun hp _ _ => hstack hp

/-- If the operations of a proposal uphold the invariant in its session, an operation does. -/
lemma applyOperation_succ (h : OperationInvariant n F I C) (hk : k < n) (hop : op.Admitted R F)
    (hops : ∀ ops, F ops → ∀ op ∈ ops, Upholds (I (k + 1)) C (Database.applyOperation R d op)) :
    Upholds (I k) C (Database.applyOperation R (d + 1) op) := by
  refine Upholds.bind (h.pushAppliedOperation _) fun _ => h.evaluateWith hop fun _ p hp => ?_
  exact h.pushProposalWith hk (hops _ hp)

/-- **Operations keep the invariant**, however deep the proposals they execute nest. -/
theorem operates (h : OperationInvariant n F I C) (hk : k + d ≤ n)
    (hF : ∀ ops, F ops → ∀ op ∈ ops, op.Admitted R F)
    (hstack : ∀ k, Upholds (I k) C Database.stackOverflow) : Operates R d F (I k) C := by
  induction d generalizing k with
  | zero =>
      exact ⟨fun op hop => h.applyOperation_zero hop fun _ => hstack k, fun _ _ => hstack k⟩
  | succ d ih =>
      have hops : ∀ ops, F ops → ∀ op ∈ ops,
          Upholds (I (k + 1)) C (Database.applyOperation R d op) :=
        fun ops hops op hop => (ih (by omega)).operation op (hF ops hops op hop)
      exact ⟨fun op hop => h.applyOperation_succ (by omega) hop hops,
        fun p hp => h.pushProposalWith (by omega) (hops _ hp)⟩

/-- So they do, whatever they propose, where the end of the program does not matter. -/
lemma operates_all (h : OperationInvariant n (fun _ => True) I fun _ => True) (hk : k + d ≤ n) :
    Operates R d (fun _ => True) (I k) fun _ => True := by
  refine h.operates hk (fun _ _ op _ => Operation.admitted_true R op) fun _ => ?_
  exact Triple.bind (Q := fun _ _ => True) (Triple.update fun _ _ => trivial) fun _ =>
    Triple.raise fun _ _ => trivial

/-- The removal of the expired proposals. -/
lemma clearExpiredProposals (h : OperationInvariant n F I C) (ho : Operates R d F (I k) C) :
    Upholds (I k) C (Database.clearExpiredProposals R d) := by
  refine Upholds.bind (Upholds.gets _) fun o => ?_
  generalize o.proposals.length = fuel
  induction fuel with
  | zero => exact Upholds.pure ()
  | succ fuel ih =>
      refine Upholds.gets_bind fun s hs => ?_
      cases hp : Database.firstToExpire s.objects.proposals with
      | none => exact Upholds.pure ()
      | some p =>
          have hops : F p.proposedOps := h.proposals hs p (firstToExpire_mem hp)
          refine Upholds.ite (Upholds.bind ?_ fun _ => ih) (Upholds.pure ())
          refine Upholds.bind (Upholds.gets _) fun o => Upholds.bind ?_ fun executed =>
            Upholds.ite (h.removeProposal _) (Upholds.pure ())
          refine Upholds.catchFc (J := I k) ?_ (fun _ => ?_) fun _ hC => hC
          · refine Upholds.ite ?_ ?_
            · exact Upholds.bind (ho.proposal p hops) fun _ => Upholds.pure _
            · exact Upholds.bind (h.modifyProposal _ fun _ => rfl) fun _ => Upholds.pure _
          · exact Upholds.bind (h.modifyProposal _ fun _ => rfl) fun _ => Upholds.pure _

end OperationInvariant

end Operations

/-! ### What undo brings back -/

section Above

variable {β ω : Type} {R : Rules β ω} {d : ℕ} {Q : ℕ → Objects β ω → Prop}

/-- The objects are in `Q`, and so are the undo states of the last `k` sessions, as far as they are
there. `Q` also looks at the size to which the undo states are trimmed. -/
def Above (Q : ℕ → Objects β ω → Prop) (k : ℕ) (db : Database β ω) : Prop :=
  Q db.undo.maxSize db.objects ∧ ∀ o ∈ db.undo.stack.take k, Q db.undo.maxSize o

/-- With no session open only the objects matter. -/
lemma above_zero {db : Database β ω} (h : Q db.undo.maxSize db.objects) : Above Q 0 db :=
  ⟨h, by simp⟩

namespace Above

variable {k : ℕ} {db : Database β ω}

/-- A change of the objects: if there is no undo state, the one that is made is in `Q`. -/
lemma record (h : Above Q k db) {o : Objects β ω} (ho : Q db.undo.maxSize o) :
    Above Q k { db with undo := db.undo.record db.objects id, objects := o } := by
  refine ⟨by simpa using ho, ?_⟩
  simp only [UndoDatabase.record_maxSize]
  by_cases hne : db.undo.stack = []
  · intro s hs
    have hmem := List.mem_of_mem_take hs
    unfold UndoDatabase.record at hmem
    split_ifs at hmem
    · rw [hne] at hmem; cases hmem
    · rw [hne] at hmem
      rw [List.mem_singleton.mp hmem]
      exact h.1
  · rw [UndoDatabase.record_id hne]
    exact h.2

lemma startUndoSession (h : Above Q k db) (forceEnable : Bool)
    (henabled : (db.undo.disabled && !forceEnable) = false) :
    Above Q (k + 1)
      { db with undo := db.undo.startUndoSession db.objects forceEnable } := by
  simp only [Above, UndoDatabase.startUndoSession, henabled, Bool.false_eq_true, if_false,
    UndoDatabase.trim, List.take_succ_cons, List.forall_mem_cons]
  refine ⟨h.1, h.1, fun s hs => ?_⟩
  rw [List.take_take] at hs
  exact h.2 s (List.take_subset_take_left _ (min_le_left _ _) hs)

lemma undo (h : Above Q (k + 1) db) {o : Objects β ω} {u : UndoDatabase (Objects β ω)}
    (hu : db.undo.undo UndoDatabase.restoreSnapshot db.objects = .ok (o, u)) :
    Above Q k { db with objects := o, undo := u } := by
  obtain ⟨s, l, hstack, rfl, rfl⟩ := UndoDatabase.undo_restoreSnapshot hu
  rw [Above, hstack, List.take_succ_cons, List.forall_mem_cons] at h
  exact h.2

lemma merge (h : Above Q (k + 1) db) {u : UndoDatabase (Objects β ω)}
    (hu : db.undo.merge UndoDatabase.combineSnapshot = .ok u) :
    Above Q k { db with undo := u } := by
  obtain ⟨-, rfl⟩ := UndoDatabase.merge_combineSnapshot hu
  refine ⟨h.1, fun s hs => h.2 s ?_⟩
  cases hst : db.undo.stack with
  | nil => simp [hst] at hs
  | cons o l =>
      simp only [hst, List.tail_cons] at hs
      exact List.mem_cons_of_mem _ hs

end Above

/-- Operations, and the proposals they execute, keep what is kept by changes of the balances, the
witnesses, the proposals and the other objects: a session that is undone brings back objects that
are in `Q`, also when states of open sessions have been trimmed. -/
lemma OperationInvariant.above (hQ : ∀ m o o', Q m o → o.Operated (fun _ => True) o' → Q m o')
    (n : ℕ) : OperationInvariant n (fun _ => True) (Above Q) fun _ => True where
  crash _ := trivial
  proposals _ _ _ := trivial
  applied _ _ h := h
  modify h ho := h.record (hQ _ _ _ h.1 ho)
  start k _ := by
    refine Triple.bind (Q := fun _ => Above Q k) (Triple.update fun _ h => h) fun _ => ?_
    exact Triple.update fun db h => h.startUndoSession true (by simp)
  undo k _ := by
    refine Triple.bind (Q := fun _ => Above Q (k + 1)) (Triple.update fun _ h => h) fun _ => ?_
    exact triple_onUndo (fun _ _ _ h hu => h.undo hu) fun _ _ _ _ => trivial
  merge k _ := by
    refine Triple.bind (Q := fun _ => Above Q (k + 1)) (Triple.update fun _ h => h) fun _ => ?_
    refine triple_onUndo (fun db o u h hu => ?_) fun _ _ h _ => h
    obtain ⟨u', hmerge, hou⟩ := except_map_eq_ok.mp hu
    obtain ⟨rfl, rfl⟩ := Prod.mk.inj hou
    exact h.merge hmerge
  exit _ _ h := h

/-- The objects are in `Q`. -/
def OnObjects (Q : ℕ → Objects β ω → Prop) (db : Database β ω) : Prop :=
  Q db.undo.maxSize db.objects

/-- Between sessions only the objects matter. -/
lemma triple_onObjects {α : Type} {x : Act β ω α} (h : Upholds (Above Q 0) (fun _ => True) x) :
    Triple (OnObjects Q) x (fun _ => OnObjects Q) fun _ _ => True :=
  h.conseq (fun _ hdb => above_zero hdb) (fun _ _ hdb => hdb.1) fun _ _ _ => trivial

end Above

/-! ### What a block does to the head of the chain -/

section Dynamic

variable {β ω : Type} {R : Rules β ω} {d : ℕ}

/-- The fields of the objects that blocks change and operations do not. -/
structure Dynamic (β : Type) where
  headBlockNumber : ℕ
  headBlockId : BlockId
  time : ℕ
  lastIrreversibleBlockNum : ℕ
  chain : List (SignedBlock β)
  lastConfirmed : ℕ → ℕ

/-- The dynamic fields of the objects. -/
def Objects.dynamic (o : Objects β ω) : Dynamic β where
  headBlockNumber := o.headBlockNumber
  headBlockId := o.headBlockId
  time := o.time
  lastIrreversibleBlockNum := o.lastIrreversibleBlockNum
  chain := o.chain
  lastConfirmed := o.lastConfirmed

/-- The block `b` leads from `c` to `c'`: it follows the head of `c` and is the head of `c'`, and
its witness has confirmed it. The last irreversible block stays or is one that a witness has
confirmed. -/
structure Dynamic.Extends (c : Dynamic β) (b : SignedBlock β) (c' : Dynamic β) : Prop where
  previous : c.headBlockId = b.previous
  later : c.time < b.timestamp
  headBlockNumber : c'.headBlockNumber = b.blockNum
  headBlockId : c'.headBlockId = b.id
  time : c'.time = b.timestamp
  chain : c'.chain = b :: c.chain
  lastConfirmed : c'.lastConfirmed = Function.update c.lastConfirmed b.witness b.blockNum
  irreversible : c.lastIrreversibleBlockNum ≤ c'.lastIrreversibleBlockNum ∧
    (c'.lastIrreversibleBlockNum = c.lastIrreversibleBlockNum ∨
      ∃ w, c'.lastIrreversibleBlockNum = c'.lastConfirmed w)

/-- What holds of the dynamic fields from the beginning of the chain on. -/
structure Dynamic.Sound (c : Dynamic β) : Prop where
  headBlockId : c.headBlockId.num = c.headBlockNumber
  irreversible : c.lastIrreversibleBlockNum ≤ c.headBlockNumber
  confirmed : ∀ w, c.lastConfirmed w ≤ c.headBlockNumber

/-- The chain of `c'` is that of `c`, or longer. -/
structure Dynamic.Grows (c c' : Dynamic β) : Prop where
  headBlockNumber : c.headBlockNumber ≤ c'.headBlockNumber
  irreversible : c.lastIrreversibleBlockNum ≤ c'.lastIrreversibleBlockNum
  chain : ∃ l, c'.chain = l ++ c.chain ∧ ∀ b ∈ l, c.headBlockNumber < b.blockNum

/-- From sound fields the chain grows to sound fields. -/
def Dynamic.Leads (c c' : Dynamic β) : Prop := c.Sound → c.Grows c' ∧ c'.Sound

namespace Dynamic

variable {c c' c'' : Dynamic β} {b : SignedBlock β}

lemma Grows.refl (c : Dynamic β) : c.Grows c := ⟨le_rfl, le_rfl, [], rfl, nofun⟩

lemma Leads.refl (c : Dynamic β) : c.Leads c := fun h => ⟨.refl c, h⟩

/-- The dynamic fields after `update_global_dynamic_data`. -/
def withHead (c : Dynamic β) (b : SignedBlock β) : Dynamic β :=
  { c with
    headBlockNumber := b.blockNum
    headBlockId := b.id
    time := b.timestamp
    chain := b :: c.chain }

/-- The dynamic fields after `update_signing_witness`. -/
def withConfirmed (c : Dynamic β) (b : SignedBlock β) : Dynamic β :=
  { c with lastConfirmed := Function.update c.lastConfirmed b.witness b.blockNum }

/-- The last irreversible block stays, or becomes a later one that a witness has confirmed. -/
def Confirms (c c' : Dynamic β) : Prop :=
  c' = c ∨ ∃ w, c.lastIrreversibleBlockNum < c.lastConfirmed w ∧
    c' = { c with lastIrreversibleBlockNum := c.lastConfirmed w }

/-- The number of a block that follows. -/
lemma Sound.blockNum_eq (h : c.Sound) (hprev : c.headBlockId = b.previous) :
    b.blockNum = c.headBlockNumber + 1 := by
  rw [SignedBlock.blockNum, ← hprev, h.headBlockId]

lemma leads_withHead (hprev : c.headBlockId = b.previous) : c.Leads (c.withHead b) := by
  intro hc
  have hnum := hc.blockNum_eq hprev
  have hirr := hc.irreversible
  refine ⟨⟨?_, le_rfl, [b], rfl, ?_⟩, rfl, ?_, fun w => ?_⟩
  · change c.headBlockNumber ≤ b.blockNum
    omega
  · simp only [List.mem_singleton, forall_eq]
    omega
  · change c.lastIrreversibleBlockNum ≤ b.blockNum
    omega
  · have hw := hc.confirmed w
    change c.lastConfirmed w ≤ b.blockNum
    omega

lemma leads_withConfirmed (hnum : c.headBlockNumber = b.blockNum) :
    c.Leads (c.withConfirmed b) := by
  intro hc
  refine ⟨.mk le_rfl le_rfl ⟨[], rfl, nofun⟩, hc.headBlockId, hc.irreversible, fun w => ?_⟩
  change Function.update c.lastConfirmed b.witness b.blockNum w ≤ c.headBlockNumber
  by_cases hw : w = b.witness
  · subst hw
    rw [Function.update_self, hnum]
  · rw [Function.update_of_ne hw]
    exact hc.confirmed w

lemma Confirms.leads (h : c.Confirms c') : c.Leads c' := by
  rcases h with rfl | ⟨w, hlt, rfl⟩
  · exact .refl _
  · exact fun hc => ⟨⟨le_rfl, hlt.le, [], rfl, nofun⟩, hc.headBlockId, hc.confirmed w, hc.confirmed⟩

/-- After a block that follows the head, what comes out extends the chain. -/
lemma Extends.of_confirms (hfollows : c.headBlockId = b.previous ∧ c.time < b.timestamp)
    (h : ((c.withHead b).withConfirmed b).Confirms c') : c.Extends b c' := by
  rcases h with rfl | ⟨w, hlt, rfl⟩
  · exact ⟨hfollows.1, hfollows.2, rfl, rfl, rfl, rfl, rfl, le_rfl, .inl rfl⟩
  · exact ⟨hfollows.1, hfollows.2, rfl, rfl, rfl, rfl, rfl, hlt.le, .inr ⟨w, rfl⟩⟩

/-- The block is one higher than the head before it. -/
lemma Extends.blockNum_eq (h : c.Extends b c') (hc : c.Sound) :
    b.blockNum = c.headBlockNumber + 1 := hc.blockNum_eq h.previous

/-- What a block leads to is sound, if what was before is. -/
lemma Extends.sound (h : c.Extends b c') (hc : c.Sound) : c'.Sound := by
  have hnum := h.blockNum_eq hc
  have hconf : ∀ w, c'.lastConfirmed w ≤ b.blockNum := by
    intro w
    rw [h.lastConfirmed]
    by_cases hw : w = b.witness
    · subst hw
      rw [Function.update_self]
    · rw [Function.update_of_ne hw]
      have := hc.confirmed w
      omega
  refine ⟨by rw [h.headBlockId, h.headBlockNumber]; rfl, ?_, fun w => h.headBlockNumber ▸ hconf w⟩
  rw [h.headBlockNumber]
  obtain ⟨-, heq | ⟨w, heq⟩⟩ := h.irreversible
  · have := hc.irreversible
    omega
  · rw [heq]
    exact hconf w

end Dynamic

/-- The dynamic fields are `c`, and the undo states are trimmed to `m`. -/
def DynamicIs (c : Dynamic β) (m : ℕ) : Database β ω → Prop :=
  OnObjects fun m' o => m' = m ∧ o.dynamic = c

lemma Objects.Operated.dynamic {F : List (Operation β) → Prop} {o o' : Objects β ω}
    (h : o.Operated F o') : o'.dynamic = o.dynamic := by
  obtain ⟨⟨_, _, _, _, _, rfl⟩, -⟩ := h
  rfl

lemma dynamic_invariant (c : Dynamic β) (m n : ℕ) :
    OperationInvariant n (fun _ => True)
      (Above fun m' (o : Objects β ω) => m' = m ∧ o.dynamic = c) fun _ => True :=
  OperationInvariant.above (fun _ _ _ h ho => ⟨h.1, ho.dynamic.trans h.2⟩) n

namespace DynamicIs

variable {c : Dynamic β} {m : ℕ}

lemma runRule (f : Objects β ω → List (Effect β ω)) :
    Triple (DynamicIs c m) (Database.runRule f) (fun _ => DynamicIs c m) fun _ _ => True :=
  triple_onObjects ((dynamic_invariant c m 0).runRule f)

/-- Transactions leave the dynamic fields. -/
lemma applyTransactions (l : List (Transaction β)) :
    Triple (DynamicIs c m) (Exec.forEach (Database.applyTransaction R d) l)
      (fun _ => DynamicIs c m) fun _ _ => True := by
  refine triple_onObjects (Upholds.forEach l fun trx _ => Upholds.applyTransaction (fun op _ => ?_)
    fun db h => h.record h.1)
  exact ((dynamic_invariant c m (0 + d)).operates_all le_rfl).operation op (op.admitted_true R)

lemma clearExpiredProposals :
    Triple (DynamicIs c m) (Database.clearExpiredProposals R d) (fun _ => DynamicIs c m)
      fun _ _ => True := by
  have h := dynamic_invariant (ω := ω) c m (0 + d)
  exact triple_onObjects (h.clearExpiredProposals (h.operates_all le_rfl))

end DynamicIs

/-- What has been confirmed by so many witnesses was confirmed by one of them. -/
lemma exists_confirmedByThreshold {o : Objects β ω} {n : ℕ}
    (h : Database.confirmedByThreshold o = some n) : ∃ w, n = o.lastConfirmed w := by
  have hmem : n ∈ (o.activeWitnesses.map o.lastConfirmed).insertionSort (· ≤ ·) :=
    List.mem_of_getElem? h
  rw [List.mem_insertionSort] at hmem
  obtain ⟨w, -, hw⟩ := List.mem_map.mp hmem
  exact ⟨w, hw.symm⟩

/-- A header that is valid follows the head of the chain, at a later time. -/
lemma validateBlockHeader_eq_ok {skip : SkipFlags} {b : SignedBlock β} {o : Objects β ω}
    (h : Database.validateBlockHeader R skip b o = .ok ()) :
    o.headBlockId = b.previous ∧ o.time < b.timestamp := by
  unfold Database.validateBlockHeader at h
  by_cases hprev : o.headBlockId ≠ b.previous
  · simp only [hprev, ne_eq, not_false_eq_true, if_true] at h
    cases h
  · by_cases htime : o.time < b.timestamp
    · exact ⟨not_not.mp hprev, htime⟩
    · simp only [hprev, if_false, htime, not_false_eq_true, if_true] at h
      cases h

/-- `o'` differs from `o` in what a block changes after the head has moved: the confirmed and the
last irreversible block, the block summaries, and expired transactions are forgotten. -/
structure Objects.Concluded (o o' : Objects β ω) : Prop where
  leads : o.dynamic.Leads o'.dynamic
  headBlockNumber : o'.headBlockNumber = o.headBlockNumber
  time : o'.time = o.time
  chain : o'.chain = o.chain
  proposals : o'.proposals = o.proposals
  transactions : ∀ t ∈ o.transactions, o.time ≤ t.expiration → t ∈ o'.transactions

/-- What an invariant needs to hold across the steps of the block `b` on top of `c`, with the flags
`skip`. The block is applied in a session of its own; `I k` is for `k` more open sessions. `J` holds
when the transactions have been applied and the head is still that of `c`. -/
structure BlockSteps (R : Rules β ω) (d n : ℕ) (F : List (Operation β) → Prop) (c : Dynamic β)
    (b : SignedBlock β) (skip : SkipFlags) (I : ℕ → Database β ω → Prop)
    (J C : Database β ω → Prop) : Prop extends OperationInvariant n F I C where
  operates : Operates R d F (I 0) C
  transactions : c.headBlockId = b.previous →
    Triple (fun db => I 0 db ∧ db.objects.dynamic = c ∧ db.skipFlags = skip)
      (Exec.forEach (Database.applyTransaction R d) b.transactions) (fun _ => J)
      (OnFailure (I 0) C)
  rule : ∀ f, Triple J (Database.runRule f) (fun _ => J) (OnFailure (I 0) C)
  head : ∀ {db}, c.headBlockId = b.previous → c.time < b.timestamp → J db →
    db.objects.dynamic = c → I 0 { db with
      undo := db.undo.record db.objects id, objects := Database.setHeadBlock b db.objects }
  concluded : ∀ {db o}, I 0 db → db.objects.Concluded o →
    I 0 { db with undo := db.undo.record db.objects id, objects := o }
  other : ∀ {db} maxBlockSize skipFlags appStatus, I 0 db →
    I 0 { db with blockDb := { db.blockDb with maxBlockSize }, skipFlags, appStatus }
  ended : ∀ {db} skipFlags appStatus, C db → C { db with skipFlags, appStatus }
  resize : ∀ {db}, c.headBlockId = b.previous → I 0 db → I 0 { db with
    undo := db.undo.setMaxSize (b.blockNum - c.lastIrreversibleBlockNum + 1)
    forkDb := db.forkDb.setMaxSize (b.blockNum - c.lastIrreversibleBlockNum + 1) }

namespace BlockSteps

variable {c c' : Dynamic β} {m n : ℕ} {b : SignedBlock β} {skip : SkipFlags}
  {F : List (Operation β) → Prop} {I : ℕ → Database β ω → Prop} {J C : Database β ω → Prop}

/-- A change of the objects that takes the dynamic fields from `c` to `c'`. -/
lemma modifyObjects {x : Dynamic β} (h : BlockSteps R d n F x b skip I J C)
    {f : Objects β ω → Objects β ω}
    (hf : ∀ o, o.dynamic = c → (f o).dynamic = c' ∧ o.Concluded (f o)) :
    Triple (fun db => I 0 db ∧ DynamicIs c m db) (Database.modifyObjects f)
      (fun _ db => I 0 db ∧ DynamicIs c' m db) (OnFailure (I 0) C) := by
  refine Triple.update fun db hdb => ⟨h.concluded hdb.1 (hf _ hdb.2.2).2, ?_, (hf _ hdb.2.2).1⟩
  exact (UndoDatabase.record_maxSize _ _ _).trans hdb.2.1

/-- The head of the chain moves, and the undo history is given its length. -/
lemma updateGlobalDynamicData (h : BlockSteps R d n F c b skip I J C)
    (hprev : c.headBlockId = b.previous) (hlater : c.time < b.timestamp) :
    Triple (fun db => J db ∧ DynamicIs c m db) (Database.updateGlobalDynamicData R b)
      (fun _ db => I 0 db ∧ DynamicIs (c.withHead b)
        (b.blockNum - c.lastIrreversibleBlockNum + 1) db) (OnFailure (I 0) C) := by
  have hmissed : Triple (fun db => J db ∧ DynamicIs c m db) (Database.runRule (R.updateMissed b))
      (fun _ db => J db ∧ DynamicIs c m db) (OnFailure (I 0) C) :=
    (Triple.and (h.rule _) (DynamicIs.runRule _)).conseq (fun _ hdb => hdb) (fun _ _ hdb => hdb)
      fun _ _ hdb => hdb.1
  have hhead : Triple (fun db => J db ∧ DynamicIs c m db)
      (Database.modifyObjects (Database.setHeadBlock b))
      (fun _ db => I 0 db ∧ DynamicIs (c.withHead b) m db) (OnFailure (I 0) C) := by
    refine Triple.update fun db hdb => ⟨h.head hprev hlater hdb.1 hdb.2.2, ?_, ?_⟩
    · exact (UndoDatabase.record_maxSize _ _ _).trans hdb.2.1
    · rw [← hdb.2.2]
      rfl
  refine Triple.bind hmissed fun _ => Triple.bind hhead fun _ => ?_
  refine Triple.gets_bind fun s hs => Triple.bind (Keeps.gets _) fun skip => ?_
  have hnum : s.objects.headBlockNumber = b.blockNum := congrArg Dynamic.headBlockNumber hs.2.2
  have hirr : s.objects.lastIrreversibleBlockNum = c.lastIrreversibleBlockNum :=
    congrArg Dynamic.lastIrreversibleBlockNum hs.2.2
  have hupdate : Triple (fun s' => s' = s)
      (Exec.update fun db : Database β ω => { db with
        undo := db.undo.setMaxSize (s.objects.headBlockNumber -
          s.objects.lastIrreversibleBlockNum + 1)
        forkDb := db.forkDb.setMaxSize (s.objects.headBlockNumber -
          s.objects.lastIrreversibleBlockNum + 1) } : Act β ω Unit)
      (fun _ db => I 0 db ∧ DynamicIs (c.withHead b)
        (b.blockNum - c.lastIrreversibleBlockNum + 1) db) (OnFailure (I 0) C) := by
    refine Triple.update fun s' hs' => ?_
    subst hs'
    rw [hnum, hirr]
    exact ⟨h.resize hprev hs.1, rfl, hs.2.2⟩
  refine Triple.ite (fun _ => ?_) fun _ => hupdate
  refine Triple.bind (Triple.check (fun _ hs' _ => hs') fun _ hs' _ => ?_) fun _ => hupdate
  subst hs'
  exact hs.1

lemma updateSigningWitness {x : Dynamic β} (h : BlockSteps R d n F x b skip I J C)
    (hnum : c.headBlockNumber = b.blockNum) :
    Triple (fun db => I 0 db ∧ DynamicIs c m db) (Database.updateSigningWitness R b)
      (fun _ db => I 0 db ∧ DynamicIs (c.withConfirmed b) m db) (OnFailure (I 0) C) := by
  refine Triple.bind ((h.runRule _).also (DynamicIs.runRule _)) fun _ => ?_
  refine h.modifyObjects fun o ho => ?_
  subst ho
  exact ⟨rfl, Dynamic.leads_withConfirmed hnum, rfl, rfl, rfl, rfl, fun _ ht _ => ht⟩

lemma updateLastIrreversibleBlock {x : Dynamic β} (h : BlockSteps R d n F x b skip I J C) :
    Triple (fun db => I 0 db ∧ DynamicIs c m db) Database.updateLastIrreversibleBlock
      (fun _ db => ∃ c', c.Confirms c' ∧ I 0 db ∧ DynamicIs c' m db) (OnFailure (I 0) C) := by
  refine Triple.gets_bind fun s hs => ?_
  have hc := hs.2.2
  cases hn : Database.confirmedByThreshold s.objects with
  | none => exact Triple.raise fun _ hdb => hdb ▸ h.crash hs.1
  | some n =>
      obtain ⟨w, hw⟩ := exists_confirmedByThreshold hn
      have hirr : s.objects.lastIrreversibleBlockNum = c.lastIrreversibleBlockNum :=
        congrArg Dynamic.lastIrreversibleBlockNum hc
      have hconf : s.objects.lastConfirmed = c.lastConfirmed := congrArg Dynamic.lastConfirmed hc
      rw [hconf] at hw
      refine Triple.ite (fun hlt => ?_) fun _ => Triple.pure fun s' hs' => ⟨c, .inl rfl, hs' ▸ hs⟩
      rw [hirr, hw] at hlt
      have hconfirms : c.Confirms { c with lastIrreversibleBlockNum := n } := .inr ⟨w, hlt, by rw [hw]⟩
      have hf : ∀ o : Objects β ω, o.dynamic = c →
          ({ o with lastIrreversibleBlockNum := n } : Objects β ω).dynamic =
              { c with lastIrreversibleBlockNum := n } ∧
            o.Concluded { o with lastIrreversibleBlockNum := n } := by
        intro o ho
        subst ho
        exact ⟨rfl, hconfirms.leads, rfl, rfl, rfl, rfl, fun _ ht _ => ht⟩
      have hmodify := h.modifyObjects (m := m) hf
      exact hmodify.conseq (fun _ hdb => hdb ▸ hs) (fun _ _ hdb => ⟨_, hconfirms, hdb⟩)
        fun _ _ hdb => hdb

/-- The end of `_apply_block`. -/
lemma endOfBlock {x : Dynamic β} (h : BlockSteps R d n F x b skip I J C) :
    Triple (fun db => I 0 db ∧ DynamicIs c m db) (do
        Database.createBlockSummary b
        Database.clearExpiredTransactions
        Database.clearExpiredProposals R d
        Database.runRule (R.endOfBlock b)
        Database.clearApplied
        Database.notifyChangedObjects)
      (fun _ db => I 0 db ∧ DynamicIs c m db) (OnFailure (I 0) C) := by
  refine Triple.bind (h.modifyObjects fun o ho => ⟨ho, .refl _, rfl, rfl, rfl, rfl, fun _ ht _ => ht⟩)
    fun _ => ?_
  refine Triple.bind (h.modifyObjects fun o ho => ⟨ho, .refl _, rfl, rfl, rfl, rfl, fun t ht hle =>
    List.mem_filter.mpr ⟨ht, decide_eq_true hle⟩⟩) fun _ => ?_
  refine Triple.bind ((h.clearExpiredProposals h.operates).also
    DynamicIs.clearExpiredProposals) fun _ => ?_
  refine Triple.bind ((h.runRule _).also (DynamicIs.runRule _)) fun _ => ?_
  refine Triple.bind (Keeps.update fun _ hdb => ⟨h.applied _ _ hdb.1, hdb.2⟩) fun _ => ?_
  refine Triple.bind (Keeps.gets _) fun _ => ?_
  exact Triple.check (fun _ hdb _ => hdb) fun _ hdb _ => hdb.1

lemma applyBlockLocked (h : BlockSteps R d n F c b skip I J C) :
    Triple (fun db => I 0 db ∧ db.objects.dynamic = c ∧ db.skipFlags = skip)
      (Database.applyBlockLocked R d b)
      (fun _ db => I 0 db ∧ c.Extends b db.objects.dynamic ∧
        db.undo.maxSize = b.blockNum - c.lastIrreversibleBlockNum + 1) (OnFailure (I 0) C) := by
  refine Triple.bind (Keeps.gets _) fun _ => ?_
  refine Triple.bind (Q := fun _ db => I 0 db ∧ db.objects.dynamic = c ∧ db.skipFlags = skip)
    (Triple.check (fun _ hdb _ => hdb) fun _ hdb _ => hdb.1) fun _ => Triple.gets_bind fun s hs => ?_
  -- the block is valid, and its transactions leave the dynamic fields
  refine triple_fcLift_bind (fun _ _ hdb _ => hdb ▸ hs.1) fun _ hv => ?_
  have hfollows : c.headBlockId = b.previous ∧ c.time < b.timestamp :=
    hs.2.1 ▸ validateBlockHeader_eq_ok hv
  have htrxs : Triple (fun db => db = s) (Exec.forEach (Database.applyTransaction R d) b.transactions)
      (fun _ db => J db ∧ DynamicIs c s.undo.maxSize db) (OnFailure (I 0) C) :=
    (Triple.and (h.transactions hfollows.1) (DynamicIs.applyTransactions b.transactions)).conseq
      (fun _ hdb => by subst hdb; exact ⟨hs, rfl, hs.2.1⟩) (fun _ _ hdb => hdb)
      fun _ _ hdb => hdb.1
  refine Triple.bind htrxs fun _ => ?_
  -- the head moves, and the last irreversible block may
  refine Triple.bind (h.updateGlobalDynamicData hfollows.1 hfollows.2) fun _ => ?_
  refine Triple.bind (h.updateSigningWitness rfl) fun _ => ?_
  refine Triple.bind h.updateLastIrreversibleBlock fun _ => Triple.of_exists fun c' =>
    Triple.of_and fun hc' => ?_
  have hext : c.Extends b c' := .of_confirms hfollows hc'
  have hend := (h.endOfBlock (c := c')
    (m := b.blockNum - c.lastIrreversibleBlockNum + 1)).conseq (fun _ hdb => hdb)
    (Q := fun _ db => I 0 db ∧ c.Extends b db.objects.dynamic ∧
      db.undo.maxSize = b.blockNum - c.lastIrreversibleBlockNum + 1)
    (fun _ db hdb => ⟨hdb.1, hdb.2.2 ▸ hext, hdb.2.1⟩) fun _ _ hdb => hdb
  refine Triple.ite (fun _ => ?_) fun _ => hend
  refine Triple.bind ((h.runRule _).also (DynamicIs.runRule _)) fun _ => ?_
  refine Triple.bind (Keeps.gets _) fun o => Triple.bind (Keeps.update fun db hdb => ?_) fun _ => hend
  exact ⟨h.other _ db.skipFlags db.appStatus hdb.1, hdb.2⟩

/-- **A block that is applied extends the chain by itself**, the undo history is to be as
long as the blocks above the last irreversible one before it, and the invariant is kept. The flags
are those that the checkpoints leave. -/
theorem applyBlock {skip : SkipFlags} (h : ∀ db skip', I 0 db → db.objects.dynamic = c →
      Database.checkpointFlags db.checkpoints skip b = .ok skip' →
      BlockSteps R d n F c b skip' I J C) :
    Triple (fun db => I 0 db ∧ db.objects.dynamic = c) (Database.applyBlock R d b skip)
      (fun _ db => I 0 db ∧ c.Extends b db.objects.dynamic ∧
        db.undo.maxSize = b.blockNum - c.lastIrreversibleBlockNum + 1) (OnFailure (I 0) C) := by
  refine Triple.gets_bind fun s hs => triple_fcLift_bind (fun _ _ hdb _ => hdb ▸ hs.1)
    fun skip' hskip' => ?_
  have h := h s skip' hs.1 hs.2 hskip'
  -- neither the flags nor the status matter to the invariant
  have hfail : ∀ e db skip status, OnFailure (I 0) C e db →
      OnFailure (I 0) C e { db with skipFlags := skip, appStatus := status } :=
    fun e db skip status hdb => hdb.imp (h.other db.blockDb.maxBlockSize skip status)
      (h.ended skip status)
  refine triple_withSkipFlags
    (J := fun db => I 0 db ∧ db.objects.dynamic = c ∧ db.skipFlags = skip') ?_
    (fun db hdb => ?_) (fun a db skip hdb => ?_) fun e db skip hdb => ?_
  · refine Triple.bind (Keeps.update fun _ hdb => ⟨h.applied _ _ hdb.1, hdb.2⟩) fun _ => ?_
    exact triple_appApplyBlock h.applyBlockLocked
      (fun db status hdb => ⟨h.other db.blockDb.maxBlockSize db.skipFlags status hdb.1, hdb.2⟩)
      (fun _ db status hdb => ⟨h.other db.blockDb.maxBlockSize db.skipFlags status hdb.1, hdb.2⟩)
      fun e db status hdb => hfail e db db.skipFlags status hdb
  · subst hdb
    exact ⟨h.other db.blockDb.maxBlockSize skip' db.appStatus hs.1, hs.2, rfl⟩
  · exact ⟨h.other db.blockDb.maxBlockSize skip db.appStatus hdb.1, hdb.2⟩
  · exact hfail e db skip db.appStatus hdb

end BlockSteps

/-- What an invariant needs to hold across the block `b` on top of `c`, if it does not look at the
transactions. -/
structure BlockInvariant (R : Rules β ω) (d n : ℕ) (F : List (Operation β) → Prop)
    (c : Dynamic β) (b : SignedBlock β) (I : ℕ → Database β ω → Prop)
    (C : Database β ω → Prop) : Prop extends OperationInvariant n F I C where
  operates : Operates R d F (I 0) C
  objects : ∀ {db o}, I 0 db → db.objects.dynamic.Leads o.dynamic →
    o.proposals = db.objects.proposals →
    I 0 { db with undo := db.undo.record db.objects id, objects := o }
  other : ∀ {db} maxBlockSize skipFlags appStatus, I 0 db →
    I 0 { db with blockDb := { db.blockDb with maxBlockSize }, skipFlags, appStatus }
  ended : ∀ {db} skipFlags appStatus, C db → C { db with skipFlags, appStatus }
  resize : ∀ {db}, c.headBlockId = b.previous → I 0 db → I 0 { db with
    undo := db.undo.setMaxSize (b.blockNum - c.lastIrreversibleBlockNum + 1)
    forkDb := db.forkDb.setMaxSize (b.blockNum - c.lastIrreversibleBlockNum + 1) }

namespace BlockInvariant

variable {c : Dynamic β} {n : ℕ} {b : SignedBlock β} {F : List (Operation β) → Prop}
  {I : ℕ → Database β ω → Prop} {C : Database β ω → Prop}

lemma steps (h : BlockInvariant R d n F c b I C) (hb : b.Admitted R F) (skip : SkipFlags) :
    BlockSteps R d n F c b skip I (I 0) C :=
  { h with
    transactions := fun _ => by
      have htrxs : Upholds (I 0) C (Exec.forEach (Database.applyTransaction R d) b.transactions) :=
        Upholds.forEach _ fun trx htrx => Upholds.applyTransaction
          (fun op hop => h.operates.operation op (hb trx htrx op hop)) fun _ hdb =>
            h.objects hdb (.refl _) rfl
      exact htrxs.conseq (fun _ hdb => hdb.1) (fun _ _ hdb => hdb) fun _ _ hdb => hdb
    rule := h.runRule
    head := fun hprev _ hdb hc => by
      subst hc
      exact h.objects hdb (Dynamic.leads_withHead hprev) rfl
    concluded := fun hdb ho => h.objects hdb ho.leads ho.proposals }

/-- **A block keeps the invariant.** -/
theorem applyBlock (h : BlockInvariant R d n F c b I C) (hb : b.Admitted R F) (skip : SkipFlags) :
    Triple (fun db => I 0 db ∧ db.objects.dynamic = c) (Database.applyBlock R d b skip)
      (fun _ db => I 0 db ∧ c.Extends b db.objects.dynamic ∧
        db.undo.maxSize = b.blockNum - c.lastIrreversibleBlockNum + 1) (OnFailure (I 0) C) :=
  BlockSteps.applyBlock fun _ skip' _ _ _ => h.steps hb skip'

/-- An invariant of every block is kept by `apply_block`, whatever the chain. -/
lemma upholds_applyBlock
    (h : ∀ db, I 0 db → BlockInvariant R d n F db.objects.dynamic b I C) (hb : b.Admitted R F)
    (skip : SkipFlags) : Upholds (I 0) C (Database.applyBlock R d b skip) := by
  intro db hdb
  obtain ⟨hok, herr⟩ := (h db hdb).applyBlock hb skip db ⟨hdb, rfl⟩
  exact ⟨fun a s' hx => (hok a s' hx).1, herr⟩

end BlockInvariant

end Dynamic

end ZosCore
