import ZosCore.Chain.Proposal

/-!
The meaning of operations and of the execution of proposals, with a journal of the proposals that
are removed.

A computation that fails is undone, and so is what it has removed: the journal of an attempt that
fails is dropped, like its changes of the objects.

* `Removal`, `Journal`: the journal, and the computations that keep one.
* `Journal.operation`, `Journal.proposal`: operations and proposals. `notes_operation`,
  `notes_proposal`: they are those of the ledger, and so those of the code.
* `Numbered`: the ids of the proposals, as the index gives them.
* `Accounted`: what becomes of the proposals. **`accounts_operation`**, **`accounts_proposal`**: a
  proposal is there as long as it is not in the journal, and it comes into the journal once.
-/

namespace ZosCore

variable {β ω α γ : Type}

/-- A proposal is removed: after it was executed, or without that. -/
structure Removal where
  id : ℕ
  executed : Bool
  deriving DecidableEq

/-- A ledger computation with the removals of proposals in it. -/
def Journal (β ω α : Type) : Type :=
  Objects β ω → Except Failure (α × List Removal × Objects β ω)

namespace Journal

/-- A result that comes after the removals `l`. -/
def after (l : List Removal) (r : Except Failure (α × List Removal × Objects β ω)) :
    Except Failure (α × List Removal × Objects β ω) :=
  r.map fun r => (r.1, l ++ r.2.1, r.2.2)

instance : Monad (Journal β ω) where
  pure a := fun o => .ok (a, [], o)
  bind x f := fun o =>
    match x o with
    | .ok (a, l, o') => after l (f a o')
    | .error e => .error e

/-- A ledger computation that removes no proposal. -/
def of (F : Ledger β ω α) : Journal β ω α := fun o => (F o).2.map fun r => (r.1, [], r.2)

/-- A removal is noted. -/
def note (r : Removal) : Journal β ω Unit := fun o => .ok ((), [r], o)

/-- What the objects show. -/
def gets (f : Objects β ω → α) : Journal β ω α := of (Ledger.gets f)

/-- A loop over a list. -/
def forEach (f : γ → Journal β ω Unit) : List γ → Journal β ω Unit
  | [] => pure ()
  | a :: l => do
      f a
      forEach f l

/-- All or nothing, as `Ledger.attempt`: what `x` has noted is dropped if it throws. -/
def attempt (x : Journal β ω α) (k : α → Journal β ω γ) (h : Journal β ω γ) : Journal β ω γ :=
  fun o =>
    match x o with
    | .ok (a, l, o') => after l (k a o')
    | .error (.fc _) => h o
    | .error .crash => .error .crash

/-- `remove_proposal`. -/
def removeProposal (id : ℕ) (executed : Bool) : Journal β ω Unit := do
  of (Ledger.removeProposal id)
  note ⟨id, executed⟩

/-- One operation of a proposal that is executed. -/
def proposed (apply : Operation β → Journal β ω Unit) (id : ℕ) (op : Operation β) :
    Journal β ω Unit := do
  apply op
  let o ← gets fun o => o
  of (Ledger.check (o.findProposal id).isSome .crash)

/-- The execution of a proposal. -/
def proposalWith (apply : Operation β → Journal β ω Unit) (p : ProposalObject β) :
    Journal β ω Unit := do
  forEach (proposed apply p.id) p.proposedOps
  of (Ledger.modifyProposal p.id fun p => { p with status := 3 })
  removeProposal p.id true

variable (R : Rules β ω) (record : Bool)

/-- `proposal_create_evaluator::do_apply`. -/
def proposalCreate (push : ProposalObject β → Journal β ω Unit) (fee : Fee β ω)
    (p : ProposalObject β) : Journal β ω Bool := do
  of (Ledger.update (Database.addProposal p))
  let o ← gets fun o => o
  if hardfork190309Time < o.time ∧ R.isAuthorizedToExecute p o then
    attempt (push p)
      (fun _ => attempt (of (Ledger.effects record fee.rollback)) (fun _ => return false)
        (of (Ledger.raise .crash)))
      (do
        of (Ledger.modifyProposal p.id fun p => { p with status := 2 })
        return true)
  else return true

/-- `proposal_update_evaluator::do_apply`. -/
def proposalUpdate (push : ProposalObject β → Journal β ω Unit) (u : ProposalUpdate) :
    Journal β ω Unit := do
  of (Ledger.modifyProposal u.proposal (Database.updateApprovals u))
  let o ← gets fun o => o
  match o.findProposal u.proposal with
  | none => of (Ledger.raise .crash)
  | some p =>
      if p.reviewPeriodTime.isSome ∧ hardfork201201Time < o.time then
        if p.status ≠ 1 ∧ R.isAuthorizedToExecute p o then
          of (Ledger.modifyProposal p.id fun p => { p with status := 1 })
      else if R.isAuthorizedToExecute p o then
        attempt (push p) pure (of (Ledger.modifyProposal p.id fun p => { p with status := 2 }))

/-- An operation, `push` being the execution of a proposal. -/
def operationWith (push : ProposalObject β → Journal β ω Unit) : Operation β → Journal β ω Unit
  | .basic o => of (Ledger.rule record (R.evaluate o))
  | .proposalCreate payer expiration review ops => do
      let o ← gets fun o => o
      let fee := R.fee (.proposalCreate payer expiration review ops) o
      of (Ledger.effects record fee.check)
      let noReview ← of
        (Ledger.ofExcept (Database.evaluateProposalCreate R o payer expiration review ops))
      of (Ledger.effects record fee.pay)
      let paid ← proposalCreate R record push fee
        (Database.newProposal R o payer expiration review ops noReview)
      if paid then of (Ledger.effects record fee.settle)
  | .proposalUpdate u => do
      let o ← gets fun o => o
      let fee := R.fee (.proposalUpdate u) o
      of (Ledger.effects record fee.check)
      let _ ← of (Ledger.ofExcept (Database.evaluateProposalUpdate R o u))
      of (Ledger.effects record fee.pay)
      proposalUpdate R push u
      of (Ledger.effects record fee.settle)
  | .proposalDelete u => do
      let o ← gets fun o => o
      let fee := R.fee (.proposalDelete u) o
      of (Ledger.effects record fee.check)
      of (Ledger.ofExcept (Database.evaluateProposalDelete R o u))
      of (Ledger.effects record fee.pay)
      of (Ledger.update (·.eraseProposal u.proposal))
      note ⟨u.proposal, false⟩
      of (Ledger.effects record fee.settle)

/-- An operation in which up to `d` executions of proposals nest. -/
def operation : ℕ → Operation β → Journal β ω Unit
  | 0 => operationWith R record fun _ => of (Ledger.raise .crash)
  | d + 1 => operationWith R record (proposalWith (operation d))

/-- The execution of a proposal. -/
def proposal : ℕ → ProposalObject β → Journal β ω Unit
  | 0 => fun _ => of (Ledger.raise .crash)
  | d + 1 => proposalWith (operation R record d)

/-! ### Sequences -/

section Sequences

variable {x : Journal β ω α} {f : α → Journal β ω γ} {o o' o'' : Objects β ω} {l : List Removal}
  {a : α}

lemma after_nil (r : Except Failure (α × List Removal × Objects β ω)) : after [] r = r := by
  rcases r with e | ⟨a, l, o⟩
  · rfl
  · rfl

/-- A computation that returns what it has already, after the removals. -/
lemma after_pure (l : List Removal) (a : α) (o : Objects β ω) :
    after l ((pure a : Journal β ω α) o) = .ok (a, l, o) := by
  change Except.ok (a, l ++ [], o) = _
  rw [List.append_nil]

lemma after_eq_ok {r : Except Failure (α × List Removal × Objects β ω)} {l' : List Removal} :
    after l r = .ok (a, l', o) ↔ ∃ l₂, r = .ok (a, l₂, o) ∧ l' = l ++ l₂ := by
  rw [after, except_map_eq_ok]
  constructor
  · rintro ⟨⟨a', l₂, o'⟩, rfl, heq⟩
    cases heq
    exact ⟨l₂, rfl, rfl⟩
  · rintro ⟨l₂, rfl, rfl⟩
    exact ⟨_, rfl, rfl⟩

/-- After a computation that returns comes the rest. -/
lemma bind_ok (h : x o = .ok (a, l, o')) : (x >>= f) o = after l (f a o') := by
  change (match x o with
    | .ok (a, l, o') => after l (f a o')
    | .error e => .error e) = _
  rw [h]

/-- After a computation that throws nothing comes. -/
lemma bind_error {e : Failure} (h : x o = .error e) : (x >>= f) o = .error e := by
  change (match x o with
    | .ok (a, l, o') => after l (f a o')
    | .error e => .error e) = _
  rw [h]

/-- Only what the first part does from the objects counts. -/
lemma bind_congr {y : Journal β ω α} (h : x o = y o) : (x >>= f) o = (y >>= f) o := by
  rcases hy : y o with e | ⟨a, l, o'⟩
  · rw [bind_error (h.trans hy), bind_error hy]
  · rw [bind_ok (h.trans hy), bind_ok hy]

/-- A sequence returns exactly if both parts do. -/
lemma bind_eq_ok {c : γ} (h : (x >>= f) o = .ok (c, l, o'')) :
    ∃ a l₁ o' l₂, x o = .ok (a, l₁, o') ∧ f a o' = .ok (c, l₂, o'') ∧ l = l₁ ++ l₂ := by
  rcases hx : x o with e | ⟨a, l₁, o'⟩
  · rw [bind_error hx] at h
    cases h
  · rw [bind_ok hx, after_eq_ok] at h
    obtain ⟨l₂, hf, rfl⟩ := h
    exact ⟨a, l₁, o', l₂, rfl, hf, rfl⟩

lemma of_eq_ok {F : Ledger β ω α} (h : of F o = .ok (a, l, o')) :
    (∃ b, F o = (b, .ok (a, o'))) ∧ l = [] := by
  obtain ⟨⟨a', o₁⟩, hF, heq⟩ := except_map_eq_ok.mp h
  cases heq
  exact ⟨⟨(F o).1, Prod.ext rfl hF⟩, rfl⟩

lemma of_ok {F : Ledger β ω α} {b : List BalanceHistory} (h : F o = (b, .ok (a, o'))) :
    of F o = .ok (a, [], o') := by
  rw [of, h]
  rfl

lemma of_error {F : Ledger β ω α} {b : List BalanceHistory} {e : Failure}
    (h : F o = (b, .error e)) : of F o = .error e := by
  rw [of, h]
  rfl

/-- After a computation that removes no proposal. -/
lemma of_bind {F : Ledger β ω α} {b : List BalanceHistory} (h : F o = (b, .ok (a, o'))) :
    (of F >>= f) o = f a o' := (bind_ok (of_ok h)).trans (after_nil _)

/-- After a look at the objects. -/
lemma gets_bind {g : Objects β ω → α} : (gets g >>= f) o = f (g o) o := of_bind rfl

variable {k : α → Journal β ω γ} {h : Journal β ω γ}

lemma attempt_ok (hx : x o = .ok (a, l, o')) : attempt x k h o = after l (k a o') := by
  rw [attempt]
  rw [hx]

lemma attempt_error {e : ChainError} (hx : x o = .error (.fc e)) : attempt x k h o = h o := by
  rw [attempt]
  rw [hx]

lemma attempt_crash (hx : x o = .error .crash) : attempt x k h o = .error .crash := by
  rw [attempt]
  rw [hx]

end Sequences

end Journal

/-! ### The ledger with a journal -/

/-- A result without the removals. -/
def Journal.unnoted (r : Except Failure (α × List Removal × Objects β ω)) :
    Except Failure (α × Objects β ω) :=
  r.map fun r => (r.1, r.2.2)

lemma Journal.unnoted_after (l : List Removal)
    (r : Except Failure (α × List Removal × Objects β ω)) : unnoted (after l r) = unnoted r := by
  rcases r with e | ⟨a, l', o⟩
  · rfl
  · rfl

/-- The computation `x` is the ledger computation `F`, with a journal. -/
def Notes (x : Journal β ω α) (F : Ledger β ω α) : Prop :=
  ∀ o, (F o).2 = Journal.unnoted (x o)

namespace Notes

variable {x : Journal β ω α} {F : Ledger β ω α}

lemma of (F : Ledger β ω α) : Notes (Journal.of F) F := by
  intro o
  rw [Journal.of]
  rcases (F o).2 with e | ⟨a, o'⟩
  · rfl
  · rfl

lemma pure (a : α) : Notes (Pure.pure a : Journal β ω α) (Pure.pure a) := fun _ => rfl

/-- A removal that is noted, before the rest. -/
lemma note_bind (h : Notes x F) (r : Removal) : Notes (Journal.note r >>= fun _ => x) F := by
  intro o
  rw [Journal.bind_ok rfl, Journal.unnoted_after]
  exact h o

/-- The ledger computation throws what the one with a journal throws. -/
lemma eq_error (h : Notes x F) {o : Objects β ω} {e : Failure} (hx : x o = .error e) :
    ∃ b, F o = (b, .error e) :=
  ⟨(F o).1, Prod.ext rfl (by rw [h o, hx]; rfl)⟩

lemma eq_ok (h : Notes x F) {o o' : Objects β ω} {a : α} {l : List Removal}
    (hx : x o = .ok (a, l, o')) : ∃ b, F o = (b, .ok (a, o')) :=
  ⟨(F o).1, Prod.ext rfl (by rw [h o, hx]; rfl)⟩

lemma bind {f : α → Journal β ω γ} {G : α → Ledger β ω γ} (hx : Notes x F)
    (hf : ∀ a, Notes (f a) (G a)) : Notes (x >>= f) (F >>= G) := by
  intro o
  rcases hxo : x o with e | ⟨a, l, o'⟩
  · obtain ⟨b, hF⟩ := hx.eq_error hxo
    rw [Ledger.bind_throws hF, Journal.bind_error hxo]
    rfl
  · obtain ⟨b, hF⟩ := hx.eq_ok hxo
    rw [Ledger.bind_returns hF, Journal.bind_ok hxo, Journal.unnoted_after]
    exact hf a o'

lemma attempt {k : α → Journal β ω γ} {K : α → Ledger β ω γ} {h : Journal β ω γ}
    {H : Ledger β ω γ} (hx : Notes x F) (hk : ∀ a, Notes (k a) (K a)) (hh : Notes h H) :
    Notes (Journal.attempt x k h) (Ledger.attempt F K H) := by
  intro o
  rcases hxo : x o with (e | _) | ⟨a, l, o'⟩
  · obtain ⟨b, hF⟩ := hx.eq_error hxo
    rw [Ledger.attempt_throws hF, Journal.attempt_error hxo]
    exact hh o
  · obtain ⟨b, hF⟩ := hx.eq_error hxo
    rw [Ledger.attempt_crashes hF, Journal.attempt_crash hxo]
    rfl
  · obtain ⟨b, hF⟩ := hx.eq_ok hxo
    rw [Ledger.attempt_returns hF, Journal.attempt_ok hxo, Journal.unnoted_after]
    exact hk a o'

lemma ite {c : Prop} [Decidable c] {y : Journal β ω α} {G : Ledger β ω α} (hx : Notes x F)
    (hy : Notes y G) : Notes (if c then x else y) (if c then F else G) := by
  split_ifs
  · exact hx
  · exact hy

lemma forEach {f : γ → Journal β ω Unit} {G : γ → Ledger β ω Unit} (hf : ∀ a, Notes (f a) (G a))
    (l : List γ) : Notes (Journal.forEach f l) (Ledger.forEach G l) := by
  induction l with
  | nil => exact pure ()
  | cons a l ih => exact (hf a).bind fun _ => ih

/-- A removal that is noted. -/
lemma removeProposal (id : ℕ) (executed : Bool) :
    Notes (Journal.removeProposal id executed : Journal β ω Unit) (Ledger.removeProposal id) := by
  intro o
  rw [Journal.removeProposal]
  rcases hr : (Ledger.removeProposal id : Ledger β ω Unit) o with ⟨b, e | ⟨⟨⟩, o'⟩⟩
  · rw [Journal.bind_error (Journal.of_error hr)]
    rfl
  · rw [Journal.of_bind hr]
    rfl

variable {R : Rules β ω} {record : Bool}

lemma proposalWith {f : Operation β → Journal β ω Unit} {G : Operation β → Ledger β ω Unit}
    (hf : ∀ op, Notes (f op) (G op)) (p : ProposalObject β) :
    Notes (Journal.proposalWith f p) (Ledger.proposalWith G p) := by
  refine (forEach (fun op => (hf op).bind fun _ => ?_) p.proposedOps).bind fun _ => ?_
  · exact (of _).bind fun _ => of _
  · exact (of _).bind fun _ => removeProposal p.id true

section Evaluators

variable {push : ProposalObject β → Journal β ω Unit} {P : ProposalObject β → Ledger β ω Unit}

lemma proposalCreate (hp : ∀ p, Notes (push p) (P p)) (fee : Fee β ω) (p : ProposalObject β) :
    Notes (Journal.proposalCreate R record push fee p) (Ledger.proposalCreate R record P fee p) := by
  refine (of _).bind fun _ => (of _).bind fun _ => ite ?_ (pure _)
  refine (hp p).attempt (fun _ => ?_) ((of _).bind fun _ => pure _)
  exact (of _).attempt (fun _ => pure _) (of _)

lemma proposalUpdate (hp : ∀ p, Notes (push p) (P p)) (u : ProposalUpdate) :
    Notes (Journal.proposalUpdate R push u) (Ledger.proposalUpdate R P u) := by
  refine (of _).bind fun _ => (of _).bind fun o => ?_
  cases o.findProposal u.proposal with
  | none => exact of _
  | some p =>
      refine ite (ite (of _) (pure ())) (ite ?_ (pure ()))
      exact (hp p).attempt (fun _ => pure ()) (of _)

lemma operationWith (hp : ∀ p, Notes (push p) (P p)) (op : Operation β) :
    Notes (Journal.operationWith R record push op) (Ledger.operationWith R record P op) := by
  cases op with
  | basic o => exact of _
  | proposalCreate payer expiration review ops =>
      refine (of _).bind fun _ => (of _).bind fun _ => (of _).bind fun _ => (of _).bind fun _ => ?_
      exact (proposalCreate hp _ _).bind fun _ => ite (of _) (pure ())
  | proposalUpdate u =>
      refine (of _).bind fun _ => (of _).bind fun _ => (of _).bind fun _ => (of _).bind fun _ => ?_
      exact (proposalUpdate hp u).bind fun _ => of _
  | proposalDelete u =>
      refine (of _).bind fun _ => (of _).bind fun _ => (of _).bind fun _ => (of _).bind fun _ => ?_
      exact (of _).bind fun _ => note_bind (of _) _

end Evaluators

end Notes

/-- **The journal is one of the ledger**: an operation. -/
theorem notes_operation (R : Rules β ω) (record : Bool) (d : ℕ) (op : Operation β) :
    Notes (Journal.operation R record d op) (Ledger.operation R record d op) := by
  induction d generalizing op with
  | zero => exact Notes.operationWith (fun _ => Notes.of _) op
  | succ d ih => exact Notes.operationWith (fun p => Notes.proposalWith ih p) op

/-- **The journal is one of the ledger**: the execution of a proposal. -/
theorem notes_proposal (R : Rules β ω) (record : Bool) (d : ℕ) (p : ProposalObject β) :
    Notes (Journal.proposal R record d p) (Ledger.proposal R record d p) := by
  cases d with
  | zero => exact Notes.of _
  | succ d => exact Notes.proposalWith (notes_operation R record d) p

/-! ### What becomes of the proposals -/

/-- The ids of the proposals. -/
def Objects.proposalIds (o : Objects β ω) : List ℕ := o.proposals.map (·.id)

/-- The index of the proposals: no two have one id, and the next id is a new one. -/
structure Numbered (o : Objects β ω) : Prop where
  nodup : o.proposalIds.Nodup
  below : ∀ p ∈ o.proposals, p.id < o.nextProposalId

/-- From `o` to `o'` the proposals in the journal `l` have been removed, and no others. What is new
has yet to expire. -/
structure Accounted (l : List Removal) (o o' : Objects β ω) : Prop where
  time : o'.time = o.time
  next : o.nextProposalId ≤ o'.nextProposalId
  origin : ∀ p' ∈ o'.proposals,
    (∃ p ∈ o.proposals, p.id = p'.id ∧ p.expirationTime = p'.expirationTime) ∨
      o.nextProposalId ≤ p'.id ∧ o.time < p'.expirationTime
  balance : ∀ id < o.nextProposalId,
    (l.map Removal.id).count id + o'.proposalIds.count id = o.proposalIds.count id

namespace Accounted

variable {l l' : List Removal} {o o' o'' : Objects β ω}

lemma refl (o : Objects β ω) : Accounted [] o o where
  time := rfl
  next := le_rfl
  origin p' hp' := .inl ⟨p', hp', rfl, rfl⟩
  balance _ _ := Nat.zero_add _

lemma trans (h : Accounted l o o') (h' : Accounted l' o' o'') : Accounted (l ++ l') o o'' where
  time := h'.time.trans h.time
  next := h.next.trans h'.next
  origin p'' hp'' := by
    rcases h'.origin p'' hp'' with ⟨p', hp', hid', hexp'⟩ | ⟨hid', hexp'⟩
    · rcases h.origin p' hp' with ⟨p, hp, hid, hexp⟩ | ⟨hid, hexp⟩
      · exact .inl ⟨p, hp, hid.trans hid', hexp.trans hexp'⟩
      · exact .inr ⟨hid' ▸ hid, hexp' ▸ hexp⟩
    · exact .inr ⟨h.next.trans hid', h.time ▸ hexp'⟩
  balance id hid := by
    have hleft := h.balance id hid
    have hright := h'.balance id (hid.trans_le h.next)
    rw [List.map_append, List.count_append]
    omega

/-- What the steps of an evaluator change is none of the proposals. -/
lemma of_effected (h : o.Effected o') : Accounted [] o o' := by
  obtain ⟨_, _, _, rfl⟩ := h
  exact ⟨rfl, le_rfl, fun p' hp' => .inl ⟨p', hp', rfl, rfl⟩, fun _ _ => Nat.zero_add _⟩

end Accounted

/-- A change of proposals keeps the ids. -/
lemma Objects.proposalIds_modifyProposal (o : Objects β ω) (id : ℕ)
    {f : ProposalObject β → ProposalObject β} (hf : ∀ p, (f p).id = p.id) :
    (o.modifyProposal id f).proposalIds = o.proposalIds := by
  rw [proposalIds, modifyProposal, List.map_map]
  refine List.map_congr_left fun p _ => ?_
  by_cases hp : p.id = id
  · simp only [Function.comp_apply, if_pos hp, hf]
  · simp only [Function.comp_apply, if_neg hp]

lemma Objects.proposalIds_eraseProposal (o : Objects β ω) (id : ℕ) :
    (o.eraseProposal id).proposalIds = o.proposalIds.filter (· ≠ id) := by
  rw [proposalIds, eraseProposal, proposalIds, List.filter_map]
  rfl

lemma Objects.proposalIds_addProposal (o : Objects β ω) (p : ProposalObject β) :
    (Database.addProposal p o).proposalIds = o.proposalIds ++ [p.id] := by
  rw [proposalIds, Database.addProposal, List.map_append]
  rfl

lemma Objects.isSome_findProposal {o : Objects β ω} {id : ℕ} :
    (o.findProposal id).isSome ↔ id ∈ o.proposalIds := by
  rw [findProposal, List.find?_isSome, proposalIds, List.mem_map]
  simp only [decide_eq_true_eq]

/-- The change of proposals leaves what the indices go by. -/
structure KeepsPlace (f : ProposalObject β → ProposalObject β) : Prop where
  id : ∀ p, (f p).id = p.id
  expirationTime : ∀ p, (f p).expirationTime = p.expirationTime

lemma keepsPlace_status (n : ℕ) : KeepsPlace fun p : ProposalObject β => { p with status := n } :=
  ⟨fun _ => rfl, fun _ => rfl⟩

lemma keepsPlace_updateApprovals (u : ProposalUpdate) :
    KeepsPlace (Database.updateApprovals u : ProposalObject β → ProposalObject β) :=
  ⟨fun _ => rfl, fun _ => rfl⟩

section Steps

variable {o o' : Objects β ω} {id : ℕ} {f : ProposalObject β → ProposalObject β}
  {p : ProposalObject β}

namespace Numbered

lemma of_effected (hn : Numbered o) (h : o.Effected o') : Numbered o' := by
  obtain ⟨_, _, _, rfl⟩ := h
  exact ⟨hn.nodup, hn.below⟩

lemma lt_of_mem (hn : Numbered o) (h : id ∈ o.proposalIds) : id < o.nextProposalId := by
  obtain ⟨p, hp, rfl⟩ := List.mem_map.mp h
  exact hn.below p hp

lemma modifyProposal (hn : Numbered o) (hf : KeepsPlace f) : Numbered (o.modifyProposal id f) where
  nodup := by
    rw [Objects.proposalIds_modifyProposal o id hf.id]
    exact hn.nodup
  below p hp := by
    obtain ⟨q, hq, rfl⟩ := List.mem_map.mp hp
    have hlt := hn.below q hq
    split_ifs
    · rw [hf.id]
      exact hlt
    · exact hlt

lemma addProposal (hn : Numbered o) (hid : p.id = o.nextProposalId) :
    Numbered (Database.addProposal p o) where
  nodup := by
    rw [Objects.proposalIds_addProposal, List.nodup_append]
    refine ⟨hn.nodup, List.nodup_singleton _, fun a ha b hb => ?_⟩
    have hlt := hn.lt_of_mem ha
    rw [List.mem_singleton.mp hb, hid]
    exact hlt.ne
  below q hq := by
    rcases List.mem_append.mp hq with hq | hq
    · exact (hn.below q hq).trans (Nat.lt_succ_self _)
    · rw [List.mem_singleton.mp hq, hid]
      exact Nat.lt_succ_self _

lemma eraseProposal (hn : Numbered o) : Numbered (o.eraseProposal id) where
  nodup := by
    rw [Objects.proposalIds_eraseProposal]
    exact hn.nodup.filter _
  below q hq := hn.below q (List.mem_of_mem_filter hq)

end Numbered

namespace Accounted

lemma modifyProposal (hf : KeepsPlace f) : Accounted [] o (o.modifyProposal id f) where
  time := rfl
  next := le_rfl
  origin p' hp' := by
    obtain ⟨q, hq, rfl⟩ := List.mem_map.mp hp'
    refine .inl ⟨q, hq, ?_⟩
    split_ifs
    · exact ⟨(hf.id q).symm, (hf.expirationTime q).symm⟩
    · exact ⟨rfl, rfl⟩
  balance _ _ := by
    rw [Objects.proposalIds_modifyProposal o id hf.id]
    exact Nat.zero_add _

lemma addProposal (hid : p.id = o.nextProposalId) (hexp : o.time < p.expirationTime) :
    Accounted [] o (Database.addProposal p o) where
  time := rfl
  next := Nat.le_succ _
  origin q hq := by
    rcases List.mem_append.mp hq with hq | hq
    · exact .inl ⟨q, hq, rfl, rfl⟩
    · rw [List.mem_singleton.mp hq]
      exact .inr ⟨hid.ge, hexp⟩
  balance id hlt := by
    have hne : p.id ≠ id := by omega
    rw [Objects.proposalIds_addProposal, List.count_append, List.count_singleton]
    simp [hne]

/-- A proposal that is there is removed, and noted. -/
lemma eraseProposal (hn : Numbered o) (h : id ∈ o.proposalIds) (executed : Bool) :
    Accounted [⟨id, executed⟩] o (o.eraseProposal id) where
  time := rfl
  next := le_rfl
  origin q hq := .inl ⟨q, List.mem_of_mem_filter hq, rfl, rfl⟩
  balance id' _ := by
    rw [Objects.proposalIds_eraseProposal]
    by_cases hid : id' = id
    · subst hid
      have hone := List.count_eq_one_of_mem hn.nodup h
      have hgone : (o.proposalIds.filter (· ≠ id')).count id' = 0 :=
        List.count_eq_zero.mpr fun hmem => by simpa using (List.mem_filter.mp hmem).2
      rw [hgone, hone]
      simp
    · have hsame : (o.proposalIds.filter (· ≠ id)).count id' = o.proposalIds.count id' :=
        List.count_filter (by simpa using hid)
      rw [hsame]
      simp [Ne.symm hid]

end Accounted

end Steps

namespace Objects.Effected

variable {o o' o'' : Objects β ω}

lemma refl (o : Objects β ω) : o.Effected o := ⟨_, _, _, rfl⟩

lemma trans (h : o.Effected o') (h' : o'.Effected o'') : o.Effected o'' := by
  obtain ⟨_, _, _, rfl⟩ := h
  obtain ⟨_, _, _, rfl⟩ := h'
  exact ⟨_, _, _, rfl⟩

end Objects.Effected

namespace Ledger

variable {record : Bool} {o o' : Objects β ω} {b : List BalanceHistory}

lemma ofExcept_eq_returns {r : Except ChainError α} {a : α}
    (h : (ofExcept r : Ledger β ω α) o = (b, .ok (a, o'))) : r = .ok a ∧ o' = o := by
  cases r with
  | ok a' =>
      cases h
      exact ⟨rfl, rfl⟩
  | error e => cases h

lemma effected_of_adjustBalance {utype : ℕ} {info : String} {account asset : ℕ} {delta : ℤ}
    (h : adjustBalance record utype info account asset delta o = (b, .ok ((), o'))) :
    o.Effected o' := by
  unfold adjustBalance at h
  by_cases hdelta : delta = 0
  · rw [if_pos hdelta] at h
    cases h
    exact .refl o
  · rw [if_neg hdelta] at h
    obtain ⟨_, _, _, _, hget, h₁, -⟩ := bind_eq_returns h
    cases hget
    obtain ⟨_, o₁, _, _, hof, h₂, -⟩ := bind_eq_returns h₁
    obtain ⟨hadj, rfl⟩ := ofExcept_eq_returns hof
    obtain ⟨_, _, _, _, hupd, h₃, -⟩ := bind_eq_returns h₂
    cases hupd
    -- what follows makes a balance record at most
    have hsame : o' = o₁ := by
      by_cases hrec : record = true
      · rw [if_pos hrec] at h₃
        obtain ⟨_, _, o₂, _, hcheck, hemit, -⟩ := bind_eq_returns h₃
        cases hemit
        unfold check at hcheck
        split_ifs at hcheck
        · cases hcheck
          rfl
        · cases hcheck
      · rw [if_neg hrec] at h₃
        cases h₃
        rfl
    exact hsame ▸ .adjustBalance hadj

/-- A step of an evaluator. -/
lemma effected_of_effect {e : Effect β ω} (h : effect record e o = (b, .ok ((), o'))) :
    o.Effected o' := by
  cases e with
  | world f =>
      cases h
      exact ⟨_, _, _, rfl⟩
  | virtualOperation op =>
      cases h
      exact .refl o
  | activeWitnesses ws =>
      cases h
      exact ⟨_, _, _, rfl⟩
  | fail e => cases h
  | adjustBalance utype info account asset delta => exact effected_of_adjustBalance h

/-- The steps of an evaluator. -/
lemma effected_of_effects {l : List (Effect β ω)} (h : effects record l o = (b, .ok ((), o'))) :
    o.Effected o' := by
  unfold effects at h
  induction l generalizing o b with
  | nil =>
      cases h
      exact .refl _
  | cons e l ih =>
      obtain ⟨_, _, o₁, _, he, hl, -⟩ := bind_eq_returns h
      exact (effected_of_effect he).trans (ih hl)

end Ledger

/-- From `o` on the computation keeps the ids as they should be, and its journal is right. -/
def AccountsFrom (o : Objects β ω) (x : Journal β ω α) : Prop :=
  ∀ a l o', Numbered o → x o = .ok (a, l, o') → Numbered o' ∧ Accounted l o o'

/-- The computation keeps the ids as they should be, and its journal is right. -/
def Accounts (x : Journal β ω α) : Prop := ∀ o, AccountsFrom o x

/-- "Proposal has already expired on creation." -/
lemma lt_expirationTime_of_evaluateProposalCreate {R : Rules β ω} {o : Objects β ω}
    {payer expiration : ℕ} {review : Option ℕ} {ops : List (Operation β)} {noReview : Bool}
    (h : Database.evaluateProposalCreate R o payer expiration review ops = .ok noReview) :
    o.time < expiration := by
  unfold Database.evaluateProposalCreate at h
  obtain ⟨-, h⟩ := ite_throw_eq_ok.mp h
  obtain ⟨hlt, -⟩ := ite_throw_eq_ok.mp h
  exact not_not.mp hlt

/-- A proposal that is deleted is there. -/
lemma mem_proposalIds_of_evaluateProposalDelete {R : Rules β ω} {o : Objects β ω}
    {u : ProposalDelete} (h : Database.evaluateProposalDelete R o u = .ok ()) :
    u.proposal ∈ o.proposalIds := by
  rw [← Objects.isSome_findProposal]
  unfold Database.evaluateProposalDelete at h
  cases hp : o.findProposal u.proposal with
  | none =>
      rw [hp] at h
      cases h
  | some p => rfl

namespace AccountsFrom

variable {x : Journal β ω α} {o o' : Objects β ω}

lemma pure (a : α) : AccountsFrom o (Pure.pure a) := by
  intro a' l o' hn h
  cases h
  exact ⟨hn, .refl o⟩

lemma bind {f : α → Journal β ω γ} (hx : AccountsFrom o x)
    (hf : ∀ a l o', x o = .ok (a, l, o') → AccountsFrom o' (f a)) : AccountsFrom o (x >>= f) := by
  intro c l o'' hn h
  obtain ⟨a, l₁, o', l₂, hxo, hfo, rfl⟩ := Journal.bind_eq_ok h
  obtain ⟨hn', hacc⟩ := hx a l₁ o' hn hxo
  obtain ⟨hn'', hacc'⟩ := hf a l₁ o' hxo c l₂ o'' hn' hfo
  exact ⟨hn'', hacc.trans hacc'⟩

lemma gets_bind {g : Objects β ω → α} {f : α → Journal β ω γ} (h : AccountsFrom o (f (g o))) :
    AccountsFrom o (Journal.gets g >>= f) := by
  intro c l o' hn hx
  rw [Journal.gets_bind] at hx
  exact h c l o' hn hx

lemma ite {c : Prop} [Decidable c] {y : Journal β ω α} (hx : c → AccountsFrom o x)
    (hy : ¬ c → AccountsFrom o y) : AccountsFrom o (if c then x else y) := by
  split_ifs with hc
  · exact hx hc
  · exact hy hc

lemma attempt {k : α → Journal β ω γ} {h : Journal β ω γ} (hx : AccountsFrom o x)
    (hk : ∀ a l o', x o = .ok (a, l, o') → AccountsFrom o' (k a)) (hh : AccountsFrom o h) :
    AccountsFrom o (Journal.attempt x k h) := by
  intro c l o'' hn hres
  rcases hxo : x o with (e | _) | ⟨a, l₁, o'⟩
  · rw [Journal.attempt_error hxo] at hres
    exact hh c l o'' hn hres
  · rw [Journal.attempt_crash hxo] at hres
    cases hres
  · rw [Journal.attempt_ok hxo, Journal.after_eq_ok] at hres
    obtain ⟨l₂, hko, rfl⟩ := hres
    obtain ⟨hn', hacc⟩ := hx a l₁ o' hn hxo
    obtain ⟨hn'', hacc'⟩ := hk a l₁ o' hxo c l₂ o'' hn' hko
    exact ⟨hn'', hacc.trans hacc'⟩

/-- A computation that throws. -/
lemma raise (e : Failure) : AccountsFrom o (Journal.of (Ledger.raise e) : Journal β ω α) := by
  intro a l o' _ h
  cases h

/-- A computation that does to the proposals what the steps of an evaluator do. -/
lemma of_effected {F : Ledger β ω α} (hF : ∀ b a o', F o = (b, .ok (a, o')) → o.Effected o') :
    AccountsFrom o (Journal.of F) := by
  intro a l o' hn h
  obtain ⟨⟨b, hb⟩, rfl⟩ := Journal.of_eq_ok h
  exact ⟨hn.of_effected (hF b a o' hb), .of_effected (hF b a o' hb)⟩

lemma effects (record : Bool) (l : List (Effect β ω)) :
    AccountsFrom o (Journal.of (Ledger.effects record l)) :=
  of_effected fun _ _ _ h => Ledger.effected_of_effects h

lemma check (c : Prop) [Decidable c] (e : Failure) :
    AccountsFrom o (Journal.of (Ledger.check c e) : Journal β ω Unit) := by
  refine of_effected fun b _ o' h => ?_
  unfold Ledger.check at h
  split_ifs at h
  · cases h
    exact .refl o
  · cases h

lemma ofExcept (r : Except ChainError α) :
    AccountsFrom o (Journal.of (Ledger.ofExcept r) : Journal β ω α) := by
  refine of_effected fun b _ o' h => ?_
  obtain ⟨-, rfl⟩ := Ledger.ofExcept_eq_returns h
  exact .refl _

/-- A proposal is changed. -/
lemma modifyProposal {f : ProposalObject β → ProposalObject β} (hf : KeepsPlace f) (id : ℕ) :
    AccountsFrom o (Journal.of (Ledger.modifyProposal id f) : Journal β ω Unit) := by
  intro _ l o' hn h
  obtain ⟨⟨b, hb⟩, rfl⟩ := Journal.of_eq_ok h
  obtain ⟨_, _, _, _, hget, h₁, -⟩ := Ledger.bind_eq_returns hb
  cases hget
  obtain ⟨_, _, _, _, hcheck, h₂, -⟩ := Ledger.bind_eq_returns h₁
  unfold Ledger.check at hcheck
  split_ifs at hcheck
  · cases hcheck
    cases h₂
    exact ⟨hn.modifyProposal hf, .modifyProposal hf⟩
  · cases hcheck

/-- A proposal is removed, and noted. -/
lemma removeProposal (id : ℕ) (executed : Bool) :
    AccountsFrom o (Journal.removeProposal id executed : Journal β ω Unit) := by
  intro _ l o' hn h
  obtain ⟨_, l₁, o₁, l₂, hremove, hnote, rfl⟩ := Journal.bind_eq_ok h
  cases hnote
  obtain ⟨⟨b, hb⟩, rfl⟩ := Journal.of_eq_ok hremove
  obtain ⟨_, _, _, _, hget, h₁, -⟩ := Ledger.bind_eq_returns hb
  cases hget
  obtain ⟨_, _, _, _, hcheck, h₂, -⟩ := Ledger.bind_eq_returns h₁
  unfold Ledger.check at hcheck
  split_ifs at hcheck with hsome
  · cases hcheck
    cases h₂
    exact ⟨hn.eraseProposal, .eraseProposal hn (Objects.isSome_findProposal.mp hsome) executed⟩
  · cases hcheck

/-- A proposal that is there is erased, and noted, before the rest. -/
lemma erase_note (hx : Accounts x) {id : ℕ} (hid : id ∈ o.proposalIds) (executed : Bool) :
    AccountsFrom o (Journal.of (Ledger.update (·.eraseProposal id)) >>= fun _ =>
      Journal.note ⟨id, executed⟩ >>= fun _ => x) := by
  intro a l o' hn h
  rw [Journal.of_bind rfl, Journal.bind_ok rfl, Journal.after_eq_ok] at h
  obtain ⟨l', hrest, rfl⟩ := h
  obtain ⟨hn', hacc⟩ := hx _ a l' o' hn.eraseProposal hrest
  exact ⟨hn', (Accounted.eraseProposal hn hid executed).trans hacc⟩

lemma forEach {f : γ → Journal β ω Unit} (hf : ∀ a, Accounts (f a)) (l : List γ) :
    AccountsFrom o (Journal.forEach f l) := by
  induction l generalizing o with
  | nil => exact pure ()
  | cons a l ih => exact (hf a o).bind fun _ _ _ _ => ih

/-- The execution of a proposal. -/
lemma proposalWith {f : Operation β → Journal β ω Unit} (hf : ∀ op, Accounts (f op))
    (p : ProposalObject β) : AccountsFrom o (Journal.proposalWith f p) := by
  refine (forEach (fun op o => (hf op o).bind fun _ _ _ _ => ?_) p.proposedOps).bind fun _ _ _ _ => ?_
  · exact gets_bind (check _ _)
  · exact (modifyProposal (keepsPlace_status 3) p.id).bind fun _ _ _ _ => removeProposal p.id true

section Evaluators

variable {R : Rules β ω} {record : Bool} {push : ProposalObject β → Journal β ω Unit}

/-- `proposal_create_evaluator::do_apply`, with a proposal that is new and has yet to expire. -/
lemma proposalCreate (hp : ∀ p, Accounts (push p)) (fee : Fee β ω) {p : ProposalObject β}
    (hid : p.id = o.nextProposalId) (hexp : o.time < p.expirationTime) :
    AccountsFrom o (Journal.proposalCreate R record push fee p) := by
  have hadd : AccountsFrom o (Journal.of (Ledger.update (Database.addProposal p)) : Journal β ω Unit) := by
    intro _ l o' hn h
    cases h
    exact ⟨hn.addProposal hid, .addProposal hid hexp⟩
  refine hadd.bind fun _ _ _ _ => gets_bind (ite (fun _ => ?_) fun _ => pure true)
  refine (hp p _).attempt (fun _ _ _ _ => ?_) ?_
  · exact (effects record fee.rollback).attempt (fun _ _ _ _ => pure false) (raise .crash)
  · exact (modifyProposal (keepsPlace_status 2) p.id).bind fun _ _ _ _ => pure true

/-- `proposal_update_evaluator::do_apply`. -/
lemma proposalUpdate (hp : ∀ p, Accounts (push p)) (u : ProposalUpdate) :
    AccountsFrom o (Journal.proposalUpdate R push u) := by
  refine (modifyProposal (keepsPlace_updateApprovals u) u.proposal).bind fun _ _ o₁ _ => gets_bind ?_
  cases o₁.findProposal u.proposal with
  | none => exact raise .crash
  | some p =>
      refine ite (fun _ => ite (fun _ => ?_) fun _ => pure ()) fun _ => ite (fun _ => ?_) fun _ => pure ()
      · exact modifyProposal (keepsPlace_status 1) p.id
      · exact (hp p _).attempt (fun _ _ _ _ => pure ()) (modifyProposal (keepsPlace_status 2) p.id)

/-- An operation. -/
lemma operationWith (hp : ∀ p, Accounts (push p)) (op : Operation β) :
    AccountsFrom o (Journal.operationWith R record push op) := by
  cases op with
  | basic op => exact of_effected fun b _ o' h => Ledger.effected_of_effects h
  | proposalCreate payer expiration review ops =>
      refine gets_bind ((effects record _).bind fun _ _ o₁ hcheck => ?_)
      refine (ofExcept _).bind fun noReview _ o₂ heval => (effects record _).bind fun _ _ o₃ hpay => ?_
      obtain ⟨⟨_, hcheck'⟩, -⟩ := Journal.of_eq_ok hcheck
      obtain ⟨⟨_, heval'⟩, -⟩ := Journal.of_eq_ok heval
      obtain ⟨⟨_, hpay'⟩, -⟩ := Journal.of_eq_ok hpay
      obtain ⟨hok, rfl⟩ := Ledger.ofExcept_eq_returns heval'
      have hexp := lt_expirationTime_of_evaluateProposalCreate hok
      obtain ⟨_, _, _, rfl⟩ :=
        (Ledger.effected_of_effects hcheck').trans (Ledger.effected_of_effects hpay')
      refine (proposalCreate hp _ rfl hexp).bind fun _ _ _ _ => ?_
      exact ite (fun _ => effects record _) fun _ => pure ()
  | proposalUpdate u =>
      refine gets_bind ((effects record _).bind fun _ _ _ _ => (ofExcept _).bind fun _ _ _ _ => ?_)
      refine (effects record _).bind fun _ _ _ _ => (proposalUpdate hp u).bind fun _ _ _ _ => ?_
      exact effects record _
  | proposalDelete u =>
      refine gets_bind ((effects record _).bind fun _ _ o₁ hcheck => ?_)
      refine (ofExcept _).bind fun _ _ o₂ heval => (effects record _).bind fun _ _ o₃ hpay => ?_
      obtain ⟨⟨_, hcheck'⟩, -⟩ := Journal.of_eq_ok hcheck
      obtain ⟨⟨_, heval'⟩, -⟩ := Journal.of_eq_ok heval
      obtain ⟨⟨_, hpay'⟩, -⟩ := Journal.of_eq_ok hpay
      obtain ⟨hok, rfl⟩ := Ledger.ofExcept_eq_returns heval'
      have hmem := mem_proposalIds_of_evaluateProposalDelete hok
      obtain ⟨_, _, _, rfl⟩ :=
        (Ledger.effected_of_effects hcheck').trans (Ledger.effected_of_effects hpay')
      refine erase_note (fun _ => effects record _) ?_ false
      exact hmem

end Evaluators

end AccountsFrom

/-- **What operations do to the proposals**: those that are not in the journal are still there, each
comes into it once, and those that are made have yet to expire. -/
theorem accounts_operation (R : Rules β ω) (record : Bool) (d : ℕ) (op : Operation β) :
    Accounts (Journal.operation R record d op) := by
  induction d generalizing op with
  | zero => exact fun _ => AccountsFrom.operationWith (fun _ _ => .raise .crash) op
  | succ d ih => exact fun _ => AccountsFrom.operationWith (fun p _ => .proposalWith ih p) op

/-- **What the execution of a proposal does to the proposals**, to those that its operations execute
or delete and to itself. -/
theorem accounts_proposal (R : Rules β ω) (record : Bool) (d : ℕ) (p : ProposalObject β) :
    Accounts (Journal.proposal R record d p) := by
  cases d with
  | zero => exact fun _ => .raise .crash
  | succ d => exact fun _ => .proposalWith (accounts_operation R record d) p

end ZosCore
