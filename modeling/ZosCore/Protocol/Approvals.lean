import ZosCore.Chain.Database
import ZosCore.Protocol.VerifyAuthority

/-!
`proposal_object::is_authorized_to_execute`, and what it says of a proposal that has been given
more approvals.

The approvals of accounts and of keys go to `verify_authority` as accounts that are approved from
the start and as keys that have signed. With more of them more accounts are approved
(`Keyring.Extends.approved_subset`), also within a given depth. What `is_authorized_to_execute`
returns is less regular: a key that is not needed is refused, and an authority that is reached
earlier leaves accounts unvisited, which a later check may then be too deep to visit.

* `Keyring.Extends`: more keys and more approvals over the same accounts.
* `AuthorityView.isAuthorizedToExecute`: the check of a proposal.
* `AuthorityView.isAuthorizedToExecute_approvalsAdded`: what is left of an authorization when
  approvals are added.
-/

namespace ZosCore

open Exec

/-! ### More signatures and approvals -/

namespace Keyring

variable {κ α : Type} {K K' : Keyring κ α} {X Y : Set ℕ} {auth : Authority κ α}

/-- `K'` has the signatures and approvals of `K`, and perhaps more, over the same accounts. -/
structure Extends (K K' : Keyring κ α) : Prop where
  addresses : K'.addresses = K.addresses
  getActive : K'.getActive = K.getActive
  sigs : K.sigs ⊆ K'.sigs
  approvals : K.approvals ⊆ K'.approvals

namespace Extends

/-- More keys have more addresses. -/
lemma signedAddresses_subset (h : K.Extends K') : K.signedAddresses ⊆ K'.signedAddresses := by
  rintro a ⟨k, hk, hka⟩
  refine ⟨k, h.sigs hk, ?_⟩
  rwa [h.addresses]

lemma signedWeight_le (h : K.Extends K') (auth : Authority κ α) :
    K.signedWeight auth ≤ K'.signedWeight auth := by
  have hkeys : weightIn {k | k ∈ K.sigs} auth.keyAuths ≤ weightIn {k | k ∈ K'.sigs} auth.keyAuths :=
    weightIn_mono (fun k hk => h.sigs hk) _
  have haddrs := weightIn_mono h.signedAddresses_subset auth.addressAuths
  unfold signedWeight
  omega

/-- What is satisfied stays so with more signatures and more accounts. -/
lemma satisfied (h : K.Extends K') (hXY : X ⊆ Y) (hs : K.Satisfied X auth) :
    K'.Satisfied Y auth := by
  have hsigned := h.signedWeight_le auth
  have haccounts := weightIn_mono hXY auth.accountAuths
  rw [Satisfied] at hs ⊢
  omega

/-- One round of approval approves more accounts. -/
lemma approve_subset (h : K.Extends K') (hXY : X ⊆ Y) : K.approve X ⊆ K'.approve Y := by
  intro id hid
  rcases hid with hid | hid
  · exact .inl (h.approvals hid)
  · refine .inr ?_
    rw [h.getActive]
    exact h.satisfied hXY hid

/-- More accounts are approved. -/
theorem approved_subset (h : K.Extends K') : K.approved ⊆ K'.approved := by
  refine OrderHom.lfp_le _ ?_
  calc K.approve K'.approved ⊆ K'.approve K'.approved := h.approve_subset subset_rfl
    _ = K'.approved := K'.approve.map_lfp

/-- More accounts are approved within a depth. -/
theorem approvedWithin_subset (h : K.Extends K') (n : ℕ) :
    K.approvedWithin n ⊆ K'.approvedWithin n := by
  induction n with
  | zero => exact fun id hid => h.approvals hid
  | succ n ih =>
      rw [approvedWithin, approvedWithin, Function.iterate_succ_apply', Function.iterate_succ_apply']
      exact h.approve_subset ih

/-- What is required stays satisfied. -/
lemma meets (h : K.Extends K') {getOwner : ℕ → Authority κ α} {owners owners' : List ℕ}
    (howners : owners ⊆ owners') {X' Y' : Set ℕ} (hX : X ⊆ X') (hY : Y ⊆ Y') {r : Required κ α}
    (hm : K.Meets getOwner owners X Y r) : K'.Meets getOwner owners' X' Y' r where
  other auth hauth := h.satisfied hX (hm.other auth hauth)
  active id hid := (hm.active id hid).imp (fun hid => hY hid) (h.satisfied hX)
  owner id hid := (hm.owner id hid).imp (fun hid => howners hid) (h.satisfied hX)

end Extends

end Keyring

/-! ### Proposals -/

/-- `proposal` and `proposal'` differ in the approvals available, of which the second has more. -/
structure ApprovalsAdded {β : Type} (p p' : ProposalObject β) : Prop where
  proposedOps : p'.proposedOps = p.proposedOps
  active : p.availableActiveApprovals ⊆ p'.availableActiveApprovals
  owner : p.availableOwnerApprovals ⊆ p'.availableOwnerApprovals
  key : p.availableKeyApprovals ⊆ p'.availableKeyApprovals

/-- What `is_authorized_to_execute` reads of the database, and the authorities that operations
require. -/
structure AuthorityView (β α : Type) where
  addresses : ℕ → List α
  getActive : ℕ → Authority ℕ α
  getOwner : ℕ → Authority ℕ α
  maxAuthorityDepth : ℕ
  /-- `operation_get_required_authorities`, over the operations of a transaction. -/
  required : List (Operation β) → Required ℕ α

namespace AuthorityView

variable {β α : Type} (V : AuthorityView β α) {p p' : ProposalObject β}

/-- The keys and accounts that have approved a proposal. -/
def keyring (p : ProposalObject β) : Keyring ℕ α :=
  ZosCore.keyring V.addresses V.getActive p.availableKeyApprovals p.availableActiveApprovals
    p.availableOwnerApprovals

/-- All that the proposal requires is satisfied. -/
def Authorized (p : ProposalObject β) : Prop :=
  (V.keyring p).Meets V.getOwner p.availableOwnerApprovals (V.keyring p).approved
    (V.keyring p).approved (V.required p.proposedOps)

/-- All that the proposal requires is satisfied within `max_authority_depth`. -/
def AuthorizedWithin (p : ProposalObject β) : Prop :=
  (V.keyring p).Meets V.getOwner p.availableOwnerApprovals
    ((V.keyring p).approvedWithin V.maxAuthorityDepth)
    ((V.keyring p).approvedWithin (V.maxAuthorityDepth + 1)) (V.required p.proposedOps)

variable {V}

/-- The approvals that are added extend the keys and accounts. -/
lemma keyring_extends (h : ApprovalsAdded p p') : (V.keyring p).Extends (V.keyring p') where
  addresses := rfl
  getActive := rfl
  sigs := h.key
  approvals := by
    intro id hid
    rcases List.mem_cons.mp hid with rfl | hid
    · exact List.mem_cons_self
    · refine List.mem_cons_of_mem _ ?_
      exact (List.mem_append.mp hid).elim
        (fun hid => List.mem_append_left _ (h.active hid))
        fun hid => List.mem_append_right _ (h.owner hid)

/-- What is authorized stays authorized. -/
lemma Authorized.added (h : ApprovalsAdded p p') (hp : V.Authorized p) : V.Authorized p' := by
  rw [Authorized]
  rw [h.proposedOps]
  have hext : (V.keyring p).Extends (V.keyring p') := keyring_extends h
  exact hext.meets h.owner hext.approved_subset hext.approved_subset hp

lemma AuthorizedWithin.added (h : ApprovalsAdded p p') (hp : V.AuthorizedWithin p) :
    V.AuthorizedWithin p' := by
  rw [AuthorizedWithin]
  rw [h.proposedOps]
  have hext : (V.keyring p).Extends (V.keyring p') := keyring_extends h
  exact hext.meets h.owner (hext.approvedWithin_subset _) (hext.approvedWithin_subset _) hp

variable [DecidableEq α] (V)

/-- The check of the proposal comes to no address of a key that has not approved it. -/
def Settled (p : ProposalObject β) : Prop :=
  (V.keyring p).AddressesSettled V.getOwner (V.required p.proposedOps)

/-- The call of `verify_authority`; the committee is allowed. -/
def verify (p : ProposalObject β) : Except AuthorityError Unit :=
  verifyAuthority V.addresses V.getActive V.getOwner p.availableKeyApprovals V.maxAuthorityDepth
    true p.availableActiveApprovals p.availableOwnerApprovals (V.required p.proposedOps)

/-- `is_authorized_to_execute`. The result is `none` where the behaviour is undefined. -/
def isAuthorizedToExecute (p : ProposalObject β) : Option Bool :=
  match V.verify p with
  | .ok () => some true
  | .error .undefined => none
  | .error _ => some false

variable {V}

lemma isAuthorizedToExecute_eq_true : V.isAuthorizedToExecute p = some true ↔ V.verify p = .ok () := by
  rw [isAuthorizedToExecute]
  split <;> simp_all

lemma isAuthorizedToExecute_eq_none :
    V.isAuthorizedToExecute p = none ↔ V.verify p = .error .undefined := by
  rw [isAuthorizedToExecute]
  split <;> simp_all

/-- What `verify_authority` says of a proposal. -/
lemma verify_spec {U : Prop} (h : V.Settled p ∨ U) :
    (V.verify p = .ok () → V.Authorized p) ∧
    ∀ e, V.verify p = .error e → (V.keyring p).Refusal V.getOwner V.maxAuthorityDepth true
      p.availableOwnerApprovals (V.required p.proposedOps) U e := by
  have htriple : Triple (V.keyring p).Holds
      (SignState.verifyRequired V.addresses V.getActive V.getOwner V.maxAuthorityDepth true
        p.availableOwnerApprovals (V.required p.proposedOps)) _ _ :=
    Keyring.triple_verifyRequired h
  obtain ⟨hok, herr⟩ := htriple _ holds_start
  exact ⟨fun hv => hok () _ (Prod.ext hv rfl), fun e hv => herr e _ (Prod.ext hv rfl)⟩

/-- A proposal that is authorized to execute has all that it requires. -/
lemma authorized_of_isAuthorizedToExecute (h : V.isAuthorizedToExecute p = some true) :
    V.Authorized p :=
  (verify_spec (U := True) (.inr trivial)).1 (isAuthorizedToExecute_eq_true.mp h)

/-- A proposal that has all that it requires, within the depth, is refused only because of a key
that is not needed. -/
lemma AuthorizedWithin.isAuthorizedToExecute (h : V.AuthorizedWithin p) :
    V.isAuthorizedToExecute p = some true ∨ V.isAuthorizedToExecute p = none ∨
      (p.availableKeyApprovals ≠ [] ∧ V.verify p = .error .irrelevantSig) := by
  cases hv : V.verify p with
  | ok _ => exact .inl (isAuthorizedToExecute_eq_true.mpr hv)
  | error e =>
      have hrefusal := (verify_spec (U := True) (.inr trivial)).2 e hv
      rcases hrefusal.missing h with rfl | rfl | rfl
      · exact .inr (.inr ⟨hrefusal.signature rfl, rfl⟩)
      · exact absurd (hrefusal.committee rfl) (by simp)
      · exact .inr (.inl (isAuthorizedToExecute_eq_none.mpr hv))

/-- The check of a settled proposal is defined. -/
lemma Settled.isAuthorizedToExecute_ne_none (h : V.Settled p) :
    V.isAuthorizedToExecute p ≠ none := by
  intro hnone
  have hrefusal := (verify_spec (U := False) (.inl h)).2 _ (isAuthorizedToExecute_eq_none.mp hnone)
  exact hrefusal.undefined rfl

/-- **Approvals that are added.** If a proposal is authorized to execute then with more approvals
it still has all that it requires. If it has so within the depth, then with more approvals it is
still authorized, or refused for a key that is not needed, so that without key approvals it is
not refused; if the check comes to no address of a key that has not approved, then it is
defined. -/
theorem isAuthorizedToExecute_approvalsAdded (hadd : ApprovalsAdded p p')
    (h : V.isAuthorizedToExecute p = some true) :
    V.Authorized p' ∧
    (V.AuthorizedWithin p → V.isAuthorizedToExecute p' = some true ∨
      V.isAuthorizedToExecute p' = none ∨
      (p'.availableKeyApprovals ≠ [] ∧ V.verify p' = .error .irrelevantSig)) ∧
    (V.Settled p' → V.isAuthorizedToExecute p' ≠ none) := by
  refine ⟨(authorized_of_isAuthorizedToExecute h).added hadd, fun hwithin => ?_, fun hsettled => ?_⟩
  · exact (hwithin.added hadd).isAuthorizedToExecute
  · exact hsettled.isAuthorizedToExecute_ne_none

end AuthorityView

/-! ### Approvals that spoil an authorization -/

/-- The authorities of a few accounts. Account 5 needs two of the accounts 6, 7 and 8, account 8
needs account 9, and account 10 needs account 11, which needs account 8. -/
def councilActive (id : ℕ) : Authority ℕ ℕ :=
  if id = 5 then { weightThreshold := 2, accountAuths := [(6, 1), (7, 1), (8, 1)] }
  else if id = 8 then { weightThreshold := 1, accountAuths := [(9, 1)] }
  else if id = 10 then { weightThreshold := 1, accountAuths := [(11, 1)] }
  else if id = 11 then { weightThreshold := 1, accountAuths := [(8, 1)] }
  else { weightThreshold := 1 }

/-- A database with these accounts, of depth 1, where all operations together require the accounts
`ids`. -/
def council (ids : List ℕ) : AuthorityView Unit ℕ where
  addresses k := [k + 100]
  getActive := councilActive
  getOwner _ := { weightThreshold := 1 }
  maxAuthorityDepth := 1
  required _ := { active := ids }

/-- A proposal with approvals of accounts and keys. -/
def councilProposal (accounts keys : List ℕ) : ProposalObject Unit where
  id := 0
  proposedOps := []
  expirationTime := 0
  proposer := 7
  availableActiveApprovals := accounts
  availableKeyApprovals := keys

/-- Accounts 7 and 9 approve for account 5; then so does account 6. -/
theorem isAuthorizedToExecute_council :
    ApprovalsAdded (councilProposal [7, 9] []) (councilProposal [6, 7, 9] []) ∧
    (council [5]).isAuthorizedToExecute (councilProposal [7, 9] []) = some true ∧
    (council [5]).Authorized (councilProposal [6, 7, 9] []) := by
  have hadd : ApprovalsAdded (councilProposal [7, 9] []) (councilProposal [6, 7, 9] []) :=
    ⟨rfl, by decide, by decide, by decide⟩
  have h : (council [5]).isAuthorizedToExecute (councilProposal [7, 9] []) = some true := by decide
  exact ⟨hadd, h, (AuthorityView.isAuthorizedToExecute_approvalsAdded hadd h).1⟩

/-- A key that is not needed spoils the authorization of a proposal. So does the approval of
account 6, if accounts 5 and 10 are required: the authority of account 5 is then reached before
account 8 is visited, and from account 10 that account is too deep. -/
theorem approvalsAdded_refused :
    (ApprovalsAdded (councilProposal [7, 9] []) (councilProposal [7, 9] [1]) ∧
      (council [5]).isAuthorizedToExecute (councilProposal [7, 9] []) = some true ∧
      (council [5]).isAuthorizedToExecute (councilProposal [7, 9] [1]) = some false) ∧
    (ApprovalsAdded (councilProposal [7, 9] []) (councilProposal [6, 7, 9] []) ∧
      (council [5, 10]).isAuthorizedToExecute (councilProposal [7, 9] []) = some true ∧
      (council [5, 10]).isAuthorizedToExecute (councilProposal [6, 7, 9] []) = some false) := by
  refine ⟨⟨⟨rfl, ?_, ?_, ?_⟩, ?_, ?_⟩, ⟨⟨rfl, ?_, ?_, ?_⟩, ?_, ?_⟩⟩
  all_goals decide

end ZosCore
