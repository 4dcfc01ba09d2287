import ZosCore.Chain.Calls

/-!
`proposal_evaluator.cpp`: the review of proposals.

`is_must_review_period` and `is_no_review_period` look through the proposed operations and
answer at the first one that is on their list. So one operation of the second list takes the
review from all the others, and an operation of the first list hides what comes after it.

* `OperationTag.mustReview`, `OperationTag.noReview`: the two lists.
* **`review_required_iff`**: a proposal that has to be reviewed is, exactly if it is not a mixture
  of operations with and without review.
* **`proposals_do_not_nest`**: an accepted proposal proposes no proposals, exactly if none comes after
  an operation that has to be reviewed; and then `push_proposal` never runs inside itself.
-/

namespace ZosCore

/-! ### The two lists -/

/-- `operation::tag`, as far as the two lists name it. -/
inductive OperationTag where
  | committeeMemberUpdateGlobalParameters
  | committeeMemberUpdateZosParameters
  | bitlenderOptionAuthor
  | gatewayIssueCurrency
  | bitlenderOptionCreate
  | carrierCreate
  | carrierUpdate
  | authorCreate
  | authorUpdate
  | gatewayUpdate
  | gatewayCreate
  | transfer
  | gatewayDeposit
  | accountCreate
  | accountAuthenticate
  | issueFundraiseCreate
  | issueFundraiseUpdate
  | issueFundraiseRemove
  | bitlenderOptionUpdate
  | bitlenderOptionStop
  | bitlenderOptionFeeMode
  | bitlenderParamersUpdate
  | assetUpdateFeedProducers
  | assetUpdateBitasset
  | assetUpdateGateway
  | assetUpdate
  | assetProperty
  | bitlenderUpdateFeedProducers
  | other (which : ℕ)
  deriving DecidableEq

namespace OperationTag

/-- The cases of `is_must_review_period` that return true. -/
def mustReview : OperationTag → Bool
  | committeeMemberUpdateGlobalParameters | committeeMemberUpdateZosParameters
  | bitlenderOptionAuthor | gatewayIssueCurrency | bitlenderOptionCreate | carrierCreate
  | carrierUpdate | authorCreate | authorUpdate | gatewayUpdate | gatewayCreate => true
  | _ => false

/-- The cases of `is_no_review_period`. -/
def noReview : OperationTag → Bool
  | transfer | gatewayDeposit | accountCreate | accountAuthenticate | issueFundraiseCreate
  | issueFundraiseUpdate | issueFundraiseRemove | bitlenderOptionUpdate | bitlenderOptionStop
  | bitlenderOptionFeeMode | bitlenderParamersUpdate | assetUpdateFeedProducers
  | assetUpdateBitasset | assetUpdateGateway | assetUpdate | assetProperty
  | bitlenderUpdateFeedProducers => true
  | _ => false

end OperationTag

variable {β ω : Type}

/-- The rules with the two lists of the source, `tag` giving the tag of an operation. -/
def Rules.withTags (R : Rules β ω) (tag : β → OperationTag) : Rules β ω :=
  { R with mustReview := fun o => (tag o).mustReview, noReview := fun o => (tag o).noReview }

namespace Operation

variable (R : Rules β ω)

/-- The operation is on the list of `is_must_review_period`. -/
def isMustReview : Operation β → Bool
  | .basic o => R.mustReview o
  | _ => false

/-- The operation is on the list of `is_no_review_period`. -/
def isNoReview : Operation β → Bool
  | .basic o => R.noReview o
  | _ => false

end Operation

/-! ### What is accepted -/

section Accepted

variable {R : Rules β ω} {o : Objects β ω} {payer expiration : ℕ} {review : Option ℕ}
  {ops : List (Operation β)} {noReview mustReview : Bool}

/-- The answer of `is_must_review_period`, where it does not throw. -/
lemma isMustReviewPeriod_eq_ok (h : Database.isMustReviewPeriod R ops = .ok mustReview) :
    mustReview = ops.any (·.isMustReview R) := by
  induction ops with
  | nil => cases h; rfl
  | cons op ops ih =>
      cases op with
      | basic b =>
          simp only [Database.isMustReviewPeriod] at h
          split_ifs at h with hb
          · cases h
            simp [Operation.isMustReview, hb]
          · simp [ih h, Operation.isMustReview, hb]
      | proposalCreate _ _ _ _ => cases h
      | proposalUpdate _ => cases h
      | proposalDelete _ => simpa [Operation.isMustReview] using ih h

lemma isNoReviewPeriod_eq : Database.isNoReviewPeriod R ops = ops.any (·.isNoReview R) := by
  rw [Database.isNoReviewPeriod]
  congr 1

/-! ### The review cannot be bypassed, if nothing is mixed -/

/-- An operation has to be reviewed, or the committee is asked for more than operations without
review. -/
def NeedsReview (R : Rules β ω) (ops : List (Operation β)) : Prop :=
  (∃ op ∈ ops, op.isMustReview R = true) ∨
    R.committeeRequired ops = true ∧ ∃ op ∈ ops, op.isNoReview R = false

/-- The proposal is in review for as long as the committee wants, counted from now. -/
def Reviewed (R : Rules β ω) (o : Objects β ω) (p : ProposalObject β) : Prop :=
  ∃ t, p.reviewPeriodTime = some t ∧ o.time + R.committeeProposalReviewPeriod o ≤ t

/-- The committee is asked for operations with and without review at once, and none of them has
to be reviewed. -/
def MixedReview (R : Rules β ω) (ops : List (Operation β)) : Prop :=
  R.committeeRequired ops = true ∧ (∃ op ∈ ops, op.isNoReview R = true) ∧
    (∃ op ∈ ops, op.isNoReview R = false) ∧ ∀ op ∈ ops, op.isMustReview R = false

/-- A proposal with a review is in review for at least as long as it has to be. -/
lemma reviewed_newProposal {r : ℕ} (hr : R.committeeProposalReviewPeriod o ≤ r) :
    Reviewed R o (Database.newProposal R o payer expiration (some r) ops false) :=
  ⟨o.time + r, rfl, Nat.add_le_add_left hr _⟩

/-- A proposal without review is not in review. -/
lemma not_reviewed_newProposal :
    ¬ Reviewed R o (Database.newProposal R o payer expiration review ops true) := by
  rintro ⟨t, ht, -⟩
  cases ht

lemma needsReview_iff_mixedReview (hmust : ops.any (·.isMustReview R) = false)
    (hno : ops.any (·.isNoReview R) = true) : NeedsReview R ops ↔ MixedReview R ops := by
  have hmust' : ∀ op ∈ ops, op.isMustReview R = false := by simpa using hmust
  have hno' : ∃ op ∈ ops, op.isNoReview R = true := by simpa using hno
  constructor
  · rintro (⟨op, hop, h⟩ | ⟨hc, h⟩)
    · rw [hmust' op hop] at h
      cases h
    · exact ⟨hc, hno', h, hmust'⟩
  · exact fun h => .inr ⟨h.1, h.2.2.1⟩

end Accepted

/-- **The review period cannot be bypassed, unless operations are mixed.** A proposal that is
accepted and has to be reviewed is stored with its review, exactly if it is no mixture. -/
theorem review_required_iff (R : Rules β ω) (tag : β → OperationTag) {o : Objects β ω}
    {payer expiration : ℕ} {review : Option ℕ} {ops : List (Operation β)} {noReview : Bool}
    (h : Database.evaluateProposalCreate (R.withTags tag) o payer expiration review ops =
      .ok noReview) :
    (NeedsReview (R.withTags tag) ops → Reviewed (R.withTags tag) o
      (Database.newProposal (R.withTags tag) o payer expiration review ops noReview)) ↔
    ¬ MixedReview (R.withTags tag) ops := by
  obtain ⟨mustReview, hmust, hno, hperiod⟩ := evaluateProposalCreate_eq_ok h
  have hmust' := isMustReviewPeriod_eq_ok hmust
  rw [isNoReviewPeriod_eq] at hno
  cases noReview with
  | true =>
      obtain ⟨hm, hn⟩ : mustReview = false ∧ ops.any (·.isNoReview (R.withTags tag)) = true := by
        simpa using hno.symm
      rw [needsReview_iff_mixedReview (hmust' ▸ hm) hn]
      exact ⟨fun hreview hmixed => not_reviewed_newProposal (hreview hmixed),
        fun hmixed hneeds => absurd hneeds hmixed⟩
  | false =>
      refine ⟨fun _ hmixed => ?_, fun _ hneeds => ?_⟩
      · -- a mixture is accepted without review
        have hm : mustReview = false := by
          rw [hmust']
          simpa using hmixed.2.2.2
        have hn : ops.any (·.isNoReview (R.withTags tag)) = true := by simpa using hmixed.2.1
        rw [hm, hn] at hno
        cases hno
      · have hreq : (mustReview || (R.withTags tag).committeeRequired ops) = true := by
          rcases hneeds with hm | hc
          · have : mustReview = true := by
              rw [hmust']
              simpa using hm
            rw [this, Bool.true_or]
          · rw [hc.1, Bool.or_true]
        obtain ⟨r, rfl, hr⟩ := hperiod rfl hreq
        exact reviewed_newProposal hr

/-- A chain on which all operations are the committee's, to be reviewed for a week. -/
def committeeRules : Rules OperationTag Unit :=
  { Rules.lenient fun _ _ => [] with
    committeeRequired := fun ops => !ops.isEmpty
    committeeProposalReviewPeriod := fun _ => 604800 }

/-- A new chain. -/
def emptyObjects : Objects OperationTag Unit := { activeWitnesses := [0], world := () }

/-- The committee creates a gateway, after a review of a week. -/
theorem review_required_gatewayCreate :
    Database.evaluateProposalCreate (committeeRules.withTags id) emptyObjects 7 700000
      (some 604800) [.basic .gatewayCreate] = .ok false ∧
    (NeedsReview (committeeRules.withTags id) [.basic .gatewayCreate] →
      Reviewed (committeeRules.withTags id) emptyObjects (Database.newProposal
        (committeeRules.withTags id) emptyObjects 7 700000 (some 604800)
        [.basic .gatewayCreate] false)) := by
  have h : Database.evaluateProposalCreate (committeeRules.withTags id) emptyObjects 7 700000
      (some 604800) [.basic .gatewayCreate] = .ok false := rfl
  refine ⟨h, (review_required_iff committeeRules id h).mpr ?_⟩
  rintro ⟨-, -, -, hmust⟩
  have := hmust (.basic .gatewayCreate) List.mem_cons_self
  cases this

/-- With a transfer beside it, another operation of the committee needs no review. -/
theorem not_review_required_transfer :
    Database.evaluateProposalCreate (committeeRules.withTags id) emptyObjects 7 700000
      none [.basic .transfer, .basic (.other 0)] = .ok true ∧
    NeedsReview (committeeRules.withTags id) [.basic .transfer, .basic (.other 0)] ∧
    ¬ Reviewed (committeeRules.withTags id) emptyObjects (Database.newProposal
      (committeeRules.withTags id) emptyObjects 7 700000 none
      [.basic .transfer, .basic (.other 0)] true) := by
  refine ⟨rfl, .inr ⟨rfl, .basic (.other 0), ?_, rfl⟩, not_reviewed_newProposal⟩
  exact List.mem_cons_of_mem _ List.mem_cons_self

/-! ### Proposals do not nest, if nothing is hidden -/

/-- No operation is a `proposal_create` or a `proposal_update`. -/
def Flat (ops : List (Operation β)) : Prop := ∀ op ∈ ops, op.isProposing = false

/-- No `proposal_create` or `proposal_update` comes after an operation that has to be reviewed. -/
def Ordered (R : Rules β ω) (ops : List (Operation β)) : Prop :=
  Flat (ops.dropWhile fun op => !op.isMustReview R)

/-- What the operation proposes is ordered. -/
def Operation.IsOrdered (R : Rules β ω) : Operation β → Prop
  | .proposalCreate _ _ _ ops => Ordered R ops
  | _ => True

/-- What the transaction proposes is ordered. -/
def Transaction.IsOrdered (R : Rules β ω) (trx : Transaction β) : Prop :=
  ∀ op ∈ trx.operations, op.IsOrdered R

/-- What the call brings in is ordered. -/
def Call.IsOrdered (R : Rules β ω) : Call β → Prop
  | .pushBlock b _ => ∀ trx ∈ b.transactions, trx.IsOrdered R
  | .pushTransaction trx _ => trx.IsOrdered R
  | .validateTransaction trx => trx.IsOrdered R
  | .generateBlock .. => True

section Nesting

variable {R : Rules β ω} {ops : List (Operation β)} {mustReview : Bool}

lemma flat_cons_iff {op : Operation β} (h : op.isProposing = false) :
    Flat (op :: ops) ↔ Flat ops := by
  simp [Flat, h]

/-- `is_must_review_period` lets proposals pass only behind an operation that has to be
reviewed. -/
lemma flat_iff_ordered (h : Database.isMustReviewPeriod R ops = .ok mustReview) :
    Flat ops ↔ Ordered R ops := by
  induction ops with
  | nil => rfl
  | cons op ops ih =>
      cases op with
      | basic b =>
          by_cases hb : R.mustReview b = true
          · rw [Ordered, List.dropWhile_cons_of_neg (by simp [Operation.isMustReview, hb])]
          · simp only [Database.isMustReviewPeriod, hb, if_false, Bool.false_eq_true] at h
            rw [Ordered, List.dropWhile_cons_of_pos (by simp [Operation.isMustReview, hb]),
              flat_cons_iff rfl]
            exact ih h
      | proposalCreate _ _ _ _ => cases h
      | proposalUpdate _ => cases h
      | proposalDelete _ =>
          rw [Ordered, List.dropWhile_cons_of_pos rfl, flat_cons_iff rfl]
          exact ih h

lemma Operation.IsOrdered.admitted {op : Operation β} (h : op.IsOrdered R) :
    op.Admitted R Flat := by
  cases op with
  | proposalCreate _ _ _ ops => exact fun _ hmust => (flat_iff_ordered hmust).mpr h
  | _ => trivial

lemma Call.IsOrdered.within {c : Call β} (h : c.IsOrdered R) :
    c.Within (Transaction.Admitted R Flat) (SignedBlock.Admitted R Flat) fun _ => True := by
  cases c with
  | pushBlock b skip => exact ⟨fun trx htrx op hop => (h trx htrx op hop).admitted, trivial⟩
  | pushTransaction trx skip => exact ⟨fun op hop => (h op hop).admitted, trivial⟩
  | validateTransaction trx => exact fun op hop => (h op hop).admitted
  | generateBlock _ _ _ => trivial

/-- An operation that does not propose proposes nothing wrong. -/
lemma Operation.admitted_of_not_isProposing {F : List (Operation β) → Prop} {op : Operation β}
    (h : op.isProposing = false) : op.Admitted R F := by
  cases op with
  | proposalCreate _ _ _ _ => cases h
  | _ => trivial

/-- All proposals, of now and of the undo states, are flat, and the call stack has not been used
up. -/
def Unnested : Database β ω → Prop :=
  Throughout (fun used _ => used = false) fun o => ∀ p ∈ o.proposals, Flat p.proposedOps

lemma unnested_operationInvariant (n : ℕ) :
    OperationInvariant n Flat (fun _ => (Unnested : Database β ω → Prop))
      fun db => db.stackUsedUp = false :=
  Throughout.operationInvariant n (fun _ _ ho h => h.2 ho) fun _ ho => ho

/-- With room for one `push_proposal` operations go through: those of a flat proposal need no
more. -/
lemma unnested_operates :
    Operates R 1 Flat (Unnested : Database β ω → Prop) fun db => db.stackUsedUp = false := by
  have h := unnested_operationInvariant (β := β) (ω := ω) 1
  have hops : ∀ ops : List (Operation β), Flat ops → ∀ op ∈ ops,
      Upholds Unnested (fun db => db.stackUsedUp = false) (Database.applyOperation R 0 op) := by
    intro ops hops op hop
    refine h.applyOperation_zero (k := 0) (Operation.admitted_of_not_isProposing (hops op hop)) ?_
    intro hp
    rw [hops op hop] at hp
    cases hp
  exact ⟨fun op hop => h.applyOperation_succ (k := 0) zero_lt_one hop hops,
    fun p hp => h.pushProposalWith (k := 0) zero_lt_one (hops _ hp)⟩

lemma unnested_applyBlock {b : SignedBlock β} (hb : b.Admitted R Flat) (skip : SkipFlags) :
    Upholds (Unnested : Database β ω → Prop) (fun db => db.stackUsedUp = false)
      (Database.applyBlock R 1 b skip) := by
  have hinv : ∀ db : Database β ω, Unnested db → BlockInvariant R 1 1 Flat db.objects.dynamic b
      (fun _ => (Unnested : Database β ω → Prop)) fun db => db.stackUsedUp = false := fun _ _ =>
    { unnested_operationInvariant 1 with
      operates := unnested_operates
      objects := fun h _ hp => h.record (by rw [hp]; exact h.2.2.1)
      other := fun _ _ _ h => h
      ended := fun _ _ h => h
      resize := fun _ h => h }
  exact BlockInvariant.upholds_applyBlock (I := fun _ => Unnested) hinv hb skip

lemma unnested_chainInvariant :
    ChainInvariant R 1 (Transaction.Admitted R Flat) (SignedBlock.Admitted R Flat) (fun _ => True)
      (fun _ => (Unnested : Database β ω → Prop)) Unnested fun db => db.stackUsedUp = false :=
  Throughout.chainInvariant (fun _ hb => hb) (fun _ _ _ _ htrxs => htrxs)
    (fun _ htrx => Upholds.applyTransaction
      (fun op hop => unnested_operates.operation op (htrx op hop)) fun _ h => h.record h.2.2.1)
    fun _ skip hb _ => unnested_applyBlock hb skip

end Nesting

/-- **Proposals do not nest, unless they are hidden.** The operations of an accepted proposal are no
proposals themselves, exactly if none comes after an operation that has to be reviewed. In a run
where this is so of all that is proposed, room for one `push_proposal` on the call stack is always
enough: `push_proposal` never runs inside `push_proposal`. -/
theorem proposals_do_not_nest (R : Rules β ω) :
    (∀ (o : Objects β ω) (payer expiration : ℕ) (review : Option ℕ) (ops : List (Operation β))
      (noReview : Bool), Database.evaluateProposalCreate R o payer expiration review ops =
        .ok noReview → (Flat ops ↔ Ordered R ops)) ∧
    ∀ (db₀ db : Database β ω) (l : List (Call β)) (c : Call β), db₀.Fresh →
      db₀.objects.proposals = [] → Database.Run R 1 db₀ l db → (∀ c ∈ l, c.IsOrdered R) →
      c.IsOrdered R → (Database.call R 1 c db).2.stackUsedUp = false := by
  refine ⟨fun o payer expiration review ops noReview h => ?_,
    fun db₀ db l c hfresh hproposals hrun hl hc => ?_⟩
  · obtain ⟨mustReview, hmust, -⟩ := evaluateProposalCreate_eq_ok h
    exact flat_iff_ordered hmust
  · have h₀ : Idle (Transaction.Admitted R Flat) (SignedBlock.Admitted R Flat)
        (fun _ => Unnested) db₀ := by
      have hflat : ∀ p ∈ db₀.objects.proposals, Flat p.proposedOps := by simp [hproposals]
      refine ⟨hfresh.holds, hfresh.stackUsedUp, hfresh.enabled, hflat, ?_⟩
      simp [hfresh.stack]
    have hdb := unnested_chainInvariant.run hrun (fun c hc => (hl c hc).within) h₀
    obtain ⟨hok, herr⟩ := unnested_chainInvariant.node.call hc.within db hdb
    rcases hx : Database.call R 1 c db with ⟨e | a, db'⟩
    · have h := herr e db' hx
      cases e with
      | fc e => exact h.2.1
      | crash => exact h
    · exact (hok a db' hx).2.1

/-- A transaction that proposes the operations, at a time when proposals that are authorized are
executed at once. -/
def proposing (ops : List (Operation OperationTag)) : Transaction OperationTag where
  id := 1
  expiration := 1700000010
  operations := [.proposalCreate 7 1700700000 (some 604800) ops]

/-- A new node, at that time. -/
def newNode : Database OperationTag Unit := { objects := { emptyObjects with time := 1700000000 } }

/-- The committee creates a gateway: the proposal is flat, and executed in the stack there is. -/
theorem proposals_do_not_nest_gatewayCreate :
    Flat [(.basic .gatewayCreate : Operation OperationTag)] ∧
    (Database.call (committeeRules.withTags id) 1
      (.pushTransaction (proposing [.basic .gatewayCreate]) {}) newNode).2.stackUsedUp = false := by
  have hordered : Ordered (committeeRules.withTags id) [.basic .gatewayCreate] := by
    intro op hop
    cases List.mem_singleton.mp hop
    rfl
  have h := proposals_do_not_nest (committeeRules.withTags id)
  refine ⟨(h.1 newNode.objects 7 1700700000 (some 604800) _ false rfl).mpr hordered, ?_⟩
  refine h.2 newNode newNode [] _ ?_ rfl (.nil newNode) (by simp) fun op hop => ?_
  · constructor <;> rfl
  · cases List.mem_singleton.mp hop
    exact hordered

/-- Behind it the committee proposes another proposal: it is accepted, and `push_proposal` runs
inside `push_proposal`. -/
theorem not_proposals_do_not_nest_gatewayCreate :
    ∃ ops : List (Operation OperationTag), ¬ Flat ops ∧
      Database.evaluateProposalCreate (committeeRules.withTags id) newNode.objects 7 1700700000
        (some 604800) ops = .ok false ∧
      (Database.call (committeeRules.withTags id) 1 (.pushTransaction (proposing ops) {})
        newNode).2.stackUsedUp = true := by
  refine ⟨[.basic .gatewayCreate, .proposalCreate 7 1700700000 none [.basic .transfer]],
    fun h => ?_, rfl, rfl⟩
  have := h _ (List.mem_cons_of_mem _ List.mem_cons_self)
  cases this

end ZosCore
