import ZosCore.Chain.FeeScale
import ZosCore.Chain.GlobalProperties
import ZosCore.Chain.MaintenanceTime
import ZosCore.Chain.Review

/-!
`chain_parameters::validate`, and what relies on it.

The review period of the committee is checked as a difference of 32 bits, which wraps when the period is
longer than the lifetime of a proposal: then the check passes, and no proposal of the committee is
accepted any more, to change the parameters back. The number of accounts for each scaling of the fee is
not checked at all, though it is a divisor.

* `ChainParameters.Valid`: `validate`.
* `ChainParameters.rules`: the rules of a chain, with the times of the parameters.
* `Governable`: the committee can propose, and nothing is divided by zero.
* **`governable_iff`**: valid parameters are governable iff the period is no longer than the lifetime, the
  divisor is not zero, and the time is not about to wrap.
-/

namespace ZosCore

variable {Fees Extensions β ω : Type}

namespace ChainParameters

variable (p : ChainParameters Fees Extensions)

/-- `validate`; that of the fee schedule checks nothing. -/
def Valid : Prop :=
  p.reservePercentOfFee.toNat ≤ hundredPercent ∧ p.networkPercentOfFee.toNat ≤ hundredPercent ∧
  p.lifetimeReferrerPercentOfFee.toNat ≤ hundredPercent ∧
  p.networkPercentOfFee.toNat + p.lifetimeReferrerPercentOfFee.toNat ≤ hundredPercent ∧
  1 ≤ p.blockInterval.toNat ∧ p.blockInterval.toNat ≤ 30 ∧ 0 < p.blockInterval.toNat ∧
  p.blockInterval.toNat < p.maintenanceInterval.toNat ∧
  p.maintenanceInterval.toNat % p.blockInterval.toNat = 0 ∧
  1024 ≤ p.maximumTransactionSize.toNat ∧ 1024 * 5 ≤ p.maximumBlockSize.toNat ∧
  p.blockInterval.toNat < p.maximumTimeUntilExpiration.toNat ∧
  7200 - 1 ≤ p.maximumProposalLifetime - p.committeeProposalReviewPeriod ∧
  p.maximumProposalLifetime.toNat < 30 * 24 * 3600

instance : Decidable p.Valid := inferInstanceAs (Decidable (_ ∧ _))

/-- The rules of a chain with these parameters. The latest time at which a proposal may expire is a sum of
32 bits; where that is before the head block's time, no expiration is early enough. -/
def rules (R : Rules β ω) : Rules β ω :=
  { R with
    maximumProposalLifetime := fun o =>
      (o.time + p.maximumProposalLifetime.toNat) % 2 ^ 32 - o.time
    committeeProposalReviewPeriod := fun _ => p.committeeProposalReviewPeriod.toNat }

/-! ### Divisions -/

/-- An integer division, where a zero ends the program. -/
def divide (n d : ℕ) : Option ℕ := if d = 0 then none else some (n / d)

/-- The slots in so many seconds, in `get_slot_time` and `get_slot_at_time`. -/
def slotsIn (seconds : ℕ) : Option ℕ := divide seconds p.blockInterval.toNat

/-- `blocks_to_maint` in `budget_miners`. -/
def blocksToMaint (timeToMaint : ℕ) : Option ℕ :=
  divide (timeToMaint + p.blockInterval.toNat - 1) p.blockInterval.toNat

/-- The blocks of an interval, in `update_active_witnesses`. -/
def lostNum : Option ℕ := divide p.maintenanceInterval.toNat p.blockInterval.toNat

/-- Nothing that divides by a parameter divides by zero. -/
structure NeverDividesByZero : Prop where
  slotsIn : ∀ seconds, (p.slotsIn seconds).isSome
  blocksToMaint : ∀ timeToMaint, (p.blocksToMaint timeToMaint).isSome
  lostNum : p.lostNum.isSome
  nextTime : ∀ blockNum timestamp headBlockTime next,
    (MaintenanceState.nextTime blockNum timestamp headBlockTime next
      p.maintenanceInterval.toNat).isSome
  createAccount : ∀ u s, (AccountFee.createAccount u p.accountsPerFeeScale.toNat
    p.accountFeeScaleBitshifts.toNat s).isSome
  removeScaling : ∀ u s, (AccountFee.removeScaling u p.accountsPerFeeScale.toNat
    p.accountFeeScaleBitshifts.toNat s).isSome

end ChainParameters

open ChainParameters

/-! ### Proposals of the committee -/

/-- Apart from its times, the proposal is one that is accepted. -/
structure Proposable (R : Rules β ω) (o : Objects β ω) (payer : ℕ) (ops : List (Operation β)) :
    Prop where
  unlocked : R.isLockBalance payer o = false
  noProposals : ∃ mustReview, Database.isMustReviewPeriod R ops = .ok mustReview
  noOthers : R.otherRequired ops = false
  validated : R.validateProposed ops = true

/-- The committee can propose, by the margin that `validate` asks for, and nothing divides by zero. -/
structure Governable (R : Rules β ω) (p : ChainParameters Fees Extensions) (o : Objects β ω)
    (payer : ℕ) (ops : List (Operation β)) : Prop where
  margin : p.committeeProposalReviewPeriod.toNat + 7199 ≤ p.maximumProposalLifetime.toNat
  accepted : ∃ expiration review noReview, p.committeeProposalReviewPeriod.toNat ≤ review ∧
    Database.evaluateProposalCreate (p.rules R) o payer expiration (some review) ops = .ok noReview
  divisions : p.NeverDividesByZero

section

variable {R : Rules β ω} {o : Objects β ω} {payer expiration review : ℕ} {ops : List (Operation β)}
  {p : ChainParameters Fees Extensions}

/-- A proposal that has a sufficient review period is accepted by its times. -/
lemma evaluateProposalCreate_iff (h : Proposable R o payer ops)
    (hreview : R.committeeProposalReviewPeriod o ≤ review) :
    (∃ noReview,
      Database.evaluateProposalCreate R o payer expiration (some review) ops = .ok noReview) ↔
      o.time < expiration ∧ expiration ≤ o.time + R.maximumProposalLifetime o ∧
        review < expiration - o.time := by
  obtain ⟨mustReview, hmust⟩ := h.noProposals
  constructor
  · rintro ⟨noReview, heval⟩
    rw [Database.evaluateProposalCreate] at heval
    obtain ⟨-, heval⟩ := ite_throw_eq_ok.mp heval
    obtain ⟨hexpired, heval⟩ := ite_throw_eq_ok.mp heval
    obtain ⟨hlong, heval⟩ := ite_throw_eq_ok.mp heval
    obtain ⟨hperiod, -⟩ := ite_throw_eq_ok.mp heval
    exact ⟨not_not.mp hexpired, not_not.mp hlong, not_not.mp hperiod⟩
  · rintro ⟨hexpired, hlong, hperiod⟩
    refine ⟨!mustReview && Database.isNoReviewPeriod R ops, ?_⟩
    have hunlocked : ¬ R.isLockBalance payer o = true := by
      rw [h.unlocked]
      exact Bool.false_ne_true
    have hvalidated : ¬ (!R.validateProposed ops) = true := by
      rw [h.validated]
      exact Bool.false_ne_true
    rw [Database.evaluateProposalCreate]
    refine ite_throw_eq_ok.mpr ⟨hunlocked, ite_throw_eq_ok.mpr ⟨not_not.mpr hexpired,
      ite_throw_eq_ok.mpr ⟨not_not.mpr hlong, ite_throw_eq_ok.mpr ⟨not_not.mpr hperiod, ?_⟩⟩⟩⟩
    refine except_bind_eq_ok.mpr ⟨mustReview, hmust, ?_⟩
    refine ite_throw_eq_ok.mpr ⟨by rw [h.noOthers]; exact Bool.false_ne_true, ?_⟩
    split_ifs with hneeded
    · exact ite_throw_eq_ok.mpr ⟨not_lt.mpr hreview, rfl⟩
    · rfl

/-- The rules differ in the times only. -/
lemma isMustReviewPeriod_rules (p : ChainParameters Fees Extensions) (ops : List (Operation β)) :
    Database.isMustReviewPeriod (p.rules R) ops = Database.isMustReviewPeriod R ops := by
  induction ops with
  | nil => rfl
  | cons op ops ih =>
      cases op with
      | basic b =>
          rw [Database.isMustReviewPeriod, Database.isMustReviewPeriod, ih]
          rfl
      | proposalCreate _ _ _ _ => rfl
      | proposalUpdate _ => rfl
      | proposalDelete _ =>
          rw [Database.isMustReviewPeriod, Database.isMustReviewPeriod, ih]

/-- A proposal that is acceptable apart from its times is so under the rules of any parameters. -/
lemma Proposable.rules (h : Proposable R o payer ops) (p : ChainParameters Fees Extensions) :
    Proposable (p.rules R) o payer ops := by
  obtain ⟨mustReview, hmust⟩ := h.noProposals
  exact ⟨h.unlocked, ⟨mustReview, (isMustReviewPeriod_rules p ops).trans hmust⟩, h.noOthers,
    h.validated⟩

/-- There is a time at which a proposal with a sufficient review period may expire iff the period is below
the lifetime, and the sum of the time and the lifetime has 32 bits. -/
lemma exists_accepted_iff (h : Proposable R o payer ops) :
    (∃ expiration review noReview, p.committeeProposalReviewPeriod.toNat ≤ review ∧
      Database.evaluateProposalCreate (p.rules R) o payer expiration (some review) ops =
        .ok noReview) ↔
      p.committeeProposalReviewPeriod.toNat < p.maximumProposalLifetime.toNat ∧
        o.time + p.maximumProposalLifetime.toNat < 2 ^ 32 := by
  have hbits : p.maximumProposalLifetime.toNat < 2 ^ 32 := p.maximumProposalLifetime.toNat_lt
  constructor
  · rintro ⟨expiration, review, noReview, hreview, heval⟩
    obtain ⟨hexpired, hlong, hperiod⟩ :=
      (evaluateProposalCreate_iff (h.rules p) hreview).mp ⟨noReview, heval⟩
    change expiration ≤ o.time + ((o.time + p.maximumProposalLifetime.toNat) % 2 ^ 32 - o.time) at hlong
    omega
  · rintro ⟨hlt, htime⟩
    refine ⟨o.time + p.maximumProposalLifetime.toNat, p.committeeProposalReviewPeriod.toNat, ?_⟩
    obtain ⟨noReview, heval⟩ := (evaluateProposalCreate_iff (h.rules p) le_rfl).mpr
      (show o.time < o.time + p.maximumProposalLifetime.toNat ∧
        o.time + p.maximumProposalLifetime.toNat ≤
          o.time + ((o.time + p.maximumProposalLifetime.toNat) % 2 ^ 32 - o.time) ∧
        p.committeeProposalReviewPeriod.toNat < o.time + p.maximumProposalLifetime.toNat - o.time
        by omega)
    exact ⟨noReview, le_rfl, heval⟩

/-- A division has a result iff it is not by zero. -/
lemma isSome_divide {n d : ℕ} : (divide n d).isSome ↔ d ≠ 0 := by
  rw [divide]
  split_ifs with h <;> simp [h]

/-- What is divided by. -/
lemma neverDividesByZero_iff : p.NeverDividesByZero ↔
    p.blockInterval.toNat ≠ 0 ∧ p.maintenanceInterval.toNat ≠ 0 ∧ p.accountsPerFeeScale.toNat ≠ 0 := by
  constructor
  · intro h
    refine ⟨isSome_divide.mp h.lostNum, fun hzero => ?_, fun hzero => ?_⟩
    · have hnext := h.nextTime 1 0 0 0
      rw [hzero] at hnext
      exact absurd hnext (by decide)
    · have hremove := h.removeScaling ⟨fun v _ => v, fun v _ => v⟩ ⟨0, 0⟩
      rw [hzero] at hremove
      exact absurd hremove Bool.false_ne_true
  · rintro ⟨hblock, hmaintenance, hscale⟩
    refine ⟨fun _ => isSome_divide.mpr hblock, fun _ => isSome_divide.mpr hblock,
      isSome_divide.mpr hblock, fun blockNum timestamp headBlockTime next => ?_, fun u s => ?_,
      fun u s => ?_⟩
    · rw [MaintenanceState.nextTime, if_neg hmaintenance]
      split_ifs <;> rfl
    · rw [AccountFee.createAccount, if_neg hscale]
      split_ifs <;> rfl
    · rw [AccountFee.removeScaling, if_neg hscale]
      rfl

/-- The difference of 32 bits is large enough iff the period is, or if it wraps. -/
lemma margin_iff (h : p.Valid) :
    p.committeeProposalReviewPeriod.toNat + 7199 ≤ p.maximumProposalLifetime.toNat ↔
      p.committeeProposalReviewPeriod.toNat ≤ p.maximumProposalLifetime.toNat := by
  obtain ⟨-, -, -, -, -, -, -, -, -, -, -, -, hdifference, -⟩ := h
  constructor
  · omega
  · intro hle
    have hsub : (p.maximumProposalLifetime - p.committeeProposalReviewPeriod).toNat =
        p.maximumProposalLifetime.toNat - p.committeeProposalReviewPeriod.toNat :=
      UInt32.toNat_sub_of_le _ _ hle
    have h7199 : (7200 - 1 : UInt32).toNat ≤
        (p.maximumProposalLifetime - p.committeeProposalReviewPeriod).toNat := hdifference
    rw [hsub] at h7199
    change 7199 ≤ _ at h7199
    omega

end

/-- **Valid parameters are governable** iff the review period is no longer than the lifetime of a proposal,
there is a number of accounts for each scaling, and the latest expiration has 32 bits. -/
theorem governable_iff (R : Rules β ω) (p : ChainParameters Fees Extensions) (o : Objects β ω)
    (payer : ℕ) (ops : List (Operation β)) (hvalid : p.Valid) (h : Proposable R o payer ops) :
    Governable R p o payer ops ↔
      p.committeeProposalReviewPeriod.toNat ≤ p.maximumProposalLifetime.toNat ∧
        p.accountsPerFeeScale.toNat ≠ 0 ∧ o.time + p.maximumProposalLifetime.toNat < 2 ^ 32 := by
  obtain ⟨-, -, -, -, -, -, hblock, hmaintenance, -⟩ := id hvalid
  constructor
  · rintro ⟨hmargin, haccepted, hdivisions⟩
    obtain ⟨-, -, hscale⟩ := neverDividesByZero_iff.mp hdivisions
    exact ⟨(margin_iff hvalid).mp hmargin, hscale, ((exists_accepted_iff h).mp haccepted).2⟩
  · rintro ⟨hle, hscale, htime⟩
    have hmargin := (margin_iff hvalid).mpr hle
    refine ⟨hmargin, (exists_accepted_iff h).mpr ⟨by omega, htime⟩,
      neverDividesByZero_iff.mpr ⟨by omega, by omega, hscale⟩⟩

/-- The default parameters. -/
def defaultParameters : ChainParameters Unit Unit where
  currentFees := ()
  extensions := ()

/-- A transfer of the committee on a new chain. -/
lemma proposable_transfer : Proposable committeeRules emptyObjects 7 [.basic .transfer] where
  unlocked := rfl
  noProposals := ⟨false, rfl⟩
  noOthers := rfl
  validated := rfl

/-- The default parameters are governable. -/
theorem governable_iff_default :
    Governable committeeRules defaultParameters emptyObjects 7 [.basic .transfer] ↔
      defaultParameters.committeeProposalReviewPeriod.toNat ≤
        defaultParameters.maximumProposalLifetime.toNat ∧
      defaultParameters.accountsPerFeeScale.toNat ≠ 0 ∧
      emptyObjects.time + defaultParameters.maximumProposalLifetime.toNat < 2 ^ 32 :=
  governable_iff committeeRules defaultParameters emptyObjects 7 [.basic .transfer] (by decide)
    proposable_transfer

/-- A review period of four weeks with a lifetime of two is valid, and no review fits the lifetime. -/
theorem not_governable : ¬ ∀ p : ChainParameters Unit Unit, p.Valid →
    ∀ (R : Rules OperationTag Unit) (o : Objects OperationTag Unit) (payer : ℕ)
      (ops : List (Operation OperationTag)), Proposable R o payer ops → Governable R p o payer ops := by
  intro h
  have hgovernable := h { defaultParameters with committeeProposalReviewPeriod := 2419200 } (by decide)
    committeeRules emptyObjects 7 [.basic .transfer] proposable_transfer
  exact absurd hgovernable.margin (by decide)

end ZosCore
