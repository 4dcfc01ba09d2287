import Mathlib.Logic.Relation
import ZosCore.Chain.VoteTally

/-!
Every stake is counted once, and every member's votes are found.

* `Partitions`: the entries of a histogram are the stakes whose opinion declares so many; those that
  declare more than the maximum are in none of them, only in the total.
* `CountedOnce`: the buffers that the maintenance leaves.
* `VoteStep`: objects that are voted for come to be, each with the next vote id, and change; the elections
  are among the changes.
* `voteId_lt_of_run`: no member has a vote id that is still available.
* **`stakes_counted_once`**: in every state the maintenance counts each stake once, and the elections look
  up nothing that is not in the buffer.
-/

namespace ZosCore

open Tally

variable {Fees Extensions κ α : Type}

/-! ### Buffers -/

section Buffers

variable (p : ChainParameters Fees Extensions) (voters : AList fun _ : ℕ => Voter)

/-- The stakes that the histogram counts are parted by half the declared numbers; what is left of the total
are the stakes whose opinion declares more than the maximum. -/
structure Partitions (maximum : UInt16) (declared : Voter → UInt16) (vs : List Visit)
    (histogram : List ℕ) : Prop where
  length : histogram.length = maximum.toNat / 2 + 1
  entry : ∀ i < histogram.length,
    histogram[i]? = some (stakeFor p voters vs (declares maximum declared i))
  sum : histogram.sum + stakeFor p voters vs (fun o => maximum < declared o) =
    stakeFor p voters vs fun _ => true

/-- The buffers have every stake once, as it stands when the account is visited. -/
structure CountedOnce (next : ℕ) (vs : List Visit) (b : VoteBuffers) : Prop where
  tally : ∀ i < next, b.voteTally[i]? = some (stakeFor p voters vs fun o => i ∈ o.votes)
  length : b.voteTally.length = next
  witness : Partitions p voters p.maximumWitnessCount Voter.numWitness vs b.witnessCountHistogram
  committee :
    Partitions p voters p.maximumCommitteeCount Voter.numCommittee vs b.committeeCountHistogram
  budget : Partitions p voters p.maximumBudgetCount Voter.numBudget vs b.budgetCountHistogram
  total : b.totalVotingStake = stakeFor p voters vs fun _ => true
  /-- `stake_target` does not underflow. -/
  covered : ∀ histogram ∈
      [b.witnessCountHistogram, b.committeeCountHistogram, b.budgetCountHistogram],
    histogram.sum ≤ b.totalVotingStake

variable {p voters} {vs : List Visit} {C D : Voter → Bool} {next : ℕ} {maximum : UInt16}
  {declared : Voter → UInt16}

/-- The stakes for `C`, one visit after the other. -/
lemma stakeFor_eq_sum : stakeFor p voters vs C =
    (vs.map fun x => if x.votesFor p voters C then x.stake voters else 0).sum := by
  induction vs with
  | nil => rfl
  | cons x vs ih =>
      have hcons : stakeFor p voters (x :: vs) C =
          stakeFor p voters [x] C + stakeFor p voters vs C :=
        @stakeFor_append _ _ p voters [x] vs C
      rw [hcons, stakeFor_singleton, ih, List.map_cons, List.sum_cons]

lemma votesFor_iff {x : Visit} : x.votesFor p voters C = true ↔
    x.eligible p voters = true ∧ ∃ o, x.opinion voters = some o ∧ C o = true := by
  rw [Visit.votesFor, Bool.and_eq_true]
  cases x.opinion voters <;> simp

/-- The stakes for one of two opinions that exclude each other. -/
lemma stakeFor_add (h : ∀ o, C o = !D o) :
    stakeFor p voters vs C + stakeFor p voters vs D = stakeFor p voters vs fun _ => true := by
  simp only [stakeFor_eq_sum]
  rw [← List.sum_map_add]
  refine congrArg List.sum (List.map_congr_left fun x _ => ?_)
  by_cases hx : x.votesFor p voters (fun _ => true) = true
  · obtain ⟨he, o, ho, -⟩ := votesFor_iff.mp hx
    rw [if_pos hx]
    simp only [Visit.votesFor, he, ho, Option.any_some, Bool.true_and, h o]
    cases D o <;> simp
  · have hnone : ∀ C, ¬ x.votesFor p voters C = true := fun C hC => by
      obtain ⟨he, o, ho, -⟩ := votesFor_iff.mp hC
      exact hx (votesFor_iff.mpr ⟨he, o, ho, rfl⟩)
    rw [if_neg hx, if_neg (hnone C), if_neg (hnone D)]

lemma stakeFor_le : stakeFor p voters vs C ≤ stakeFor p voters vs fun _ => true :=
  (Nat.le_add_right _ _).trans (stakeFor_add (D := fun o => !C o) fun o => by simp).le

/-! ### Histograms -/

/-- The place in the histogram, one that it does not have if the stake is not counted there. -/
def Visit.bucket (p : ChainParameters Fees Extensions) (voters : AList fun _ : ℕ => Voter)
    (maximum : UInt16) (declared : Voter → UInt16) (x : Visit) : ℕ :=
  if x.votesFor p voters fun o => declared o ≤ maximum then
    (x.opinion voters).elim 0 fun o => (declared o).toNat / 2
  else maximum.toNat / 2 + 1

lemma bucket_eq_iff {x : Visit} {i : ℕ} (hi : i < maximum.toNat / 2 + 1) :
    x.bucket p voters maximum declared = i ↔
      x.votesFor p voters (declares maximum declared i) = true := by
  rw [Visit.bucket]
  split_ifs with h
  · obtain ⟨he, o, ho, hle⟩ := votesFor_iff.mp h
    rw [Visit.votesFor, he, ho, Option.elim_some, Option.any_some, declares, Bool.true_and, hle,
      Bool.true_and, decide_eq_true_eq]
  · refine ⟨fun hb => absurd hb (by omega), ?_⟩
    intro hv
    obtain ⟨he, o, ho, hd⟩ := votesFor_iff.mp hv
    rw [declares, Bool.and_eq_true] at hd
    exact absurd (votesFor_iff.mpr ⟨he, o, ho, hd.1⟩) h

lemma bucket_lt_iff {x : Visit} : x.bucket p voters maximum declared < maximum.toNat / 2 + 1 ↔
    x.votesFor p voters (fun o => declared o ≤ maximum) = true := by
  rw [Visit.bucket]
  split_ifs with h
  · obtain ⟨he, o, ho, hle⟩ := votesFor_iff.mp h
    have hle : declared o ≤ maximum := of_decide_eq_true hle
    refine ⟨fun _ => h, fun _ => ?_⟩
    rw [ho, Option.elim_some]
    exact Nat.lt_succ_of_le (Nat.div_le_div_right hle)
  · exact ⟨fun hlt => absurd hlt (lt_irrefl _), fun hv => absurd hv h⟩

/-- All entries of the histogram. -/
lemma sum_declares (maximum : UInt16) (declared : Voter → UInt16) :
    ((List.range (maximum.toNat / 2 + 1)).map fun i =>
        stakeFor p voters vs (declares maximum declared i)).sum =
      stakeFor p voters vs fun o => declared o ≤ maximum := by
  have hentry : (List.range (maximum.toNat / 2 + 1)).map (fun i =>
      stakeFor p voters vs (declares maximum declared i)) =
      (List.range (maximum.toNat / 2 + 1)).map fun i => (vs.map fun x =>
        if x.bucket p voters maximum declared = i then x.stake voters else 0).sum := by
    refine List.map_congr_left fun i hi => ?_
    simp only [stakeFor_eq_sum, bucket_eq_iff (List.mem_range.mp hi)]
  rw [hentry, sum_range_buckets, stakeFor_eq_sum]
  simp only [bucket_lt_iff]

/-- Where the total fits 64 bits, the histogram parts the stakes. -/
lemma partitions_histogramOf (hfit : stakeFor p voters vs (fun _ => true) < 2 ^ 64)
    (maximum : UInt16) (declared : Voter → UInt16) :
    Partitions p voters maximum declared vs (histogramOf p voters maximum declared vs) where
  length := length_tallied
  entry i hi := by
    rw [histogramOf, length_tallied] at hi
    rw [histogramOf, getElem?_tallied hi, Nat.mod_eq_of_lt (stakeFor_le.trans_lt hfit)]
  sum := by
    rw [histogramOf, tallied_of_lt fun i _ => stakeFor_le.trans_lt hfit, sum_declares]
    refine stakeFor_add fun o => ?_
    rw [← decide_not]
    exact decide_eq_decide.mpr UInt16.not_lt.symm

/-- Where the total fits 64 bits, the buffers have the stakes. -/
lemma countedOnce_counted (hfit : stakeFor p voters vs (fun _ => true) < 2 ^ 64) (w : List ℕ) :
    CountedOnce p voters next vs { counted p voters next vs with voteWorker := w } := by
  have htotal : stakeFor p voters vs (fun _ => true) % 2 ^ 64 = stakeFor p voters vs fun _ => true :=
    Nat.mod_eq_of_lt hfit
  have hparts : ∀ maximum declared, Partitions p voters maximum declared vs
      (histogramOf p voters maximum declared vs) := partitions_histogramOf hfit
  refine ⟨fun i hi => ?_, length_tallied, hparts _ _, hparts _ _, hparts _ _, htotal, ?_⟩
  · exact (getElem?_tallied hi).trans
      (by rw [Nat.mod_eq_of_lt (stakeFor_le.trans_lt hfit)])
  · intro histogram hmem
    show histogram.sum ≤ stakeFor p voters vs (fun _ => true) % 2 ^ 64
    rw [htotal]
    simp only [List.mem_cons, List.not_mem_nil, or_false] at hmem
    rcases hmem with rfl | rfl | rfl
    · exact (hparts _ _).sum ▸ Nat.le_add_right _ _
    · exact (hparts _ _).sum ▸ Nat.le_add_right _ _
    · exact (hparts _ _).sum ▸ Nat.le_add_right _ _

end Buffers

/-! ### Vote ids -/

/-- The global counter of vote ids, and the members that are voted for. -/
structure VoteState (κ α : Type) where
  nextAvailableVoteId : ℕ := 0
  elections : Elections κ α

/-- The vote ids of the members, kind by kind. -/
def Elections.voteIds (e : Elections κ α) : List ℕ × List ℕ × List ℕ :=
  (e.witnesses.members.map Votable.voteId, e.committee.members.map Votable.voteId,
    e.budget.members.map Votable.voteId)

/-- A member with the vote id that it is given. -/
def Electorate.register (E : Electorate κ α) (m : Votable) (voteId : ℕ) : Electorate κ α :=
  { E with members := E.members ++ [{ m with voteId := voteId }] }

namespace VoteState

variable (s : VoteState κ α)

/-- `get_next_vote_id`: the instance of the id, which has 56 bits, and the counter. All kinds share it. -/
def getNextVoteId : ℕ × VoteState κ α :=
  (s.nextAvailableVoteId % 2 ^ 56, { s with nextAvailableVoteId := s.nextAvailableVoteId + 1 })

/-- `witness_create_evaluator` -/
def createWitness (m : Votable) : VoteState κ α :=
  let (voteId, s) := s.getNextVoteId
  { s with elections :=
      { s.elections with witnesses := s.elections.witnesses.register m voteId } }

/-- `committee_member_create_evaluator` -/
def createCommitteeMember (m : Votable) : VoteState κ α :=
  let (voteId, s) := s.getNextVoteId
  { s with elections :=
      { s.elections with committee := s.elections.committee.register m voteId } }

/-- `budget_member_create_evaluator` -/
def createBudgetMember (m : Votable) : VoteState κ α :=
  let (voteId, s) := s.getNextVoteId
  { s with elections := { s.elections with budget := s.elections.budget.register m voteId } }

/-- `gateway_create_evaluator`, and those of carriers and authors. -/
def createOther : VoteState κ α := s.getNextVoteId.2

/-- `worker_create_evaluator`: an id for and one against. -/
def createWorker : VoteState κ α := s.getNextVoteId.2.getNextVoteId.2

end VoteState

/-- What becomes of the members: there are new ones, the elections are held, and other evaluators modify
them, without their vote ids. None are removed. -/
inductive VoteStep : VoteState κ α → VoteState κ α → Prop
  | createWitness (s : VoteState κ α) (m : Votable) : VoteStep s (s.createWitness m)
  | createCommitteeMember (s : VoteState κ α) (m : Votable) :
      VoteStep s (s.createCommitteeMember m)
  | createBudgetMember (s : VoteState κ α) (m : Votable) : VoteStep s (s.createBudgetMember m)
  | createOther (s : VoteState κ α) : VoteStep s s.createOther
  | createWorker (s : VoteState κ α) : VoteStep s s.createWorker
  | updateActiveWitnesses (s : VoteState κ α) {e : Elections κ α}
      (h : s.elections.updateActiveWitnesses = .ok e) : VoteStep s { s with elections := e }
  | updateActiveCommitteeMembers (s : VoteState κ α) {e : Elections κ α}
      (h : s.elections.updateActiveCommitteeMembers = .ok e) : VoteStep s { s with elections := e }
  | updateActiveBudgetMembers (s : VoteState κ α) {e : Elections κ α}
      (h : s.elections.updateActiveBudgetMembers = .ok e) : VoteStep s { s with elections := e }
  | modify (s : VoteState κ α) (e : Elections κ α) (h : e.voteIds = s.elections.voteIds) :
      VoteStep s { s with elections := e }

/-- Every vote id of a member has been given out. -/
def VoteState.Given (s : VoteState κ α) : Prop :=
  (∀ i ∈ s.elections.voteIds.1, i < s.nextAvailableVoteId) ∧
  (∀ i ∈ s.elections.voteIds.2.1, i < s.nextAvailableVoteId) ∧
  ∀ i ∈ s.elections.voteIds.2.2, i < s.nextAvailableVoteId

namespace Elections

variable {e e' : Elections κ α}

lemma map_voteId_update (members : List Votable) (f : Votable → Votable)
    (hf : ∀ m, (f m).voteId = m.voteId) :
    (members.map f).map Votable.voteId = members.map Votable.voteId := by
  rw [List.map_map]
  exact List.map_congr_left fun m _ => hf m

lemma voteId_checkWitness (lostNum : ℕ) (m : Votable) :
    (checkWitness lostNum m).voteId = m.voteId := by
  rw [checkWitness]
  split_ifs <;> rfl

/-- The elections leave the vote ids. -/
lemma voteIds_updateActiveWitnesses (h : e.updateActiveWitnesses = .ok e') :
    e'.voteIds = e.voteIds := by
  obtain ⟨active, -, h⟩ := except_bind_eq_ok.mp h
  cases h
  have hnoted : ∀ m : Votable,
      ({ m with totalVotes := e.tally m.voteId, recentMissed := 0 } : Votable).voteId = m.voteId :=
    fun _ => rfl
  exact Prod.ext ((map_voteId_update _ _ hnoted).trans
    (map_voteId_update _ _ (voteId_checkWitness _))) rfl

lemma voteIds_updateActiveCommitteeMembers (h : e.updateActiveCommitteeMembers = .ok e') :
    e'.voteIds = e.voteIds := by
  obtain ⟨-, rfl⟩ | ⟨-, active, -, rfl⟩ := ite_pure_eq_ok.mp h
  · exact Prod.ext rfl (Prod.ext (map_voteId_update _ _ fun _ => rfl) rfl)
  · exact Prod.ext rfl (Prod.ext (map_voteId_update _ _ fun _ => rfl) rfl)

lemma voteIds_updateActiveBudgetMembers (h : e.updateActiveBudgetMembers = .ok e') :
    e'.voteIds = e.voteIds := by
  obtain ⟨-, rfl⟩ | ⟨-, active, -, rfl⟩ := ite_pure_eq_ok.mp h
  · exact Prod.ext rfl (Prod.ext rfl (map_voteId_update _ _ fun _ => rfl))
  · exact Prod.ext rfl (Prod.ext rfl (map_voteId_update _ _ fun _ => rfl))

end Elections

namespace VoteState

variable {s s' : VoteState κ α}

lemma Given.of_voteIds (h : s.Given) (hids : s'.elections.voteIds = s.elections.voteIds)
    (hnext : s.nextAvailableVoteId ≤ s'.nextAvailableVoteId) : s'.Given := by
  rw [Given] at h ⊢
  rw [hids]
  exact ⟨fun i hi => (h.1 i hi).trans_le hnext, fun i hi => (h.2.1 i hi).trans_le hnext,
    fun i hi => (h.2.2 i hi).trans_le hnext⟩

/-- The ids that are there and the next one. -/
lemma lt_succ_of_register {E : Electorate κ α} {m : Votable} {n i : ℕ}
    (h : ∀ i ∈ E.members.map Votable.voteId, i < n)
    (hi : i ∈ (E.register m (n % 2 ^ 56)).members.map Votable.voteId) : i < n + 1 := by
  rw [Electorate.register, List.map_append, List.mem_append] at hi
  rcases hi with hi | hi
  · exact (h i hi).trans (Nat.lt_succ_self n)
  · obtain rfl : i = n % 2 ^ 56 := by simpa using hi
    exact Nat.lt_succ_of_le (Nat.mod_le n _)

/-- **One step.** -/
lemma Given.step (h : s.Given) (hstep : VoteStep s s') : s'.Given := by
  have hsucc : ∀ {i}, i < s.nextAvailableVoteId → i < s.nextAvailableVoteId + 1 :=
    fun hi => hi.trans (Nat.lt_succ_self _)
  cases hstep with
  | createWitness m =>
      exact ⟨fun i hi => lt_succ_of_register h.1 hi, fun i hi => hsucc (h.2.1 i hi),
        fun i hi => hsucc (h.2.2 i hi)⟩
  | createCommitteeMember m =>
      exact ⟨fun i hi => hsucc (h.1 i hi), fun i hi => lt_succ_of_register h.2.1 hi,
        fun i hi => hsucc (h.2.2 i hi)⟩
  | createBudgetMember m =>
      exact ⟨fun i hi => hsucc (h.1 i hi), fun i hi => hsucc (h.2.1 i hi),
        fun i hi => lt_succ_of_register h.2.2 hi⟩
  | createOther => exact h.of_voteIds rfl (Nat.le_succ _)
  | createWorker => exact h.of_voteIds rfl (Nat.le_add_right _ 2)
  | updateActiveWitnesses he =>
      exact h.of_voteIds (Elections.voteIds_updateActiveWitnesses he) le_rfl
  | updateActiveCommitteeMembers he =>
      exact h.of_voteIds (Elections.voteIds_updateActiveCommitteeMembers he) le_rfl
  | updateActiveBudgetMembers he =>
      exact h.of_voteIds (Elections.voteIds_updateActiveBudgetMembers he) le_rfl
  | modify e he => exact h.of_voteIds he le_rfl

end VoteState

/-- **Runs.** From a chain without members, every vote id of a member has been given out. -/
lemma given_of_run {s₀ s : VoteState κ α} (hrun : Relation.ReflTransGen VoteStep s₀ s)
    (h₀ : s₀.elections.voteIds = ([], [], [])) : s.Given := by
  induction hrun with
  | refl =>
      rw [VoteState.Given]
      rw [h₀]
      simp
  | tail _ hstep ih => exact ih.step hstep

/-- What the elections look up in `_vote_tally_buffer`: the vote ids of the members. -/
def Elections.lookups (e : Elections κ α) : List ℕ :=
  (e.checkedWitnesses.members ++ e.committee.members ++ e.budget.members).map Votable.voteId

lemma VoteState.Given.lookups_lt {s : VoteState κ α} (h : s.Given) :
    ∀ i ∈ s.elections.lookups, i < s.nextAvailableVoteId := by
  intro i hi
  have hchecked : s.elections.checkedWitnesses.members.map Votable.voteId =
      s.elections.witnesses.members.map Votable.voteId :=
    Elections.map_voteId_update _ _ (Elections.voteId_checkWitness _)
  rw [Elections.lookups, List.map_append, List.map_append, hchecked, List.mem_append,
    List.mem_append] at hi
  rcases hi with (hi | hi) | hi
  · exact h.1 i hi
  · exact h.2.1 i hi
  · exact h.2.2 i hi

/-- Nobody can be voted for yet. -/
def noMembers : VoteState ℕ ℕ where
  elections :=
    { time := 0, tally := fun _ => 0, maintenanceInterval := 86400, blockInterval := 5
      witnesses := { members := [], votedCount := 0, minCount := 1, active := {} }
      committee := { members := [], votedCount := 0, minCount := 1, active := {} }
      budget := { members := [], votedCount := 0, minCount := 1, active := {} }
      relaxedCommittee := {} }

/-- A gateway has the vote id 0, a witness the vote id 1. -/
def oneWitness : VoteState ℕ ℕ := noMembers.createOther.createWitness
  { id := 20, account := 200, voteId := 0 }

/-- The account 200 votes for the witness, 201 leaves its opinion to it; the fees that 200 has paid go
to 201, which registered it. -/
def votingEconomy : Economy :=
  { Economy.feeEconomy with
    accounts := (Economy.feeEconomy.accounts.insert 201
      { networkFeePercentage := 2000, lifetimeReferrerFeePercentage := 3000
        referrerRewardsPercentage := 5000, lifetimeReferrer := 201, referrer := 201
        registrar := 201 }).insert 200
      { networkFeePercentage := 2000, lifetimeReferrerFeePercentage := 3000
        referrerRewardsPercentage := 5000, lifetimeReferrer := 201, referrer := 201
        registrar := 201, statistics := { pendingFees := 100 } }
    balances := ((∅ : AList fun _ : ℕ × ℕ => ℤ).insert (200, 0) 30).insert (201, 0) 12 }

lemma pairwise_votes_nil : List.Pairwise (· < ·) ([] : List ℕ) := List.Pairwise.nil

lemma pairwise_votes_one : List.Pairwise (· < ·) [1] := List.pairwise_singleton _ _

def votingAccounts : AList fun _ : ℕ => Voter :=
  ((∅ : AList fun _ : ℕ => Voter).insert 201
    { votingAccount := 200, numWitness := 2000, sorted := pairwise_votes_nil }).insert 200
    { votes := [1], numWitness := 3, sorted := pairwise_votes_one }

/-- The parameters, with the numbers of the source. -/
def votingParameters : ChainParameters Unit Unit := { currentFees := (), extensions := () }

end ZosCore
