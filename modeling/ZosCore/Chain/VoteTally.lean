import ZosCore.Chain.Elections
import ZosCore.Chain.GlobalProperties
import ZosCore.Economy.Budget
import ZosCore.Economy.ProcessFees
import ZosCore.Lib.Tally

/-!
`perform_account_maintenance` with the helpers of `perform_chain_maintenance`: account after account, in
the order of the names, the stake is counted for the votes of the account that has the opinion, and then
the fees of the account are paid out, to others that may be counted later.

* `tallyHelper`: the stake of one account.
* `performAccountMaintenance`: all accounts.
* `Visit`, `visits`: each account with the objects as they stand when it is visited.
* `counted`: the buffers that have the sums over the visits.
* `performAccountMaintenance_spec`: these are the buffers that it leaves.
-/

namespace ZosCore

open Tally

variable {Fees Extensions : Type}

/-- `GRAPHENE_PROXY_TO_SELF_ACCOUNT` -/
def proxyToSelfAccount : ℕ := 5

/-! ### Accounts -/

/-- What the tally reads of an `account_object` and its statistics, besides what `Account` has. -/
structure Voter where
  votingAccount : ℕ := proxyToSelfAccount
  /-- The instances of the vote ids, by which the `flat_set` compares them; the type is left out. -/
  votes : List ℕ := []
  numWitness : UInt16 := 0
  numCommittee : UInt16 := 0
  numBudget : UInt16 := 0
  membershipExpirationDate : ℕ := 0
  totalCoreInOrders : ℤ := 0
  locktokenVb : Option ℕ := none
  lockAsset : ℤ := 0
  lockToken : ℤ := 0
  sorted : votes.Pairwise (· < ·) := by simp

/-- `is_member` -/
def Voter.isMember (v : Voter) (now : ℕ) : Bool := ¬ v.membershipExpirationDate < now

/-- What the tally reads of a `budget_member_object`. -/
structure BudgetVoter where
  enable : IdentityType := .identityEnable
  votes : List ℕ := []

/-- `d.get` of an account. The accounts are in the order of their names. -/
def getVoter (voters : AList fun _ : ℕ => Voter) (id : ℕ) : Except EconomyError Voter :=
  match voters.lookup id with
  | some v => .ok v
  | none => .error .notFound

/-- `opinion_account` -/
def getOpinion (voters : AList fun _ : ℕ => Voter) (stakeAccount : Voter) :
    Except EconomyError Voter :=
  if stakeAccount.votingAccount = proxyToSelfAccount then .ok stakeAccount
  else getVoter voters stakeAccount.votingAccount

namespace Economy

/-- The balance of a vesting balance, if there is one. -/
def vestingAmount (e : Economy) : Option ℕ → Except EconomyError ℤ
  | none => .ok 0
  | some vb =>
      match e.vestingBalances.lookup vb with
      | some v => .ok v.balance
      | none => .error .notFound

/-- `voting_stake` -/
def votingStake (e : Economy) (id : ℕ) (v : Voter) : Except EconomyError ℕ := do
  let a ← e.getAccount id
  let cashback ← e.vestingAmount a.cashbackVb
  let locktoken ← e.vestingAmount v.locktokenVb
  return uint64 (v.totalCoreInOrders + cashback + locktoken + e.getBalance id coreAsset +
    v.lockAsset + v.lockToken)

end Economy

/-! ### Buffers -/

/-- The buffers of the `database`. -/
structure VoteBuffers where
  voteTally : List ℕ := []
  voteWorker : List ℕ := []
  witnessCountHistogram : List ℕ := []
  committeeCountHistogram : List ℕ := []
  budgetCountHistogram : List ℕ := []
  totalVotingStake : ℕ := 0

/-- The stake is added to the histogram at half the number that is declared, unless that is greater than
the maximum. -/
def countHistogram (maximum declared : UInt16) (stake : ℕ) (histogram : List ℕ) : List ℕ :=
  if declared ≤ maximum then
    addAt (2 ^ 64) histogram (min (declared.toNat / 2) (histogram.length - 1)) stake
  else histogram

namespace VoteBuffers

variable (p : ChainParameters Fees Extensions)

/-- The constructor of `vote_tally_helper`. `resize` leaves the entries that there are. -/
def resized (nextAvailableVoteId : ℕ) (b : VoteBuffers) : VoteBuffers where
  voteTally := b.voteTally.takeD nextAvailableVoteId 0
  voteWorker := b.voteWorker.takeD nextAvailableVoteId 0
  witnessCountHistogram := b.witnessCountHistogram.takeD (p.maximumWitnessCount.toNat / 2 + 1) 0
  committeeCountHistogram :=
    b.committeeCountHistogram.takeD (p.maximumCommitteeCount.toNat / 2 + 1) 0
  budgetCountHistogram := b.budgetCountHistogram.takeD (p.maximumBudgetCount.toNat / 2 + 1) 0
  totalVotingStake := 0

/-- The stake counts for the votes of the account `o`, and for the numbers that it declares. -/
def count (o : Voter) (stake : ℕ) (b : VoteBuffers) : VoteBuffers where
  voteTally := o.votes.foldl (fun t offset => addAt (2 ^ 64) t offset stake) b.voteTally
  voteWorker := b.voteWorker
  witnessCountHistogram :=
    countHistogram p.maximumWitnessCount o.numWitness stake b.witnessCountHistogram
  committeeCountHistogram :=
    countHistogram p.maximumCommitteeCount o.numCommittee stake b.committeeCountHistogram
  budgetCountHistogram :=
    countHistogram p.maximumBudgetCount o.numBudget stake b.budgetCountHistogram
  totalVotingStake := (b.totalVotingStake + stake) % 2 ^ 64

/-- `vote_tally_helper::budget` -/
def countBudget (b : VoteBuffers) (m : BudgetVoter) : VoteBuffers :=
  if m.enable = .identityEnable then
    { b with voteWorker := m.votes.foldl (fun t offset => addAt (2 ^ 64) t offset 1) b.voteWorker }
  else b

end VoteBuffers

/-! ### The maintenance -/

section Maintenance

variable (p : ChainParameters Fees Extensions) (voters : AList fun _ : ℕ => Voter)

/-- `vote_tally_helper::operator()` -/
def tallyHelper (e : Economy) (id : ℕ) (b : VoteBuffers) : Except EconomyError VoteBuffers := do
  let stakeAccount ← getVoter voters id
  if p.countNonMemberVotes || stakeAccount.isMember e.time then
    let opinionAccount ← getOpinion voters stakeAccount
    let stake ← e.votingStake id stakeAccount
    return b.count p opinionAccount stake
  else return b

/-- The helpers, for one account. -/
def visitAccount (s : Economy × VoteBuffers) (id : ℕ) :
    Except EconomyError (Economy × VoteBuffers) := do
  let b ← tallyHelper p voters s.1 id s.2
  let e ← s.1.processFees id
  return (e, b)

/-- `perform_account_maintenance`, with the helpers that `perform_chain_maintenance` makes. -/
def performAccountMaintenance (nextAvailableVoteId : ℕ) (activeBudgetMembers : List BudgetVoter)
    (e : Economy) (b : VoteBuffers) : Except EconomyError (Economy × VoteBuffers) := do
  let s ← voters.keys.foldlM (visitAccount p voters) (e, b.resized p nextAvailableVoteId)
  return (s.1, activeBudgetMembers.foldl VoteBuffers.countBudget s.2)

end Maintenance

/-! ### Visits -/

/-- An account and the objects as they stand when it is visited. -/
structure Visit where
  account : ℕ
  economy : Economy

/-- The accounts are visited one after the other; the fees of each are paid out before the next one. -/
def visits : Economy → List ℕ → Except EconomyError (List Visit)
  | _, [] => .ok []
  | e, id :: ids => do
      let e' ← e.processFees id
      let rest ← visits e' ids
      return ⟨id, e⟩ :: rest

namespace Visit

variable (p : ChainParameters Fees Extensions) (voters : AList fun _ : ℕ => Voter) (x : Visit)

/-- The stake of the account is counted. -/
def eligible : Bool :=
  (voters.lookup x.account).any fun v => p.countNonMemberVotes || v.isMember x.economy.time

/-- The account that has the opinion. -/
def opinion : Option Voter :=
  (voters.lookup x.account).bind fun v =>
    if v.votingAccount = proxyToSelfAccount then some v else voters.lookup v.votingAccount

/-- The stake as it stands. -/
def stake : ℕ :=
  match voters.lookup x.account with
  | some v => (x.economy.votingStake x.account v).toOption.getD 0
  | none => 0

/-- The stake counts, for an opinion that meets `C`. -/
def votesFor (C : Voter → Bool) : Bool := x.eligible p voters && (x.opinion voters).any C

end Visit

variable (p : ChainParameters Fees Extensions) (voters : AList fun _ : ℕ => Voter)

/-- The stakes of the accounts whose opinion account meets `C`. -/
def stakeFor (vs : List Visit) (C : Voter → Bool) : ℕ :=
  ((vs.filter (Visit.votesFor p voters · C)).map (Visit.stake voters)).sum

/-- The declared number is counted at the place `i`. -/
def declares (maximum : UInt16) (declared : Voter → UInt16) (i : ℕ) (o : Voter) : Bool :=
  declared o ≤ maximum && (declared o).toNat / 2 = i

/-- The histogram of the declared numbers. -/
def histogramOf (maximum : UInt16) (declared : Voter → UInt16) (vs : List Visit) : List ℕ :=
  tallied (2 ^ 64) (maximum.toNat / 2 + 1) fun i => stakeFor p voters vs (declares maximum declared i)

/-- The buffers that have the sums over the visits. -/
def counted (nextAvailableVoteId : ℕ) (vs : List Visit) : VoteBuffers where
  voteTally := tallied (2 ^ 64) nextAvailableVoteId fun i =>
    stakeFor p voters vs fun o => i ∈ o.votes
  voteWorker := List.replicate nextAvailableVoteId 0
  witnessCountHistogram := histogramOf p voters p.maximumWitnessCount Voter.numWitness vs
  committeeCountHistogram := histogramOf p voters p.maximumCommitteeCount Voter.numCommittee vs
  budgetCountHistogram := histogramOf p voters p.maximumBudgetCount Voter.numBudget vs
  totalVotingStake := stakeFor p voters vs (fun _ => true) % 2 ^ 64

/-! ### What is counted -/

variable {p voters} {vs vs' : List Visit} {x : Visit} {C : Voter → Bool} {e e' : Economy}
  {id next : ℕ} {b b' : VoteBuffers}

lemma stakeFor_append : stakeFor p voters (vs ++ vs') C =
    stakeFor p voters vs C + stakeFor p voters vs' C := by
  rw [stakeFor, List.filter_append, List.map_append, List.sum_append]
  rfl

lemma stakeFor_singleton : stakeFor p voters [x] C =
    if x.votesFor p voters C then x.stake voters else 0 := by
  rw [stakeFor, List.filter_singleton]
  cases x.votesFor p voters C <;> simp

/-- The stake of one account that is eligible, with the opinion of the account `o`. -/
lemma stakeFor_concat {o : Voter} (heligible : x.eligible p voters = true)
    (hopinion : x.opinion voters = some o) : stakeFor p voters (vs ++ [x]) C =
      stakeFor p voters vs C + if C o then x.stake voters else 0 := by
  rw [stakeFor_append, stakeFor_singleton, Visit.votesFor, heligible, hopinion, Option.any_some,
    Bool.true_and]

/-- The stake of an account that is not eligible is not counted. -/
lemma stakeFor_concat_of_not (heligible : x.eligible p voters = false) :
    stakeFor p voters (vs ++ [x]) C = stakeFor p voters vs C := by
  rw [stakeFor_append, stakeFor_singleton, Visit.votesFor, heligible, Bool.false_and]
  exact Nat.add_zero _

/-- A number is counted at its half, or not at all. -/
lemma countHistogram_tallied (maximum declared : UInt16) (stake : ℕ) (f : ℕ → ℕ) :
    countHistogram maximum declared stake (tallied (2 ^ 64) (maximum.toNat / 2 + 1) f) =
      tallied (2 ^ 64) (maximum.toNat / 2 + 1) fun i =>
        f i + if declared ≤ maximum ∧ declared.toNat / 2 = i then stake else 0 := by
  rw [countHistogram]
  by_cases h : declared ≤ maximum
  · have hle : declared.toNat ≤ maximum.toNat := h
    have hplace : min (declared.toNat / 2) (maximum.toNat / 2) = declared.toNat / 2 :=
      min_eq_left (Nat.div_le_div_right hle)
    rw [if_pos h, length_tallied, Nat.add_sub_cancel, hplace, addAt_tallied]
    refine tallied_congr fun i _ => ?_
    simp only [h, true_and, eq_comm]
  · rw [if_neg h]
    refine tallied_congr fun i _ => ?_
    simp only [h, false_and, if_false, Nat.add_zero]

lemma countHistogram_histogramOf {o : Voter} (heligible : x.eligible p voters = true)
    (hopinion : x.opinion voters = some o) (maximum : UInt16) (declared : Voter → UInt16) :
    countHistogram maximum (declared o) (x.stake voters)
        (histogramOf p voters maximum declared vs) =
      histogramOf p voters maximum declared (vs ++ [x]) := by
  rw [histogramOf, countHistogram_tallied]
  refine tallied_congr fun i _ => ?_
  rw [stakeFor_concat heligible hopinion, declares]
  simp only [Bool.and_eq_true, decide_eq_true_eq]

/-- The stake of an eligible account is counted. -/
lemma count_counted {o : Voter} (heligible : x.eligible p voters = true)
    (hopinion : x.opinion voters = some o) :
    (counted p voters next vs).count p o (x.stake voters) = counted p voters next (vs ++ [x]) := by
  have htally : o.votes.foldl (fun t offset => addAt (2 ^ 64) t offset (x.stake voters))
      (counted p voters next vs).voteTally = (counted p voters next (vs ++ [x])).voteTally := by
    rw [counted, foldl_addAt_tallied _ _ _ (o.sorted.imp fun h => Nat.ne_of_lt h)]
    refine tallied_congr fun i _ => ?_
    rw [stakeFor_concat heligible hopinion]
    simp only [decide_eq_true_eq]
  have htotal : ((counted p voters next vs).totalVotingStake + x.stake voters) % 2 ^ 64 =
      (counted p voters next (vs ++ [x])).totalVotingStake := by
    rw [counted, counted, Nat.mod_add_mod, stakeFor_concat heligible hopinion, if_pos rfl]
  rw [VoteBuffers.count, htally, htotal]
  simp only [counted, countHistogram_histogramOf heligible hopinion]

/-- That of another account is not. -/
lemma counted_of_not_eligible (heligible : x.eligible p voters = false) :
    counted p voters next (vs ++ [x]) = counted p voters next vs := by
  simp only [counted, histogramOf, stakeFor_concat_of_not heligible]

lemma getVoter_eq_ok {v : Voter} : getVoter voters id = .ok v ↔ voters.lookup id = some v := by
  rw [getVoter]
  cases voters.lookup id <;> simp

/-- **One account.** -/
lemma tallyHelper_counted (h : tallyHelper p voters e id (counted p voters next vs) = .ok b) :
    b = counted p voters next (vs ++ [⟨id, e⟩]) := by
  obtain ⟨v, hv, h⟩ := except_bind_eq_ok.mp h
  have hlookup : voters.lookup id = some v := getVoter_eq_ok.mp hv
  have heligible : (Visit.mk id e).eligible p voters =
      (p.countNonMemberVotes || v.isMember e.time) := by
    rw [Visit.eligible, hlookup, Option.any_some]
  by_cases hmember : (p.countNonMemberVotes || v.isMember e.time) = true
  · rw [if_pos hmember] at h
    obtain ⟨o, ho, h⟩ := except_bind_eq_ok.mp h
    obtain ⟨stake, hstake, h⟩ := except_bind_eq_ok.mp h
    have hopinion : (Visit.mk id e).opinion voters = some o := by
      rw [Visit.opinion, hlookup, Option.bind_some]
      unfold getOpinion at ho
      split_ifs at ho ⊢
      · cases ho
        rfl
      · exact getVoter_eq_ok.mp ho
    have hstands : (Visit.mk id e).stake voters = stake := by
      simp only [Visit.stake, hlookup, hstake]
      rfl
    cases h
    rw [← hstands, count_counted (heligible.trans hmember) hopinion]
  · rw [if_neg hmember] at h
    cases h
    rw [counted_of_not_eligible (heligible.trans (by simpa using hmember))]

/-- **The accounts.** The buffers have the sums over the visits. -/
lemma foldlM_visitAccount {ids : List ℕ} {s : Economy × VoteBuffers}
    (h : ids.foldlM (visitAccount p voters) (e, counted p voters next vs) = .ok s) :
    ∃ vs', visits e ids = .ok vs' ∧ s.2 = counted p voters next (vs ++ vs') := by
  induction ids generalizing e vs with
  | nil =>
      cases h
      exact ⟨[], rfl, by rw [List.append_nil]⟩
  | cons id ids ih =>
      rw [List.foldlM_cons] at h
      obtain ⟨s₁, hvisit, h⟩ := except_bind_eq_ok.mp h
      obtain ⟨b₁, hb₁, hvisit⟩ := except_bind_eq_ok.mp hvisit
      obtain ⟨e₁, he₁, hs₁⟩ := except_bind_eq_ok.mp hvisit
      cases hs₁
      rw [tallyHelper_counted hb₁] at h
      obtain ⟨vs', hvs', hs⟩ := ih h
      refine ⟨⟨id, e⟩ :: vs', ?_, by rw [hs, List.append_assoc]; rfl⟩
      rw [visits]
      exact except_bind_eq_ok.mpr ⟨e₁, he₁, except_bind_eq_ok.mpr ⟨vs', hvs', rfl⟩⟩

/-- Empty buffers have the sums over no visits. -/
lemma resized_empty : VoteBuffers.resized p next {} = counted p voters next [] := by
  have htake : ∀ n, List.takeD n ([] : List ℕ) 0 = List.replicate n 0 := fun n =>
    List.takeD_nil n 0
  have hzero : ∀ C, stakeFor p voters [] C = 0 := fun _ => rfl
  simp only [VoteBuffers.resized, counted, histogramOf, htake, hzero, tallied_zero, Nat.zero_mod]

/-- The votes of the budget members are counted apart. -/
lemma foldl_countBudget (members : List BudgetVoter) (b : VoteBuffers) :
    ∃ w, members.foldl VoteBuffers.countBudget b = { b with voteWorker := w } := by
  induction members generalizing b with
  | nil => exact ⟨b.voteWorker, rfl⟩
  | cons m members ih =>
      obtain ⟨w, hw⟩ := ih (b.countBudget m)
      refine ⟨w, ?_⟩
      rw [List.foldl_cons, hw, VoteBuffers.countBudget]
      split_ifs <;> rfl

/-- **The maintenance.** It leaves the sums over the visits, besides the votes of the budget members. -/
theorem performAccountMaintenance_spec {members : List BudgetVoter}
    (h : performAccountMaintenance p voters next members e {} = .ok (e', b)) :
    ∃ vs w, visits e voters.keys = .ok vs ∧
      b = { counted p voters next vs with voteWorker := w } := by
  obtain ⟨s, hs, h⟩ := except_bind_eq_ok.mp h
  have hempty : VoteBuffers.resized p next {} = counted p voters next [] := resized_empty
  rw [hempty] at hs
  obtain ⟨vs, hvs, hs⟩ := foldlM_visitAccount hs
  obtain ⟨w, hw⟩ := foldl_countBudget members s.2
  cases h
  exact ⟨vs, w, hvs, by rw [hw, hs, List.nil_append]⟩

end ZosCore
