import Mathlib.Order.Bounds.Basic
import ZosCore.Chain.CountedStakes
import ZosCore.Chain.Majorities

/-!
The members that the elections select, and how many of them.

The histogram is gone through from the number one on, until more than half of the stake that declares any
number has been added. The half is rounded down, and there is no such loop where it is zero: a stake of one
has no say in the number.

* `witnessCount`, `memberCount`: the loops, of which that for the witnesses adds up a `share_type`.
* `VotedCount`: the number that the stake is for.
* `TopOfVote`: the first members in the order of the votes, none left out that ranks above one of them.
* `Accepts`: the authority can be rewritten for these votes. Members who are not enabled rank as if they
  had no votes, but are counted with those that they have, so that it may not.
* **`active_sets_top`**: the three elections select the top of the vote, for a stake of two or more, and go
  through exactly if the votes of the members are accepted.
-/

namespace ZosCore

variable {Fees Extensions κ α : Type}

/-! ### The loops -/

/-- `stake_target`: half of the stake that declares a number, in an unsigned difference. -/
def stakeTarget (total abstained : ℕ) : ℤ := int64 (uint64 (total - abstained) / 2 : ℕ)

/-- The sum of two `share_type`, unless it overflows. -/
def addShare (x y : ℤ) : Option ℤ := if -2 ^ 63 ≤ x + y ∧ x + y < 2 ^ 63 then some (x + y) else none

/-- The loop of `update_active_witnesses`, with a `stake_tally` that is a `share_type`. -/
def witnessLoop (target : ℤ) : List ℕ → ℤ → Option ℕ
  | [], _ => some 0
  | stake :: histogram, tally =>
      if tally ≤ target then do
        let tally ← addShare tally (int64 stake)
        let count ← witnessLoop target histogram tally
        return count + 1
      else some 0

/-- The loop of `update_active_committee_members` and `update_active_budget_members`, where it is a
`uint64_t`. -/
def memberLoop (target : ℤ) : List ℕ → ℕ → ℕ
  | [], _ => 0
  | stake :: histogram, tally =>
      if int64 tally ≤ target then memberLoop target histogram ((tally + stake) % 2 ^ 64) + 1
      else 0

/-- `witness_count` -/
def witnessCount (total : ℕ) (histogram : List ℕ) : Option ℕ :=
  if 0 < stakeTarget total (histogram.headD 0) then
    witnessLoop (stakeTarget total (histogram.headD 0)) histogram.tail 0
  else some 0

/-- `committee_member_count`, `budget_member_count` -/
def memberCount (total : ℕ) (histogram : List ℕ) : ℕ :=
  if 0 < stakeTarget total (histogram.headD 0) then
    memberLoop (stakeTarget total (histogram.headD 0)) histogram.tail 0
  else 0

/-- The elections, with these votes and numbers. -/
def Elections.withCounts (tally : ℕ → ℕ) (witnesses committee budget : ℕ) (e : Elections κ α) :
    Elections κ α :=
  { e with
    tally := tally
    witnesses := { e.witnesses with votedCount := witnesses }
    committee := { e.committee with votedCount := committee }
    budget := { e.budget with votedCount := budget } }

/-- The elections, with the votes and the numbers of the buffers. -/
def Elections.withBuffers (b : VoteBuffers) (e : Elections κ α) : Option (Elections κ α) :=
  (witnessCount b.totalVotingStake b.witnessCountHistogram).map fun count =>
    e.withCounts (fun voteId => b.voteTally.getD voteId 0) count
      (memberCount b.totalVotingStake b.committeeCountHistogram)
      (memberCount b.totalVotingStake b.budgetCountHistogram)

/-! ### How many -/

/-- The stake that declares a number up to `count`, but not none. -/
def cumulated (histogram : List ℕ) (count : ℕ) : ℕ := (histogram.tail.take count).sum

/-- The stake that declares a number. -/
def opinionated (total : ℕ) (histogram : List ℕ) : ℕ := total - histogram.headD 0

/-- The number that the stake is for: the least one, from one on, up to which more than half of the stake
declares, or the last one; none if the stake is less than `least`. -/
structure VotedCount (least total : ℕ) (histogram : List ℕ) (count : ℕ) : Prop where
  silent : opinionated total histogram < least → count = 0
  exceeds : least ≤ opinionated total histogram →
    (∃ k, 1 ≤ k ∧ k < histogram.length ∧ opinionated total histogram < 2 * cumulated histogram k) →
    IsLeast {k | 1 ≤ k ∧ k < histogram.length ∧
      opinionated total histogram < 2 * cumulated histogram k} count
  last : least ≤ opinionated total histogram →
    (∀ k, 1 ≤ k → k < histogram.length →
      2 * cumulated histogram k ≤ opinionated total histogram) →
    count = histogram.length - 1

/-- A histogram as the maintenance leaves it. -/
structure SoundHistogram (total : ℕ) (histogram : List ℕ) : Prop where
  nonempty : histogram ≠ []
  sum_le : histogram.sum ≤ total
  total_lt : total < 2 ^ 63
  /-- It has an entry for every second number of 16 bits at most. -/
  length_le : histogram.length ≤ 2 ^ 15

lemma Partitions.sound {p : ChainParameters Fees Extensions} {voters : AList fun _ : ℕ => Voter}
    {vs : List Visit} {maximum : UInt16} {declared : Voter → UInt16} {histogram : List ℕ}
    (h : Partitions p voters maximum declared vs histogram)
    (hfit : stakeFor p voters vs (fun _ => true) < 2 ^ 63) :
    SoundHistogram (stakeFor p voters vs fun _ => true) histogram where
  nonempty := List.ne_nil_of_length_pos (h.length ▸ Nat.succ_pos _)
  sum_le := h.sum ▸ Nat.le_add_right _ _
  total_lt := hfit
  length_le := by
    have hmaximum := maximum.toNat_lt
    have hlength := h.length
    omega

variable {total : ℕ} {histogram : List ℕ} {target tally : ℕ}

lemma int64_natCast {n : ℕ} (h : n < 2 ^ 63) : int64 n = n :=
  int64_of_share ⟨by omega, by exact_mod_cast h⟩

/-- Both loops give the same number where nothing overflows. -/
lemma witnessLoop_eq (hsum : tally + histogram.sum < 2 ^ 63) :
    witnessLoop target histogram tally = some (memberLoop target histogram tally) := by
  induction histogram generalizing tally with
  | nil => rfl
  | cons stake histogram ih =>
      rw [List.sum_cons] at hsum
      have htally : int64 tally = tally := int64_natCast (by omega)
      have hadd : addShare tally (int64 stake) = some ((tally + stake : ℕ) : ℤ) := by
        rw [addShare, int64_natCast (by omega), if_pos (by omega)]
        rfl
      rw [witnessLoop, memberLoop, htally, Nat.mod_eq_of_lt (by omega)]
      by_cases h : (tally : ℤ) ≤ target
      · rw [if_pos h, if_pos h, hadd]
        show (witnessLoop target histogram (tally + stake : ℕ)).bind _ = _
        rw [ih (by omega)]
        rfl
      · rw [if_neg h, if_neg h]

/-- **The loop.** It stops at the first number up to which more than the target is declared, or at the
end. -/
lemma memberLoop_spec (hsum : tally + histogram.sum < 2 ^ 63) :
    memberLoop target histogram tally ≤ histogram.length ∧
    (∀ j < memberLoop target histogram tally, tally + (histogram.take j).sum ≤ target) ∧
    (memberLoop target histogram tally < histogram.length →
      target < tally + (histogram.take (memberLoop target histogram tally)).sum) := by
  induction histogram generalizing tally with
  | nil => simp [memberLoop]
  | cons stake histogram ih =>
      rw [List.sum_cons] at hsum
      rw [memberLoop, int64_natCast (by omega)]
      split_ifs with h
      · rw [Nat.mod_eq_of_lt (by omega)]
        obtain ⟨hle, hbefore, hstop⟩ := @ih (tally + stake) (by omega)
        refine ⟨by simpa using hle, fun j hj => ?_, fun hlt => ?_⟩
        · cases j with
          | zero => simpa using h
          | succ j =>
              have := hbefore j (by omega)
              rw [List.take_succ_cons, List.sum_cons]
              omega
        · have := hstop (by simpa using hlt)
          rw [List.take_succ_cons, List.sum_cons]
          omega
      · refine ⟨Nat.zero_le _, fun j hj => absurd hj (Nat.not_lt_zero j), fun _ => ?_⟩
        simp only [List.take_zero, List.sum_nil]
        omega

/-- Half of the stake that declares a number. -/
lemma stakeTarget_eq (h : SoundHistogram total histogram) :
    stakeTarget total (histogram.headD 0) = (opinionated total histogram / 2 : ℕ) := by
  have hlt := h.total_lt
  have hhead : histogram.headD 0 ≤ total := by
    obtain ⟨a, l, rfl⟩ := List.exists_cons_of_ne_nil h.nonempty
    have hsum := h.sum_le
    rw [List.sum_cons] at hsum
    exact (Nat.le_add_right _ _).trans hsum
  have hdiff : uint64 ((total : ℤ) - histogram.headD 0) = opinionated total histogram := by
    rw [uint64, opinionated]
    omega
  rw [stakeTarget, hdiff]
  exact int64_natCast (by rw [opinionated]; omega)

/-- **How many.** For a stake of two or more. -/
lemma votedCount_memberCount (h : SoundHistogram total histogram) :
    VotedCount 2 total histogram (memberCount total histogram) := by
  obtain ⟨a, l, rfl⟩ := List.exists_cons_of_ne_nil h.nonempty
  have hsum : 0 + l.sum < 2 ^ 63 := by
    have := h.sum_le
    have := h.total_lt
    rw [List.sum_cons] at *
    omega
  have hcumulated : ∀ k, cumulated (a :: l) k = (l.take k).sum := fun k => rfl
  set S := opinionated total (a :: l) with hS
  obtain ⟨hle, hbefore, hstop⟩ := @memberLoop_spec l (S / 2) 0 hsum
  have hcount : memberCount total (a :: l) = if 0 < S / 2 then memberLoop (S / 2 : ℕ) l 0 else 0 := by
    rw [memberCount, stakeTarget_eq h]
    simp only [Nat.cast_pos]
    rfl
  rw [hcount]
  by_cases htwo : S < 2
  · rw [if_neg (by omega)]
    exact ⟨fun _ => rfl, fun h2 => absurd htwo (by omega), fun h2 => absurd htwo (by omega)⟩
  rw [if_pos (by omega)]
  set n := memberLoop (S / 2 : ℕ) l 0 with hn
  -- the numbers before `n` are not enough, so `n` is not zero unless the list ends there
  have hless : ∀ k < n, 2 * cumulated (a :: l) k ≤ S := by
    intro k hk
    have := hbefore k hk
    rw [hcumulated]
    omega
  refine ⟨fun hlt => absurd hlt htwo, fun _ ⟨k, hk1, hkl, hk⟩ => ?_, fun _ hnone => ?_⟩
  · have hnk : n ≤ k := by
      by_contra hlt
      have := hless k (by omega)
      omega
    have hn1 : n ≠ 0 := by
      intro h0
      have := hstop (by rw [List.length_cons] at hkl; omega)
      rw [h0, List.take_zero, List.sum_nil] at this
      omega
    refine ⟨⟨by omega, by omega, ?_⟩, fun j ⟨_, _, hj⟩ => ?_⟩
    · rcases lt_or_eq_of_le hle with hlt | heq
      · have := hstop hlt
        rw [hcumulated]
        omega
      · obtain rfl : n = k := by
          rw [List.length_cons] at hkl
          omega
        exact hk
    · by_contra hlt
      have := hless j (by omega)
      omega
  · rw [List.length_cons, Nat.add_sub_cancel]
    by_contra hne
    have hlt : n < l.length := by omega
    have hover := hstop hlt
    have hn1 : n ≠ 0 := by
      intro h0
      rw [h0, List.take_zero, List.sum_nil] at hover
      omega
    have := hnone n (by omega) (by rw [List.length_cons]; omega)
    rw [hcumulated] at this
    omega

/-- The number is that of an entry. -/
lemma memberCount_le (h : SoundHistogram total histogram) : memberCount total histogram ≤ 32767 := by
  have hcount := votedCount_memberCount h
  have hlength := h.length_le
  rcases lt_or_ge (opinionated total histogram) 2 with hlt | hge
  · rw [hcount.silent hlt]
    exact Nat.zero_le _
  by_cases hexceeds : ∃ k, 1 ≤ k ∧ k < histogram.length ∧
      opinionated total histogram < 2 * cumulated histogram k
  · obtain ⟨⟨-, hlt, -⟩, -⟩ := hcount.exceeds hge hexceeds
    omega
  · rw [hcount.last hge fun k hpos hlt => not_lt.mp fun h => hexceeds ⟨k, hpos, hlt, h⟩]
    omega

lemma witnessCount_eq (h : SoundHistogram total histogram) :
    witnessCount total histogram = some (memberCount total histogram) := by
  obtain ⟨a, l, rfl⟩ := List.exists_cons_of_ne_nil h.nonempty
  have hsum : 0 + l.sum < 2 ^ 63 := by
    have := h.sum_le
    have := h.total_lt
    rw [List.sum_cons] at *
    omega
  rw [witnessCount, memberCount, stakeTarget_eq h]
  split_ifs
  · exact witnessLoop_eq hsum
  · rfl

/-! ### The top of the vote -/

/-- `m` ranks above `a`: it has more votes that count, or as many and a smaller vote id. -/
def RanksAbove (tally : ℕ → ℕ) (m a : Votable) : Prop :=
  Electorate.sortVotes tally a < Electorate.sortVotes tally m ∨
    Electorate.sortVotes tally m = Electorate.sortVotes tally a ∧ m.voteId < a.voteId

/-- The elected members are the top of the vote: as many as there are places, or all, and nobody ranks
above one of them that is not among them. -/
structure TopOfVote (tally : ℕ → ℕ) (E : Electorate κ α) (elected : List Votable) : Prop where
  length : elected.length = min (max (2 * E.votedCount + 1) E.minCount) E.members.length
  distinct : (elected.map Votable.id).Nodup
  members : elected ⊆ E.members
  top : ∀ a ∈ elected, ∀ m ∈ E.members, m ∉ elected → ¬ RanksAbove tally m a

namespace Electorate

lemma precedes_iff (tally : ℕ → ℕ) (m a : Votable) :
    precedes tally m a = true ↔ RanksAbove tally m a := by
  rw [precedes, RanksAbove]
  split_ifs with h
  · rw [decide_eq_true_eq]
    omega
  · rw [decide_eq_true_eq]
    omega

/-- **The election.** The members that are elected are the top of the vote. -/
lemma topOfVote_elected (tally : ℕ → ℕ) {E : Electorate κ α}
    (hids : (E.members.map Votable.id).Nodup) : TopOfVote tally E (E.elected tally) := by
  have hperm := List.perm_insertionSort (fun a b => ¬ precedes tally b a) E.members
  have htotal : Std.Total fun a b => ¬ precedes tally b a = true := by
    refine ⟨fun a b => ?_⟩
    simp only [precedes_iff, RanksAbove]
    omega
  have htrans : IsTrans Votable fun a b => ¬ precedes tally b a = true := by
    refine ⟨fun a b c => ?_⟩
    simp only [precedes_iff, RanksAbove]
    omega
  have hsorted := List.pairwise_insertionSort (fun a b => ¬ precedes tally b a = true) E.members
  refine ⟨?_, ?_, ?_, fun a ha m hm hnot => ?_⟩
  · rw [elected, List.length_take, hperm.length_eq, Nat.mul_comm]
  · exact List.Nodup.sublist ((List.take_sublist _ _).map _)
      ((hperm.map Votable.id).nodup_iff.mpr hids)
  · exact fun a ha => hperm.mem_iff.mp ((List.take_sublist _ _).subset ha)
  · -- the list is the elected members and, after them, the others
    rw [← List.take_append_drop (max (E.votedCount * 2 + 1) E.minCount)
      (E.members.insertionSort _), List.pairwise_append] at hsorted
    rw [← precedes_iff]
    refine hsorted.2.2 a ha m ?_
    have hmem := hperm.mem_iff.mpr hm
    rw [← List.take_append_drop (max (E.votedCount * 2 + 1) E.minCount)
      (E.members.insertionSort _), List.mem_append] at hmem
    exact hmem.resolve_left hnot

end Electorate

/-! ### The elections -/

/-- An authority is rewritten for these votes: before the hardfork if they are not zero in all, on 64
bits, and since then if the members with votes have fewer and fewer of them. -/
def Accepts (time : ℕ) (votes : List (ℕ × ℕ)) : Prop :=
  if time < hardfork201230Time then totalOf votes ≠ 0
  else ((votes.filter (·.2 ≠ 0)).map Prod.snd).IsChain (· ≥ ·)

lemma Electorate.Valid.withCount {E : Electorate κ α} (h : E.Valid) {n : ℕ} (hn : n ≤ 32767) :
    ({ E with votedCount := n } : Electorate κ α).Valid :=
  { h with votedCount := hn }

lemma Electorate.Valid.rewriteActive_returns_iff {E : Electorate κ α} (h : E.Valid) {tally : ℕ → ℕ}
    (htally : ∀ v, tally v < 2 ^ 64) {time : ℕ} :
    (∃ a, rewriteActive time (E.votes tally) E.active = .ok a) ↔ Accepts time (E.votes tally) := by
  by_cases htime : time < hardfork201230Time
  · rw [Accepts, if_pos htime, rewriteActive, if_pos htime, authorityOfTotal]
    refine ⟨?_, fun hne => ⟨_, ite_throw_eq_ok.mpr ⟨hne, rfl⟩⟩⟩
    rintro ⟨_, hok⟩
    exact (ite_throw_eq_ok.mp hok).1
  · rw [Accepts, if_neg htime]
    constructor
    · rintro ⟨a, ha⟩
      by_contra hchain
      cases hfilter : (E.votes tally).filter (·.2 ≠ 0) with
      | nil =>
          rw [hfilter] at hchain
          exact hchain List.isChain_nil
      | cons e rest =>
          rw [hfilter] at hchain
          have herror := (foldlM_votes (κ := κ) (α := α) hfilter h.length_votes_le
            (tally_votes_lt htally)).2 hchain
          rw [rewriteActive, if_neg htime, herror] at ha
          cases ha
    · intro hchain
      obtain ⟨a, ha, -⟩ := (rewriteActive_since htime h.nodup_votes h.length_votes_le
        (tally_votes_lt htally)).mpr hchain
      exact ⟨a, ha⟩

/-- An election by a histogram of the numbers: there are places for the number that the stake is for, and
the top of the vote is elected. It goes through exactly if `Returns`, and then the elected are active. -/
structure Elects (least total : ℕ) (histogram : List ℕ) (tally : ℕ → ℕ) (E : Electorate κ α)
    (Returns : Prop) (result : Except VoteError (Elections κ α))
    (kind : Elections κ α → Electorate κ α) : Prop where
  votedCount : VotedCount least total histogram E.votedCount
  top : TopOfVote tally E (E.elected tally)
  returns_iff : (∃ e, result = .ok e) ↔ Returns
  active : ∀ e, result = .ok e → (kind e).activeMembers = (E.elected tally).map Votable.id

namespace Elections

variable {e e' : Elections κ α}

lemma activeMembers_updateActiveWitnesses (h : e.updateActiveWitnesses = .ok e') :
    e'.witnesses.activeMembers = (e.checkedWitnesses.elected e.tally).map Votable.id := by
  obtain ⟨active, -, h⟩ := except_bind_eq_ok.mp h
  cases h
  rfl

lemma activeMembers_updateActiveCommitteeMembers (h : e.updateActiveCommitteeMembers = .ok e') :
    e'.committee.activeMembers = (e.committee.elected e.tally).map Votable.id := by
  obtain ⟨hnobody, rfl⟩ | ⟨-, active, -, rfl⟩ := ite_pure_eq_ok.mp h
  · exact (congrArg (List.map Votable.id) hnobody).symm
  · rfl

lemma activeMembers_updateActiveBudgetMembers (h : e.updateActiveBudgetMembers = .ok e') :
    e'.budget.activeMembers = (e.budget.elected e.tally).map Votable.id := by
  obtain ⟨hnobody, rfl⟩ | ⟨-, active, -, rfl⟩ := ite_pure_eq_ok.mp h
  · exact (congrArg (List.map Votable.id) hnobody).symm
  · rfl

/-- `database_check_witness` leaves the ids. -/
lemma map_id_checkedWitnesses (e : Elections κ α) :
    e.checkedWitnesses.members.map Votable.id = e.witnesses.members.map Votable.id := by
  rw [checkedWitnesses, List.map_map]
  refine List.map_congr_left fun m _ => ?_
  rw [Function.comp_apply, checkWitness]
  split_ifs <;> rfl

end Elections

namespace Elections

variable {e : Elections κ α}

lemma updateActiveWitnesses_returns_iff (h : e.witnesses.Valid) (htally : ∀ v, e.tally v < 2 ^ 64) :
    (∃ e', e.updateActiveWitnesses = .ok e') ↔ Accepts e.time (e.checkedWitnesses.votes e.tally) := by
  rw [← (valid_checkedWitnesses h).rewriteActive_returns_iff htally, updateActiveWitnesses]
  simpa using exists_bind_eq_ok (P := fun _ => True)

lemma updateActiveCommitteeMembers_returns_iff (h : e.committee.Valid)
    (htally : ∀ v, e.tally v < 2 ^ 64) : (∃ e', e.updateActiveCommitteeMembers = .ok e') ↔
      e.committee.elected e.tally = [] ∨ Accepts e.time (e.committee.votes e.tally) := by
  rw [← h.rewriteActive_returns_iff htally, updateActiveCommitteeMembers]
  simpa using exists_ite_pure_eq_ok (P := fun _ => True) fun _ => trivial

lemma updateActiveBudgetMembers_returns_iff (h : e.budget.Valid)
    (htally : ∀ v, e.tally v < 2 ^ 64) : (∃ e', e.updateActiveBudgetMembers = .ok e') ↔
      e.budget.elected e.tally = [] ∨ Accepts e.time (e.budget.votes e.tally) := by
  rw [← h.rewriteActive_returns_iff htally, updateActiveBudgetMembers]
  simpa using exists_ite_pure_eq_ok (P := fun _ => True) fun _ => trivial

end Elections

/-- The three elections, with the numbers that the stake is for. -/
lemma Elections.elects_withCounts {e : Elections κ α} {tally : ℕ → ℕ} {w c g total least : ℕ}
    {H : List ℕ × List ℕ × List ℕ} (hw : VotedCount least total H.1 w)
    (hc : VotedCount least total H.2.1 c) (hg : VotedCount least total H.2.2 g)
    (htally : ∀ v, tally v < 2 ^ 64) (hW : (e.withCounts tally w c g).witnesses.Valid)
    (hC : (e.withCounts tally w c g).committee.Valid) (hB : (e.withCounts tally w c g).budget.Valid)
    (hwids : (e.witnesses.members.map Votable.id).Nodup)
    (hcids : (e.committee.members.map Votable.id).Nodup)
    (hgids : (e.budget.members.map Votable.id).Nodup) :
    let e' := e.withCounts tally w c g
    Elects least total H.1 tally e'.checkedWitnesses
        (Accepts e'.time (e'.checkedWitnesses.votes tally)) e'.updateActiveWitnesses
        Elections.witnesses ∧
      Elects least total H.2.1 tally e'.committee
        (e'.committee.elected tally = [] ∨ Accepts e'.time (e'.committee.votes tally))
        e'.updateActiveCommitteeMembers Elections.committee ∧
      Elects least total H.2.2 tally e'.budget
        (e'.budget.elected tally = [] ∨ Accepts e'.time (e'.budget.votes tally))
        e'.updateActiveBudgetMembers Elections.budget := by
  refine ⟨⟨hw, Electorate.topOfVote_elected _ ?_, updateActiveWitnesses_returns_iff hW htally,
      fun _ h => ?_⟩,
    ⟨hc, Electorate.topOfVote_elected _ hcids, updateActiveCommitteeMembers_returns_iff hC htally,
      fun _ h => ?_⟩,
    ⟨hg, Electorate.topOfVote_elected _ hgids, updateActiveBudgetMembers_returns_iff hB htally,
      fun _ h => ?_⟩⟩
  · rw [map_id_checkedWitnesses]
    exact hwids
  · exact activeMembers_updateActiveWitnesses h
  · exact activeMembers_updateActiveCommitteeMembers h
  · exact activeMembers_updateActiveBudgetMembers h

/-- **The active sets.** For any votes and any enabled members, with histograms as the maintenance leaves
them, each election selects the top of the vote, with places for the number that a stake of two or more is
for; a smaller stake has no say in the number. It goes through exactly if the votes of these members are
accepted, or nobody is elected to the committee or the budget, and then they are active. -/
theorem active_sets_top {b : VoteBuffers} {e : Elections κ α}
    (hw : SoundHistogram b.totalVotingStake b.witnessCountHistogram)
    (hc : SoundHistogram b.totalVotingStake b.committeeCountHistogram)
    (hg : SoundHistogram b.totalVotingStake b.budgetCountHistogram)
    (htally : ∀ v ∈ b.voteTally, v < 2 ^ 64)
    (hW : e.witnesses.Valid) (hC : e.committee.Valid) (hB : e.budget.Valid)
    (hwids : (e.witnesses.members.map Votable.id).Nodup)
    (hcids : (e.committee.members.map Votable.id).Nodup)
    (hgids : (e.budget.members.map Votable.id).Nodup) :
    ∃ e', e.withBuffers b = some e' ∧
      Elects 2 b.totalVotingStake b.witnessCountHistogram e'.tally e'.checkedWitnesses
        (Accepts e'.time (e'.checkedWitnesses.votes e'.tally))
        e'.updateActiveWitnesses Elections.witnesses ∧
      Elects 2 b.totalVotingStake b.committeeCountHistogram e'.tally e'.committee
        (e'.committee.elected e'.tally = [] ∨ Accepts e'.time (e'.committee.votes e'.tally))
        e'.updateActiveCommitteeMembers Elections.committee ∧
      Elects 2 b.totalVotingStake b.budgetCountHistogram e'.tally e'.budget
        (e'.budget.elected e'.tally = [] ∨ Accepts e'.time (e'.budget.votes e'.tally))
        e'.updateActiveBudgetMembers Elections.budget := by
  have hcounts : e.withBuffers b = some (e.withCounts (fun voteId => b.voteTally.getD voteId 0)
      (memberCount b.totalVotingStake b.witnessCountHistogram)
      (memberCount b.totalVotingStake b.committeeCountHistogram)
      (memberCount b.totalVotingStake b.budgetCountHistogram)) := by
    rw [Elections.withBuffers, witnessCount_eq hw, Option.map_some]
  have hlt : ∀ v, b.voteTally.getD v 0 < 2 ^ 64 := by
    intro v
    rw [List.getD_eq_getElem?_getD]
    cases hv : b.voteTally[v]? with
    | none => exact Nat.two_pow_pos 64
    | some tally => exact htally tally (List.mem_of_getElem? hv)
  exact ⟨_, hcounts, Elections.elects_withCounts
    (H := (b.witnessCountHistogram, b.committeeCountHistogram, b.budgetCountHistogram))
    (votedCount_memberCount hw) (votedCount_memberCount hc) (votedCount_memberCount hg) hlt
    (hW.withCount (memberCount_le hw)) (hC.withCount (memberCount_le hc))
    (hB.withCount (memberCount_le hg)) hwids hcids hgids⟩

/-! ### Three members -/

/-- Three members, the last one disabled, and room for at least one. -/
def threeMembers : Electorate ℕ ℕ where
  members := [{ id := 20, account := 30, voteId := 1 }, { id := 21, account := 31, voteId := 2 },
    { id := 22, account := 32, voteId := 3, enable := .identityDisable }]
  votedCount := 0
  minCount := 1
  active := { weightThreshold := 1 }

def threeMembersElections : Elections ℕ ℕ where
  time := hardfork201230Time
  tally := fun _ => 0
  maintenanceInterval := 86400
  blockInterval := 5
  witnesses := threeMembers
  committee := threeMembers
  budget := threeMembers
  relaxedCommittee := { weightThreshold := 1 }

/-- All of a stake is for the number one. -/
def buffersOfStake (stake : ℕ) : VoteBuffers where
  voteTally := [0, 0, stake, stake]
  witnessCountHistogram := [0, stake]
  committeeCountHistogram := [0, stake]
  budgetCountHistogram := [0, stake]
  totalVotingStake := stake

lemma soundHistogram_of_stake {stake : ℕ} (h : stake < 2 ^ 63) : SoundHistogram stake [0, stake] where
  nonempty := List.cons_ne_nil _ _
  sum_le := by simp
  total_lt := h
  length_le := by simp

/-- With a stake of two there are three places, and the election goes through. -/
theorem active_sets_top_two : ∃ e', threeMembersElections.withBuffers (buffersOfStake 2) = some e' ∧
    ∃ e'', e'.updateActiveCommitteeMembers = .ok e'' ∧
      e''.committee.activeMembers = (e'.committee.elected e'.tally).map Votable.id ∧
      VotedCount 2 2 [0, 2] e'.committee.votedCount ∧
      TopOfVote e'.tally e'.committee (e'.committee.elected e'.tally) := by
  have hsound : SoundHistogram 2 [0, 2] := soundHistogram_of_stake (by norm_num)
  have hids : (threeMembers.members.map Votable.id).Nodup := by decide
  have hvalid : threeMembers.Valid := ⟨by decide, by decide, by decide, rfl⟩
  obtain ⟨e', h, -, hc, -⟩ := @active_sets_top _ _ (buffersOfStake 2) threeMembersElections
    hsound hsound hsound (by decide) hvalid hvalid hvalid hids hids hids
  have hmember : memberCount 2 [0, 2] = 1 := by decide +kernel
  have hwitness : witnessCount 2 [0, 2] = some 1 := by decide +kernel
  have hcounts : threeMembersElections.withBuffers (buffersOfStake 2) =
      some (threeMembersElections.withCounts (fun v => [0, 0, 2, 2].getD v 0) 1 1 1) := by
    simp only [Elections.withBuffers, buffersOfStake, hwitness, hmember, Option.map_some]
  obtain rfl := Option.some.inj (hcounts.symm.trans h)
  obtain ⟨e'', he''⟩ := hc.returns_iff.mpr (.inr (by rw [Accepts]; decide +kernel))
  exact ⟨_, h, e'', he'', hc.active e'' he'', hc.votedCount, hc.top⟩

/-- A stake of one declares a number, of which it is all; but each election has a place for one member
only, not for three. And where the disabled member has the most votes, none of them goes through. -/
theorem not_active_sets_top_one :
    (∃ e', threeMembersElections.withBuffers (buffersOfStake 1) = some e' ∧
      (e'.checkedWitnesses.elected e'.tally).length = 1 ∧
      (e'.committee.elected e'.tally).length = 1 ∧ (e'.budget.elected e'.tally).length = 1 ∧
      ∀ count, VotedCount 1 1 [0, 1] count → min (max (2 * count + 1) 1) 3 = 3) ∧
    ∃ e', threeMembersElections.withBuffers { buffersOfStake 2 with voteTally := [0, 1, 0, 2] } =
        some e' ∧
      e'.updateActiveWitnesses = .error .assertion ∧
      e'.updateActiveCommitteeMembers = .error .assertion ∧
      e'.updateActiveBudgetMembers = .error .assertion := by
  have hmember : memberCount 1 [0, 1] = 0 := by decide +kernel
  have hwitness : witnessCount 1 [0, 1] = some 0 := by decide +kernel
  have hcounts : threeMembersElections.withBuffers (buffersOfStake 1) =
      some (threeMembersElections.withCounts (fun v => [0, 0, 1, 1].getD v 0) 0 0 0) := by
    simp only [Elections.withBuffers, buffersOfStake, hwitness, hmember, Option.map_some]
  have hmember' : memberCount 2 [0, 2] = 1 := by decide +kernel
  have hwitness' : witnessCount 2 [0, 2] = some 1 := by decide +kernel
  have hcounts' : threeMembersElections.withBuffers { buffersOfStake 2 with voteTally := [0, 1, 0, 2] } =
      some (threeMembersElections.withCounts (fun v => [0, 1, 0, 2].getD v 0) 1 1 1) := by
    simp only [Elections.withBuffers, buffersOfStake, hwitness', hmember', Option.map_some]
  refine ⟨⟨_, hcounts, by decide +kernel, by decide +kernel, by decide +kernel, fun count h => ?_⟩,
    _, hcounts', rfl, rfl, rfl⟩
  have hone := (h.exceeds (by decide) ⟨1, le_rfl, by decide, by decide⟩).1.1
  omega

end ZosCore
