import Mathlib.Data.List.Sort
import ZosCore.Economy.State
import ZosCore.Protocol.AccountUpdate

/-!
The elections of `db_maint.cpp`: the witnesses, the committee and the budget members are the votable
objects with the most votes, and the active authority of the account that stands for them is
rewritten with weights taken from the votes.

* `VoteCounter`: `vote_count.hpp`.
* `rewriteActive`: the authority, before `HARDFORK_201230` and since.
* `Electorate.elected`: `sort_votable_objects`.
* `Elections.updateActiveWitnesses`, `Elections.updateActiveCommitteeMembers`,
  `Elections.updateActiveBudgetMembers`.

How many members are voted for comes from the histograms of the votes on it; it is any number here.
-/

namespace ZosCore

/-- `HARDFORK_201230_TIME` -/
def hardfork201230Time : ℕ := 1609257600

/-! ### Members -/

/-- `identity_type` -/
inductive IdentityType where
  | identityDisable
  | identityEnable
  | identityEnableLost
  deriving DecidableEq

/-- What an election reads and writes of a `witness_object`, a `committee_member_object` or a
`budget_member_object`. Only a witness has `recent_missed`. -/
structure Votable where
  id : ℕ
  account : ℕ
  voteId : ℕ
  enable : IdentityType := .identityEnable
  totalVotes : ℕ := 0
  recentMissed : ℤ := 0

/-- `is_enable` -/
def Votable.isEnable (m : Votable) : Bool := m.enable = .identityEnable

/-- What goes wrong in an election: an assertion, or the top bit of zero is asked for. -/
inductive VoteError where
  | assertion
  | undefined
  deriving DecidableEq

/-! ### Weights -/

variable {κ α : Type}

/-- `std::max(int(find_msb( votes )) - 15, 0)`, how far to shift so that 16 bits are left. -/
def bitsToDrop (votes : ℕ) : ℕ := votes.log2 - 15

/-- `add_authority` of an account. -/
def Authority.addAuthority (a : Authority κ α) (who weight : ℕ) : Authority κ α :=
  { a with accountAuths := a.accountAuths.filter (·.1 ≠ who) ++ [(who, weight)] }

/-- `vote_counter`. There is no `bitshift` where the source has `-1`. -/
structure VoteCounter (κ α : Type) where
  lastVotes : ℕ := 2 ^ 64 - 1
  totalVotes : ℕ := 0
  bitshift : Option ℕ := none
  auth : Authority κ α := {}

namespace VoteCounter

/-- `vote_counter::add` -/
def add (c : VoteCounter κ α) (who votes : ℕ) : Except VoteError (VoteCounter κ α) := do
  if votes = 0 then return c
  if ¬ votes ≤ c.lastVotes then throw .assertion
  let bitshift := c.bitshift.getD (bitsToDrop votes)
  let scaledVotes := max (votes >>> bitshift) 1
  if ¬ scaledVotes ≤ 2 ^ 16 - 1 then throw .assertion
  let totalVotes := (c.totalVotes + scaledVotes) % 2 ^ 64
  if ¬ totalVotes ≤ 2 ^ 32 - 1 then throw .assertion
  return {
    lastVotes := votes
    totalVotes := totalVotes
    bitshift := some bitshift
    auth := c.auth.addAuthority who (scaledVotes % 2 ^ 16) }

/-- `vote_counter::finish` -/
def finish (c : VoteCounter κ α) (outAuth : Authority κ α) :
    Except VoteError (Authority κ α) := do
  if c.totalVotes = 0 then return outAuth
  if ¬ c.totalVotes ≤ 2 ^ 32 - 1 then throw .assertion
  return { c.auth with weightThreshold := ((c.totalVotes % 2 ^ 32) >>> 1) + 1 }

end VoteCounter

/-- `emplace` for one member after the other: the first entry of an account stays. -/
def emplaceAll (votes : List (ℕ × ℕ)) : List (ℕ × ℕ) :=
  votes.foldl (fun weights e => if e.1 ∈ weights.map Prod.fst then weights else weights ++ [e]) []

/-- The authority before `HARDFORK_201230`. `clear` leaves the addresses. -/
def authorityOfTotal (votes : List (ℕ × ℕ)) (a : Authority κ α) :
    Except VoteError (Authority κ α) := do
  let totalVotes := (votes.map Prod.snd).sum % 2 ^ 64
  if totalVotes = 0 then throw .undefined
  let accountAuths := (emplaceAll votes).map fun e =>
    (e.1, max (e.2 >>> bitsToDrop totalVotes) 1 % 2 ^ 16)
  return {
    weightThreshold := (accountAuths.map Prod.snd).sum % 2 ^ 32 / 2 + 1
    accountAuths := accountAuths
    addressAuths := a.addressAuths }

/-- The active authority `a` is rewritten, for the accounts and the votes of the members. -/
def rewriteActive (time : ℕ) (votes : List (ℕ × ℕ)) (a : Authority κ α) :
    Except VoteError (Authority κ α) :=
  if time < hardfork201230Time then authorityOfTotal votes a
  else do
    let vc ← votes.foldlM (fun vc e => VoteCounter.add vc e.1 e.2) ({} : VoteCounter κ α)
    vc.finish a

/-! ### Elections -/

/-- The members of one kind, and the account that stands for them. -/
structure Electorate (κ α : Type) where
  members : List Votable
  /-- How many are voted for, by the histogram. -/
  votedCount : ℕ
  /-- `min_witness_count` and its like. -/
  minCount : ℕ
  /-- The active authority of the account. -/
  active : Authority κ α
  /-- `active_witnesses` and its like. -/
  activeMembers : List ℕ := []

namespace Electorate

variable (tally : ℕ → ℕ) (E : Electorate κ α)

/-- The votes that count in the order of the members, as a `share_type`. -/
def sortVotes (m : Votable) : ℤ := if m.isEnable then int64 (tally m.voteId) else 0

/-- The comparison in `sort_votable_objects`. -/
def precedes (a b : Votable) : Bool :=
  if sortVotes tally a ≠ sortVotes tally b then sortVotes tally b < sortVotes tally a
  else a.voteId < b.voteId

/-- `sort_votable_objects`: the first members, as many as there are places. -/
def elected : List Votable :=
  (E.members.insertionSort fun a b => ¬ precedes tally b a).take
    (max (E.votedCount * 2 + 1) E.minCount)

/-- The accounts of the elected members, with their votes. -/
def votes : List (ℕ × ℕ) := (E.elected tally).map fun m => (m.account, tally m.voteId)

/-- Each member is given the votes that were counted. -/
def noteVotes : Electorate κ α :=
  { E with members := E.members.map fun m => { m with totalVotes := tally m.voteId } }

end Electorate

/-- What the elections read and write. -/
structure Elections (κ α : Type) where
  time : ℕ
  /-- `_vote_tally_buffer` -/
  tally : ℕ → ℕ
  maintenanceInterval : ℕ
  blockInterval : ℕ
  witnesses : Electorate κ α
  committee : Electorate κ α
  budget : Electorate κ α
  /-- The active authority of the relaxed committee account. -/
  relaxedCommittee : Authority κ α

namespace Elections

/-- `database_check_witness`: a witness that has missed too many blocks is lost. -/
def checkWitness (lostNum : ℕ) (m : Votable) : Votable :=
  if m.enable ≠ .identityEnable ∨ m.id ≤ 11 then m
  else
    { m with
      enable := if (lostNum / 2 : ℕ) < m.recentMissed then .identityEnableLost else m.enable
      recentMissed := 0 }

variable (e : Elections κ α)

/-- The witnesses after `database_check_witness`. -/
def checkedWitnesses : Electorate κ α :=
  { e.witnesses with
    members := e.witnesses.members.map (checkWitness (e.maintenanceInterval / e.blockInterval)) }

/-- `update_active_witnesses` -/
def updateActiveWitnesses : Except VoteError (Elections κ α) := do
  let W := e.checkedWitnesses
  let active ← rewriteActive e.time (W.votes e.tally) W.active
  return { e with
    witnesses :=
      { W with
        members := W.members.map fun m =>
          { m with totalVotes := e.tally m.voteId, recentMissed := 0 }
        active := active
        activeMembers := (W.elected e.tally).map Votable.id } }

/-- `update_active_committee_members` -/
def updateActiveCommitteeMembers : Except VoteError (Elections κ α) := do
  let C := e.committee
  if C.elected e.tally = [] then
    return { e with committee := { C.noteVotes e.tally with activeMembers := [] } }
  else
    let active ← rewriteActive e.time (C.votes e.tally) C.active
    return { e with
      committee :=
        { C.noteVotes e.tally with
          active := active
          activeMembers := (C.elected e.tally).map Votable.id }
      relaxedCommittee := active }

/-- `update_active_budget_members` -/
def updateActiveBudgetMembers : Except VoteError (Elections κ α) := do
  let B := e.budget
  if B.elected e.tally = [] then
    return { e with budget := { B.noteVotes e.tally with activeMembers := [] } }
  else
    let active ← rewriteActive e.time (B.votes e.tally) B.active
    return { e with
      budget :=
        { B.noteVotes e.tally with
          active := active
          activeMembers := (B.elected e.tally).map Votable.id } }

end Elections

end ZosCore
