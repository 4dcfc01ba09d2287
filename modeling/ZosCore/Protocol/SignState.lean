import ZosCore.Chain.Types
import ZosCore.Lib.Threshold

/-!
`chain/protocol/authority.hpp` and `transaction.cpp`: authorities, and the check that a
set of signing keys satisfies those that a transaction requires.

An authority names keys, addresses and accounts with weights. `check_authority` adds up
the weights of those that have signed or are approved; for an account it asks whether the
account's active authority is satisfied, down to a depth. The accounts found so are kept in
`approved_by` for the checks that follow.

* `SignState`: the keys provided, those used so far, and the accounts approved so far.
* `signedByKey`, `signedByAddress`: `signed_by`.
* `checkAuthority`, `verifyAuthority`.

The weights are of 16 bits and an account's authority has at most
`maximum_authority_membership` of them, a number of 16 bits, so that their sum fits the 32
bits of `total_weight`.
-/

namespace ZosCore

/-! ### Authorities -/

/-- `authority`, over the keys `κ` and the addresses `α`. -/
structure Authority (κ α : Type) where
  weightThreshold : ℕ := 0
  accountAuths : List (ℕ × ℕ) := []
  keyAuths : List (κ × ℕ) := []
  addressAuths : List (α × ℕ) := []

/-- What the operations of a transaction require. -/
structure Required (κ α : Type) where
  active : List ℕ := []
  owner : List ℕ := []
  other : List (Authority κ α) := []

/-- The exceptions of `verify_authority`. -/
inductive AuthorityError where
  /-- "Committee account may only propose transactions" -/
  | invalidCommitteeApproval
  /-- `tx_missing_other_auth` -/
  | missingOtherAuth
  /-- `tx_missing_active_auth` -/
  | missingActiveAuth (id : ℕ)
  /-- `tx_missing_owner_auth` -/
  | missingOwnerAuth (id : ℕ)
  /-- `tx_irrelevant_sig` -/
  | irrelevantSig
  /-- The behaviour is undefined: the end of a map is dereferenced. -/
  | undefined
  deriving DecidableEq

/-- `GRAPHENE_COMMITTEE_ACCOUNT` -/
def committeeAccount : ℕ := 0

/-- `sign_state`. The two maps of addresses are made together, at the first address. -/
structure SignState (κ α : Type) where
  availableKeys : List κ := []
  /-- `available_address_sigs` and `provided_address_sigs` -/
  addressSigs : Option (List (α × κ) × List (α × κ)) := none
  providedSignatures : List (κ × Bool)
  approvedBy : List ℕ

namespace SignState

open Exec

variable {κ α : Type} [DecidableEq κ] [DecidableEq α]

/-- The keys in `provided_signatures`. -/
def keys (s : SignState κ α) : List κ := s.providedSignatures.map Prod.fst

/-- `provided_signatures[k] = true` -/
def use (k : κ) (s : SignState κ α) : SignState κ α :=
  { s with
    providedSignatures :=
      if k ∈ s.keys then s.providedSignatures.map fun e => if e.1 = k then (k, true) else e
      else s.providedSignatures ++ [(k, true)] }

/-- `approved_by.insert` -/
def approve (id : ℕ) (s : SignState κ α) : SignState κ α :=
  { s with approvedBy := id :: s.approvedBy }

/-! ### Signatures -/

/-- `signed_by( const public_key_type& )`. -/
def signedByKey (k : κ) : Exec (SignState κ α) AuthorityError Bool := do
  let s ← gets fun s => s
  if k ∈ s.keys then
    update (use k)
    return true
  else if k ∈ s.availableKeys then
    update (use k)
    return true
  else return false

variable (addresses : κ → List α)

/-- The map from the addresses of the keys to the keys, the entry made last first. A key has
the five addresses `addresses k`: four forms of `pts_address`, and its own. -/
def addressMap (keys : List κ) : List (α × κ) :=
  (keys.flatMap fun k => (addresses k).map fun a => (a, k)).reverse

/-- The two maps of addresses, made now if they are not there yet. -/
def addressMaps (s : SignState κ α) : List (α × κ) × List (α × κ) :=
  s.addressSigs.getD (addressMap addresses s.availableKeys, addressMap addresses s.keys)

/-- `signed_by( const address& )`. An address that is in neither map leaves `itr` at the end
of the map of provided addresses, which is dereferenced all the same. -/
def signedByAddress (a : α) : Exec (SignState κ α) AuthorityError Bool := do
  update fun s => { s with addressSigs := some (s.addressMaps addresses) }
  let s ← gets fun s => s
  match (s.addressMaps addresses).2.lookup a with
  | some k =>
      update (use k)
      return true
  | none =>
      match (s.addressMaps addresses).1.lookup a with
      | some k =>
          if k ∈ s.availableKeys then
            update (use k)
            return true
          else return false
      | none => raise .undefined

/-! ### Authorities -/

/-- Whether an account counts: it is approved, or `nested` finds that it may be. -/
def countsAccount (nested : ℕ → Exec (SignState κ α) AuthorityError Bool) (id : ℕ) :
    Exec (SignState κ α) AuthorityError Bool := do
  let s ← gets fun s => s
  if id ∈ s.approvedBy then return true
  else if ← nested id then
    update (approve id)
    return true
  else return false

/-- The body of `check_authority`, with `nested` for the check of an account. -/
def checkAuthorityWith (nested : ℕ → Exec (SignState κ α) AuthorityError Bool)
    (auth : Authority κ α) : Exec (SignState κ α) AuthorityError Bool := do
  let (reached, total) ← weigh auth.weightThreshold signedByKey auth.keyAuths 0
  if reached then return true
  let (reached, total) ←
    weigh auth.weightThreshold (signedByAddress addresses) auth.addressAuths total
  if reached then return true
  let (reached, total) ←
    weigh auth.weightThreshold (countsAccount nested) auth.accountAuths total
  if reached then return true
  return auth.weightThreshold ≤ total

variable (getActive getOwner : ℕ → Authority κ α)

/-- `check_authority( const authority*, depth )`, with `max_recursion - depth` for the depth.
At the greatest depth an account that is not approved yet is passed over. The getters of the
database give the authority of an account that is there, never a null pointer. -/
def checkAuthority : ℕ → Authority κ α → Exec (SignState κ α) AuthorityError Bool
  | 0 => checkAuthorityWith addresses fun _ => return false
  | n + 1 => checkAuthorityWith addresses fun id => checkAuthority n (getActive id)

/-- `check_authority( account_id_type )`. -/
def checkAccount (maxRecursion id : ℕ) : Exec (SignState κ α) AuthorityError Bool := do
  let s ← gets fun s => s
  if id ∈ s.approvedBy then return true
  else checkAuthority addresses getActive maxRecursion (getActive id)

/-- A required `other` authority. -/
def requireOther (maxRecursion : ℕ) (auth : Authority κ α) :
    Exec (SignState κ α) AuthorityError Unit := do
  let ok ← checkAuthority addresses getActive maxRecursion auth
  check (ok = true) .missingOtherAuth

/-- A required active authority. -/
def requireActive (maxRecursion id : ℕ) : Exec (SignState κ α) AuthorityError Unit := do
  if ← checkAccount addresses getActive maxRecursion id then return ()
  let ok ← checkAuthority addresses getActive maxRecursion (getOwner id)
  check (ok = true) (.missingActiveAuth id)

/-- A required owner authority. -/
def requireOwner (maxRecursion : ℕ) (ownerApprovals : List ℕ) (id : ℕ) :
    Exec (SignState κ α) AuthorityError Unit := do
  if id ∈ ownerApprovals then return ()
  let ok ← checkAuthority addresses getActive maxRecursion (getOwner id)
  check (ok = true) (.missingOwnerAuth id)

/-- The checks of `verify_authority`. -/
def verifyRequired (maxRecursion : ℕ) (allowCommittee : Bool) (ownerApprovals : List ℕ)
    (r : Required κ α) : Exec (SignState κ α) AuthorityError Unit := do
  check (allowCommittee = true ∨ committeeAccount ∉ r.active) .invalidCommitteeApproval
  forEach (requireOther addresses getActive maxRecursion) r.other
  forEach (requireActive addresses getActive getOwner maxRecursion) r.active
  forEach (requireOwner addresses getActive getOwner maxRecursion ownerApprovals) r.owner
  let s ← gets fun s => s
  check (∀ e ∈ s.providedSignatures, e.2 = true) .irrelevantSig

end SignState

/-! ### `verify_authority` -/

/-- The accounts that are approved from the start: the temp account, whose authority anybody
has, and those given. -/
def approvals (activeApprovals ownerApprovals : List ℕ) : List ℕ :=
  tempAccount :: (activeApprovals ++ ownerApprovals)

/-- `verify_authority`. -/
def verifyAuthority {κ α : Type} [DecidableEq κ] [DecidableEq α] (addresses : κ → List α)
    (getActive getOwner : ℕ → Authority κ α) (sigs : List κ) (maxRecursion : ℕ)
    (allowCommittee : Bool) (activeApprovals ownerApprovals : List ℕ) (r : Required κ α) :
    Except AuthorityError Unit :=
  (SignState.verifyRequired addresses getActive getOwner maxRecursion allowCommittee ownerApprovals r
    { providedSignatures := sigs.map fun k => (k, false)
      approvedBy := approvals activeApprovals ownerApprovals }).1

end ZosCore
