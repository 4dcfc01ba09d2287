import Mathlib.Data.List.AList
import ZosCore.Lib.Walk
import ZosCore.Protocol.SignState

/-!
`account_evaluator.cpp`: the update of an account's authorities, and the search that is to keep
the accounts from naming each other in a circle.

The search goes through the accounts that a new authority names, and through the authorities of
these, for the account that is updated. It takes a counter along, which starts at
`maximum_authority_membership + 1` and goes one down at each authority; at the authority where it
comes to zero the search says no, without a look at it, and goes on with the next one. The
counter then wraps around.

* `AccountUpdate`, `AccountUpdate.validate`: the operation.
* `AccountDb.verifyAccountAuth`: the search.
* `AccountDb.doEvaluate`, `AccountDb.doApply`: the evaluator.
-/

namespace ZosCore

open Exec

/-! ### Accounts -/

/-- `special_authority`. -/
inductive SpecialAuthority where
  | noSpecialAuthority
  | topHolders (asset numTopHolders : ℕ)
  deriving DecidableEq

/-- The part of `account_object` that an update reads and writes; `ν` is `account_options`. -/
structure AccountObject (κ α ν : Type) where
  owner : Authority κ α := {}
  active : Authority κ α := {}
  limitactive : Authority κ α := {}
  options : ν
  ownerSpecialAuthority : SpecialAuthority := .noSpecialAuthority
  activeSpecialAuthority : SpecialAuthority := .noSpecialAuthority
  topNControlFlags : ℕ := 0
  uaccountProperty : ℕ := 0

/-- `account_sub_committe` -/
def accountSubCommitte : ℕ := 0x80

/-- `account_lock_balance` -/
def accountLockBalance : ℕ := 0x100

/-- The accounts that an authority names. -/
def Authority.accounts {κ α : Type} (a : Authority κ α) : List ℕ := a.accountAuths.map Prod.fst

namespace AccountObject

variable {κ α ν : Type} (a : AccountObject κ α ν)

/-- `is_lock_balance` -/
def isLockBalance : Bool := a.uaccountProperty &&& accountLockBalance = accountLockBalance

/-- `has_special_authority` -/
def hasSpecialAuthority : Bool :=
  a.ownerSpecialAuthority ≠ .noSpecialAuthority ∨ a.activeSpecialAuthority ≠ .noSpecialAuthority

/-- The authorities of an account, in the order in which they are searched. -/
def authorities : List (Authority κ α) := [a.owner, a.active, a.limitactive]

end AccountObject

/-- The database as an update sees it. -/
structure AccountDb (κ α ν : Type) where
  accounts : AList (fun _ : ℕ => AccountObject κ α ν)
  /-- The accounts of the `special_authority_object`s. -/
  specialAuthorities : List ℕ := []
  maximumAuthorityMembership : ℕ
  hasAsset : ℕ → Bool
  /-- `verify_account_votes`, by the votes that there are to be given. -/
  verifyAccountVotes : ν → Bool

/-- `account_update_operation`. -/
structure AccountUpdate (κ α ν : Type) where
  fee : ℤ := 0
  account : ℕ
  owner : Option (Authority κ α) := none
  active : Option (Authority κ α) := none
  limitactive : Option (Authority κ α) := none
  newOptions : Option ν := none
  ownerSpecialAuthority : Option SpecialAuthority := none
  activeSpecialAuthority : Option SpecialAuthority := none

/-- What an update fails with. -/
inductive UpdateError where
  | assertion
  /-- "Maximum authority membership exceeded" -/
  | maxAuthExceeded
  /-- "Account ${a} specified in authority does not exist" -/
  | authAccountNotFound
  /-- An object is looked up that is not there. -/
  | notFound
  /-- The stack is not deep enough for the recursion. -/
  | stack
  deriving DecidableEq

variable {κ α ν : Type}

/-! ### The operation -/

namespace Authority

/-- `num_auths` -/
def numAuths (a : Authority κ α) : ℕ :=
  a.accountAuths.length + a.keyAuths.length + a.addressAuths.length

/-- `is_impossible` -/
def isImpossible (a : Authority κ α) : Bool :=
  (a.accountAuths.map Prod.snd).sum + (a.keyAuths.map Prod.snd).sum +
    (a.addressAuths.map Prod.snd).sum < a.weightThreshold

/-- The checks of a new owner or active authority in `account_update_operation::validate`. -/
def isValidNew (a : Authority κ α) : Bool :=
  a.numAuths ≠ 0 ∧ a.addressAuths.length = 0 ∧ ¬ a.isImpossible

end Authority

/-- `validate_special_authority` -/
def SpecialAuthority.isValid : SpecialAuthority → Bool
  | .noSpecialAuthority => true
  | .topHolders _ numTopHolders => 0 < numTopHolders

/-- `account_update_operation::validate`, with `validOptions` for `account_options::validate`. -/
def AccountUpdate.validate (validOptions : ν → Bool) (o : AccountUpdate κ α ν) : Bool :=
  o.account ≠ tempAccount ∧ 0 ≤ o.fee ∧ o.account ≠ 0 ∧
  (o.owner.isSome ∨ o.active.isSome ∨ o.limitactive.isSome ∨ o.newOptions.isSome ∨
    o.ownerSpecialAuthority.isSome ∨ o.activeSpecialAuthority.isSome) ∧
  o.owner.all Authority.isValidNew ∧ o.active.all Authority.isValidNew ∧
  o.newOptions.all validOptions ∧
  o.ownerSpecialAuthority.all SpecialAuthority.isValid ∧
  o.activeSpecialAuthority.all SpecialAuthority.isValid

/-- The new authorities of an update. -/
def AccountUpdate.newAuthorities (o : AccountUpdate κ α ν) : List (Authority κ α) :=
  o.owner.toList ++ o.active.toList ++ o.limitactive.toList

/-! ### The search -/

namespace AccountDb

variable (db : AccountDb κ α ν)

/-- `dep --`, on 32 bits. -/
def countDown (dep : ℕ) : ℕ := (dep + (2 ^ 32 - 1)) % 2 ^ 32

/-- The lookup of an account in the database. -/
def getAccount (id : ℕ) : Exec ℕ UpdateError (AccountObject κ α ν) :=
  match db.accounts.lookup id with
  | some a => pure a
  | none => raise .notFound

/-- `verify_account_auth`. The state is the counter `dep`, and the first argument is how deep the
stack is. -/
def verifyAccountAuth (authorId : ℕ) : ℕ → Authority κ α → Exec ℕ UpdateError Bool
  | 0, _ => raise .stack
  | n + 1, pauthor => do
      update countDown
      let dep ← gets fun dep => dep
      if dep ≤ 0 then return false
      if authorId ∈ pauthor.accounts then return true
      Exec.any
        (fun aId => do
          let account ← db.getAccount aId
          Exec.any (verifyAccountAuth authorId n) account.authorities)
        pauthor.accounts

/-! ### The evaluator -/

/-- `verify_authority_accounts` -/
def verifyAuthorityAccounts (a : Authority κ α) : Except UpdateError Unit := do
  if ¬ a.numAuths ≤ db.maximumAuthorityMembership then throw .maxAuthExceeded
  if ¬ ∀ id ∈ a.accounts, (db.accounts.lookup id).isSome then throw .authAccountNotFound

/-- `udep`, where the counter starts. -/
def udep : ℕ := (db.maximumAuthorityMembership + 1) % 2 ^ 32

/-- The checks of a new authority, if there is one. -/
def checkAuthority (stack account : ℕ) : Option (Authority κ α) → Except UpdateError Unit
  | none => return ()
  | some a => do
      let found ← (db.verifyAccountAuth account stack a db.udep).1
      if found then throw .assertion
      db.verifyAuthorityAccounts a

/-- `evaluate_special_authority` -/
def evaluateSpecialAuthority : Option SpecialAuthority → Except UpdateError Unit
  | some (.topHolders asset _) => if db.hasAsset asset then return () else throw .notFound
  | _ => return ()

/-- The end of `account_update_evaluator::do_evaluate`: the account must be there, and it must
be one that may be changed. -/
def evaluateAccount (o : AccountUpdate κ α ν) : Except UpdateError (AccountObject κ α ν) := do
  evaluateSpecialAuthority db o.ownerSpecialAuthority
  evaluateSpecialAuthority db o.activeSpecialAuthority
  match db.accounts.lookup o.account with
  | none => throw .notFound
  | some acnt =>
      if ¬ acnt.uaccountProperty &&& accountSubCommitte = 0 then throw .assertion
      if acnt.isLockBalance then throw .assertion
      if ¬ o.newOptions.all db.verifyAccountVotes then throw .assertion
      return acnt

/-- `account_update_evaluator::do_evaluate` -/
def doEvaluate (stack : ℕ) (o : AccountUpdate κ α ν) :
    Except UpdateError (AccountObject κ α ν) := do
  checkAuthority db stack o.account o.owner
  checkAuthority db stack o.account o.active
  checkAuthority db stack o.account o.limitactive
  db.evaluateAccount o

/-- What `account_update_evaluator::do_apply` makes of the account. -/
def changed (o : AccountUpdate κ α ν) (acnt : AccountObject κ α ν) : AccountObject κ α ν :=
  { acnt with
    owner := o.owner.getD acnt.owner
    active := o.active.getD acnt.active
    limitactive := o.limitactive.getD acnt.limitactive
    options := o.newOptions.getD acnt.options
    ownerSpecialAuthority := o.ownerSpecialAuthority.getD acnt.ownerSpecialAuthority
    activeSpecialAuthority := o.activeSpecialAuthority.getD acnt.activeSpecialAuthority
    topNControlFlags :=
      if o.owner.isSome ∨ o.active.isSome ∨ o.limitactive.isSome ∨
        o.ownerSpecialAuthority.isSome ∨ o.activeSpecialAuthority.isSome then 0
      else acnt.topNControlFlags }

/-- `account_update_evaluator::do_apply` -/
def doApply (o : AccountUpdate κ α ν) (acnt : AccountObject κ α ν) : AccountDb κ α ν :=
  { db with
    accounts := db.accounts.insert o.account (changed o acnt)
    specialAuthorities :=
      if acnt.hasSpecialAuthority ∧ ¬ (changed o acnt).hasSpecialAuthority then
        db.specialAuthorities.erase o.account
      else if ¬ acnt.hasSpecialAuthority ∧ (changed o acnt).hasSpecialAuthority then
        db.specialAuthorities ++ [o.account]
      else db.specialAuthorities }

/-- An account update, from its own checks to its effects. -/
def applyUpdate (validOptions : ν → Bool) (stack : ℕ) (o : AccountUpdate κ α ν) :
    Except UpdateError (AccountDb κ α ν) := do
  if ¬ o.validate validOptions then throw .assertion
  let acnt ← db.doEvaluate stack o
  return db.doApply o acnt

end AccountDb

end ZosCore
