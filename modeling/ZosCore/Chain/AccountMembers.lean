import ZosCore.Db.SecondaryIndex
import ZosCore.Lib.ReverseIndex
import ZosCore.Protocol.SignState

/-!
`chain/account_object.hpp`, `account_object.cpp`: `account_member_index`, which maps every
account, key and address to the accounts whose authorities name it.

* `getAccountMembers`, `getKeyMembers`, `getAddressMembers`: what an account names.
* `accountMemberIndex`: the hooks. One buffer for each of the three, filled before a
  modification, is compared with the account after it.
* `accountUpgrade`: `account_upgrade_evaluator::do_apply`, whose modifier pays out the fees of
  the account and so modifies other accounts, or the account itself, before it changes it. The
  buffer is then that of the last of these.
* `AccountCall`: the calls on accounts and on the undo database.
* `memberships_after`: after any calls the three maps are the inverse of the authorities.
-/

namespace ZosCore

namespace MemberIndex

open Exec ObjectDatabase

/-- `account_object`, as far as the index and the upgrade look at it. -/
structure AccountObject (κ α : Type) where
  name : String
  owner : Authority κ α := {}
  active : Authority κ α := {}
  /-- `options.memo_key` -/
  memoKey : κ
  membershipExpirationDate : ℕ := 0
  registrar : ObjectId
  referrer : ObjectId
  lifetimeReferrer : ObjectId
  networkFeePercentage : ℕ := 0
  lifetimeReferrerFeePercentage : ℕ := 0
  cashbackVb : Option ObjectId := none

/-- `account_member_index`. `Authority` names an account by the instance of its id. -/
structure AccountMemberIndex (κ α : Type) where
  accountToAccountMemberships : ReverseIndex ℕ ObjectId := .empty
  accountToKeyMemberships : ReverseIndex κ ObjectId := .empty
  accountToAddressMemberships : ReverseIndex α ObjectId := .empty
  beforeAccountMembers : List ℕ := []
  beforeKeyMembers : List κ := []
  beforeAddressMembers : List α := []

variable {κ α : Type} [DecidableEq κ] [DecidableEq α]

/-- `get_account_members`. A `std::set` is a list without repetitions. -/
def getAccountMembers (a : AccountObject κ α) : List ℕ :=
  (a.owner.accountAuths.map Prod.fst ++ a.active.accountAuths.map Prod.fst).dedup

/-- `get_key_members` -/
def getKeyMembers (a : AccountObject κ α) : List κ :=
  (a.owner.keyAuths.map Prod.fst ++ a.active.keyAuths.map Prod.fst ++ [a.memoKey]).dedup

/-- `get_address_members`; `addressOf` is the conversion of a key to its address. -/
def getAddressMembers (addressOf : κ → α) (a : AccountObject κ α) : List α :=
  (a.owner.addressAuths.map Prod.fst ++ a.active.addressAuths.map Prod.fst ++
    [addressOf a.memoKey]).dedup

/-- The hooks of `account_member_index`. -/
def accountMemberIndex (addressOf : κ → α) :
    SecondaryIndex (AccountObject κ α) (AccountMemberIndex κ α) where
  objectInserted id a m :=
    { m with
      accountToAccountMemberships :=
        m.accountToAccountMemberships.insertAll id (getAccountMembers a)
      accountToKeyMemberships := m.accountToKeyMemberships.insertAll id (getKeyMembers a)
      accountToAddressMemberships :=
        m.accountToAddressMemberships.insertAll id (getAddressMembers addressOf a) }
  objectRemoved id a m :=
    { m with
      accountToKeyMemberships := m.accountToKeyMemberships.eraseAll id (getKeyMembers a)
      accountToAddressMemberships :=
        m.accountToAddressMemberships.eraseAll id (getAddressMembers addressOf a)
      accountToAccountMemberships :=
        m.accountToAccountMemberships.eraseAll id (getAccountMembers a) }
  aboutToModify a m :=
    { m with
      beforeKeyMembers := getKeyMembers a
      beforeAddressMembers := getAddressMembers addressOf a
      beforeAccountMembers := getAccountMembers a }
  objectModified id a m :=
    { m with
      accountToAccountMemberships :=
        m.accountToAccountMemberships.replaceAll id m.beforeAccountMembers (getAccountMembers a)
      accountToKeyMemberships :=
        m.accountToKeyMemberships.replaceAll id m.beforeKeyMembers (getKeyMembers a)
      accountToAddressMemberships :=
        m.accountToAddressMemberships.replaceAll id m.beforeAddressMembers
          (getAddressMembers addressOf a) }

/-- The key of `by_name`. -/
def byName (a : AccountObject κ α) : Option String := some a.name

/-! ### Calls -/

/-- The exceptions of the calls. -/
inductive AccountError where
  | db (e : DbError)
  /-- "can not support annual member" -/
  | annualMember
  deriving DecidableEq

/-- The accounts, their member index and the undo database. -/
abbrev Accounts (κ α : Type) : Type :=
  PrimaryIndex (AccountObject κ α) (AccountMemberIndex κ α)

/-- The vesting balances that the three deposits of one `pay_out_fees` create, where they
create one. -/
structure PayOut where
  lifetimeReferrer : Option ObjectId
  referrer : Option ObjectId
  registrar : Option ObjectId

section Calls

variable (addressOf : κ → α) (ord : HashOrder (AccountObject κ α))

/-- `get( account_id )` -/
def getAccount (id : ObjectId) : Exec (Accounts κ α) DbError (AccountObject κ α) := fun s =>
  (s.objs.getObject id, s)

/-- `deposit_cashback`; `new_vbid` is what `deposit_lazy_vesting` returns, if the amount is not
zero and the account not one of the chain. -/
def depositCashback (acct : ObjectId) (newVbid : Option ObjectId) :
    Exec (Accounts κ α) DbError Unit := do
  let a ← getAccount acct
  if newVbid.isSome ∧ newVbid ≠ a.cashbackVb then
    PrimaryIndex.modify byName (accountMemberIndex addressOf) acct
      fun a => { a with cashbackVb := newVbid }
  else pure ()

/-- `pay_out_fees` in `account_statistics_object::process_fees`. -/
def payOutFees (account : ObjectId) (p : PayOut) : Exec (Accounts κ α) DbError Unit := do
  let a ← getAccount account
  depositCashback addressOf a.lifetimeReferrer p.lifetimeReferrer
  depositCashback addressOf a.referrer p.referrer
  depositCashback addressOf a.registrar p.registrar

/-- `process_fees`: fees are paid out twice if there are any, those that vest and those that
have vested. -/
def processFees (account : ObjectId) (payouts : List PayOut) : Exec (Accounts κ α) DbError Unit :=
  forEach (payOutFees addressOf account) payouts

/-- What the modifier of `account_upgrade` makes of the account. -/
def toLifetimeMember (id : ObjectId) (a : AccountObject κ α) : AccountObject κ α :=
  { a with
    membershipExpirationDate := 2 ^ 32 - 1
    referrer := id
    registrar := id
    lifetimeReferrer := id
    lifetimeReferrerFeePercentage := hundredPercent - a.networkFeePercentage }

/-- `account_upgrade_evaluator::do_apply`. Whoever does not become a lifetime member is refused
inside the modifier. -/
def accountUpgrade (id : ObjectId) (upgradeToLifetimeMember : Bool) (payouts : List PayOut) :
    Exec (Accounts κ α) AccountError Unit := do
  liftError .db (PrimaryIndex.beginModify (accountMemberIndex addressOf) id)
  (if upgradeToLifetimeMember then liftError .db (processFees addressOf id payouts)
    else raise .annualMember)
  liftError .db
    (PrimaryIndex.finishModify byName (accountMemberIndex addressOf) id (toLifetimeMember id))

/-- The index of the accounts. -/
def accountIndex : IndexId := ⟨1, 2⟩

/-- A call on the accounts or on the undo database. No modifier assigns to `name`. -/
inductive AccountCall (κ α : Type) where
  | create (a : AccountObject κ α)
  | modify (id : ObjectId) (f : AccountObject κ α → AccountObject κ α)
  | remove (id : ObjectId)
  | accountUpgrade (id : ObjectId) (upgradeToLifetimeMember : Bool) (payouts : List PayOut)
  | enable
  | startUndoSession
  | merge
  | undo
  | commit
  | popCommit

/-- What a call does. -/
def AccountCall.run : AccountCall κ α → Exec (Accounts κ α) AccountError Unit
  | .create a =>
      liftError .db (PrimaryIndex.create byName (accountMemberIndex addressOf) accountIndex a)
  | .modify id f =>
      liftError .db (PrimaryIndex.modify byName (accountMemberIndex addressOf) id
        fun a => { f a with name := a.name })
  | .remove id => liftError .db (PrimaryIndex.remove (accountMemberIndex addressOf) id)
  | .accountUpgrade id upgradeToLifetimeMember payouts =>
      MemberIndex.accountUpgrade addressOf id upgradeToLifetimeMember payouts
  | .enable => liftError .db (PrimaryIndex.onUndo fun u => .ok u.enable)
  | .startUndoSession =>
      liftError .db (PrimaryIndex.onUndo fun u => .ok (u.startUndoSession {} false))
  | .merge => liftError .db (PrimaryIndex.onUndo fun u => u.merge UndoState.combine)
  | .undo => liftError .db (PrimaryIndex.undoSession byName (accountMemberIndex addressOf) ord)
  | .commit => liftError .db (PrimaryIndex.onUndo fun u => u.commit)
  | .popCommit => liftError .db (PrimaryIndex.popCommit byName (accountMemberIndex addressOf) ord)

/-- The state after some calls. What a call has done before it throws stays done. -/
def after (s : Accounts κ α) (calls : List (AccountCall κ α)) : Accounts κ α :=
  calls.foldl (fun s c => (c.run addressOf ord s).2) s

/-- There are no accounts, and nothing is tracked yet. -/
def noAccounts (maxSize : ℕ) : Accounts κ α :=
  { objs := ⟨∅, fun _ => 0⟩, undo := { maxSize }, sindex := {} }

end Calls

/-! ### The index is the inverse of the authorities -/

/-- The three maps are the inverse of what the accounts name. -/
structure Inverse (addressOf : κ → α) (find : ObjectId → Option (AccountObject κ α))
    (m : AccountMemberIndex κ α) : Prop where
  accounts : m.accountToAccountMemberships.Inverts getAccountMembers find
  keys : m.accountToKeyMemberships.Inverts getKeyMembers find
  addresses : m.accountToAddressMemberships.Inverts (getAddressMembers addressOf) find

section Inverse

variable {addressOf : κ → α}

/-- Every hook keeps the maps inverse. -/
lemma maintains_inverse : (accountMemberIndex addressOf).Maintains (Inverse addressOf) where
  inserted _ _ _ _ _ h hnone hv hne :=
    ⟨h.accounts.insertAll hnone hv hne, h.keys.insertAll hnone hv hne,
      h.addresses.insertAll hnone hv hne⟩
  removed _ _ _ _ _ h hv hnone hne :=
    ⟨h.accounts.eraseAll hv hnone hne, h.keys.eraseAll hv hnone hne,
      h.addresses.eraseAll hv hnone hne⟩
  modified _ _ _ _ _ _ h hv hw hne :=
    ⟨h.accounts.replaceAll hv hw hne, h.keys.replaceAll hv hw hne,
      h.addresses.replaceAll hv hw hne⟩
  about _ _ _ h := ⟨h.accounts, h.keys, h.addresses⟩

/-- An upgrade leaves the authorities alone, so that it does not matter what is in the
buffers. -/
lemma Inverse.upgraded {find find' : ObjectId → Option (AccountObject κ α)}
    {m : AccountMemberIndex κ α} {id : ObjectId} {a : AccountObject κ α}
    (h : Inverse addressOf find m) (ha : find id = some a)
    (ha' : find' id = some (toLifetimeMember id a))
    (hne : ∀ id', id' ≠ id → find' id' = find id') :
    Inverse addressOf find'
      ((accountMemberIndex addressOf).objectModified id (toLifetimeMember id a) m) :=
  ⟨h.accounts.replaceAll_same ha ha' hne rfl _, h.keys.replaceAll_same ha ha' hne rfl _,
    h.addresses.replaceAll_same ha ha' hne rfl _⟩

/-- The maps are right and undoing keeps them so. -/
abbrev Right (addressOf : κ → α) (s : Accounts κ α) : Prop :=
  s.Sound byName (Inverse addressOf)

/-- While `id` is being modified. -/
def Open (addressOf : κ → α) (id : ObjectId) (s : Accounts κ α) : Prop :=
  Right addressOf s ∧ PrimaryIndex.Recorded id s.undo

/-- Cashback changes an account, in the middle of a modification or not. -/
lemma depositCashback_keeps (id acct : ObjectId) (newVbid : Option ObjectId) :
    Keeps (Open addressOf id) (fun _ => Open addressOf id)
      (depositCashback addressOf acct newVbid) := by
  refine Keeps.bind (keeps_of_snd fun s hs => hs) fun a => Triple.ite (fun _ => ?_) fun _ => ?_
  · refine keeps_of_snd fun s hs => ?_
    have hname : ∀ a : AccountObject κ α, byName { a with cashbackVb := newVbid } = byName a :=
      fun a => rfl
    obtain ⟨hright, hrec⟩ := PrimaryIndex.modify_sound maintains_inverse hs.1 acct hname
    exact ⟨hright, hrec id hs.2⟩
  · exact Keeps.pure ()

lemma payOutFees_keeps (id account : ObjectId) (p : PayOut) :
    Keeps (Open addressOf id) (fun _ => Open addressOf id) (payOutFees addressOf account p) := by
  refine Keeps.bind (keeps_of_snd fun s hs => hs) fun a => ?_
  refine Keeps.bind (depositCashback_keeps id a.lifetimeReferrer p.lifetimeReferrer) fun _ => ?_
  refine Keeps.bind (depositCashback_keeps id a.referrer p.referrer) fun _ => ?_
  exact depositCashback_keeps id a.registrar p.registrar

lemma processFees_keeps (id account : ObjectId) (payouts : List PayOut) :
    Keeps (Open addressOf id) (fun _ => Open addressOf id)
      (processFees addressOf account payouts) :=
  Keeps.forEach payouts fun p _ => payOutFees_keeps id account p

/-- An upgrade keeps the maps right, though the modifications inside it fill the buffers with
what other accounts name. -/
lemma accountUpgrade_keeps (id : ObjectId) (upgradeToLifetimeMember : Bool)
    (payouts : List PayOut) :
    Keeps (Right addressOf) (fun _ => Right addressOf)
      (accountUpgrade addressOf id upgradeToLifetimeMember payouts) := by
  have hbegin : Triple (Right addressOf)
      (PrimaryIndex.beginModify (accountMemberIndex addressOf) id)
      (fun _ => Open addressOf id) fun _ => Right addressOf :=
    PrimaryIndex.beginModify_triple maintains_inverse id
  have hfees : Triple (Open addressOf id) (processFees addressOf id payouts)
      (fun _ => Open addressOf id) fun _ => Right addressOf :=
    (processFees_keeps id id payouts).conseq (fun _ h => h) (fun _ _ h => h) fun _ _ h => h.1
  have hfinish : Triple (Open addressOf id)
      (PrimaryIndex.finishModify byName (accountMemberIndex addressOf) id (toLifetimeMember id))
      (fun _ => Right addressOf) fun _ => Right addressOf :=
    PrimaryIndex.finishModify_triple id (fun _ => rfl) fun _ _ _ _ h ha ha' hne =>
      h.upgraded ha ha' hne
  have hmiddle : Triple (Open addressOf id)
      (if upgradeToLifetimeMember then
          liftError AccountError.db (processFees addressOf id payouts)
        else raise AccountError.annualMember)
      (fun _ => Open addressOf id) fun _ => Right addressOf :=
    Triple.ite (fun _ => Triple.liftError _ hfees) fun _ => Triple.raise fun _ h => h.1
  exact Triple.bind (Triple.liftError _ hbegin) fun _ =>
    Triple.bind hmiddle fun _ => Triple.liftError _ hfinish

/-- Every call keeps the maps right. -/
lemma run_keeps (ord : HashOrder (AccountObject κ α)) (c : AccountCall κ α) :
    Keeps (Right addressOf) (fun _ => Right addressOf) (c.run addressOf ord) := by
  cases c with
  | create a => exact Triple.liftError _ (PrimaryIndex.create_keeps maintains_inverse _ a)
  | modify id f =>
      have hname : ∀ a, byName { f a with name := a.name } = byName a := fun a => rfl
      exact Triple.liftError _ (keeps_of_snd fun s hs =>
        (PrimaryIndex.modify_sound maintains_inverse hs id hname).1)
  | remove id => exact Triple.liftError _ (PrimaryIndex.remove_keeps maintains_inverse id)
  | accountUpgrade id upgradeToLifetimeMember payouts => exact accountUpgrade_keeps id _ payouts
  | enable =>
      exact Triple.liftError _ (PrimaryIndex.onUndo_keeps fun s u hs hu => by
        cases hu
        exact hs.enable)
  | startUndoSession =>
      exact Triple.liftError _ (PrimaryIndex.onUndo_keeps fun s u hs hu => by
        cases hu
        exact hs.start)
  | merge => exact Triple.liftError _ (PrimaryIndex.onUndo_keeps fun s u hs hu => hs.merge hu)
  | undo => exact Triple.liftError _ (PrimaryIndex.undoSession_keeps maintains_inverse ord)
  | commit => exact Triple.liftError _ (PrimaryIndex.onUndo_keeps fun s u hs hu => hs.commit hu)
  | popCommit => exact Triple.liftError _ (PrimaryIndex.popCommit_keeps maintains_inverse ord)

/-- So do any calls. -/
lemma after_right (ord : HashOrder (AccountObject κ α)) (calls : List (AccountCall κ α)) :
    ∀ {s : Accounts κ α}, Right addressOf s → Right addressOf (after addressOf ord s calls) := by
  induction calls with
  | nil =>
      intro s hs
      exact hs
  | cons c calls ih =>
      intro s hs
      exact ih ((run_keeps ord c).snd hs)

lemma noAccounts_right (maxSize : ℕ) : Right addressOf (noAccounts maxSize : Accounts κ α) := by
  have hnone : ∀ id, (noAccounts maxSize : Accounts κ α).objs.find id = none := fun id => rfl
  refine ⟨⟨fun id v hv => ?_, fun id v hv => ?_, ⟨[], trivial⟩, fun _ => rfl⟩, ?_⟩
  · rw [hnone] at hv
    cases hv
  · rw [hnone] at hv
    cases hv
  · exact ⟨.empty hnone, .empty hnone, .empty hnone⟩

/-- **The member index is exact.** After any creates, modifications, removals and upgrades of
accounts and any starts, merges, undos, commits and pops of sessions, whether they return or
throw, the three maps have under every account, key and address exactly the accounts whose
owner or active authority names it, or whose memo key it is or belongs to. -/
theorem memberships_after (ord : HashOrder (AccountObject κ α)) (maxSize : ℕ)
    (calls : List (AccountCall κ α)) :
    let s := after addressOf ord (noAccounts maxSize) calls
    (∀ x id, id ∈ s.sindex.accountToAccountMemberships x ↔
      ∃ a, s.objs.find id = some a ∧
        (x ∈ a.owner.accountAuths.map Prod.fst ∨ x ∈ a.active.accountAuths.map Prod.fst)) ∧
    (∀ x id, id ∈ s.sindex.accountToKeyMemberships x ↔
      ∃ a, s.objs.find id = some a ∧
        (x ∈ a.owner.keyAuths.map Prod.fst ∨ x ∈ a.active.keyAuths.map Prod.fst ∨
          x = a.memoKey)) ∧
    ∀ x id, id ∈ s.sindex.accountToAddressMemberships x ↔
      ∃ a, s.objs.find id = some a ∧
        (x ∈ a.owner.addressAuths.map Prod.fst ∨ x ∈ a.active.addressAuths.map Prod.fst ∨
          x = addressOf a.memoKey) := by
  intro s
  have hright : Right addressOf s := after_right ord calls (noAccounts_right maxSize)
  obtain ⟨haccounts, hkeys, haddresses⟩ := hright.maintained
  refine ⟨fun x id => ?_, fun x id => ?_, fun x id => ?_⟩
  · rw [haccounts x id]
    simp only [getAccountMembers, List.mem_dedup, List.mem_append]
  · rw [hkeys x id]
    simp only [getKeyMembers, List.mem_dedup, List.mem_append, List.mem_singleton, or_assoc]
  · rw [haddresses x id]
    simp only [getAddressMembers, List.mem_dedup, List.mem_append, List.mem_singleton, or_assoc]

end Inverse

/-- An account whose keys are the memo key. -/
def oneKey (name : String) (key : ℕ) : AccountObject ℕ ℕ :=
  { name, memoKey := key, owner := { keyAuths := [(key, 1)] }
    registrar := ⟨accountIndex, 0⟩, referrer := ⟨accountIndex, 0⟩
    lifetimeReferrer := ⟨accountIndex, 0⟩ }

-- the upgrade pays cashback to the registrar, whose keys are then in the buffer
example :
    let s := after id default (noAccounts 10)
      [.create (oneKey "registrar" 7), .enable, .startUndoSession, .create (oneKey "account" 8),
        .accountUpgrade ⟨accountIndex, 1⟩ true [⟨some ⟨⟨1, 13⟩, 0⟩, none, none⟩]]
    s.sindex.beforeKeyMembers = [7] ∧
      s.sindex.accountToKeyMemberships 7 = {⟨accountIndex, 0⟩} ∧
      s.sindex.accountToKeyMemberships 8 = {⟨accountIndex, 1⟩} := by
  decide +kernel

end MemberIndex

end ZosCore
