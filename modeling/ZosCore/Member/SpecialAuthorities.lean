import ZosCore.Lib.Runs
import ZosCore.Member.TopHolders
import ZosCore.Protocol.AccountGraph

/-!
The registry of the accounts that have special authorities.

`account_create` enters an account whose operation has a special authority, also where that one is
`no_special_authority`; `account_update` compares what the account has before and after, and enters it or
takes it out. There is room for one entry of an account.

* `AccountCreate`, `AccountStore.createAccount`: the creation of accounts.
* `AccountDb.updateRegistered`: `AccountDb.applyUpdate`, where the registry may not have room.
* `AccountDb.updateTopNAuthorities`: what maintenance makes of the authorities.
* `Registered`: the accounts in the registry are those that have special authorities.
* **`registered_iff`**: the registry is right, no entry fails, and the top holders control their
  accounts, exactly as long as each account that is created with special authorities has one.
-/

namespace ZosCore

variable {κ α ν : Type}

/-! ### The creation of accounts -/

/-- `buyback_account_options` -/
structure BuybackOptions where
  assetToBuy : ℕ
  assetToBuyIssuer : ℕ
  markets : List ℕ

/-- `account_create_operation` -/
structure AccountCreate (κ α ν : Type) where
  fee : ℤ := 0
  registrar : ℕ
  referrer : ℕ
  referrerPercent : ℕ := 0
  name : String
  owner : Authority κ α
  active : Authority κ α
  limitactive : Authority κ α := {}
  options : ν
  ownerSpecialAuthority : Option SpecialAuthority := none
  activeSpecialAuthority : Option SpecialAuthority := none
  buybackOptions : Option BuybackOptions := none

/-- The accounts, and the number of the next one. -/
structure AccountStore (κ α ν : Type) extends AccountDb κ α ν where
  nextAccount : ℕ

/-- What a creation depends on besides: names and options that are valid, the time, and checks of the
registrar, the voting account, the name and the asset that is bought back. -/
structure CreateRules (κ α ν : Type) where
  isValidName : String → Bool
  validOptions : ν → Bool
  headBlockTime : ℕ
  checksAccounts : AccountStore κ α ν → AccountCreate κ α ν → Bool

/-- `HARDFORK_200101_TIME` -/
def hardfork200101Time : ℕ := 1577808000

/-- `GRAPHENE_100_PERCENT` -/
def graphene100Percent : ℕ := 10000

/-- Equality with `authority::null_authority`. -/
def Authority.isNullAuthority (a : Authority κ α) : Bool :=
  a.weightThreshold = 1 ∧ a.accountAuths = [(nullAccount, 1)] ∧ a.keyAuths.isEmpty ∧
    a.addressAuths.isEmpty

namespace AccountCreate

/-- The checks of buyback options. -/
def validateBuyback (o : AccountCreate κ α ν) (b : BuybackOptions) : Bool :=
  o.ownerSpecialAuthority.isNone ∧ o.activeSpecialAuthority.isNone ∧ o.owner.isNullAuthority ∧
    o.active.isNullAuthority ∧ 0 < b.markets.length ∧ ∀ m ∈ b.markets, m ≠ b.assetToBuy

/-- `account_create_operation::validate` -/
def validate (R : CreateRules κ α ν) (o : AccountCreate κ α ν) : Bool :=
  0 ≤ o.fee ∧ R.isValidName o.name ∧ o.referrerPercent ≤ graphene100Percent ∧ o.owner.isValidNew ∧
    o.active.isValidNew ∧ R.validOptions o.options ∧
    o.ownerSpecialAuthority.all SpecialAuthority.isValid ∧
    o.activeSpecialAuthority.all SpecialAuthority.isValid ∧ o.buybackOptions.all o.validateBuyback

/-- `get_referrer_percent`, on 16 bits. -/
def getReferrerPercent (o : AccountCreate κ α ν) (now : ℕ) : ℕ :=
  if now ≤ hardfork200101Time ∧ o.referrer ≠ o.registrar ∧ o.referrerPercent ≠ 0 ∧
      o.referrerPercent ≤ 0x100 then min (o.referrerPercent * 100 % 2 ^ 16) graphene100Percent
  else o.referrerPercent

/-- The account that is created. -/
def account (o : AccountCreate κ α ν) : AccountObject κ α ν where
  owner := o.owner
  active := o.active
  limitactive := o.limitactive
  options := o.options
  ownerSpecialAuthority := o.ownerSpecialAuthority.getD .noSpecialAuthority
  activeSpecialAuthority := o.activeSpecialAuthority.getD .noSpecialAuthority

end AccountCreate

/-! ### The registry -/

/-- `create` of a `special_authority_object`, where the index has room for one of each account. -/
def enter (id : ℕ) (registry : List ℕ) : Except UpdateError (List ℕ) :=
  if id ∈ registry then .error .assertion else .ok (registry ++ [id])

/-- The object is looked up, which an assertion says is there, and removed. -/
def takeOut (id : ℕ) (registry : List ℕ) : Except UpdateError (List ℕ) :=
  if id ∈ registry then .ok (registry.erase id) else .error .assertion

/-- What `account_update_evaluator::do_apply` does to the registry. -/
def updateRegistry (id : ℕ) (before after : Bool) (registry : List ℕ) :
    Except UpdateError (List ℕ) :=
  if before ∧ ¬ after then takeOut id registry
  else if ¬ before ∧ after then enter id registry
  else .ok registry

namespace AccountStore

/-- `account_create_evaluator::do_evaluate` -/
def evaluateCreate (R : CreateRules κ α ν) (s : AccountStore κ α ν) (o : AccountCreate κ α ν) :
    Except UpdateError Unit := do
  if ¬ R.checksAccounts s o then throw .assertion
  s.verifyAuthorityAccounts o.owner
  s.verifyAuthorityAccounts o.active
  s.verifyAuthorityAccounts o.limitactive
  s.evaluateSpecialAuthority o.ownerSpecialAuthority
  s.evaluateSpecialAuthority o.activeSpecialAuthority
  if ¬ s.verifyAccountVotes o.options then throw .assertion
  if ¬ o.getReferrerPercent R.headBlockTime ≤ graphene100Percent then throw .assertion

/-- `account_create_evaluator::do_apply` -/
def applyCreate (s : AccountStore κ α ν) (o : AccountCreate κ α ν) :
    Except UpdateError (AccountStore κ α ν) := do
  let registry ←
    if o.ownerSpecialAuthority.isSome ∨ o.activeSpecialAuthority.isSome then
      enter s.nextAccount s.specialAuthorities
    else .ok s.specialAuthorities
  return { s with
    accounts := s.accounts.insert s.nextAccount o.account
    specialAuthorities := registry
    nextAccount := s.nextAccount + 1 }

/-- An account is created, from the checks of the operation to its effects. -/
def createAccount (R : CreateRules κ α ν) (s : AccountStore κ α ν) (o : AccountCreate κ α ν) :
    Except UpdateError (AccountStore κ α ν) := do
  if ¬ o.validate R then throw .assertion
  s.evaluateCreate R o
  s.applyCreate o

end AccountStore

namespace AccountDb

/-- `AccountDb.applyUpdate`, where the change of the registry may fail. -/
def updateRegistered (db : AccountDb κ α ν) (validOptions : ν → Bool) (stack : ℕ)
    (o : AccountUpdate κ α ν) : Except UpdateError (AccountDb κ α ν) := do
  if ¬ o.validate validOptions then throw .assertion
  let acnt ← db.doEvaluate stack o
  let registry ← updateRegistry o.account acnt.hasSpecialAuthority
    (changed o acnt).hasSpecialAuthority db.specialAuthorities
  return { db with
    accounts := db.accounts.insert o.account (changed o acnt)
    specialAuthorities := registry }

/-! ### Maintenance -/

/-- One authority of an account, with the flag that says who controls it. -/
def visitAuthority (bs : AccountBalances) (id flag : ℕ) (special : SpecialAuthority)
    (a : Authority κ α) (flags : ℕ) : Except VoteError (Authority κ α × ℕ) :=
  match special with
  | .noSpecialAuthority => return (a, flags)
  | .topHolders asset numTopHolders => do
      let r ← topHoldersAuthority bs id asset numTopHolders a
      return (r.2, if r.1 then flags ||| flag else flags)

/-- Both authorities of an account. -/
def visitAccount (bs : AccountBalances) (id : ℕ) (acct : AccountObject κ α ν) :
    Except VoteError (AccountObject κ α ν) := do
  let owner ← visitAuthority bs id 1 acct.ownerSpecialAuthority acct.owner acct.topNControlFlags
  let active ← visitAuthority bs id 2 acct.activeSpecialAuthority acct.active owner.2
  return { acct with owner := owner.1, active := active.1, topNControlFlags := active.2 }

/-- `visit_special_authorities`, from one account of the registry on. An account that is not there is
an error. -/
def visitSpecialAuthorities (bs : AccountBalances) :
    List ℕ → AccountDb κ α ν → Except VoteError (AccountDb κ α ν)
  | [], db => return db
  | id :: ids, db =>
      match db.accounts.lookup id with
      | none => throw .undefined
      | some acct => do
          let acct ← visitAccount bs id acct
          visitSpecialAuthorities bs ids { db with accounts := db.accounts.insert id acct }

/-- `update_top_n_authorities` -/
def updateTopNAuthorities (bs : AccountBalances) (db : AccountDb κ α ν) :
    Except VoteError (AccountDb κ α ν) :=
  visitSpecialAuthorities bs db.specialAuthorities db

end AccountDb

/-! ### What may happen -/

/-- The number of top holders is a `uint8_t`. -/
def SpecialAuthority.IsByte : SpecialAuthority → Prop
  | .noSpecialAuthority => True
  | .topHolders _ numTopHolders => numTopHolders < 256

/-- An operation, with numbers of top holders of 8 bits, or maintenance. -/
inductive AccountEvent (κ α ν : Type) where
  | create (o : AccountCreate κ α ν)
      (byte : ∀ a, o.ownerSpecialAuthority = some a ∨ o.activeSpecialAuthority = some a → a.IsByte)
  | update (o : AccountUpdate κ α ν)
      (byte : ∀ a, o.ownerSpecialAuthority = some a ∨ o.activeSpecialAuthority = some a → a.IsByte)
  | maintenance (bs : AccountBalances)

/-- What comes of a computation, and what there was before where it fails. -/
def resultOr {ε σ : Type} (s : σ) : Except ε σ → σ
  | .ok s' => s'
  | .error _ => s

/-- An event; an operation that fails has no effect. -/
def AccountStore.handle (R : CreateRules κ α ν) (stack : ℕ) (s : AccountStore κ α ν) :
    AccountEvent κ α ν → AccountStore κ α ν
  | .create o _ => resultOr s (s.createAccount R o)
  | .update o _ =>
      { s with
        toAccountDb := resultOr s.toAccountDb (s.updateRegistered R.validOptions stack o) }
  | .maintenance bs =>
      { s with toAccountDb := resultOr s.toAccountDb (s.updateTopNAuthorities bs) }

/-! ### What is to hold -/

/-- There is one entry for each account with a special authority, and no other. -/
structure Registered (s : AccountStore κ α ν) : Prop where
  nodup : s.specialAuthorities.Nodup
  mem_iff : ∀ id, id ∈ s.specialAuthorities ↔
    ∃ a, s.accounts.lookup id = some a ∧ a.hasSpecialAuthority

/-- If anybody else holds the asset of a special authority, then the top holders control the account
by the authority `a`. -/
def ControlledBy (bs : AccountBalances) (id : ℕ) (special : SpecialAuthority) (a : Authority κ α) :
    Prop :=
  ∀ asset n, special = .topHolders asset n → otherHolders bs id asset ≠ [] →
    ∃ chosen, HeldByTop (otherHolders bs id asset) n chosen a

/-- The special authorities that are registered have been put into force. -/
def Enforced (bs : AccountBalances) (s s' : AccountStore κ α ν) : Prop :=
  ∀ id ∈ s.specialAuthorities, ∃ a a', s.accounts.lookup id = some a ∧
    s'.accounts.lookup id = some a' ∧ ControlledBy bs id a.ownerSpecialAuthority a'.owner ∧
    ControlledBy bs id a.activeSpecialAuthority a'.active

/-- What an event is to do: no entry fails, and maintenance puts the special authorities into force. -/
def Registers (R : CreateRules κ α ν) (stack : ℕ) (s : AccountStore κ α ν) :
    AccountEvent κ α ν → Prop
  | .create o _ => o.validate R → s.evaluateCreate R o = .ok () → ∃ s', s.applyCreate o = .ok s'
  | .update o _ => ∀ acnt, o.validate R.validOptions → s.doEvaluate stack o = .ok acnt →
      ∃ s', s.updateRegistered R.validOptions stack o = .ok s'
  | .maintenance bs => Enforced bs s (s.handle R stack (.maintenance bs))

/-- An account that is created with special authorities has one. -/
def HasOne (R : CreateRules κ α ν) (s : AccountStore κ α ν) : AccountEvent κ α ν → Prop
  | .create o _ => o.validate R → s.evaluateCreate R o = .ok () →
      o.ownerSpecialAuthority.isSome ∨ o.activeSpecialAuthority.isSome →
      o.account.hasSpecialAuthority
  | _ => True

/-- The accounts are those before the next one, their special authorities are valid, and the registry
has one entry at most for an account that there is. -/
structure WellKept (s : AccountStore κ α ν) : Prop where
  next : ∀ id a, s.accounts.lookup id = some a → id < s.nextAccount
  valid : ∀ id a, s.accounts.lookup id = some a → ∀ special,
    a.ownerSpecialAuthority = special ∨ a.activeSpecialAuthority = special →
      special.isValid ∧ special.IsByte
  nodup : s.specialAuthorities.Nodup
  known : ∀ id ∈ s.specialAuthorities, ∃ a, s.accounts.lookup id = some a

variable {R : CreateRules κ α ν} {stack : ℕ} {s : AccountStore κ α ν} {bs : AccountBalances}

/-! ### Creation -/

/-- The state after a creation. -/
def AccountStore.created (s : AccountStore κ α ν) (o : AccountCreate κ α ν) : AccountStore κ α ν :=
  { s with
    accounts := s.accounts.insert s.nextAccount o.account
    specialAuthorities :=
      if o.ownerSpecialAuthority.isSome ∨ o.activeSpecialAuthority.isSome then
        s.specialAuthorities ++ [s.nextAccount]
      else s.specialAuthorities
    nextAccount := s.nextAccount + 1 }

/-- A new entry. -/
lemma nodup_append_entry {l : List ℕ} {id : ℕ} (hl : l.Nodup) (hid : id ∉ l) : (l ++ [id]).Nodup := by
  rw [← List.concat_eq_append]
  exact hl.concat hid

lemma WellKept.not_mem_next (h : WellKept s) : s.nextAccount ∉ s.specialAuthorities := by
  intro hmem
  obtain ⟨a, ha⟩ := h.known _ hmem
  exact lt_irrefl _ (h.next _ a ha)

/-- A new account can always be entered. -/
lemma WellKept.applyCreate_eq (h : WellKept s) (o : AccountCreate κ α ν) :
    s.applyCreate o = .ok (s.created o) := by
  rw [AccountStore.applyCreate, AccountStore.created]
  split_ifs with hspecial
  · rw [enter, if_neg h.not_mem_next]
    rfl
  · rfl

/-- What comes of a creation. -/
lemma WellKept.handle_create (h : WellKept s) (R : CreateRules κ α ν) (stack : ℕ)
    (o : AccountCreate κ α ν)
    (byte : ∀ a, o.ownerSpecialAuthority = some a ∨ o.activeSpecialAuthority = some a → a.IsByte) :
    (o.validate R = true ∧ s.evaluateCreate R o = .ok () ∧
      s.handle R stack (.create o byte) = s.created o) ∨
    (¬ (o.validate R = true ∧ s.evaluateCreate R o = .ok ()) ∧
      s.handle R stack (.create o byte) = s) := by
  rw [AccountStore.handle, AccountStore.createAccount]
  by_cases hvalid : o.validate R = true
  · rw [if_neg (not_not.mpr hvalid)]
    rcases hevaluate : s.evaluateCreate R o with e | ⟨⟩
    · exact .inr ⟨fun hok => by simp at hok, rfl⟩
    · refine .inl ⟨hvalid, rfl, ?_⟩
      show resultOr s (s.applyCreate o) = _
      rw [h.applyCreate_eq]
      rfl
  · rw [if_pos hvalid]
    exact .inr ⟨fun hok => hvalid hok.1, rfl⟩

lemma lookup_created (o : AccountCreate κ α ν) (id : ℕ) : (s.created o).accounts.lookup id =
    if id = s.nextAccount then some o.account else s.accounts.lookup id := by
  split_ifs with hid
  · rw [hid]
    exact AList.lookup_insert _
  · exact AList.lookup_insert_ne hid

lemma mem_created (o : AccountCreate κ α ν) (id : ℕ) : id ∈ (s.created o).specialAuthorities ↔
    id ∈ s.specialAuthorities ∨ id = s.nextAccount ∧
      (o.ownerSpecialAuthority.isSome ∨ o.activeSpecialAuthority.isSome) := by
  rw [AccountStore.created]
  dsimp only
  split_ifs with hspecial
  · simp [hspecial]
  · simp [hspecial]

/-- Where an operation has no special authority its account has none. -/
lemma hasSpecialAuthority_account (o : AccountCreate κ α ν) (h : o.account.hasSpecialAuthority) :
    o.ownerSpecialAuthority.isSome ∨ o.activeSpecialAuthority.isSome := by
  rw [AccountObject.hasSpecialAuthority, decide_eq_true_eq] at h
  refine h.imp (fun h => ?_) fun h => ?_
  all_goals
    by_contra hnone
    rw [Bool.not_eq_true, Option.isSome_eq_false_iff, Option.isNone_iff_eq_none] at hnone
    rw [AccountCreate.account, hnone] at h
    exact h rfl

lemma WellKept.nodup_created (h : WellKept s) (o : AccountCreate κ α ν) :
    (s.created o).specialAuthorities.Nodup := by
  rw [AccountStore.created]
  dsimp only
  split_ifs
  · exact nodup_append_entry h.nodup h.not_mem_next
  · exact h.nodup

lemma WellKept.created (h : WellKept s) {o : AccountCreate κ α ν} (hvalid : o.validate R)
    (byte : ∀ a, o.ownerSpecialAuthority = some a ∨ o.activeSpecialAuthority = some a → a.IsByte) :
    WellKept (s.created o) where
  next id a ha := by
    rw [lookup_created] at ha
    split_ifs at ha with hid
    · exact hid ▸ Nat.lt_succ_self _
    · exact (h.next id a ha).trans (Nat.lt_succ_self _)
  valid id a ha special hspecial := by
    rw [lookup_created] at ha
    split_ifs at ha with hid
    · cases ha
      rw [AccountCreate.validate, decide_eq_true_eq] at hvalid
      obtain ⟨-, -, -, -, -, -, howner, hactive, -⟩ := hvalid
      rcases hspecial with rfl | rfl
      · cases hspecial : o.ownerSpecialAuthority with
        | none => simp [AccountCreate.account, hspecial, SpecialAuthority.isValid, SpecialAuthority.IsByte]
        | some a =>
            rw [hspecial] at howner
            simp only [AccountCreate.account, hspecial, Option.getD_some]
            exact ⟨howner, byte a (.inl hspecial)⟩
      · cases hspecial : o.activeSpecialAuthority with
        | none => simp [AccountCreate.account, hspecial, SpecialAuthority.isValid, SpecialAuthority.IsByte]
        | some a =>
            rw [hspecial] at hactive
            simp only [AccountCreate.account, hspecial, Option.getD_some]
            exact ⟨hactive, byte a (.inr hspecial)⟩
    · exact h.valid id a ha special hspecial
  nodup := h.nodup_created o
  known id hid := by
    rw [lookup_created]
    rcases (mem_created o id).mp hid with hid | ⟨rfl, -⟩
    · rw [if_neg fun heq : id = s.nextAccount => h.not_mem_next (heq ▸ hid)]
      exact h.known id hid
    · exact ⟨_, if_pos rfl⟩

/-- **Creation**: the registry stays right exactly if an account that is entered has a special
authority. -/
lemma registered_created_iff (h : WellKept s) (hs : Registered s) (o : AccountCreate κ α ν) :
    Registered (s.created o) ↔
      (o.ownerSpecialAuthority.isSome ∨ o.activeSpecialAuthority.isSome →
        o.account.hasSpecialAuthority) := by
  constructor
  · intro hright hspecial
    obtain ⟨a, ha, hhas⟩ := (hright.mem_iff s.nextAccount).mp
      ((mem_created o _).mpr (.inr ⟨rfl, hspecial⟩))
    rw [lookup_created, if_pos rfl] at ha
    cases ha
    exact hhas
  · intro hspecial
    refine ⟨h.nodup_created o, fun id => ?_⟩
    rw [mem_created, lookup_created]
    split_ifs with hid
    · subst hid
      simp only [h.not_mem_next, false_or, true_and, Option.some.injEq, exists_eq_left']
      exact ⟨hspecial, hasSpecialAuthority_account o⟩
    · simp only [hid, false_and, or_false]
      exact hs.mem_iff id

/-! ### Updates -/

open AccountDb (changed)

/-- What there may be of the registry after an update. -/
lemma updateRegistry_eq_ok {id : ℕ} {before after : Bool} {l l' : List ℕ}
    (h : updateRegistry id before after l = .ok l') :
    (before = after ∧ l' = l) ∨ (before = true ∧ after = false ∧ id ∈ l ∧ l' = l.erase id) ∨
      (before = false ∧ after = true ∧ id ∉ l ∧ l' = l ++ [id]) := by
  rw [updateRegistry, takeOut, enter] at h
  cases before <;> cases after
  · exact .inl ⟨rfl, (Except.ok.inj h).symm⟩
  · refine .inr (.inr ?_)
    simp only [Bool.false_eq_true, false_and, if_false, not_false_eq_true, true_and, if_true] at h
    split_ifs at h with hmem
    exact ⟨rfl, rfl, hmem, (Except.ok.inj h).symm⟩
  · refine .inr (.inl ?_)
    simp only [Bool.false_eq_true, not_false_eq_true, true_and, if_true] at h
    split_ifs at h with hmem
    exact ⟨rfl, rfl, hmem, (Except.ok.inj h).symm⟩
  · exact .inl ⟨rfl, (Except.ok.inj h).symm⟩

/-- In a registry that is right no change fails. -/
lemma exists_updateRegistry {id : ℕ} {before : Bool} {l : List ℕ} (h : id ∈ l ↔ before)
    (after : Bool) : ∃ l', updateRegistry id before after l = .ok l' := by
  rw [updateRegistry, takeOut, enter]
  cases before <;> cases after <;> simp_all

/-- The account that an update reads is there. -/
lemma lookup_of_doEvaluate {db : AccountDb κ α ν} {o : AccountUpdate κ α ν}
    {acnt : AccountObject κ α ν} (h : db.doEvaluate stack o = .ok acnt) :
    db.accounts.lookup o.account = some acnt :=
  AccountDb.lookup_of_evaluateAccount (AccountDb.doEvaluate_eq_ok.mp h).2

lemma updateRegistered_eq_ok {db db' : AccountDb κ α ν} {validOptions : ν → Bool}
    {o : AccountUpdate κ α ν} : db.updateRegistered validOptions stack o = .ok db' ↔
      o.validate validOptions = true ∧ ∃ acnt registry, db.doEvaluate stack o = .ok acnt ∧
        updateRegistry o.account acnt.hasSpecialAuthority (changed o acnt).hasSpecialAuthority
          db.specialAuthorities = .ok registry ∧
        db' = { db with
          accounts := db.accounts.insert o.account (changed o acnt)
          specialAuthorities := registry } := by
  rw [AccountDb.updateRegistered, ite_throw_eq_ok, not_not, except_bind_eq_ok]
  refine and_congr_right fun _ => exists_congr fun acnt => ?_
  rw [except_bind_eq_ok, ← exists_and_left]
  refine exists_congr fun registry => and_congr_right fun _ => and_congr_right fun _ => ?_
  exact ⟨fun h => (Except.ok.inj h).symm, fun h => congrArg Except.ok h.symm⟩

lemma lookup_insert_changed (db : AccountDb κ α ν) (o : AccountUpdate κ α ν)
    (acnt : AccountObject κ α ν) (id : ℕ) :
    (db.accounts.insert o.account (changed o acnt)).lookup id =
      if id = o.account then some (changed o acnt) else db.accounts.lookup id :=
  AccountDb.lookup_doApply db id

/-- The special authorities of an updated account are old or new ones. -/
lemma special_changed {o : AccountUpdate κ α ν} {acnt : AccountObject κ α ν}
    {special : SpecialAuthority}
    (h : (changed o acnt).ownerSpecialAuthority = special ∨
      (changed o acnt).activeSpecialAuthority = special) :
    (o.ownerSpecialAuthority = some special ∨ o.activeSpecialAuthority = some special) ∨
      (acnt.ownerSpecialAuthority = special ∨ acnt.activeSpecialAuthority = special) := by
  rw [changed] at h
  dsimp only at h
  rcases h with h | h
  · cases hnew : o.ownerSpecialAuthority with
    | none => exact .inr (.inl (by rwa [hnew] at h))
    | some a => exact .inl (.inl (by rw [hnew] at h; exact congrArg some h))
  · cases hnew : o.activeSpecialAuthority with
    | none => exact .inr (.inr (by rwa [hnew] at h))
    | some a => exact .inl (.inr (by rw [hnew] at h; exact congrArg some h))

lemma WellKept.updateRegistered (h : WellKept s) {o : AccountUpdate κ α ν} {db' : AccountDb κ α ν}
    (byte : ∀ a, o.ownerSpecialAuthority = some a ∨ o.activeSpecialAuthority = some a → a.IsByte)
    (hupdate : s.updateRegistered R.validOptions stack o = .ok db') :
    WellKept { s with toAccountDb := db' } := by
  obtain ⟨hvalid, acnt, registry, hevaluate, hregistry, rfl⟩ := updateRegistered_eq_ok.mp hupdate
  have hacnt := lookup_of_doEvaluate hevaluate
  have hlookup := lookup_insert_changed s.toAccountDb o acnt
  refine ⟨fun id a ha => ?_, fun id a ha special hspecial => ?_, ?_, fun id hid => ?_⟩
  · rw [hlookup] at ha
    split_ifs at ha with hid
    · rw [hid]
      exact h.next _ acnt hacnt
    · exact h.next id a ha
  · rw [hlookup] at ha
    split_ifs at ha with hid
    · cases ha
      rcases special_changed hspecial with hnew | hold
      · refine ⟨?_, byte special hnew⟩
        rw [AccountUpdate.validate, decide_eq_true_eq] at hvalid
        obtain ⟨-, -, -, -, -, -, -, howner, hactive⟩ := hvalid
        rcases hnew with hnew | hnew
        · rw [hnew] at howner
          exact howner
        · rw [hnew] at hactive
          exact hactive
      · exact h.valid _ acnt hacnt special hold
    · exact h.valid id a ha special hspecial
  · rcases updateRegistry_eq_ok hregistry with ⟨-, rfl⟩ | ⟨-, -, -, rfl⟩ | ⟨-, -, hmem, rfl⟩
    · exact h.nodup
    · exact h.nodup.erase _
    · exact nodup_append_entry h.nodup hmem
  · rw [hlookup]
    split_ifs with hsame
    · exact ⟨_, rfl⟩
    · refine h.known id ?_
      rcases updateRegistry_eq_ok hregistry with ⟨-, rfl⟩ | ⟨-, -, -, rfl⟩ | ⟨-, -, -, rfl⟩
      · exact hid
      · exact List.mem_of_mem_erase hid
      · exact (List.mem_append.mp hid).resolve_right (by simpa using hsame)

/-- **Updates** keep the registry right. -/
lemma Registered.updateRegistered (hs : Registered s) {o : AccountUpdate κ α ν}
    {db' : AccountDb κ α ν} (hupdate : s.updateRegistered R.validOptions stack o = .ok db') :
    Registered { s with toAccountDb := db' } := by
  obtain ⟨-, acnt, registry, hevaluate, hregistry, rfl⟩ := updateRegistered_eq_ok.mp hupdate
  have hacnt := lookup_of_doEvaluate hevaluate
  have hlookup := lookup_insert_changed s.toAccountDb o acnt
  have hbefore : o.account ∈ s.specialAuthorities ↔ acnt.hasSpecialAuthority = true := by
    rw [hs.mem_iff, hacnt]
    simp
  have hmem : ∀ id, id ∈ registry ↔ if id = o.account then (changed o acnt).hasSpecialAuthority = true
      else id ∈ s.specialAuthorities := by
    intro id
    rcases updateRegistry_eq_ok hregistry with ⟨hsame, rfl⟩ | ⟨-, ha, -, rfl⟩ | ⟨-, ha, -, rfl⟩
    · split_ifs with hid
      · rw [hid, hbefore, hsame]
      · exact Iff.rfl
    · rw [hs.nodup.mem_erase_iff, ha]
      split_ifs with hid
      · simp [hid]
      · simp [hid]
    · rw [List.mem_append, List.mem_singleton, ha]
      split_ifs with hid
      · simp [hid]
      · simp [hid]
  refine ⟨?_, fun id => ?_⟩
  · rcases updateRegistry_eq_ok hregistry with ⟨-, rfl⟩ | ⟨-, -, -, rfl⟩ | ⟨-, -, hnew, rfl⟩
    · exact hs.nodup
    · exact hs.nodup.erase _
    · exact nodup_append_entry hs.nodup hnew
  · rw [hlookup, hmem]
    split_ifs with hid
    · simp
    · exact hs.mem_iff id

lemma Registered.exists_updateRegistered (hs : Registered s) {o : AccountUpdate κ α ν}
    {acnt : AccountObject κ α ν} (hvalid : o.validate R.validOptions = true)
    (hevaluate : s.doEvaluate stack o = .ok acnt) :
    ∃ db', s.updateRegistered R.validOptions stack o = .ok db' := by
  have hacnt := lookup_of_doEvaluate hevaluate
  have hmem : o.account ∈ s.specialAuthorities ↔ acnt.hasSpecialAuthority = true := by
    rw [hs.mem_iff, hacnt]
    simp
  obtain ⟨registry, hregistry⟩ := exists_updateRegistry hmem (changed o acnt).hasSpecialAuthority
  exact ⟨_, updateRegistered_eq_ok.mpr ⟨hvalid, acnt, registry, hevaluate, hregistry, rfl⟩⟩

/-! ### Maintenance -/

/-- One authority. -/
lemma visitAuthority_ok (bs : AccountBalances) (id flag : ℕ) {special : SpecialAuthority}
    (h : special.isValid ∧ special.IsByte) (a : Authority κ α) (flags : ℕ) :
    ∃ r, AccountDb.visitAuthority bs id flag special a flags = .ok r ∧
      ControlledBy bs id special r.1 := by
  cases special with
  | noSpecialAuthority => exact ⟨_, rfl, nofun⟩
  | topHolders asset n =>
      have hpos : 0 < n := by simpa [SpecialAuthority.isValid] using h.1
      obtain ⟨controlled, a', hok, -, hheld⟩ :=
        topHoldersAuthority_heldByTop bs id asset hpos h.2 a
      refine ⟨(a', if controlled then flags ||| flag else flags), ?_, ?_⟩
      · rw [AccountDb.visitAuthority, hok]
        rfl
      · intro asset' n' heq hholders
        cases heq
        exact ⟨_, (hheld hholders).2⟩

/-- One account. -/
lemma visitAccount_ok (bs : AccountBalances) (id : ℕ) {acct : AccountObject κ α ν}
    (h : ∀ special, acct.ownerSpecialAuthority = special ∨ acct.activeSpecialAuthority = special →
      special.isValid ∧ special.IsByte) :
    ∃ acct', AccountDb.visitAccount bs id acct = .ok acct' ∧
      acct'.ownerSpecialAuthority = acct.ownerSpecialAuthority ∧
      acct'.activeSpecialAuthority = acct.activeSpecialAuthority ∧
      ControlledBy bs id acct.ownerSpecialAuthority acct'.owner ∧
      ControlledBy bs id acct.activeSpecialAuthority acct'.active := by
  obtain ⟨owner, howner, hcontrolled⟩ := visitAuthority_ok bs id 1 (h _ (.inl rfl)) acct.owner
    acct.topNControlFlags
  obtain ⟨active, hactive, hcontrolled'⟩ := visitAuthority_ok bs id 2 (h _ (.inr rfl)) acct.active
    owner.2
  refine ⟨{ acct with owner := owner.1, active := active.1, topNControlFlags := active.2 }, ?_, rfl,
    rfl, hcontrolled, hcontrolled'⟩
  rw [AccountDb.visitAccount]
  refine except_bind_eq_ok.mpr ⟨owner, howner, except_bind_eq_ok.mpr ⟨active, hactive, rfl⟩⟩

/-- **The loop over the registry.** -/
lemma visitSpecialAuthorities_ok (bs : AccountBalances) {ids : List ℕ} (hnodup : ids.Nodup)
    (db : AccountDb κ α ν) (h : ∀ id ∈ ids, ∃ acct, db.accounts.lookup id = some acct ∧
      ∀ special, acct.ownerSpecialAuthority = special ∨ acct.activeSpecialAuthority = special →
        special.isValid ∧ special.IsByte) :
    ∃ db', AccountDb.visitSpecialAuthorities bs ids db = .ok db' ∧
      db'.specialAuthorities = db.specialAuthorities ∧
      (∀ id ∉ ids, db'.accounts.lookup id = db.accounts.lookup id) ∧
      ∀ id ∈ ids, ∃ acct acct', db.accounts.lookup id = some acct ∧
        db'.accounts.lookup id = some acct' ∧
        acct'.ownerSpecialAuthority = acct.ownerSpecialAuthority ∧
        acct'.activeSpecialAuthority = acct.activeSpecialAuthority ∧
        ControlledBy bs id acct.ownerSpecialAuthority acct'.owner ∧
        ControlledBy bs id acct.activeSpecialAuthority acct'.active := by
  induction ids generalizing db with
  | nil => exact ⟨db, rfl, rfl, fun _ _ => rfl, nofun⟩
  | cons id ids ih =>
      obtain ⟨hid, hnodup⟩ := List.nodup_cons.mp hnodup
      obtain ⟨acct, hacct, hvalid⟩ := h id List.mem_cons_self
      obtain ⟨acct', hvisit, hsame⟩ := visitAccount_ok bs id hvalid
      have hother : ∀ id' ≠ id, (db.accounts.insert id acct').lookup id' = db.accounts.lookup id' :=
        fun id' hne => AList.lookup_insert_ne hne
      obtain ⟨db', hrest, hregistry, hout, hin⟩ := ih hnodup
        { db with accounts := db.accounts.insert id acct' } (by
          intro id' hid'
          obtain ⟨a, ha, hv⟩ := h id' (List.mem_cons_of_mem _ hid')
          exact ⟨a, (hother id' (ne_of_mem_of_not_mem hid' hid)).trans ha, hv⟩)
      refine ⟨db', ?_, hregistry, fun id' hid' => ?_, fun id' hid' => ?_⟩
      · rw [AccountDb.visitSpecialAuthorities, hacct]
        exact except_bind_eq_ok.mpr ⟨acct', hvisit, hrest⟩
      · rw [List.mem_cons, not_or] at hid'
        exact (hout id' hid'.2).trans (hother id' hid'.1)
      · rcases List.mem_cons.mp hid' with rfl | hid'
        · exact ⟨acct, acct', hacct, (hout _ hid).trans (AList.lookup_insert _), hsame⟩
        · obtain ⟨a, a', ha, hrest⟩ := hin id' hid'
          exact ⟨a, a', (hother id' (ne_of_mem_of_not_mem hid' hid)).symm.trans ha, hrest⟩

/-! ### Runs -/

lemma WellKept.handle_maintenance (h : WellKept s) (R : CreateRules κ α ν) (stack : ℕ)
    (bs : AccountBalances) :
    ∃ db', s.handle R stack (.maintenance bs) = { s with toAccountDb := db' } ∧
      db'.specialAuthorities = s.specialAuthorities ∧
      (∀ id ∉ s.specialAuthorities, db'.accounts.lookup id = s.accounts.lookup id) ∧
      ∀ id ∈ s.specialAuthorities, ∃ acct acct', s.accounts.lookup id = some acct ∧
        db'.accounts.lookup id = some acct' ∧
        acct'.ownerSpecialAuthority = acct.ownerSpecialAuthority ∧
        acct'.activeSpecialAuthority = acct.activeSpecialAuthority ∧
        ControlledBy bs id acct.ownerSpecialAuthority acct'.owner ∧
        ControlledBy bs id acct.activeSpecialAuthority acct'.active := by
  obtain ⟨db', hdb, hrest⟩ := visitSpecialAuthorities_ok bs h.nodup s.toAccountDb (by
    intro id hid
    obtain ⟨a, ha⟩ := h.known id hid
    exact ⟨a, ha, h.valid id a ha⟩)
  refine ⟨db', ?_, hrest⟩
  rw [AccountStore.handle, AccountDb.updateTopNAuthorities, hdb]
  rfl

/-- Maintenance changes no special authority. -/
lemma WellKept.lookup_maintenance (h : WellKept s) (R : CreateRules κ α ν) (stack : ℕ)
    (bs : AccountBalances) :
    (s.handle R stack (.maintenance bs)).specialAuthorities = s.specialAuthorities ∧
      (s.handle R stack (.maintenance bs)).nextAccount = s.nextAccount ∧
      ∀ id, (∀ a, s.accounts.lookup id = some a →
          ∃ a', (s.handle R stack (.maintenance bs)).accounts.lookup id = some a' ∧
            a'.ownerSpecialAuthority = a.ownerSpecialAuthority ∧
            a'.activeSpecialAuthority = a.activeSpecialAuthority) ∧
        ∀ a', (s.handle R stack (.maintenance bs)).accounts.lookup id = some a' →
          ∃ a, s.accounts.lookup id = some a ∧
            a'.ownerSpecialAuthority = a.ownerSpecialAuthority ∧
            a'.activeSpecialAuthority = a.activeSpecialAuthority := by
  obtain ⟨db', heq, hregistry, hout, hin⟩ := h.handle_maintenance R stack bs
  rw [heq]
  refine ⟨hregistry, rfl, fun id => ?_⟩
  by_cases hid : id ∈ s.specialAuthorities
  · obtain ⟨b, b', hb, hb', howner, hactive, -⟩ := hin id hid
    constructor
    · intro a ha
      rw [hb] at ha
      cases ha
      exact ⟨b', hb', howner, hactive⟩
    · intro a' ha'
      rw [hb'] at ha'
      cases ha'
      exact ⟨b, hb, howner, hactive⟩
  · have hsame : db'.accounts.lookup id = s.accounts.lookup id := hout id hid
    exact ⟨fun a ha => ⟨a, hsame.trans ha, rfl, rfl⟩, fun a' ha' => ⟨a', hsame.symm.trans ha', rfl, rfl⟩⟩

lemma WellKept.handle (h : WellKept s) (e : AccountEvent κ α ν) : WellKept (s.handle R stack e) := by
  cases e with
  | create o byte =>
      rcases h.handle_create R stack o byte with ⟨hvalid, -, heq⟩ | ⟨-, heq⟩
      · rw [heq]
        exact h.created hvalid byte
      · rw [heq]
        exact h
  | update o byte =>
      rw [AccountStore.handle]
      cases hupdate : s.updateRegistered R.validOptions stack o with
      | ok db' => exact h.updateRegistered byte hupdate
      | error e => exact h
  | maintenance bs =>
      obtain ⟨hregistry, hnext, hlookup⟩ := h.lookup_maintenance R stack bs
      refine ⟨fun id a' ha' => ?_, fun id a' ha' special hspecial => ?_, ?_, fun id hid => ?_⟩
      · obtain ⟨a, ha, -⟩ := (hlookup id).2 a' ha'
        rw [hnext]
        exact h.next id a ha
      · obtain ⟨a, ha, howner, hactive⟩ := (hlookup id).2 a' ha'
        rw [howner, hactive] at hspecial
        exact h.valid id a ha special hspecial
      · rw [hregistry]
        exact h.nodup
      · rw [hregistry] at hid
        obtain ⟨a, ha⟩ := h.known id hid
        obtain ⟨a', ha', -⟩ := (hlookup id).1 a ha
        exact ⟨a', ha'⟩

/-- **Maintenance** keeps the registry right. -/
lemma Registered.handle_maintenance (h : WellKept s) (hs : Registered s) (bs : AccountBalances) :
    Registered (s.handle R stack (.maintenance bs)) := by
  obtain ⟨hregistry, -, hlookup⟩ := h.lookup_maintenance R stack bs
  have hhas : ∀ a a' : AccountObject κ α ν, a'.ownerSpecialAuthority = a.ownerSpecialAuthority →
      a'.activeSpecialAuthority = a.activeSpecialAuthority →
      a'.hasSpecialAuthority = a.hasSpecialAuthority := by
    intro a a' howner hactive
    rw [AccountObject.hasSpecialAuthority, AccountObject.hasSpecialAuthority, howner, hactive]
  refine ⟨hregistry ▸ hs.nodup, fun id => ?_⟩
  rw [hregistry, hs.mem_iff id]
  constructor
  · rintro ⟨a, ha, hspecial⟩
    obtain ⟨a', ha', howner, hactive⟩ := (hlookup id).1 a ha
    exact ⟨a', ha', (hhas a a' howner hactive).trans hspecial⟩
  · rintro ⟨a', ha', hspecial⟩
    obtain ⟨a, ha, howner, hactive⟩ := (hlookup id).2 a' ha'
    exact ⟨a, ha, (hhas a a' howner hactive).symm.trans hspecial⟩

/-- **One event.** -/
lemma registered_handle_iff (h : WellKept s) (hs : Registered s) (e : AccountEvent κ α ν) :
    Registered (s.handle R stack e) ∧ Registers R stack s e ↔ HasOne R s e := by
  cases e with
  | create o byte =>
      rw [Registers, HasOne, and_iff_left fun _ _ => ⟨_, h.applyCreate_eq o⟩]
      rcases h.handle_create R stack o byte with ⟨hvalid, hevaluate, heq⟩ | ⟨hno, heq⟩
      · rw [heq, registered_created_iff h hs]
        exact ⟨fun hspecial _ _ => hspecial, fun hspecial => hspecial hvalid hevaluate⟩
      · rw [heq]
        exact iff_of_true hs fun hvalid hevaluate => absurd ⟨hvalid, hevaluate⟩ hno
  | update o byte =>
      refine iff_of_true ⟨?_, fun acnt hvalid hevaluate => ?_⟩ trivial
      · rw [AccountStore.handle]
        cases hupdate : s.updateRegistered R.validOptions stack o with
        | ok db' => exact hs.updateRegistered hupdate
        | error e => exact hs
      · exact hs.exists_updateRegistered hvalid hevaluate
  | maintenance bs =>
      refine iff_of_true ⟨hs.handle_maintenance h bs, fun id hid => ?_⟩ trivial
      obtain ⟨db', heq, -, -, hin⟩ := h.handle_maintenance R stack bs
      obtain ⟨a, a', ha, ha', -, -, howner, hactive⟩ := hin id hid
      exact ⟨a, a', ha, by rw [heq]; exact ha', howner, hactive⟩

/-- A store in which no account has a special authority yet. -/
structure AccountStore.Begins (s : AccountStore κ α ν) : Prop where
  registry : s.specialAuthorities = []
  next : ∀ id a, s.accounts.lookup id = some a → id < s.nextAccount
  none : ∀ id a, s.accounts.lookup id = some a →
    a.ownerSpecialAuthority = .noSpecialAuthority ∧ a.activeSpecialAuthority = .noSpecialAuthority

/-- **Special authorities.** -/
theorem registered_iff (R : CreateRules κ α ν) (stack : ℕ) {s : AccountStore κ α ν} (h : s.Begins)
    (es : List (AccountEvent κ α ν)) :
    Runs.Always (AccountStore.handle R stack) Registered s es ∧
        Runs.Each (AccountStore.handle R stack) (Registers R stack) s es ↔
      Runs.Each (AccountStore.handle R stack) (HasOne R) s es := by
  have hkept : WellKept s := by
    refine ⟨h.next, fun id a ha special hspecial => ?_, h.registry ▸ List.nodup_nil, fun id hid => ?_⟩
    · obtain ⟨howner, hactive⟩ := h.none id a ha
      rw [howner, hactive, or_self] at hspecial
      subst hspecial
      exact ⟨rfl, trivial⟩
    · rw [h.registry] at hid
      cases hid
  have hright : Registered s := by
    refine ⟨h.registry ▸ List.nodup_nil, fun id => ?_⟩
    rw [h.registry]
    refine iff_of_false (List.not_mem_nil) ?_
    rintro ⟨a, ha, hhas⟩
    obtain ⟨howner, hactive⟩ := h.none id a ha
    simp [AccountObject.hasSpecialAuthority, howner, hactive] at hhas
  exact Runs.always_and_each_iff (fun s e hs => hs.handle e)
    (fun s e hs hp => registered_handle_iff hs hp e) hkept hright

/-! ### An account -/

/-- All names and options are valid. -/
def lenientCreation : CreateRules ℕ ℕ Unit where
  isValidName _ := true
  validOptions _ := true
  headBlockTime := hardfork200101Time
  checksAccounts _ _ := true

/-- No accounts. -/
def noAccounts : AccountStore ℕ ℕ Unit where
  accounts := ∅
  maximumAuthorityMembership := 10
  hasAsset _ := true
  verifyAccountVotes _ := true
  nextAccount := 0

lemma noAccounts_begins : noAccounts.Begins where
  registry := rfl
  next id a ha := by
    rw [noAccounts, AList.lookup_empty] at ha
    cases ha
  none id a ha := by
    rw [noAccounts, AList.lookup_empty] at ha
    cases ha

/-- An account with a key and a special authority. -/
def createWith (special : SpecialAuthority) : AccountCreate ℕ ℕ Unit where
  registrar := 0
  referrer := 0
  name := "somebody"
  owner := { weightThreshold := 1, keyAuths := [(7, 1)] }
  active := { weightThreshold := 1, keyAuths := [(7, 1)] }
  options := ()
  ownerSpecialAuthority := some special

lemma createWith_byte {special : SpecialAuthority} (h : special.IsByte) (a : SpecialAuthority)
    (ha : (createWith special).ownerSpecialAuthority = some a ∨
      (createWith special).activeSpecialAuthority = some a) : a.IsByte := by
  rcases ha with ha | ha
  · cases ha
    exact h
  · cases ha

/-- An account that the two top holders of an asset control. -/
theorem registered_iff_topHolders :
    Runs.Always (AccountStore.handle lenientCreation 5) Registered noAccounts
        [.create (createWith (.topHolders 1 2)) (createWith_byte (by decide : 2 < 256)),
          .maintenance ⟨[⟨3, 1, 100, by decide⟩, ⟨4, 1, 50, by decide⟩], by decide⟩] ∧
      Runs.Each (AccountStore.handle lenientCreation 5) (Registers lenientCreation 5) noAccounts
        [.create (createWith (.topHolders 1 2)) (createWith_byte (by decide : 2 < 256)),
          .maintenance ⟨[⟨3, 1, 100, by decide⟩, ⟨4, 1, 50, by decide⟩], by decide⟩] :=
  (registered_iff lenientCreation 5 noAccounts_begins _).mpr
    ⟨fun _ _ _ => by decide, trivial, trivial⟩

/-- An account that is created with `no_special_authority` is entered, though it has no special
authority; and when an update gives it one, that cannot be entered any more. -/
theorem not_registered :
    ¬ ∀ es : List (AccountEvent ℕ ℕ Unit),
      Runs.Always (AccountStore.handle lenientCreation 5) Registered noAccounts es ∧
        Runs.Each (AccountStore.handle lenientCreation 5) (Registers lenientCreation 5) noAccounts es := by
  intro h
  have hright := (h [.create (createWith .noSpecialAuthority) (createWith_byte trivial)]).1.2
  have hentered : 0 ∈ (AccountStore.handle lenientCreation 5 noAccounts
      (.create (createWith .noSpecialAuthority)
        (createWith_byte trivial))).specialAuthorities := by decide +kernel
  obtain ⟨a, ha, hhas⟩ := (hright.mem_iff 0).mp hentered
  have hnone : ((AccountStore.handle lenientCreation 5 noAccounts
      (.create (createWith .noSpecialAuthority) (createWith_byte trivial))).accounts.lookup 0).map
        AccountObject.hasSpecialAuthority = some false := by decide +kernel
  rw [ha, Option.map_some, hhas] at hnone
  cases hnone

end ZosCore
