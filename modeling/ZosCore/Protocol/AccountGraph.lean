import ZosCore.Protocol.AccountUpdate

/-!
The graph of the accounts: which accounts the authorities of an account name.

An update puts new authorities in the place of old ones, so that it makes a circle exactly if the
account was reached from an account that a new authority names. The search finds that out if it
comes by: of the authorities below a new one, in depth-first order, it leaves out the one at which
its counter comes to zero, with all that is below.

* `AccountDb.Names`: the graph.
* `AccountDb.depthFirst`: the authorities below a given one, in the order of the search.
* `AccountDb.walks_verifyAccountAuth`: the search, as a walk through these.
* `AccountDb.Guarded`: a circle would be noticed.
* `AccountDb.applyUpdate_acyclic_iff`: an update keeps the graph without circles exactly if it is
  guarded; `AccountDb.guarded_of_length_le`: it is if there are few authorities below the new ones.
-/

namespace ZosCore

open Exec Relation

namespace AccountDb

variable {κ α ν : Type} (db : AccountDb κ α ν)

/-! ### The graph -/

/-- Account `a` names account `b` in one of its authorities. -/
def Names (a b : ℕ) : Prop :=
  ∃ acnt, db.accounts.lookup a = some acnt ∧ ∃ auth ∈ acnt.authorities, b ∈ auth.accounts

variable {db} {stack id n : ℕ} {o : AccountUpdate κ α ν} {acnt : AccountObject κ α ν}
  {auth : Authority κ α}

/-- An account that is named by one that leads on is there. -/
lemma mem_keys_of_names {a b : ℕ} (h : db.Names a b) : a ∈ db.accounts.keys := by
  obtain ⟨acnt, hacnt, -⟩ := h
  refine AList.mem_keys.mp (AList.lookup_isSome.mp ?_)
  rw [hacnt]
  rfl

/-- Without circles the paths are no longer than there are accounts. -/
lemma within_names (h : Acyclic db.Names) (hn : db.accounts.keys.length < n) (a : ℕ) :
    Within db.Names n a := by
  refine h.within (S := db.accounts.keys.toFinset) ?_ fun b c _ hbc => ?_
  · exact (List.toFinset_card_le _).trans_lt hn
  · exact List.mem_toFinset.mpr (mem_keys_of_names hbc)

/-! ### The search as a walk -/

variable (db) in
/-- The authorities of an account, none if it is not there. -/
def authoritiesOf (id : ℕ) : List (Authority κ α) :=
  ((db.accounts.lookup id).map AccountObject.authorities).getD []

variable (db) in
/-- The authorities below a given one in the order of the search, to a depth, each with the number
of those below it. -/
def depthFirst : ℕ → Authority κ α → List (Authority κ α × ℕ)
  | 0, _ => []
  | n + 1, auth =>
      let below := auth.accounts.flatMap fun id => (db.authoritiesOf id).flatMap (depthFirst n)
      (auth, below.length) :: below

variable (db id) in
/-- An authority that does not name the account `id`, and no account that is not there. -/
def Harmless (auth : Authority κ α) : Prop :=
  id ∉ auth.accounts ∧ ∀ b ∈ auth.accounts, ∃ acnt, db.accounts.lookup b = some acnt

variable (db id) in
/-- The search for `id` finds nothing exactly if all that a walk through `l` looks at is
harmless. -/
def Searches (m : Exec ℕ UpdateError Bool) (l : List (Authority κ α × ℕ)) : Prop :=
  Walks countDown (· ≤ 0) (db.Harmless id) m l

/-- The lookup of an account that is there, and what is done with it. -/
lemma getAccount_bind {β : Type} {b : ℕ} (h : db.accounts.lookup b = some acnt)
    (f : AccountObject κ α ν → Exec ℕ UpdateError β) : (db.getAccount b >>= f) = f acnt := by
  rw [getAccount, h]
  rfl

/-- One authority, from the search in the authorities below. -/
lemma searches_visit
    (h : ∀ b ∈ auth.accounts, ∀ acnt, db.accounts.lookup b = some acnt →
      ∀ c ∈ acnt.authorities, db.Searches id (db.verifyAccountAuth id n c) (db.depthFirst n c)) :
    db.Searches id (db.verifyAccountAuth id (n + 1) auth) (db.depthFirst (n + 1) auth) := by
  have hbelow : db.Harmless id auth → db.Searches id
      (Exec.any (fun aId => do
        let account ← db.getAccount aId
        Exec.any (db.verifyAccountAuth id n) account.authorities) auth.accounts)
      (auth.accounts.flatMap fun b => (db.authoritiesOf b).flatMap (db.depthFirst n)) := by
    refine fun hharm => Walks.any fun b hb => ?_
    obtain ⟨acnt, hacnt⟩ := hharm.2 b hb
    rw [getAccount_bind hacnt, authoritiesOf, hacnt]
    exact Walks.any (h b hb acnt hacnt)
  refine Walks.visit (fun dep hdep => ?_) (fun dep hdep hharm => ?_) (fun dep dep' hdep hharm => ?_)
    hbelow
  · -- the counter has come to zero
    rw [verifyAccountAuth, bind_ok (update_apply _ _), bind_ok (gets_apply _ _), if_pos hdep]
    rfl
  · rw [verifyAccountAuth, bind_ok (update_apply _ _), bind_ok (gets_apply _ _), if_neg hdep,
      if_neg hharm.1]
  · rw [verifyAccountAuth, bind_ok (update_apply _ _), bind_ok (gets_apply _ _), if_neg hdep]
    by_cases hid : id ∈ auth.accounts
    · rw [if_pos hid]
      simp
    · rw [if_neg hid]
      intro hany
      -- an account is looked up that is not there
      refine hharm ⟨hid, fun b hb => ?_⟩
      obtain ⟨s, s', hb⟩ := eq_false_of_any hany hb
      cases hl : db.accounts.lookup b with
      | some acnt => exact ⟨acnt, rfl⟩
      | none =>
          have hraise : db.getAccount b s = (.error .notFound, s) := by rw [getAccount, hl]; rfl
          rw [bind_error hraise] at hb
          simp at hb

/-- **The search.** It looks at the authorities below the given one in depth-first order, and
finds nothing exactly if all that it looks at is harmless. -/
theorem walks_verifyAccountAuth (h : ∀ b ∈ auth.accounts, Within db.Names n b) :
    db.Searches id (db.verifyAccountAuth id (n + 1) auth) (db.depthFirst (n + 1) auth) := by
  induction n generalizing auth with
  | zero => exact searches_visit fun b hb => (h b hb).elim
  | succ n ih =>
      refine searches_visit fun b hb acnt hacnt c hc => ih fun d hd => ?_
      exact h b hb d ⟨acnt, hacnt, c, hc, hd⟩

variable (db) in
/-- What the search for circles looks at below a new authority. The counter starts at
`maximum_authority_membership + 1`; the authority where it comes to zero is left out, with all
that is below. -/
def lookedAt (stack : ℕ) (auth : Authority κ α) : List (Authority κ α) :=
  kept countDown (· ≤ 0) db.udep 0 (db.depthFirst stack auth)

/-- The search for circles finds nothing exactly if all that it looks at is harmless. -/
lemma verifyAccountAuth_eq_false (h : ∀ b ∈ auth.accounts, Within db.Names n b) :
    (db.verifyAccountAuth id (n + 1) auth db.udep).1 = .ok false ↔
      ∀ a ∈ db.lookedAt (n + 1) auth, db.Harmless id a := by
  have hsearch : db.Searches id _ _ := walks_verifyAccountAuth h
  have hwalk := hsearch db.udep []
  rw [List.append_nil] at hwalk
  refine Iff.trans ?_ hwalk.symm
  generalize db.verifyAccountAuth id (n + 1) auth db.udep = m
  obtain ⟨r, dep⟩ := m
  constructor
  · rintro rfl
    exact ⟨dep, rfl, fun a ha => absurd ha List.not_mem_nil⟩
  · rintro ⟨s', hs', -⟩
    rw [hs']

/-! ### The evaluator -/

lemma checkAuthority_eq_ok {x : Option (Authority κ α)} {u : Unit} :
    db.checkAuthority stack id x = .ok u ↔ ∀ a ∈ x.toList,
      (db.verifyAccountAuth id stack a db.udep).1 = .ok false ∧
        db.verifyAuthorityAccounts a = .ok () := by
  cases x with
  | none => simp [checkAuthority, pure, Except.pure]
  | some a =>
      rw [checkAuthority, except_bind_eq_ok]
      simp only [Option.toList_some, List.mem_singleton, forall_eq]
      constructor
      · rintro ⟨found, hfound, hrest⟩
        obtain ⟨hnot, haccounts⟩ := ite_throw_eq_ok.mp hrest
        rw [Bool.not_eq_true] at hnot
        exact ⟨by rw [hfound, hnot], haccounts⟩
      · rintro ⟨hfound, haccounts⟩
        exact ⟨false, hfound, ite_throw_eq_ok.mpr ⟨by simp, haccounts⟩⟩

lemma doEvaluate_eq_ok : db.doEvaluate stack o = .ok acnt ↔
    (∀ a ∈ o.newAuthorities, (db.verifyAccountAuth o.account stack a db.udep).1 = .ok false ∧
      db.verifyAuthorityAccounts a = .ok ()) ∧ db.evaluateAccount o = .ok acnt := by
  simp only [doEvaluate, except_bind_eq_ok, checkAuthority_eq_ok, AccountUpdate.newAuthorities,
    List.forall_mem_append, exists_const, and_assoc]

/-- The account that is evaluated is the one in the database. -/
lemma lookup_of_evaluateAccount (h : db.evaluateAccount o = .ok acnt) :
    db.accounts.lookup o.account = some acnt := by
  simp only [evaluateAccount, except_bind_eq_ok] at h
  obtain ⟨-, -, -, -, h⟩ := h
  cases hl : db.accounts.lookup o.account with
  | none => rw [hl] at h; cases h
  | some acnt' =>
      rw [hl] at h
      simp only [ite_throw_eq_ok] at h
      obtain ⟨-, -, -, h⟩ := h
      rw [Except.ok.inj h]

lemma applyUpdate_eq_ok {validOptions : ν → Bool} {db' : AccountDb κ α ν} :
    db.applyUpdate validOptions stack o = .ok db' ↔ o.validate validOptions = true ∧
      ∃ acnt, db.doEvaluate stack o = .ok acnt ∧ db' = db.doApply o acnt := by
  rw [applyUpdate, ite_throw_eq_ok, except_bind_eq_ok, not_not]
  refine and_congr_right fun _ => exists_congr fun acnt => and_congr_right fun _ => ?_
  exact ⟨fun h => (Except.ok.inj h).symm, fun h => congrArg Except.ok h.symm⟩

/-! ### The updated graph -/

lemma lookup_doApply (db : AccountDb κ α ν) (b : ℕ) : (db.doApply o acnt).accounts.lookup b =
    if b = o.account then some (changed o acnt) else db.accounts.lookup b := by
  split_ifs with hb
  · rw [hb]
    exact AList.lookup_insert _
  · exact AList.lookup_insert_ne hb

/-- The authorities of the updated account are the new ones and some old ones. -/
lemma mem_authorities_changed (h : auth ∈ (changed o acnt).authorities) :
    auth ∈ o.newAuthorities ∨ auth ∈ acnt.authorities := by
  have hfield : ∀ (x : Option (Authority κ α)) {a : Authority κ α}, auth = x.getD a →
      auth ∈ x.toList ∨ auth = a := by
    intro x a hx
    cases x with
    | none => exact .inr hx
    | some a' => exact .inl (by simpa using hx)
  simp only [AccountObject.authorities, changed, List.mem_cons, List.not_mem_nil, or_false] at h
  simp only [AccountUpdate.newAuthorities, AccountObject.authorities, List.mem_append,
    List.mem_cons, List.not_mem_nil, or_false]
  rcases h with h | h | h
  · exact (hfield _ h).imp (fun h => .inl (.inl h)) fun h => .inl h
  · exact (hfield _ h).imp (fun h => .inl (.inr h)) fun h => .inr (.inl h)
  · exact (hfield _ h).imp (fun h => .inr h) fun h => .inr (.inr h)

lemma authorities_changed_of_mem (h : auth ∈ o.newAuthorities) :
    auth ∈ (changed o acnt).authorities := by
  simp only [AccountUpdate.newAuthorities, List.mem_append, Option.mem_toList] at h
  rcases h with (h | h) | h
  all_goals simp_all [AccountObject.authorities, changed]

/-- Only what the updated account names has changed. -/
lemma names_doApply_of_ne {a b : ℕ} (ha : a ≠ o.account) :
    (db.doApply o acnt).Names a b ↔ db.Names a b := by
  unfold Names
  rw [lookup_doApply, if_neg ha]

variable (db o) in
/-- The account that is updated can be reached from one that a new authority names. -/
def Reached : Prop :=
  ∃ auth ∈ o.newAuthorities, ∃ b ∈ auth.accounts, ReflTransGen db.Names b o.account

/-- The update makes a circle exactly if the account can be reached. -/
lemma acyclic_doApply_iff (h : Acyclic db.Names) (hacnt : db.accounts.lookup o.account = some acnt) :
    Acyclic (db.doApply o acnt).Names ↔ ¬ Reached db o := by
  rw [acyclic_iff_of_replaced h fun a b ha => names_doApply_of_ne ha]
  have hself : (db.doApply o acnt).accounts.lookup o.account = some (changed o acnt) := by
    rw [lookup_doApply, if_pos rfl]
  constructor
  · rintro hnew ⟨auth, hauth, b, hb, hreach⟩
    exact hnew b ⟨changed o acnt, hself, auth, authorities_changed_of_mem hauth, hb⟩ hreach
  · rintro hnot b ⟨acnt', hacnt', auth, hauth, hb⟩ hreach
    obtain rfl : changed o acnt = acnt' := Option.some.inj (hself.symm.trans hacnt')
    rcases mem_authorities_changed hauth with hauth | hauth
    · exact hnot ⟨auth, hauth, b, hb, hreach⟩
    · -- an old authority would have made a circle before
      exact h o.account (.head' ⟨acnt, hacnt, auth, hauth, hb⟩ hreach)

/-! ### When a circle is noticed -/

variable (db o) in
/-- The update passes its other checks: those of the operation, the members of the new
authorities, and the account. -/
structure OtherChecks (validOptions : ν → Bool) : Prop where
  valid : o.validate validOptions = true
  members : ∀ auth ∈ o.newAuthorities, db.verifyAuthorityAccounts auth = .ok ()
  account : ∃ acnt, db.evaluateAccount o = .ok acnt

variable (db o) in
/-- If an update that passes the other checks would make a circle, then the search looks at an
authority, below a new one, that names the account or one that is not there. -/
def Guarded (validOptions : ν → Bool) (stack : ℕ) : Prop :=
  OtherChecks db o validOptions → Reached db o →
    ∃ auth ∈ o.newAuthorities, ∃ a ∈ db.lookedAt stack auth, ¬ db.Harmless o.account a

variable {validOptions : ν → Bool}

/-- A walk that ends before the counter comes to zero leaves nothing out. -/
lemma kept_countDown {dep : ℕ} {l : List (Authority κ α × ℕ)} (hl : l.length < dep)
    (hdep : dep < 2 ^ 32) : kept countDown (· ≤ 0) dep 0 l = l.map Prod.fst := by
  induction l generalizing dep with
  | nil => rfl
  | cons p l ih =>
      obtain ⟨a, below⟩ := p
      rw [List.length_cons] at hl
      have hdown : countDown dep = dep - 1 := by
        rw [countDown]
        omega
      rw [kept, hdown, if_neg (by omega), ih (by omega) (by omega), List.map_cons]

/-- Below an authority that leads to an account there is one that names it. -/
lemma exists_mem_depthFirst {b : ℕ} (hb : b ∈ auth.accounts) (hreach : ReflTransGen db.Names b id)
    (hw : ∀ b ∈ auth.accounts, Within db.Names n b) :
    ∃ p ∈ db.depthFirst (n + 1) auth, id ∈ p.1.accounts := by
  induction hreach using ReflTransGen.head_induction_on generalizing auth n with
  | refl => exact ⟨_, List.mem_cons_self, hb⟩
  | @head b c hbc _ ih =>
      obtain ⟨acnt, hacnt, auth', hauth', hc⟩ := hbc
      cases n with
      | zero => exact (hw b hb).elim
      | succ n =>
          obtain ⟨p, hp, hid⟩ := ih hc fun d hd => hw b hb d ⟨acnt, hacnt, auth', hauth', hd⟩
          refine ⟨p, List.mem_cons_of_mem _ (List.mem_flatMap.mpr ⟨b, hb, ?_⟩), hid⟩
          rw [authoritiesOf, hacnt]
          exact List.mem_flatMap.mpr ⟨auth', hauth', hp⟩

/-- An update is guarded if there are no more authorities below the new ones than
`maximum_authority_membership`. -/
theorem guarded_of_length_le (h : Acyclic db.Names) (hstack : db.accounts.keys.length + 1 < stack)
    (hmax : db.maximumAuthorityMembership + 1 < 2 ^ 32)
    (hlength : ∀ auth ∈ o.newAuthorities,
      (db.depthFirst stack auth).length ≤ db.maximumAuthorityMembership) :
    Guarded db o validOptions stack := by
  obtain ⟨n, rfl⟩ : ∃ n, stack = n + 1 := ⟨stack - 1, by omega⟩
  rintro - ⟨auth, hauth, b, hb, hreach⟩
  have hn : db.accounts.keys.length < n := by omega
  obtain ⟨p, hp, hid⟩ := exists_mem_depthFirst hb hreach fun b _ => within_names h hn b
  have hlt := hlength auth hauth
  have hudep : db.udep = db.maximumAuthorityMembership + 1 := Nat.mod_eq_of_lt hmax
  refine ⟨auth, hauth, p.1, ?_, fun hharm => hharm.1 hid⟩
  rw [lookedAt, hudep, kept_countDown (by omega) hmax]
  exact List.mem_map_of_mem hp

variable (o validOptions) in
/-- An update is accepted exactly if it passes the other checks and the search, where it looks,
finds nothing. -/
lemma exists_applyUpdate_iff (h : Acyclic db.Names) (hstack : db.accounts.keys.length + 1 < stack) :
    (∃ db', db.applyUpdate validOptions stack o = .ok db') ↔
      OtherChecks db o validOptions ∧
        ∀ auth ∈ o.newAuthorities, ∀ a ∈ db.lookedAt stack auth, db.Harmless o.account a := by
  obtain ⟨n, rfl⟩ : ∃ n, stack = n + 1 := ⟨stack - 1, by omega⟩
  have hsearch : ∀ auth, (db.verifyAccountAuth o.account (n + 1) auth db.udep).1 = .ok false ↔
      ∀ a ∈ db.lookedAt (n + 1) auth, db.Harmless o.account a :=
    fun auth => verifyAccountAuth_eq_false fun b _ => within_names h (by omega) b
  simp only [applyUpdate_eq_ok, doEvaluate_eq_ok, hsearch]
  constructor
  · rintro ⟨db', hvalid, acnt, ⟨hnew, hacnt⟩, -⟩
    exact ⟨⟨hvalid, fun auth hauth => (hnew auth hauth).2, acnt, hacnt⟩,
      fun auth hauth => (hnew auth hauth).1⟩
  · rintro ⟨⟨hvalid, hmembers, acnt, hacnt⟩, hfound⟩
    exact ⟨db.doApply o acnt, hvalid, acnt,
      ⟨fun auth hauth => ⟨hfound auth hauth, hmembers auth hauth⟩, hacnt⟩, rfl⟩

/-- **An update of the authorities.** In a graph of accounts without circles, an update that is
accepted leaves a graph without circles exactly if a circle would be noticed. -/
theorem applyUpdate_acyclic_iff (h : Acyclic db.Names)
    (hstack : db.accounts.keys.length + 1 < stack) :
    (∀ db', db.applyUpdate validOptions stack o = .ok db' → Acyclic db'.Names) ↔
      Guarded db o validOptions stack := by
  have haccept := exists_applyUpdate_iff o validOptions h hstack
  constructor
  · intro hkeeps hother hreached
    by_contra hnone
    push Not at hnone
    obtain ⟨db', hdb'⟩ := haccept.mpr ⟨hother, hnone⟩
    have hacyclic := hkeeps db' hdb'
    obtain ⟨-, acnt, heval, rfl⟩ := applyUpdate_eq_ok.mp hdb'
    have hacnt := lookup_of_evaluateAccount (doEvaluate_eq_ok.mp heval).2
    exact (acyclic_doApply_iff h hacnt).mp hacyclic hreached
  · intro hguarded db' hdb'
    obtain ⟨hother, hfound⟩ := haccept.mp ⟨db', hdb'⟩
    obtain ⟨-, acnt, heval, rfl⟩ := applyUpdate_eq_ok.mp hdb'
    have hacnt := lookup_of_evaluateAccount (doEvaluate_eq_ok.mp heval).2
    refine (acyclic_doApply_iff h hacnt).mpr fun hreached => ?_
    obtain ⟨auth, hauth, a, ha, hnot⟩ := hguarded hother hreached
    exact hnot (hfound auth hauth a ha)

end AccountDb

/-! ### Two accounts -/

/-- Account 6 names account 5 in its owner authority. -/
def twoAccountsDb (maximum : ℕ) : AccountDb ℕ ℕ Unit where
  accounts := ((∅ : AList fun _ => AccountObject ℕ ℕ Unit).insert 5 { options := () }).insert 6
    { owner := { weightThreshold := 1, accountAuths := [(5, 1)] }, options := () }
  maximumAuthorityMembership := maximum
  hasAsset _ := true
  verifyAccountVotes _ := true

/-- Account `account` gets an active authority that names account `named`. -/
def nameAccount (account named : ℕ) : AccountUpdate ℕ ℕ Unit where
  account := account
  active := some { weightThreshold := 1, accountAuths := [(named, 1)] }

lemma acyclic_twoAccountsDb (maximum : ℕ) : Acyclic (twoAccountsDb maximum).Names := by
  refine acyclic_of_lt fun a b hab => ?_
  have ha : a ∈ [6, 5] := AccountDb.mem_keys_of_names hab
  have ha : a = 6 ∨ a = 5 := by simpa using ha
  obtain ⟨acnt, hacnt, auth, hauth, hb⟩ := hab
  rcases ha with rfl | rfl
  · obtain rfl := Option.some.inj hacnt
    have hb5 : b = 5 := by
      simp [AccountObject.authorities] at hauth
      rcases hauth with rfl | rfl
      · simpa [Authority.accounts] using hb
      · simp [Authority.accounts] at hb
    omega
  · obtain rfl := Option.some.inj hacnt
    simp [AccountObject.authorities] at hauth
    subst hauth
    simp [Authority.accounts] at hb

/-- Account 6 may name account 5 in its active authority too. -/
theorem applyUpdate_acyclic_iff_twoAccounts :
    Acyclic (twoAccountsDb 10).Names ∧
    ((∀ db', (twoAccountsDb 10).applyUpdate (fun _ => true) 4 (nameAccount 6 5) = .ok db' →
        Acyclic db'.Names) ↔
      AccountDb.Guarded (twoAccountsDb 10) (nameAccount 6 5) (fun _ => true) 4) ∧
    AccountDb.Guarded (twoAccountsDb 10) (nameAccount 6 5) (fun _ => true) 4 := by
  have hacyclic : Acyclic (twoAccountsDb 10).Names := acyclic_twoAccountsDb 10
  refine ⟨hacyclic, AccountDb.applyUpdate_acyclic_iff hacyclic (by decide), ?_⟩
  exact AccountDb.guarded_of_length_le hacyclic (by decide) (by decide) (by decide)

/-- If an authority may have one member only, then account 5 may name account 6 all the same: the
counter comes to zero at the owner authority of account 6, so that nobody looks at it. -/
theorem twoAccounts_circle :
    Acyclic (twoAccountsDb 1).Names ∧
    ∃ db', (twoAccountsDb 1).applyUpdate (fun _ => true) 4 (nameAccount 5 6) = .ok db' ∧
      ¬ Acyclic db'.Names := by
  refine ⟨acyclic_twoAccountsDb 1, _, AccountDb.applyUpdate_eq_ok.mpr ⟨by decide, { options := () },
    AccountDb.doEvaluate_eq_ok.mpr ⟨by decide, rfl⟩, rfl⟩, fun hacyclic => ?_⟩
  have h56 : ((twoAccountsDb 1).doApply (nameAccount 5 6) { options := () }).Names 5 6 :=
    ⟨_, rfl, _, List.mem_cons_of_mem _ List.mem_cons_self, by decide⟩
  have h65 : ((twoAccountsDb 1).doApply (nameAccount 5 6) { options := () }).Names 6 5 :=
    ⟨_, rfl, _, List.mem_cons_self, by decide⟩
  exact hacyclic 5 (.head h56 (.single h65))

end ZosCore
