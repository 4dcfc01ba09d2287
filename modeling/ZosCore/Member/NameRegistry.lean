import ZosCore.Member.SpecialAuthorities
import ZosCore.Protocol.AccountNames

/-!
The names of the accounts that are created.

`account_create` looks its name up in the index `by_name` as it stands, but `is_valid_name` looks at the
name in small letters.

* `NameStore.create`: the creation of an account, with its name.
* `NameStore.apart_of_created`: what one creation does to the names.
* **`isValidName_iff_and_apart`**: the grammar holds of a name exactly where it has no capital letter
  or is not valid, and without capital letters no two accounts get names that differ in them only.
-/

namespace ZosCore

variable {κ α ν : Type}

/-- `is_safe_string`: no quotation marks (34), `<` (60), `>` (62) and apostrophes (39). -/
def isSafeString (s : String) : Bool :=
  s.toList.all fun c => c.toNat ≠ 34 && c.toNat ≠ 60 && c.toNat ≠ 62 && c.toNat ≠ 39

/-- The loop of `is_cheap_name`; `v` is set by the vowels. -/
def isCheapFrom : List Char → Bool → Bool
  | [], v => !v
  | c :: n, v =>
      if '0' ≤ c ∧ c ≤ '9' then true
      else if c = '.' ∨ c = '-' ∨ c = '/' then true
      else isCheapFrom n (v || ['a', 'e', 'i', 'o', 'u', 'y'].contains c)

/-- `is_cheap_name` -/
def isCheapName (n : String) : Bool :=
  if 8 < n.length then true
  else if n.length ≤ 2 then false
  else isCheapFrom n.toList false

/-! ### The creation of accounts -/

/-- What a creation depends on besides the names: the time, and the checks of options, of the voting
account, of the account that pays and of the asset that is bought back. -/
structure NameRules (ν : Type) where
  validOptions : ν → Bool
  headBlockTime : ℕ
  findVotingAccount : ν → Bool
  isLifetimeMember : ℕ → Bool
  isLockBalance : ℕ → Bool
  evaluateBuyback : BuybackOptions → Bool

/-- The accounts with the index `by_name`, and the names of those that `account_create` has made. -/
structure NameStore (κ α ν : Type) extends AccountStore κ α ν where
  byName : List String
  created : List String := []

namespace NameStore

/-- The checks of names in `account_create_operation::validate` and
`account_create_evaluator::do_evaluate`, among the others. -/
def rules (R : NameRules ν) (s : NameStore κ α ν) : CreateRules κ α ν where
  isValidName name := isValidName name && isSafeString name
  validOptions := R.validOptions
  headBlockTime := R.headBlockTime
  checksAccounts _ o := R.findVotingAccount o.options &&
    (R.isLifetimeMember o.registrar || !isCheapName o.name) && !R.isLockBalance o.registrar &&
      o.buybackOptions.all R.evaluateBuyback && (o.name.length = 0 || !s.byName.contains o.name)

/-- An account is created, and its name put into the index. -/
def create (R : NameRules ν) (s : NameStore κ α ν) (o : AccountCreate κ α ν) :
    Except UpdateError (NameStore κ α ν) := do
  let store ← s.toAccountStore.createAccount (s.rules R) o
  return { s with
    toAccountStore := store
    byName := o.name :: s.byName
    created := o.name :: s.created }

end NameStore

/-- What happens to the accounts. Nothing but a creation changes the names. -/
inductive NameEvent (κ α ν : Type) where
  | create (R : NameRules ν) (o : AccountCreate κ α ν)
  | other (f : AccountStore κ α ν → AccountStore κ α ν)

/-- An operation that fails leaves everything as it was. -/
def NameStore.handle (s : NameStore κ α ν) : NameEvent κ α ν → NameStore κ α ν
  | .create R o => resultOr s (s.create R o)
  | .other f => { s with toAccountStore := f s.toAccountStore }

/-- The name of a creation has no capital letter, if it is valid. -/
def HasSmallName (_ : NameStore κ α ν) : NameEvent κ α ν → Prop
  | .create _ o => isValidName o.name = true → ∀ c ∈ o.name.toList, c.isUpper = false
  | .other _ => True

/-- No two of the accounts that have been created have names that differ in capital letters only. -/
def NameStore.NamesApart (s : NameStore κ α ν) : Prop :=
  s.created.Pairwise fun n n' => toLower n.toList ≠ toLower n'.toList

/-- The names in small letters are in the index, and they are different. -/
structure NameStore.SmallNames (s : NameStore κ α ν) : Prop where
  indexed : ∀ n ∈ s.created, n ∈ s.byName
  small : ∀ n ∈ s.created, ∀ c ∈ n.toList, c.isUpper = false
  nodup : s.created.Nodup

namespace NameStore

variable {s s' : NameStore κ α ν} {R : NameRules ν} {o : AccountCreate κ α ν}

/-- A creation puts a valid name into the index that was not there. -/
lemma create_eq_ok (h : s.create R o = .ok s') :
    isValidName o.name = true ∧ o.name ∉ s.byName ∧ s'.byName = o.name :: s.byName ∧
      s'.created = o.name :: s.created := by
  obtain ⟨store, hstore, hs'⟩ := except_bind_eq_ok.mp h
  rw [AccountStore.createAccount, ite_throw_eq_ok, not_not] at hstore
  obtain ⟨_, hevaluate, -⟩ := except_bind_eq_ok.mp hstore.2
  rw [AccountStore.evaluateCreate, ite_throw_eq_ok, not_not] at hevaluate
  have hvalid := hstore.1
  have hchecks := hevaluate.1
  simp only [AccountCreate.validate, rules, decide_eq_true_eq, Bool.and_eq_true] at hvalid
  simp only [rules, Bool.and_eq_true, Bool.or_eq_true, Bool.not_eq_true', decide_eq_true_eq] at hchecks
  have hname : isValidName o.name = true := hvalid.2.1.1
  have hnew : o.name ∉ s.byName := by
    rcases hchecks.2 with hempty | hnew
    · have hminimum := ((isValidName_iff o.name).mp hname).minimum
      rw [toLower, List.length_map, String.length_toList, hempty] at hminimum
      exact absurd hminimum (by decide)
    · simpa using hnew
  cases hs'
  exact ⟨hname, hnew, rfl, rfl⟩

/-- An event keeps the names in small letters, if its own name is. -/
lemma SmallNames.handle (hs : s.SmallNames) (e : NameEvent κ α ν) (he : HasSmallName s e) :
    (s.handle e).SmallNames := by
  cases e with
  | other f => exact ⟨hs.indexed, hs.small, hs.nodup⟩
  | create R o =>
      rw [NameStore.handle]
      cases hcreate : s.create R o with
      | error e => exact hs
      | ok s' =>
          obtain ⟨hvalid, hnew, hbyName, hcreated⟩ := create_eq_ok hcreate
          rw [resultOr]
          refine ⟨?_, ?_, ?_⟩
          · rw [hcreated, hbyName]
            intro n hn
            rcases List.mem_cons.mp hn with rfl | hn
            · exact List.mem_cons_self
            · exact List.mem_cons_of_mem _ (hs.indexed n hn)
          · rw [hcreated]
            intro n hn
            rcases List.mem_cons.mp hn with rfl | hn
            · exact he hvalid
            · exact hs.small n hn
          · rw [hcreated]
            exact List.nodup_cons.mpr ⟨fun hn => hnew (hs.indexed _ hn), hs.nodup⟩

/-- Different names in small letters are apart. -/
lemma SmallNames.namesApart (hs : s.SmallNames) : s.NamesApart := by
  refine (List.Pairwise.and_mem.mp hs.nodup).imp fun {n n'} h => ?_
  rw [toLower_eq_self (hs.small n h.1), toLower_eq_self (hs.small n' h.2.1)]
  exact fun heq => h.2.2 (String.toList_inj.mp heq)

end NameStore

/-! ### The grammar, and names that are apart -/

/-- The code and the grammar agree on a name exactly if it has no capital letter, or is not in the
grammar in small letters either. -/
lemma isValidName_iff_isName_iff (s : String) : (isValidName s = true ↔ IsName s.toList) ↔
    (∀ c ∈ s.toList, c.isUpper = false) ∨ ¬ IsName (toLower s.toList) := by
  rw [isValidName_iff]
  constructor
  · intro h
    by_cases hname : IsName (toLower s.toList)
    · exact .inl (h.mp hname).labels.not_isUpper
    · exact .inr hname
  · rintro (hsmall | hno)
    · rw [toLower_eq_self hsmall]
    · refine iff_of_false hno fun h => hno ?_
      rwa [toLower_eq_self h.labels.not_isUpper]

/-- **Names of accounts.** The names that are valid are those of the grammar, except for names with
capital letters that would be in the grammar without; and as long as no account is created with a valid
name that has a capital letter, no two accounts get names that differ in capital letters only. -/
theorem isValidName_iff_and_apart :
    (∀ s : String, (isValidName s = true ↔ IsName s.toList) ↔
      (∀ c ∈ s.toList, c.isUpper = false) ∨ ¬ IsName (toLower s.toList)) ∧
    ∀ (s : NameStore κ α ν) (es : List (NameEvent κ α ν)), s.created = [] →
      Runs.Each NameStore.handle HasSmallName s es →
        Runs.Always NameStore.handle NameStore.NamesApart s es := by
  refine ⟨isValidName_iff_isName_iff, fun s es hcreated hes => ?_⟩
  have hfirst : s.SmallNames := by
    refine ⟨?_, ?_, ?_⟩
    · simp [hcreated]
    · simp [hcreated]
    · simp [hcreated]
  exact (Runs.always_of_each (fun s e hs he => hs.handle e he) hfirst hes).imp
    fun s hs => hs.namesApart

/-! ### Two accounts -/

/-- No conditions but those on names. -/
def lenientNames : NameRules Unit where
  validOptions _ := true
  headBlockTime := hardfork200101Time
  findVotingAccount _ := true
  isLifetimeMember _ := true
  isLockBalance _ := false
  evaluateBuyback _ := true

/-- No accounts. -/
def noNames : NameStore ℕ ℕ Unit where
  toAccountStore := noAccounts
  byName := []

/-- An account with a key and a name. -/
def createNamed (name : String) : NameEvent ℕ ℕ Unit :=
  .create lenientNames
    { registrar := 0
      referrer := 0
      name
      owner := { weightThreshold := 1, keyAuths := [(7, 1)] }
      active := { weightThreshold := 1, keyAuths := [(7, 1)] }
      options := () }

lemma not_isUpper_of_all {s : String} (h : (s.toList.all fun c => !c.isUpper) = true) :
    ∀ c ∈ s.toList, c.isUpper = false :=
  fun c hc => Bool.not_eq_true' _ ▸ List.all_eq_true.mp h c hc

/-- Two accounts with names in small letters. -/
theorem isValidName_iff_and_apart_small :
    Runs.Always NameStore.handle NameStore.NamesApart noNames
      [createNamed "alice", createNamed "bob.alice"] :=
  isValidName_iff_and_apart.2 noNames _ rfl
    ⟨fun _ => not_isUpper_of_all (s := "alice") (by decide),
      fun _ => not_isUpper_of_all (s := "bob.alice") (by decide), trivial⟩

/-- The name `Alice` is valid but not in the grammar, and it is given beside `alice`. -/
theorem not_isName_and_apart :
    ¬ (∀ s : String, isValidName s = true ↔ IsName s.toList) ∧
      ¬ ∀ es : List (NameEvent ℕ ℕ Unit),
        Runs.Always NameStore.handle NameStore.NamesApart noNames es := by
  constructor
  · intro h
    have hvalid : isValidName "Alice" = true := by decide +kernel
    have hcapital := ((h "Alice").mp hvalid).labels.not_isUpper 'A' (by decide)
    exact absurd hcapital (by decide)
  · intro h
    have hnames : ((noNames.handle (createNamed "alice")).handle
      (createNamed "Alice")).created = ["Alice", "alice"] := by decide +kernel
    have hapart := (h [createNamed "alice", createNamed "Alice"]).2.2
    rw [Runs.Always, NameStore.NamesApart, hnames] at hapart
    exact absurd hapart (by decide)

end ZosCore
