import ZosCore.Lib.Shrink
import ZosCore.Protocol.Approvals

/-!
`signed_transaction::get_required_signatures` and `minimize_required_signatures`.

A wallet that has a set of keys asks which of them a transaction still needs. The search goes
through the required authorities as `verify_authority` does, with a key that is available for one
that has signed, and returns the available keys that it has used. They may be more than are
needed: `minimize_required_signatures` tries to do without each of them in turn, in the order of
the keys, and asks `verify_authority` about the rest.

The search comes to the required owners before the required accounts, `verify_authority` to the
accounts first. An account that was found is not visited again, and one that is too deep is passed
over, so that the two may visit different accounts (`not_minimized_reversed`).

* `SigningRequest`: a transaction, the keys at hand, and the accounts.
* `getRequiredSignatures`, `minimizeRequiredSignatures`.
-/

namespace ZosCore

open Exec

/-- The elements of a list in their order, each of them once: a `std::set`. -/
def sortedSet {κ : Type} [LinearOrder κ] (l : List κ) : List κ := l.dedup.insertionSort (· ≤ ·)

lemma mem_sortedSet {κ : Type} [LinearOrder κ] {l : List κ} {k : κ} : k ∈ sortedSet l ↔ k ∈ l := by
  rw [sortedSet, List.mem_insertionSort, List.mem_dedup]

lemma nodup_sortedSet {κ : Type} [LinearOrder κ] (l : List κ) : (sortedSet l).Nodup := by
  rw [sortedSet, (List.perm_insertionSort (· ≤ ·) l.dedup).nodup_iff]
  exact l.nodup_dedup

/-- `transaction::get_required_authorities`: an account that is required as owner is not required
as active any more. -/
def Required.ofTransaction {κ α : Type} (r : Required κ α) : Required κ α :=
  { r with active := r.active.filter fun id => id ∉ r.owner }

/-- What the two functions read: what the operations of the transaction require, the keys that
have signed it, those that are available, the authorities of the accounts, and the depth. -/
structure SigningRequest (κ α : Type) where
  addresses : κ → List α
  getActive : ℕ → Authority κ α
  getOwner : ℕ → Authority κ α
  maxRecursion : ℕ
  required : Required κ α
  signatureKeys : List κ
  availableKeys : List κ

/-- `check_authority( const authority*, 0 )`, as a parameter of the searches. -/
abbrev AuthorityCheck (κ α : Type) : Type :=
  Authority κ α → Exec (SignState κ α) AuthorityError Bool

namespace SigningRequest

variable {κ α : Type} (S : SigningRequest κ α)

/-! ### `get_required_signatures` -/

section Search

variable (checkAuthority : AuthorityCheck κ α)

/-- `check_authority( account_id_type )`. -/
def checkAccount (id : ℕ) : Exec (SignState κ α) AuthorityError Bool := do
  let s ← gets fun s => s
  if id ∈ s.approvedBy then return true
  else checkAuthority (S.getActive id)

/-- A check of an authority, the result of which is not used. -/
def search (auth : Authority κ α) : Exec (SignState κ α) AuthorityError Unit := do
  let _ ← checkAuthority auth
  return ()

/-- `s.check_authority( active ) || s.check_authority( get_owner( active ) )` -/
def searchActive (id : ℕ) : Exec (SignState κ α) AuthorityError Unit := do
  if ← S.checkAccount checkAuthority id then return ()
  search checkAuthority (S.getOwner id)

/-- The checks of `get_required_signatures`. -/
def searchRequired (r : Required κ α) : Exec (SignState κ α) AuthorityError Unit := do
  forEach (search checkAuthority) r.other
  forEach (fun id => search checkAuthority (S.getOwner id)) r.owner
  forEach (S.searchActive checkAuthority) r.active

/-- The `sign_state` that a search starts from. -/
def signState (sigs available : List κ) : SignState κ α where
  availableKeys := available
  providedSignatures := sigs.map fun k => (k, false)
  approvedBy := approvals [] []

variable [LinearOrder κ]

/-- The available keys that a search has used, after `remove_unused_signatures`. -/
def usedKeys (s : SignState κ α) : List κ :=
  sortedSet (((s.providedSignatures.filter fun e => e.2).map Prod.fst).filter fun k =>
    k ∈ S.availableKeys ∧ k ∉ S.signatureKeys)

/-- `get_required_signatures`, over a check of an authority. -/
def requiredBy : Except AuthorityError (List κ) :=
  match S.searchRequired checkAuthority S.required.ofTransaction
      (signState S.signatureKeys S.availableKeys) with
  | (.ok _, s) => .ok (S.usedKeys s)
  | (.error e, _) => .error e

end Search

variable [LinearOrder κ] [DecidableEq α]

/-- `get_required_signatures`. -/
def getRequiredSignatures : Except AuthorityError (List κ) :=
  S.requiredBy (SignState.checkAuthority S.addresses S.getActive S.maxRecursion)

/-! ### `minimize_required_signatures` -/

/-- `verify_authority( operations, keys, get_active, get_owner, max_recursion )`, without the
committee and without approvals. -/
def verify (keys : List κ) : Except AuthorityError Unit :=
  verifyAuthority S.addresses S.getActive S.getOwner keys S.maxRecursion false [] [] S.required

/-- The exceptions that are caught: those for an authority that is missing. -/
def caught : AuthorityError → Bool
  | .missingOwnerAuth _ => true
  | .missingActiveAuth _ => true
  | .missingOtherAuth => true
  | _ => false

/-- Whether `verify_authority` accepts the keys. -/
def willDo (verify : List κ → Except AuthorityError Unit) (keys : List κ) :
    Except AuthorityError Bool :=
  match verify keys with
  | .ok () => .ok true
  | .error e => if caught e then .ok false else .error e

/-- The loop of `minimize_required_signatures`. A key that is put back leaves the set as it was
before the key was erased. -/
def minimizeBy (required : Except AuthorityError (List κ))
    (verify : List κ → Except AuthorityError Unit) : Except AuthorityError (List κ) := do
  let s ← required
  shrink (willDo verify) s s

/-- `minimize_required_signatures`. -/
def minimizeRequiredSignatures : Except AuthorityError (List κ) :=
  minimizeBy S.getRequiredSignatures S.verify

/-! ### What is returned -/

variable {S}

section WillDo

variable {verify : List κ → Except AuthorityError Unit} {keys : List κ}

omit [LinearOrder κ] in
lemma willDo_error {e : AuthorityError} (h : verify keys = .error e) :
    willDo verify keys = if caught e then .ok false else .error e := by
  rw [willDo, h]

omit [LinearOrder κ] in
lemma willDo_true : willDo verify keys = .ok true ↔ verify keys = .ok () := by
  cases h : verify keys with
  | ok u =>
      refine iff_of_true ?_ rfl
      rw [willDo, h]
  | error e =>
      rw [willDo_error h]
      split_ifs <;> simp

omit [LinearOrder κ] in
lemma willDo_false : willDo verify keys = .ok false ↔
    ∃ e, verify keys = .error e ∧ caught e = true := by
  cases h : verify keys with
  | ok u => simp [willDo, h]
  | error e =>
      rw [willDo_error h]
      split_ifs with hc <;> simp [hc]

omit [LinearOrder κ] in
lemma willDo_eq_error {e : AuthorityError} : willDo verify keys = .error e ↔
    verify keys = .error e ∧ caught e = false := by
  cases h : verify keys with
  | ok u => simp [willDo, h]
  | error e' =>
      rw [willDo_error h]
      split_ifs with hc
      · refine iff_of_false (by simp) ?_
        rintro ⟨heq, hfalse⟩
        cases heq
        rw [hc] at hfalse
        exact Bool.false_ne_true hfalse.symm
      · have hf : caught e' = false := Bool.eq_false_of_not_eq_true hc
        constructor
        · rintro ⟨⟩
          exact ⟨rfl, hf⟩
        · rintro ⟨⟨⟩, -⟩
          rfl

end WillDo

variable (S) in
/-- The keys `result` of `keys` will do if all of them do, and then none of `result` can be left
out. -/
structure Minimized (keys result : List κ) : Prop where
  subset : result ⊆ keys
  suffices_all : S.verify keys = .ok () → S.verify result = .ok ()
  minimal : S.verify keys = .ok () → ∀ k ∈ result, S.verify (result.erase k) ≠ .ok ()

variable (S) in
/-- No signature is found to be irrelevant, and what is returned is a set of required keys that
will do and is minimal. -/
def MinimizationLaw : Prop :=
  S.minimizeRequiredSignatures ≠ .error .irrelevantSig ∧
  ∃ keys result, S.getRequiredSignatures = .ok keys ∧ S.minimizeRequiredSignatures = .ok result ∧
    S.Minimized keys result

end SigningRequest

/-! ### Required in one order, and verified in the other -/

/-- Accounts 6 and 7 need account 9, which needs account 10, which has the key 3. Account 8 needs
the keys 1 and 2. -/
def chainActive (id : ℕ) : Authority ℕ ℕ :=
  if id = 6 ∨ id = 7 then { weightThreshold := 1, accountAuths := [(9, 1)] }
  else if id = 8 then { weightThreshold := 2, keyAuths := [(1, 1), (2, 1)] }
  else if id = 9 then { weightThreshold := 1, accountAuths := [(10, 1)] }
  else if id = 10 then { weightThreshold := 1, keyAuths := [(3, 1)] }
  else { weightThreshold := 1 }

/-- The owner of account 5 is account 7 or account 8. -/
def chainOwner (id : ℕ) : Authority ℕ ℕ :=
  if id = 5 then { weightThreshold := 1, accountAuths := [(7, 1), (8, 1)] }
  else { weightThreshold := 1 }

/-- A transaction that needs the owner of account 5 and account 6. -/
def chainRequest (maxRecursion : ℕ) : SigningRequest ℕ ℕ where
  addresses k := [k + 100]
  getActive := chainActive
  getOwner := chainOwner
  maxRecursion := maxRecursion
  required := { active := [6], owner := [5] }
  signatureKeys := []
  availableKeys := [1, 2, 3]

/-- From the owner of account 5, account 10 is too deep, so that account 8 and the keys 1 and 2 are
used; then account 6 uses the key 3. Without the key 1, `verify_authority` comes to account 6
first, finds account 9, and with it account 7: the key 2 is not used, and it throws. -/
theorem not_minimized_reversed :
    (chainRequest 2).getRequiredSignatures = .ok [1, 2, 3] ∧
    (chainRequest 2).minimizeRequiredSignatures = .error .irrelevantSig ∧
    ¬ (chainRequest 2).MinimizationLaw := by
  have hthrow : (chainRequest 2).minimizeRequiredSignatures = .error .irrelevantSig := by
    decide +kernel
  exact ⟨by decide +kernel, hthrow, fun h => h.1 hthrow⟩

end ZosCore
