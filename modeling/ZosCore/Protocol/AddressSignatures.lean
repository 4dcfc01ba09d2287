import ZosCore.Protocol.AuthoritySearch

/-!
Signatures for addresses, after any other questions.

The two maps of addresses are made once, and keys that have only been available are provided later on. So the
maps need not be those of the keys that are provided now; but together they have all keys at hand.

* `Question`, `SignState.Questioned`: the states that any questions for keys and addresses lead to.
* `Serves`: the keys at hand, and the maps, in all of these states.
* `Recognises`: an address of a key at hand is signed by it, and any other is not.
* **`recognises_iff`**: this is so of the addresses of the keys at hand. The rest are undefined.
-/

namespace ZosCore

open Exec

/-- What `signed_by` is asked for. -/
inductive Question (κ α : Type) where
  | key (k : κ)
  | address (a : α)

namespace SignState

variable {κ α : Type} [DecidableEq κ] [DecidableEq α] (addresses : κ → List α) (sigs available : List κ)

/-- `signed_by` -/
def signedBy : Question κ α → Exec (SignState κ α) AuthorityError Bool
  | .key k => signedByKey k
  | .address a => signedByAddress addresses a

/-- The states after any questions. -/
inductive Questioned : SignState κ α → Prop
  | start (approvedBy : List ℕ) : Questioned
      { availableKeys := available, providedSignatures := sigs.map fun k => (k, false), approvedBy }
  | ask {s s' : SignState κ α} {b : Bool} (before : Questioned s) (q : Question κ α)
      (answer : signedBy addresses q s = (.ok b, s')) : Questioned s'

/-- The keys provided and available. -/
def AtHand (k : κ) : Prop := k ∈ sigs ∨ k ∈ available

/-- The addresses of the keys at hand. -/
def knownAddresses : Set α := {a | ∃ k, AtHand sigs available k ∧ a ∈ addresses k}

/-- The keys at hand are those that were there at the start, and so are those of the maps. -/
structure Serves (s : SignState κ α) : Prop where
  available_eq : s.availableKeys = available
  keys : ∀ k, AtHand s.keys available k ↔ AtHand sigs available k
  maps : s.addressSigs = none ∨ ∃ keys, (∀ k, AtHand keys available k ↔ AtHand sigs available k) ∧
    s.addressSigs = some (addressMap addresses available, addressMap addresses keys)

/-- An address of a key at hand is signed, and such a key is used for it; any other is not, and nothing
changes. -/
structure Recognises (s : SignState κ α) (a : α) (b : Bool) (s' : SignState κ α) : Prop where
  answer : b = true ↔ a ∈ knownAddresses addresses sigs available
  used : b = true → ∃ k, AtHand sigs available k ∧ a ∈ addresses k ∧
    s'.providedSignatures = (s.use k).providedSignatures
  unchanged : b = false → s'.providedSignatures = s.providedSignatures
  rest : s'.availableKeys = s.availableKeys ∧ s'.approvedBy = s.approvedBy

variable {addresses sigs available} {s s' : SignState κ α} {k : κ} {a : α}

/-! ### The keys at hand -/

omit [DecidableEq α] in
lemma Serves.use (h : Serves addresses sigs available s) (hk : AtHand sigs available k) :
    Serves addresses sigs available (s.use k) := by
  refine ⟨h.available_eq, fun k' => ?_, h.maps⟩
  rw [AtHand, Keyring.mem_keys_use, or_assoc]
  constructor
  · rintro (rfl | hk')
    · exact hk
    · exact (h.keys k').mp hk'
  · exact fun hk' => .inr ((h.keys k').mpr hk')

omit [DecidableEq κ] [DecidableEq α] in
/-- The maps, as they are or will be. -/
lemma Serves.addressMaps (h : Serves addresses sigs available s) :
    ∃ keys, (∀ k, AtHand keys available k ↔ AtHand sigs available k) ∧
      s.addressMaps addresses = (addressMap addresses available, addressMap addresses keys) := by
  rcases h.maps with hnone | ⟨keys, hkeys, hsome⟩
  · refine ⟨s.keys, h.keys, ?_⟩
    rw [SignState.addressMaps, hnone, h.available_eq]
    rfl
  · refine ⟨keys, hkeys, ?_⟩
    rw [SignState.addressMaps, hsome]
    rfl

omit [DecidableEq κ] [DecidableEq α] in
lemma Serves.makeMaps (h : Serves addresses sigs available s) :
    Serves addresses sigs available { s with addressSigs := some (s.addressMaps addresses) } := by
  obtain ⟨keys, hkeys, hmaps⟩ := h.addressMaps
  exact ⟨h.available_eq, h.keys, .inr ⟨keys, hkeys, congrArg some hmaps⟩⟩

/-! ### Answers -/

omit [DecidableEq α] in
/-- A question for a key. -/
lemma Serves.signedByKey (h : Serves addresses sigs available s) {b : Bool}
    (hb : SignState.signedByKey k s = (.ok b, s')) : Serves addresses sigs available s' := by
  rw [SignState.signedByKey, bind_ok (gets_apply _ _)] at hb
  split_ifs at hb with hk hk'
  · rw [bind_ok (update_apply _ _)] at hb
    cases hb
    exact h.use ((h.keys k).mp (.inl hk))
  · rw [bind_ok (update_apply _ _)] at hb
    cases hb
    exact h.use ((h.keys k).mp (.inr (h.available_eq ▸ hk')))
  · cases hb
    exact h

/-- A question for an address of a key at hand. -/
lemma Serves.signedByAddress_known (h : Serves addresses sigs available s)
    (ha : a ∈ knownAddresses addresses sigs available) :
    ∃ k, AtHand sigs available k ∧ a ∈ addresses k ∧ SignState.signedByAddress addresses a s =
      (.ok true, SignState.use k { s with addressSigs := some (s.addressMaps addresses) }) := by
  obtain ⟨keys, hkeys, hmaps⟩ := h.makeMaps.addressMaps
  obtain ⟨k₀, hk₀, ha₀⟩ := ha
  rw [SignState.signedByAddress, bind_ok (update_apply _ _), bind_ok (gets_apply _ _), hmaps]
  dsimp only
  cases hl : (addressMap addresses keys).lookup a with
  | some k =>
      obtain ⟨hk, ha⟩ := Keyring.lookup_addressMap hl
      exact ⟨k, (hkeys k).mp (.inl hk), ha, rfl⟩
  | none =>
      have hk₀ : k₀ ∈ available := ((hkeys k₀).mpr hk₀).resolve_left
        fun hmem => Keyring.lookup_addressMap_none hl hmem ha₀
      cases hl' : (addressMap addresses available).lookup a with
      | some k =>
          obtain ⟨hk, ha⟩ := Keyring.lookup_addressMap hl'
          refine ⟨k, .inr hk, ha, ?_⟩
          dsimp only
          rw [h.available_eq, if_pos hk]
          rfl
      | none => exact absurd ha₀ (Keyring.lookup_addressMap_none hl' hk₀)

/-- A question for any other address. -/
lemma Serves.signedByAddress_unknown (h : Serves addresses sigs available s)
    (ha : a ∉ knownAddresses addresses sigs available) :
    ∃ s', SignState.signedByAddress addresses a s = (.error .undefined, s') := by
  obtain ⟨keys, hkeys, hmaps⟩ := h.makeMaps.addressMaps
  have hnone {l : List κ} (hl : ∀ k ∈ l, AtHand sigs available k) : (addressMap addresses l).lookup a = none := by
    cases hlookup : (addressMap addresses l).lookup a with
    | none => rfl
    | some k =>
        obtain ⟨hk, hak⟩ := Keyring.lookup_addressMap hlookup
        exact absurd ⟨k, hl k hk, hak⟩ ha
  rw [SignState.signedByAddress, bind_ok (update_apply _ _), bind_ok (gets_apply _ _), hmaps]
  dsimp only
  rw [hnone fun k hk => (hkeys k).mp (.inl hk), hnone fun k hk => .inr hk]
  exact ⟨_, rfl⟩

lemma Serves.ask (h : Serves addresses sigs available s) {q : Question κ α} {b : Bool}
    (hb : signedBy addresses q s = (.ok b, s')) : Serves addresses sigs available s' := by
  cases q with
  | key k => exact h.signedByKey hb
  | address a =>
      rw [signedBy] at hb
      by_cases ha : a ∈ knownAddresses addresses sigs available
      · obtain ⟨k, hk, -, heq⟩ := h.signedByAddress_known ha
        rw [heq] at hb
        cases hb
        exact h.makeMaps.use hk
      · obtain ⟨s'', heq⟩ := h.signedByAddress_unknown ha
        rw [heq] at hb
        cases hb

/-- **The state after any questions.** -/
lemma serves_of_questioned (h : Questioned addresses sigs available s) :
    Serves addresses sigs available s := by
  induction h with
  | start approvedBy =>
      refine ⟨rfl, fun k => ?_, .inl rfl⟩
      rw [AtHand, SignState.keys, List.map_map, AtHand]
      simp
  | ask _ q answer ih => exact ih.ask answer

/-! ### Authorities of addresses -/

/-- Only addresses of keys at hand count. -/
lemma triple_knownAddress (a : α) : Triple (Serves addresses sigs available) (SignState.signedByAddress addresses a)
    (fun b s => Serves addresses sigs available s ∧ (b = true → a ∈ knownAddresses addresses sigs available) ∧
      (a ∈ (∅ : Set α) → b = true)) fun _ _ => True := by
  refine fun s hs => ⟨fun b s' hb => ⟨hs.ask (q := .address a) hb, fun _ => ?_, fun ha => ha.elim⟩,
    fun _ _ _ => trivial⟩
  by_contra ha
  obtain ⟨s'', heq⟩ := hs.signedByAddress_unknown ha
  rw [heq] at hb
  cases hb

/-- An authority that names addresses only is satisfied by keys at hand that have them. -/
lemma addresses_satisfied (h : Serves addresses sigs available s)
    (nested : ℕ → Exec (SignState κ α) AuthorityError Bool) {auth : Authority κ α} (hkeys : auth.keyAuths = [])
    (haccounts : auth.accountAuths = [])
    (hcheck : checkAuthorityWith addresses nested auth s = (.ok true, s')) :
    auth.weightThreshold ≤ weightIn (knownAddresses addresses sigs available) auth.addressAuths := by
  have hweigh : Triple (Serves addresses sigs available)
      (weigh auth.weightThreshold (SignState.signedByAddress addresses) auth.addressAuths 0)
      (fun r s => Serves addresses sigs available s ∧ Weighed auth.weightThreshold ∅
        (knownAddresses addresses sigs available) auth.addressAuths 0 r) fun _ _ => True :=
    Triple.weigh (fun v _ => triple_knownAddress v.1) 0
  rw [checkAuthorityWith, hkeys, haccounts] at hcheck
  obtain ⟨r, s₁, hr, hcheck⟩ := bind_eq_ok.mp hcheck
  cases hr
  dsimp only at hcheck
  rw [if_neg Bool.false_ne_true] at hcheck
  obtain ⟨⟨reached, total⟩, s₂, hr, hcheck⟩ := bind_eq_ok.mp hcheck
  obtain ⟨-, hweighed⟩ := (hweigh s h).1 _ _ hr
  have hupper := hweighed.upper
  rw [Nat.zero_add] at hupper
  dsimp only at hcheck
  split_ifs at hcheck with hreached
  · exact (hweighed.reached hreached).trans hupper
  · obtain ⟨r, s₃, hr, hcheck⟩ := bind_eq_ok.mp hcheck
    cases hr
    dsimp only at hcheck
    rw [if_neg Bool.false_ne_true] at hcheck
    have hdecide : decide (auth.weightThreshold ≤ total) = true := Except.ok.inj (congrArg Prod.fst hcheck)
    exact (of_decide_eq_true hdecide).trans hupper

/-- **Addresses are recognised.** -/
theorem recognises_iff (h : Questioned addresses sigs available s) :
    ((∃ b s', SignState.signedByAddress addresses a s = (.ok b, s') ∧
        Recognises addresses sigs available s a b s') ↔ a ∈ knownAddresses addresses sigs available) ∧
      ∀ (nested : ℕ → Exec (SignState κ α) AuthorityError Bool) (auth : Authority κ α) (s' : SignState κ α),
        auth.keyAuths = [] → auth.accountAuths = [] →
          checkAuthorityWith addresses nested auth s = (.ok true, s') →
            auth.weightThreshold ≤ weightIn (knownAddresses addresses sigs available) auth.addressAuths := by
  have hserves := serves_of_questioned h
  refine ⟨⟨?_, fun ha => ?_⟩, fun nested auth s' hkeys haccounts hcheck =>
    addresses_satisfied hserves nested hkeys haccounts hcheck⟩
  · rintro ⟨b, s', hb, -⟩
    by_contra ha
    obtain ⟨s'', heq⟩ := hserves.signedByAddress_unknown ha
    rw [heq] at hb
    cases hb
  · obtain ⟨k, hk, hka, heq⟩ := hserves.signedByAddress_known ha
    refine ⟨true, _, heq, iff_of_true rfl ha, fun _ => ⟨k, hk, hka, rfl⟩, fun hfalse => ?_, rfl, rfl⟩
    cases hfalse

/-- A key has one address. -/
def ownAddress (k : ℕ) : List ℕ := [k]

/-- The state at the start, with key 1 provided and key 2 available. -/
def twoKeys : SignState ℕ ℕ := { availableKeys := [2], providedSignatures := [(1, false)], approvedBy := [] }

lemma questioned_twoKeys : Questioned ownAddress [1] [2] twoKeys := .start []

/-- The address of the second key. -/
theorem recognises_iff_two :
    (∃ b s', SignState.signedByAddress ownAddress 2 twoKeys = (.ok b, s') ∧
        Recognises ownAddress [1] [2] twoKeys 2 b s') ↔ 2 ∈ knownAddresses ownAddress [1] [2] :=
  (recognises_iff questioned_twoKeys).1

/-- An address of neither key. -/
theorem not_recognises_three : Questioned ownAddress [1] [2] twoKeys ∧ 3 ∉ knownAddresses ownAddress [1] [2] ∧
    ¬ ∃ b s', SignState.signedByAddress ownAddress 3 twoKeys = (.ok b, s') ∧
      Recognises ownAddress [1] [2] twoKeys 3 b s' := by
  have hunknown : 3 ∉ knownAddresses ownAddress [1] [2] := by
    rintro ⟨k, hk, h⟩
    rw [ownAddress, List.mem_singleton] at h
    rw [← h] at hk
    rcases hk with hk | hk
    · cases List.mem_singleton.mp hk
    · cases List.mem_singleton.mp hk
  refine ⟨questioned_twoKeys, hunknown, ?_⟩
  rintro ⟨b, s', hb, -⟩
  obtain ⟨s'', heq⟩ := (serves_of_questioned questioned_twoKeys).signedByAddress_unknown hunknown
  rw [heq] at hb
  cases hb

end SignState

end ZosCore
