import ZosCore.Protocol.AuthoritySearch
import ZosCore.Protocol.RequiredSignatures

/-!
When `minimize_required_signatures` returns a minimal set.

The keys that `get_required_signatures` returns are those that its search has used. If no search
passes over an account that is too deep, then whatever the order in which authorities are visited,
each of these keys that `verify_authority` is given is used again, so that none is irrelevant, and
a set of them that is refused is refused for an authority that is missing. With fewer keys it then
stays missing: a key that could not be left out when it was its turn cannot be left out at the end.

* `Keyring.Requires`: the authorities that a search may start from.
* `verifyFully`, `minimizeFully`: the functions, if they gave up at an account that is too deep.
* `minimizationLaw_of_full`: the set returned is minimal if they do not give up.
-/

namespace ZosCore

open Exec

/-! ### The authorities that a search starts from -/

/-- The authorities that a transaction requires, with the owner's in the place of an account's that
is not satisfied. -/
inductive Keyring.Requires {κ α : Type} (K : Keyring κ α) (getOwner : ℕ → Authority κ α)
    (r : Required κ α) : Authority κ α → Prop
  | other {auth : Authority κ α} (h : auth ∈ r.other) : Requires K getOwner r auth
  | owner {id : ℕ} (h : id ∈ r.owner) : Requires K getOwner r (getOwner id)
  | active {id : ℕ} (h : id ∈ r.active) (hid : id ∉ K.approvals) :
      Requires K getOwner r (K.getActive id)
  | activeOwner {id : ℕ} (h : id ∈ r.active) (hid : id ∉ K.approved) :
      Requires K getOwner r (getOwner id)

/-- What is required with more keys is required with fewer, and a transaction whose owners are
not required as active as well requires no more. -/
lemma Keyring.Requires.of_extends {κ α : Type} {K K' : Keyring κ α} (h : K.Extends K')
    {getOwner : ℕ → Authority κ α} {r : Required κ α} {auth : Authority κ α}
    (hr : K'.Requires getOwner r.ofTransaction auth) : K.Requires getOwner r auth := by
  cases hr with
  | other hauth => exact .other hauth
  | owner hid => exact .owner hid
  | @active id hid hnot =>
      rw [h.getActive]
      exact .active (List.mem_of_mem_filter hid) fun hmem => hnot (h.approvals hmem)
  | @activeOwner id hid hnot =>
      exact .activeOwner (List.mem_of_mem_filter hid) fun hmem => hnot (h.approved_subset hmem)

namespace SigningRequest

variable {κ α : Type} (S : SigningRequest κ α)

/-! ### The checks of `verify_authority` -/

section Verify

variable (checkAuthority : AuthorityCheck κ α)

/-- A required `other` authority. -/
def requireOther (auth : Authority κ α) : Exec (SignState κ α) AuthorityError Unit := do
  let ok ← checkAuthority auth
  check (ok = true) .missingOtherAuth

/-- A required active authority. -/
def requireActive (id : ℕ) : Exec (SignState κ α) AuthorityError Unit := do
  if ← S.checkAccount checkAuthority id then return ()
  let ok ← checkAuthority (S.getOwner id)
  check (ok = true) (.missingActiveAuth id)

/-- A required owner authority. -/
def requireOwner (id : ℕ) : Exec (SignState κ α) AuthorityError Unit := do
  let ok ← checkAuthority (S.getOwner id)
  check (ok = true) (.missingOwnerAuth id)

/-- The checks of `verify_authority` without the committee and without approvals, over a check of
an authority. -/
def verifyRequired : Exec (SignState κ α) AuthorityError Unit := do
  check (committeeAccount ∉ S.required.active) .invalidCommitteeApproval
  forEach (requireOther checkAuthority) S.required.other
  forEach (S.requireActive checkAuthority) S.required.active
  forEach (S.requireOwner checkAuthority) S.required.owner
  let s ← gets fun s => s
  check (∀ e ∈ s.providedSignatures, e.2 = true) .irrelevantSig

/-- `verify_authority`, over a check of an authority. -/
def verifyBy (keys : List κ) : Except AuthorityError Unit :=
  (S.verifyRequired checkAuthority (signState keys [])).1

end Verify

/-! ### Searches that give up -/

section Fully

variable [LinearOrder κ] [DecidableEq α]

/-- The check of an authority, if it gave up at an account that is too deep. -/
def checkFully : AuthorityCheck κ α :=
  SignState.checkFully S.addresses S.getActive S.maxRecursion

/-- `verify_authority`, if it gave up at an account that is too deep. -/
def verifyFully (keys : List κ) : Except AuthorityError Unit := S.verifyBy S.checkFully keys

/-- `minimize_required_signatures`, if it gave up at an account that is too deep. -/
def minimizeFully : Except AuthorityError (List κ) :=
  minimizeBy (S.requiredBy S.checkFully) S.verifyFully

variable {S}

lemma cautious_checkFully (auth : Authority κ α) :
    Cautious .undefined (S.checkFully auth)
      (SignState.checkAuthority S.addresses S.getActive S.maxRecursion auth) :=
  SignState.cautious_checkFully S.addresses S.getActive S.maxRecursion auth

/-- A check of an account that does not give up is that of the code. -/
lemma cautious_checkAccount (id : ℕ) :
    Cautious .undefined (S.checkAccount S.checkFully id)
      (S.checkAccount (SignState.checkAuthority S.addresses S.getActive S.maxRecursion) id) :=
  Cautious.bind (Cautious.refl _) fun _ =>
    Cautious.ite (Cautious.refl _) (cautious_checkFully (S.getActive id))

lemma cautious_search (auth : Authority κ α) :
    Cautious .undefined (search S.checkFully auth)
      (search (SignState.checkAuthority S.addresses S.getActive S.maxRecursion) auth) :=
  Cautious.bind (cautious_checkFully auth) fun _ => Cautious.refl _

lemma cautious_searchRequired (r : Required κ α) :
    Cautious .undefined (S.searchRequired S.checkFully r)
      (S.searchRequired (SignState.checkAuthority S.addresses S.getActive S.maxRecursion) r) := by
  refine Cautious.bind (Cautious.forEach cautious_search _) fun _ => ?_
  refine Cautious.bind (Cautious.forEach (fun id => cautious_search (S.getOwner id)) _) fun _ => ?_
  refine Cautious.forEach (fun id => ?_) _
  exact Cautious.bind (cautious_checkAccount id) fun b =>
    Cautious.ite (Cautious.refl _) (cautious_search (S.getOwner id))

/-- If the search for the required keys does not give up then it is that of the code. -/
lemma getRequiredSignatures_of_full (h : S.requiredBy S.checkFully ≠ .error .undefined) :
    S.getRequiredSignatures = S.requiredBy S.checkFully := by
  have hrun : (S.searchRequired S.checkFully S.required.ofTransaction
      (signState S.signatureKeys S.availableKeys)).1 ≠ .error .undefined := by
    intro hrun
    have hstop : S.searchRequired S.checkFully S.required.ofTransaction
        (signState S.signatureKeys S.availableKeys) = (.error .undefined, _) := Prod.ext hrun rfl
    exact h (by rw [requiredBy, hstop])
  rw [getRequiredSignatures, requiredBy, requiredBy, cautious_searchRequired _ _ hrun]

lemma cautious_verifyRequired :
    Cautious .undefined (S.verifyRequired S.checkFully)
      (SignState.verifyRequired S.addresses S.getActive S.getOwner S.maxRecursion false []
        S.required) := by
  have hcommittee : (check (false = true ∨ committeeAccount ∉ S.required.active)
      .invalidCommitteeApproval : Exec (SignState κ α) AuthorityError Unit) =
      check (committeeAccount ∉ S.required.active) .invalidCommitteeApproval := by
    funext s
    rw [check_apply, check_apply]
    simp
  rw [SignState.verifyRequired, hcommittee]
  refine Cautious.bind (Cautious.refl _) fun _ => ?_
  refine Cautious.bind (Cautious.forEach (fun auth => ?_) _) fun _ => ?_
  · exact Cautious.bind (cautious_checkFully auth) fun _ => Cautious.refl _
  refine Cautious.bind (Cautious.forEach (fun id => ?_) _) fun _ => ?_
  · refine Cautious.bind (cautious_checkAccount id) fun b => Cautious.ite (Cautious.refl _) ?_
    exact Cautious.bind (cautious_checkFully (S.getOwner id)) fun _ => Cautious.refl _
  refine Cautious.bind (Cautious.forEach (fun id => ?_) _) fun _ => Cautious.refl _
  rw [SignState.requireOwner, if_neg List.not_mem_nil]
  exact Cautious.bind (cautious_checkFully (S.getOwner id)) fun _ => Cautious.refl _

/-- If a check of keys does not give up then it is that of the code. -/
lemma verify_of_full {keys : List κ} (h : S.verifyFully keys ≠ .error .undefined) :
    S.verify keys = S.verifyFully keys := by
  have hrun := cautious_verifyRequired (signState keys []) h
  exact congrArg Prod.fst hrun

end Fully

/-! ### What the searches find and use -/

section Triples

variable {S} {K : Keyring κ α} {available : List κ} {T : Set κ}
  {checkAuthority : AuthorityCheck κ α} {E : AuthorityError → SignState κ α → Prop}

/-- The state that a search starts from. -/
lemma searched_start {sigs : List κ} (hK : ∀ k, k ∈ sigs ∨ k ∈ available ↔ k ∈ K.sigs)
    (hA : K.approvals = approvals [] []) :
    K.Searched available T ∅ (signState sigs available) where
  available_eq := rfl
  provides k := by
    have hkeys : (signState sigs available : SignState κ α).keys = sigs := by
      rw [SignState.keys, signState, List.map_map]
      exact List.map_id sigs
    rw [hkeys, hK]
  maps := .inl rfl
  approvals id hid := by rwa [hA] at hid
  approved id hid := K.approvals_subset_approved (hA ▸ hid)
  covered id hid hnot := absurd (hA ▸ hid) hnot
  used _ _ he := he.elim
  touched e he het := by
    obtain ⟨k, -, rfl⟩ := List.mem_map.mp he
    exact absurd het Bool.false_ne_true

variable (K available T checkAuthority E) in
/-- The check finds whether an authority is satisfied, and covers it, if what it may use is in
`T`. -/
def Searches : Prop :=
  ∀ auth, (∀ k, K.Touches auth k → k ∈ T) → ∀ U, Triple (K.Searched available T U)
    (checkAuthority auth)
    (fun b s => ∃ U', U ≤ U' ∧ K.Searched available T U' s ∧ K.Covered U' auth ∧
      (b = true ↔ K.Satisfied K.approved auth)) E

/-- The check of an account. -/
lemma triple_searchesAccount (hcheck : Searches K available T checkAuthority E)
    (hget : S.getActive = K.getActive) {id : ℕ}
    (hT : id ∉ K.approvals → ∀ k, K.Touches (K.getActive id) k → k ∈ T) (U : Set κ) :
    Triple (K.Searched available T U) (S.checkAccount checkAuthority id)
      (fun b s => ∃ U', U ≤ U' ∧ K.Searched available T U' s ∧
        (id ∉ K.approvals → K.Covered U' (K.getActive id)) ∧ (b = true ↔ id ∈ K.approved)) E := by
  refine Triple.gets_bind fun s hs => ?_
  refine Triple.ite (fun hid => ?_) fun hid => ?_
  · refine Triple.pure ?_
    rintro _ rfl
    exact ⟨U, le_rfl, hs, hs.covered id hid, iff_of_true rfl (hs.approved id hid)⟩
  · have hnot : id ∉ K.approvals := fun hmem => hid (hs.approvals id hmem)
    rw [hget]
    refine (hcheck _ (hT hnot) U).conseq (by rintro _ rfl; exact hs) (fun b s => ?_)
      fun _ _ he => he
    rintro ⟨U', hU', hs', hcover, hb⟩
    refine ⟨U', hU', hs', fun _ => hcover, hb.trans ⟨K.mem_approved, fun hin => ?_⟩⟩
    exact (K.mem_approved_iff.mp hin).resolve_left hnot

/-- The search of `get_required_signatures` uses no keys but those in `T`. -/
lemma triple_searchRequired (hcheck : Searches K available T checkAuthority E)
    (hget : S.getActive = K.getActive) {r : Required κ α}
    (hT : ∀ auth, K.Requires S.getOwner r auth → ∀ k, K.Touches auth k → k ∈ T) (U : Set κ) :
    Triple (K.Searched available T U) (S.searchRequired checkAuthority r)
      (fun _ s => ∃ U', U ≤ U' ∧ K.Searched available T U' s) E := by
  have hsearch : ∀ auth, K.Requires S.getOwner r auth → ∀ U, Triple (K.Searched available T U)
      (search checkAuthority auth)
      (fun _ s => ∃ U', U ≤ U' ∧ K.Searched available T U' s ∧ True) E := by
    intro auth hauth U
    refine Triple.bind (hcheck auth (hT auth hauth) U) fun _ => Triple.pure fun s hs => ?_
    obtain ⟨U', hU', hs, -⟩ := hs
    exact ⟨U', hU', hs, trivial⟩
  have hactive : ∀ id ∈ r.active, ∀ U, Triple (K.Searched available T U)
      (S.searchActive checkAuthority id)
      (fun _ s => ∃ U', U ≤ U' ∧ K.Searched available T U' s ∧ True) E := by
    intro id hid U
    refine Triple.bind (triple_searchesAccount hcheck hget (fun hnot => hT _ (.active hid hnot)) U)
      fun b => Triple.of_exists fun U₁ => Triple.of_and fun hU₁ => Triple.of_and_right ?_
    rintro ⟨-, hb⟩
    refine Triple.ite (fun _ => Triple.pure fun s hs => ⟨U₁, hU₁, hs, trivial⟩) fun hfalse => ?_
    have hnot : id ∉ K.approved := fun hin => hfalse (hb.mpr hin)
    refine (hsearch _ (.activeOwner hid hnot) U₁).conseq (fun _ hs => hs) (fun _ s => ?_)
      fun _ _ he => he
    rintro ⟨U', hU', hs, -⟩
    exact ⟨U', hU₁.trans hU', hs, trivial⟩
  refine Triple.bind (Triple.forEachKnown (C := fun _ _ => True) (fun _ _ _ _ h => h) r.other
    (fun auth hauth => hsearch auth (.other hauth)) U) fun _ => Triple.of_exists fun U₁ => ?_
  refine Triple.of_and fun hU₁ => Triple.of_and_right fun _ => ?_
  refine Triple.bind (Triple.forEachKnown (C := fun _ _ => True) (fun _ _ _ _ h => h) r.owner
    (fun id hid => hsearch _ (.owner hid)) U₁) fun _ => Triple.of_exists fun U₂ => ?_
  refine Triple.of_and fun hU₂ => Triple.of_and_right fun _ => ?_
  refine (Triple.forEachKnown (C := fun _ _ => True) (fun _ _ _ _ h => h) r.active hactive U₂).conseq
    (fun _ hs => hs) (fun _ s => ?_) fun _ _ he => he
  rintro ⟨U', hU', hs, -⟩
  exact ⟨U', (hU₁.trans hU₂).trans hU', hs⟩

/-- What is known when a check of keys does not return: it has given up, or an authority is
missing. -/
def Missing (S : SigningRequest κ α) (K : Keyring κ α) (e : AuthorityError) : Prop :=
  e = .undefined ∨
    (caught e = true ∧ ¬ K.Meets S.getOwner [] K.approved K.approved S.required)

/-- A check that fails for want of the authority `id`, which is not satisfied. -/
lemma triple_requireSearched
    (hcheck : Searches K available Set.univ checkAuthority fun e _ => S.Missing K e)
    {auth : Authority κ α} {e : AuthorityError} (he : caught e = true)
    (hmeets : K.Meets S.getOwner [] K.approved K.approved S.required →
      K.Satisfied K.approved auth) (U : Set κ) :
    Triple (K.Searched available Set.univ U) (do let ok ← checkAuthority auth; check (ok = true) e)
      (fun _ s => ∃ U', U ≤ U' ∧ K.Searched available Set.univ U' s ∧ K.Covered U' auth)
      fun e _ => S.Missing K e := by
  refine Triple.bind (hcheck auth (fun _ _ => trivial) U) fun b =>
    Triple.check (fun s hs _ => ?_) fun s hs hb => ?_
  · obtain ⟨U', hU', hs, hcover, -⟩ := hs
    exact ⟨U', hU', hs, hcover⟩
  · obtain ⟨-, -, -, -, hsat⟩ := hs
    exact .inr ⟨he, fun hm => hb (hsat.mpr (hmeets hm))⟩

variable (S K) in
/-- An account that is required as active is covered, and its owner if it is not approved. -/
structure AccountCovered (id : ℕ) (U : Set κ) : Prop where
  active : id ∉ K.approvals → K.Covered U (K.getActive id)
  owner : id ∉ K.approved → K.Covered U (S.getOwner id)

lemma accountCovered_monotone (id : ℕ) : Monotone (S.AccountCovered K id) :=
  fun _ _ hU h => ⟨fun hid => (h.active hid).mono hU, fun hid => (h.owner hid).mono hU⟩

lemma triple_requireActive
    (hcheck : Searches K available Set.univ checkAuthority fun e _ => S.Missing K e)
    (hget : S.getActive = K.getActive) {id : ℕ} (hid : id ∈ S.required.active) (U : Set κ) :
    Triple (K.Searched available Set.univ U) (S.requireActive checkAuthority id)
      (fun _ s => ∃ U', U ≤ U' ∧ K.Searched available Set.univ U' s ∧ S.AccountCovered K id U')
      fun e _ => S.Missing K e := by
  refine Triple.bind (triple_searchesAccount hcheck hget (fun _ _ _ => trivial) U) fun b =>
    Triple.of_exists fun U₁ => Triple.of_and fun hU₁ => Triple.of_and_right fun ⟨hcover, hb⟩ => ?_
  refine Triple.ite (fun htrue => ?_) fun hfalse => ?_
  · refine Triple.pure fun s hs => ⟨U₁, hU₁, hs, hcover, fun hnot => ?_⟩
    exact absurd (hb.mp htrue) hnot
  · have hnot : id ∉ K.approved := fun hin => hfalse (hb.mpr hin)
    refine (triple_requireSearched hcheck rfl (fun hm => (hm.active id hid).resolve_left hnot)
      U₁).conseq (fun _ hs => hs) (fun _ s => ?_) fun _ _ he => he
    rintro ⟨U', hU', hs, howner⟩
    exact ⟨U', hU₁.trans hU', hs, fun hid' => (hcover hid').mono hU', fun _ => howner⟩

/-- The check of keys that are all used once what is required is covered: it fails at most for want
of an authority. -/
lemma triple_verifyRequired
    (hcheck : Searches K available Set.univ checkAuthority fun e _ => S.Missing K e)
    (hget : S.getActive = K.getActive) (hcommittee : committeeAccount ∉ S.required.active)
    (hused : ∀ U, (∀ auth, K.Requires S.getOwner S.required auth → K.Covered U auth) →
      ∀ k ∈ K.sigs, k ∈ U) :
    Triple (K.Searched available Set.univ ∅) (S.verifyRequired checkAuthority)
      (fun _ _ => True) fun e _ => S.Missing K e := by
  refine Triple.bind (Q := fun _ => K.Searched available Set.univ ∅)
    (Triple.check (fun s hs _ => hs) fun s _ h => absurd hcommittee h) fun _ => ?_
  refine Triple.bind (Triple.forEachKnown (C := fun auth U => K.Covered U auth)
    (fun auth _ _ hU h => h.mono hU) S.required.other (fun auth hauth =>
      triple_requireSearched hcheck rfl fun hm => hm.other auth hauth) ∅)
    fun _ => Triple.of_exists fun U₁ => Triple.of_and fun _ => Triple.of_and_right fun hother => ?_
  refine Triple.bind (Triple.forEachKnown (C := S.AccountCovered K) accountCovered_monotone
    S.required.active (fun id hid => triple_requireActive hcheck hget hid) U₁)
    fun _ => Triple.of_exists fun U₂ => Triple.of_and fun hU₂ => Triple.of_and_right fun hactive => ?_
  refine Triple.bind (Triple.forEachKnown (C := fun id U => K.Covered U (S.getOwner id))
    (fun id _ _ hU h => h.mono hU) S.required.owner (fun id hid =>
      triple_requireSearched hcheck rfl fun hm =>
        (hm.owner id hid).resolve_left List.not_mem_nil) U₂)
    fun _ => Triple.of_exists fun U₃ => Triple.of_and fun hU₃ => Triple.of_and_right fun howner => ?_
  -- all that is required is covered, so that every key is used
  have hcovered : ∀ auth, K.Requires S.getOwner S.required auth → K.Covered U₃ auth := by
    intro auth hauth
    cases hauth with
    | other h => exact (hother auth h).mono (hU₂.trans hU₃)
    | owner h => exact howner _ h
    | active h hid => exact ((hactive _ h).active hid).mono hU₃
    | activeOwner h hid => exact ((hactive _ h).owner hid).mono hU₃
  refine Triple.gets_bind fun s hs => Triple.check (fun _ _ _ => trivial) ?_
  rintro _ rfl hunused
  refine absurd (fun e he => ?_) hunused
  have hkey : e.1 ∈ K.sigs := (hs.provides e.1).mp (.inl (List.mem_map_of_mem he))
  exact hs.used e he (hused U₃ hcovered e.1 hkey)

end Triples

/-! ### The set returned is minimal -/

section Minimal

variable [LinearOrder κ] [DecidableEq α] {S}

variable (S) in
/-- The keys at hand for `get_required_signatures`. -/
def keysAtHand : Keyring κ α :=
  keyring S.addresses S.getActive (S.signatureKeys ++ S.availableKeys) [] []

variable (S) in
/-- What `verify_authority` starts from. -/
def keysGiven (keys : List κ) : Keyring κ α := keyring S.addresses S.getActive keys [] []

variable (S) in
/-- The keys that something asks for on the way down from what the transaction requires. -/
def touchedKeys : Set κ :=
  {k | ∃ auth, S.keysAtHand.Requires S.getOwner S.required.ofTransaction auth ∧
    S.keysAtHand.Touches auth k}

variable (S) in
/-- No two of the available keys share an address. -/
def DistinctAddresses : Prop :=
  ∀ k ∈ S.availableKeys, ∀ k' ∈ S.availableKeys, ∀ a ∈ S.addresses k, a ∈ S.addresses k' → k' = k

omit [LinearOrder κ] [DecidableEq α] in
lemma keysGiven_extends {keys : List κ} (h : keys ⊆ S.availableKeys) :
    (S.keysGiven keys).Extends S.keysAtHand where
  addresses := rfl
  getActive := rfl
  sigs _ hk := List.mem_append_right _ (h hk)
  approvals _ hid := hid

/-- If the search for the required keys does not give up then it returns available keys that
something asks for. -/
lemma requiredBy_checkFully (h : S.requiredBy S.checkFully ≠ .error .undefined) :
    ∃ keys, S.requiredBy S.checkFully = .ok keys ∧ keys.Nodup ∧
      ∀ k ∈ keys, k ∈ S.availableKeys ∧ k ∈ S.touchedKeys := by
  have hstart : S.keysAtHand.Searched S.availableKeys S.touchedKeys ∅
      (signState S.signatureKeys S.availableKeys) :=
    searched_start (fun k => List.mem_append.symm) rfl
  have hrun : Triple (S.keysAtHand.Searched S.availableKeys S.touchedKeys ∅)
      (S.searchRequired S.checkFully S.required.ofTransaction)
      (fun _ s => ∃ U', ∅ ≤ U' ∧ S.keysAtHand.Searched S.availableKeys S.touchedKeys U' s)
      fun e _ => e = .undefined :=
    triple_searchRequired (fun auth hT U => Keyring.triple_checkFully hT (fun _ => rfl) _ U) rfl
      (fun auth hauth k hk => (⟨auth, hauth, hk⟩ : k ∈ S.touchedKeys)) ∅
  obtain ⟨hok, herr⟩ := hrun _ hstart
  rcases hx : S.searchRequired S.checkFully S.required.ofTransaction
    (signState S.signatureKeys S.availableKeys) with ⟨e | u, s⟩
  · obtain rfl : e = .undefined := herr e s hx
    exact absurd (by rw [requiredBy, hx]) h
  · obtain ⟨U', -, hs⟩ := hok u s hx
    refine ⟨S.usedKeys s, by rw [requiredBy, hx], nodup_sortedSet _, fun k hk => ?_⟩
    rw [usedKeys, mem_sortedSet, List.mem_filter, decide_eq_true_iff] at hk
    obtain ⟨hused, havailable, -⟩ := hk
    obtain ⟨e, he, rfl⟩ := List.mem_map.mp hused
    obtain ⟨hmem, htrue⟩ := List.mem_filter.mp he
    exact ⟨havailable, hs.touched e hmem htrue⟩

/-- A check of such keys fails at most for want of an authority, or gives up. -/
lemma verifyFully_missing (hcommittee : committeeAccount ∉ S.required.active)
    (hdistinct : S.DistinctAddresses) {keys : List κ}
    (hkeys : ∀ k ∈ keys, k ∈ S.availableKeys ∧ k ∈ S.touchedKeys) {e : AuthorityError}
    (h : S.verifyFully keys = .error e) : S.Missing (S.keysGiven keys) e := by
  have hext : (S.keysGiven keys).Extends S.keysAtHand := keysGiven_extends fun k hk => (hkeys k hk).1
  have hused : ∀ U, (∀ auth, (S.keysGiven keys).Requires S.getOwner S.required auth →
      (S.keysGiven keys).Covered U auth) → ∀ k ∈ keys, k ∈ U := by
    intro U hcovered k hk
    obtain ⟨hkavail, auth, hauth, htouch⟩ := hkeys k hk
    refine htouch.used hext (fun v k' hk' hv hv' => ?_) hk (hcovered auth (hauth.of_extends hext))
    cases v with
    | key j => exact Eq.trans (Eq.symm hv') hv
    | address a => exact hdistinct k hkavail k' (hkeys k' hk').1 a hv hv'
    | account id => exact hv.elim
  have hstart : (S.keysGiven keys).Searched [] Set.univ ∅ (signState keys []) :=
    searched_start (fun k => by simp [keysGiven, keyring]) rfl
  have hrun : Triple ((S.keysGiven keys).Searched [] Set.univ ∅) (S.verifyRequired S.checkFully)
      (fun _ _ => True) fun e _ => S.Missing (S.keysGiven keys) e :=
    triple_verifyRequired (fun auth hT U => Keyring.triple_checkFully hT (fun _ => .inl rfl) _ U)
      rfl hcommittee hused
  exact (hrun _ hstart).2 e _ (Prod.ext h rfl)

/-- What `verify_authority` accepts is satisfied, also if accounts are passed over. -/
lemma meets_of_verify {keys : List κ} (h : S.verify keys = .ok ()) :
    (S.keysGiven keys).Meets S.getOwner [] (S.keysGiven keys).approved
      (S.keysGiven keys).approved S.required := by
  have hrun : Triple (S.keysGiven keys).Holds (SignState.verifyRequired S.addresses S.getActive
      S.getOwner S.maxRecursion false [] S.required) _ _ :=
    Keyring.triple_verifyRequired (U := True) (.inr trivial)
  exact (hrun _ holds_start).1 () _ (Prod.ext h rfl)

/-- **Minimal signatures.** If no search passes over an account that is too deep, or comes to an
address of none of its keys, then `minimize_required_signatures` finds no signature to be
irrelevant, and returns a minimal set of required keys. -/
theorem minimizationLaw_of_full (hcommittee : committeeAccount ∉ S.required.active)
    (hdistinct : S.DistinctAddresses) (hfull : S.minimizeFully ≠ .error .undefined) :
    S.MinimizationLaw := by
  have hrequired : S.requiredBy S.checkFully ≠ .error .undefined := by
    intro he
    exact hfull (by rw [minimizeFully, minimizeBy, he]; rfl)
  obtain ⟨keys, hkeys, hnodup, htouched⟩ := requiredBy_checkFully hrequired
  have hget : S.getRequiredSignatures = .ok keys :=
    (getRequiredSignatures_of_full hrequired).trans hkeys
  have hmissing : ∀ t : List κ, t.Sublist keys → ∀ e, S.verifyFully t = .error e →
      S.Missing (S.keysGiven t) e :=
    fun t ht e => verifyFully_missing hcommittee hdistinct fun k hk => htouched k (ht.subset hk)
  have hloop : S.minimizeFully = shrink (willDo S.verifyFully) keys keys := by
    rw [minimizeFully, minimizeBy, hkeys]
    rfl
  rw [hloop] at hfull
  -- a question that does not give up is that of the code
  have hcode : shrink (willDo S.verify) keys keys = shrink (willDo S.verifyFully) keys keys := by
    refine shrink_congr (fun t ht => ?_) hfull
    have hv : S.verifyFully t ≠ .error .undefined := fun hv => ht (willDo_error hv)
    rw [willDo, willDo, verify_of_full hv]
  cases hr : shrink (willDo S.verifyFully) keys keys with
  | error e =>
      obtain ⟨t, ht, hft⟩ := shrink_error hr
      obtain ⟨hv, hcaught⟩ := willDo_eq_error.mp hft
      rcases hmissing t ht e hv with rfl | ⟨hc, -⟩
      · exact absurd hr hfull
      · exact absurd hc (by rw [hcaught]; exact Bool.false_ne_true)
  | ok r =>
      have hmin : S.minimizeRequiredSignatures = .ok r := by
        rw [minimizeRequiredSignatures, minimizeBy, hget]
        exact hcode.trans hr
      have hrun := shrinks_of_eq_ok hr
      refine ⟨by rw [hmin]; simp, keys, r, hget, hmin, hrun.sublist.subset, fun hv => ?_,
        fun _ k hk hv => ?_⟩
      · exact willDo_true.mp ((shrinks_of_eq_ok (hcode.trans hr)).will_do (willDo_true.mpr hv))
      · -- when it was the turn of `k`, an authority was missing without it
        obtain ⟨t, hrt, htk, hrefused⟩ := hrun.refused hnodup (hrun.sublist.subset hk) hk
        obtain ⟨e, hverror, hcaught⟩ := willDo_false.mp hrefused
        have hsub : (t.erase k).Sublist keys := List.erase_sublist.trans htk
        rcases hmissing _ hsub e hverror with rfl | ⟨-, hnot⟩
        · exact Bool.false_ne_true hcaught
        · refine hnot ?_
          have hext : (S.keysGiven (r.erase k)).Extends (S.keysGiven (t.erase k)) :=
            ⟨rfl, rfl, (hrt.erase k).subset, fun _ h => h⟩
          exact hext.meets (fun _ h => h) hext.approved_subset hext.approved_subset
            (meets_of_verify hv)

end Minimal

end SigningRequest

/-! ### A depth that is enough -/

/-- With one more level the search comes to account 10, and the keys 1 and 2 are not used. -/
theorem minimizationLaw_chain :
    (chainRequest 3).minimizeRequiredSignatures = .ok [3] ∧ (chainRequest 3).MinimizationLaw := by
  have hdistinct : (chainRequest 3).DistinctAddresses := by
    intro k _ k' _ a ha ha'
    have hk : a = k + 100 := List.mem_singleton.mp ha
    have hk' : a = k' + 100 := List.mem_singleton.mp ha'
    omega
  refine ⟨by decide +kernel, ?_⟩
  exact SigningRequest.minimizationLaw_of_full (by decide) hdistinct (by decide +kernel)

end ZosCore
