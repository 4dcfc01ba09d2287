import ZosCore.Protocol.SignState

/-!
What `verify_authority` decides.

An account is approved if it is among the approvals given, or if its active authority is
satisfied: the keys and addresses that have signed, and the accounts that are approved,
together reach the threshold. This is a least fixed point (`Keyring.approved`), since the
accounts may name each other in a circle. The depth to which `check_authority` goes
gives an approximation to it from below (`Keyring.approvedWithin`).

* `Keyring.triple_checkAuthority`: what the check accepts is satisfied, and it accepts what is
  satisfied within the depth, whatever was found before.
* `Settled`: the check of an authority does not come to an address that nobody has signed for.
* `verifyAuthority_correct`: the check of a transaction is sound, and complete within the
  depth, if it comes to no such address.
-/

namespace ZosCore

open Exec

/-! ### Approved accounts -/

/-- What a check starts from: the authorities of the accounts, the keys that have signed, and
the accounts approved from the start. -/
structure Keyring (κ α : Type) where
  addresses : κ → List α
  getActive : ℕ → Authority κ α
  sigs : List κ
  approvals : List ℕ

namespace Keyring

variable {κ α : Type} (K : Keyring κ α)

/-- The addresses of the keys that have signed. -/
def signedAddresses : Set α := {a | ∃ k ∈ K.sigs, a ∈ K.addresses k}

/-- The weight of the keys and addresses of an authority that have signed. -/
noncomputable def signedWeight (auth : Authority κ α) : ℕ :=
  weightIn {k | k ∈ K.sigs} auth.keyAuths + weightIn K.signedAddresses auth.addressAuths

/-- The signatures and the accounts in `X` reach the threshold. -/
def Satisfied (X : Set ℕ) (auth : Authority κ α) : Prop :=
  auth.weightThreshold ≤ K.signedWeight auth + weightIn X auth.accountAuths

lemma Satisfied.mono {X Y : Set ℕ} {auth : Authority κ α} (h : X ⊆ Y) (hX : K.Satisfied X auth) :
    K.Satisfied Y auth := by
  have hw := weightIn_mono h auth.accountAuths
  rw [Satisfied] at hX ⊢
  omega

/-- One round of approval: the accounts approved from the start, and those whose active
authority is satisfied. -/
def approve : Set ℕ →o Set ℕ where
  toFun X := {id | id ∈ K.approvals ∨ K.Satisfied X (K.getActive id)}
  monotone' _ _ h _ := Or.imp_right (Satisfied.mono K h)

/-- The approved accounts. -/
def approved : Set ℕ := K.approve.lfp

/-- The accounts that are approved by a derivation of nesting at most `n`. -/
def approvedWithin (n : ℕ) : Set ℕ := K.approve^[n] {id | id ∈ K.approvals}

lemma approvals_subset_approved : {id | id ∈ K.approvals} ⊆ K.approved := by
  intro id hid
  rw [approved, ← K.approve.map_lfp]
  exact .inl hid

lemma mem_approved {id : ℕ} (h : K.Satisfied K.approved (K.getActive id)) : id ∈ K.approved := by
  rw [approved, ← K.approve.map_lfp]
  exact .inr h

lemma mem_approvedWithin_succ {n id : ℕ} : id ∈ K.approvedWithin (n + 1) ↔
    id ∈ K.approvals ∨ K.Satisfied (K.approvedWithin n) (K.getActive id) := by
  rw [approvedWithin, Function.iterate_succ_apply']
  exact Iff.rfl

/-! ### The state of a check -/

/-- The state of a check in progress: no key has been added, and only approved accounts have
been found. -/
structure Holds (s : SignState κ α) : Prop where
  keys : s.keys = K.sigs
  available : s.availableKeys = []
  maps : s.addressSigs = none ∨
    s.addressSigs = some (SignState.addressMap K.addresses [], SignState.addressMap K.addresses K.sigs)
  approvals : ∀ id ∈ K.approvals, id ∈ s.approvedBy
  approved : ∀ id ∈ s.approvedBy, id ∈ K.approved

variable {K} {s : SignState κ α}

/-- An approved account is found. -/
lemma Holds.approve (h : K.Holds s) {id : ℕ} (hid : id ∈ K.approved) : K.Holds (s.approve id) := by
  refine ⟨h.keys, h.available, h.maps, fun a ha => List.mem_cons_of_mem _ (h.approvals a ha), ?_⟩
  intro a ha
  rcases List.mem_cons.mp ha with rfl | ha
  · exact hid
  · exact h.approved a ha

lemma Holds.addressMaps (h : K.Holds s) : s.addressMaps K.addresses =
    (SignState.addressMap K.addresses [], SignState.addressMap K.addresses K.sigs) := by
  rw [SignState.addressMaps]
  rcases h.maps with hm | hm
  · rw [hm, h.available, h.keys]
    rfl
  · rw [hm]
    rfl

/-- The maps of addresses are made. -/
lemma Holds.makeMaps (h : K.Holds s) :
    K.Holds { s with addressSigs := some (s.addressMaps K.addresses) } :=
  ⟨h.keys, h.available, .inr (by rw [h.addressMaps]), h.approvals, h.approved⟩

/-- A key that was provided is used. -/
lemma Holds.use [DecidableEq κ] (h : K.Holds s) {k : κ} (hk : k ∈ K.sigs) : K.Holds (s.use k) := by
  refine ⟨?_, h.available, h.maps, h.approvals, h.approved⟩
  have hks : k ∈ s.keys := by rwa [h.keys]
  rw [← h.keys]
  rw [SignState.keys, SignState.use]
  rw [if_pos hks, List.map_map]
  refine List.map_congr_left fun e _ => ?_
  show (if e.1 = k then (k, true) else e).1 = e.1
  split_ifs with he
  · exact he.symm
  · rfl

/-! ### Signatures -/

lemma mem_addressMap {addresses : κ → List α} {keys : List κ} {a : α} {k : κ} :
    (a, k) ∈ SignState.addressMap addresses keys ↔ k ∈ keys ∧ a ∈ addresses k := by
  simp [SignState.addressMap]

/-- The map leads to a key that has the address. -/
lemma lookup_addressMap [DecidableEq α] {addresses : κ → List α} {keys : List κ} {a : α} {k : κ}
    (h : (SignState.addressMap addresses keys).lookup a = some k) :
    k ∈ keys ∧ a ∈ addresses k := by
  obtain ⟨l₁, l₂, hl, -⟩ := List.lookup_eq_some_iff.mp h
  refine mem_addressMap.mp ?_
  rw [hl]
  simp

/-- An address that the map does not have is no key's. -/
lemma lookup_addressMap_none [DecidableEq α] {addresses : κ → List α} {keys : List κ} {a : α}
    (h : (SignState.addressMap addresses keys).lookup a = none) {k : κ} (hk : k ∈ keys) :
    a ∉ addresses k := by
  intro ha
  have hne := List.lookup_eq_none_iff.mp h (a, k) (mem_addressMap.mpr ⟨hk, ha⟩)
  simp at hne

variable [DecidableEq κ] {E : AuthorityError → SignState κ α → Prop}

/-- A key counts exactly if it has signed. -/
lemma triple_signedByKey (k : κ) : Triple K.Holds (SignState.signedByKey k)
    (fun b s => K.Holds s ∧ (b = true ↔ k ∈ K.sigs)) E := by
  refine Triple.gets_bind fun s h => ?_
  rw [h.keys, h.available]
  refine Triple.ite (fun hk => ?_) fun hk => ?_
  · refine Triple.bind (Q := fun _ s => K.Holds s) (Triple.update ?_) fun _ => ?_
    · rintro _ rfl
      exact h.use hk
    · exact Triple.pure fun s hs => ⟨hs, by simp [hk]⟩
  · rw [if_neg List.not_mem_nil]
    refine Triple.pure ?_
    rintro _ rfl
    exact ⟨h, by simp [hk]⟩

/-- The keys that have signed are weighed. -/
lemma triple_weighKeys (auth : Authority κ α) : Triple K.Holds
    (weigh auth.weightThreshold SignState.signedByKey auth.keyAuths 0)
    (fun r s => K.Holds s ∧
      Weighed auth.weightThreshold {k | k ∈ K.sigs} {k | k ∈ K.sigs} auth.keyAuths 0 r) E := by
  refine Triple.weigh (fun v _ => ?_) 0
  exact (triple_signedByKey v.1).conseq (fun _ h => h)
    (fun b s h => ⟨h.1, h.2.mp, h.2.mpr⟩) fun _ _ he => he

variable [DecidableEq α]

/-- An address of a key that has signed counts. Any other may be met only where the undefined
behaviour is allowed for. -/
lemma triple_signedByAddress {a : α} (ha : a ∈ K.signedAddresses ∨ ∀ s, E .undefined s) :
    Triple K.Holds (SignState.signedByAddress K.addresses a)
      (fun b s => K.Holds s ∧ b = true ∧ a ∈ K.signedAddresses) E := by
  refine Triple.bind (Q := fun _ s => K.Holds s) (Triple.update fun s hs => hs.makeMaps) fun _ => ?_
  refine Triple.gets_bind fun s h => ?_
  rw [h.addressMaps]
  cases hl : (SignState.addressMap K.addresses K.sigs).lookup a with
  | none =>
      rcases ha with ⟨k, hk, hka⟩ | hE
      · exact absurd hka (lookup_addressMap_none hl hk)
      · exact Triple.raise fun s _ => hE s
  | some k =>
      have hsigned : a ∈ K.signedAddresses := ⟨k, lookup_addressMap hl⟩
      refine Triple.bind (Q := fun _ s => K.Holds s) (Triple.update ?_) fun _ => ?_
      · rintro _ rfl
        exact h.use (lookup_addressMap hl).1
      · exact Triple.pure fun s hs => ⟨hs, rfl, hsigned⟩

/-- For any other address the behaviour is undefined. -/
lemma signedByAddress_undefined (h : K.Holds s) {a : α} (ha : a ∉ K.signedAddresses) :
    ∃ s', SignState.signedByAddress K.addresses a s = (.error .undefined, s') := by
  have hl : (SignState.addressMap K.addresses K.sigs).lookup a = none := by
    cases hl : (SignState.addressMap K.addresses K.sigs).lookup a with
    | none => rfl
    | some k => exact absurd ⟨k, lookup_addressMap hl⟩ ha
  refine ⟨{ s with addressSigs := some (s.addressMaps K.addresses) }, ?_⟩
  rw [SignState.signedByAddress]
  rw [bind_ok (update_apply _ _), bind_ok (gets_apply _ _)]
  rw [h.makeMaps.addressMaps, hl]
  rfl

/-! ### Authorities -/

variable (K) in
/-- The first addresses of a list, those before one that nobody has signed for. -/
def signedPrefix (l : List (α × ℕ)) : List (α × ℕ) :=
  l.takeWhile fun v => K.sigs.any fun k => v.1 ∈ K.addresses k

variable (K) in
/-- The check of an authority comes to no address that nobody has signed for: either there is
none, or the threshold is reached before the first one. -/
def Settled (auth : Authority κ α) : Prop :=
  (∀ v ∈ auth.addressAuths, v.1 ∈ K.signedAddresses) ∨
  (auth.weightThreshold ≤ weightIn {k | k ∈ K.sigs} auth.keyAuths +
      weightIn K.signedAddresses (K.signedPrefix auth.addressAuths) ∧
    ((∃ v ∈ auth.keyAuths, v.1 ∈ K.sigs) ∨ K.signedPrefix auth.addressAuths ≠ []))

omit [DecidableEq κ] in
lemma mem_signedPrefix {l : List (α × ℕ)} {v : α × ℕ} (h : v ∈ K.signedPrefix l) :
    v.1 ∈ K.signedAddresses := by
  have hall := List.all_takeWhile (l := l) (p := fun v => K.sigs.any fun k => v.1 ∈ K.addresses k)
  have hv := List.all_eq_true.mp hall v h
  simpa [signedAddresses] using hv

omit [DecidableEq κ] in
/-- After the signed addresses comes one that nobody has signed for. -/
lemma signedPrefix_split {l : List (α × ℕ)} (h : ∃ v ∈ l, v.1 ∉ K.signedAddresses) :
    ∃ v q, l = K.signedPrefix l ++ v :: q ∧ v.1 ∉ K.signedAddresses := by
  induction l with
  | nil => simp at h
  | cons u l ih =>
      by_cases hu : u.1 ∈ K.signedAddresses
      · have hcons : K.signedPrefix (u :: l) = u :: K.signedPrefix l := by
          refine List.takeWhile_cons_of_pos ?_
          simpa [signedAddresses] using hu
        obtain ⟨v, hv, hvs⟩ := h
        rcases List.mem_cons.mp hv with rfl | hv
        · exact absurd hu hvs
        obtain ⟨v, q, hl, hvs⟩ := ih ⟨v, hv, hvs⟩
        refine ⟨v, q, ?_, hvs⟩
        rw [hcons, List.cons_append, ← hl]
      · have hcons : K.signedPrefix (u :: l) = [] := by
          refine List.takeWhile_cons_of_neg ?_
          simpa [signedAddresses] using hu
        exact ⟨u, l, by rw [hcons]; rfl, hu⟩

variable {auth : Authority κ α} {t : ℕ}

/-- Addresses that have signed are weighed. -/
lemma triple_weighSigned {threshold : ℕ} {l : List (α × ℕ)}
    (h : (∀ v ∈ l, v.1 ∈ K.signedAddresses) ∨ ∀ s, E .undefined s) (t : ℕ) :
    Triple K.Holds (weigh threshold (SignState.signedByAddress K.addresses) l t)
      (fun r s => K.Holds s ∧ Weighed threshold K.signedAddresses K.signedAddresses l t r) E := by
  refine Triple.weigh (fun v hv => ?_) t
  exact (triple_signedByAddress (h.imp_left fun h => h v hv)).conseq (fun _ hs => hs)
    (fun b s hb => ⟨hb.1, fun _ => hb.2.2, fun _ => hb.2.1⟩) fun _ _ he => he

omit [DecidableEq κ] in
/-- If the threshold is reached before the first address that nobody has signed for, then the
check of the keys has stopped, or that of the addresses before it does. -/
lemma Settled.reached {r : Bool × ℕ}
    (hw : auth.weightThreshold ≤ weightIn {k | k ∈ K.sigs} auth.keyAuths +
      weightIn K.signedAddresses (K.signedPrefix auth.addressAuths))
    (hne : (∃ v ∈ auth.keyAuths, v.1 ∈ K.sigs) ∨ K.signedPrefix auth.addressAuths ≠ [])
    (hk : Weighed auth.weightThreshold {k | k ∈ K.sigs} {k | k ∈ K.sigs} auth.keyAuths 0 (false, t))
    (hr : Weighed auth.weightThreshold K.signedAddresses K.signedAddresses
      (K.signedPrefix auth.addressAuths) t r) : r.1 = true := by
  by_contra hf
  rw [Bool.not_eq_true] at hf
  have hkl : 0 + weightIn {k | k ∈ K.sigs} auth.keyAuths ≤ t := hk.lower rfl
  have hrl := hr.lower hf
  by_cases ht : t < auth.weightThreshold
  · have := hr.below hf ht
    omega
  · -- nobody has signed, and the threshold is zero
    have hzero : auth.weightThreshold ≤ 0 := by
      by_contra hpos
      have : t < auth.weightThreshold := hk.below rfl (by omega)
      omega
    rcases hne with ⟨v, hv, hvk⟩ | hne
    · exact hk.nobody rfl hzero v hv hvk
    · obtain ⟨v, hv⟩ := List.exists_mem_of_ne_nil _ hne
      exact hr.nobody hf (by omega) v hv (mem_signedPrefix hv)

/-- The addresses of a settled authority are weighed. -/
lemma triple_weighAddresses (h : K.Settled auth ∨ ∀ s, E .undefined s)
    (hk : Weighed auth.weightThreshold {k | k ∈ K.sigs} {k | k ∈ K.sigs} auth.keyAuths 0 (false, t)) :
    Triple K.Holds
      (weigh auth.weightThreshold (SignState.signedByAddress K.addresses) auth.addressAuths t)
      (fun r s => K.Holds s ∧
        Weighed auth.weightThreshold K.signedAddresses K.signedAddresses auth.addressAuths t r) E := by
  rcases h with (hall | ⟨hw, hne⟩) | hE
  · exact triple_weighSigned (.inl hall) t
  · have hsplit : K.signedPrefix auth.addressAuths ++
        auth.addressAuths.dropWhile (fun v => K.sigs.any fun k => v.1 ∈ K.addresses k) =
        auth.addressAuths := List.takeWhile_append_dropWhile
    rw [← hsplit, weigh_append, hsplit]
    refine Triple.bind (triple_weighSigned (.inl fun v hv => mem_signedPrefix hv) t) fun r => ?_
    intro s hr
    have htrue : r.1 = true := Settled.reached hw hne hk hr.2
    have hle : weightIn K.signedAddresses (K.signedPrefix auth.addressAuths) ≤
        weightIn K.signedAddresses auth.addressAuths := by
      rw [← hsplit, weightIn_append, hsplit]
      omega
    rw [if_pos htrue]
    refine Triple.pure (P := fun s => K.Holds s) (fun s hs => ⟨hs, ?_⟩) s hr.1
    refine ⟨hr.2.reached, fun ht => ?_, ?_, ?_, ?_, ?_⟩
    · obtain ⟨v, hv, hvs⟩ := hr.2.somebody ht
      exact ⟨v, (List.takeWhile_prefix _).subset hv, hvs⟩
    · have := hr.2.upper
      omega
    all_goals simp [htrue]
  · exact triple_weighSigned (.inr hE) t

/-! ### Accounts -/

variable {M : Set ℕ} {nested : ℕ → Exec (SignState κ α) AuthorityError Bool}

omit [DecidableEq κ] [DecidableEq α] in
/-- An account counts if it is approved or the nested check accepts it. -/
lemma triple_countsAccount {id : ℕ}
    (h : Triple K.Holds (nested id) (fun b s => K.Holds s ∧ (b = true → id ∈ K.approved) ∧
      (id ∈ M → id ∉ K.approvals → b = true)) E) :
    Triple K.Holds (SignState.countsAccount nested id)
      (fun b s => K.Holds s ∧ (b = true → id ∈ K.approved) ∧ (id ∈ M → b = true)) E := by
  refine Triple.gets_bind fun s hs => ?_
  refine Triple.ite (fun hid => ?_) fun hid => ?_
  · refine Triple.pure ?_
    rintro _ rfl
    exact ⟨hs, fun _ => hs.approved id hid, fun _ => rfl⟩
  · have hnot : id ∉ K.approvals := fun hmem => hid (hs.approvals id hmem)
    refine Triple.bind (h.conseq (by rintro _ rfl; exact hs) (fun _ _ hb => hb) fun _ _ he => he)
      fun b => ?_
    cases b with
    | true =>
        rw [if_pos rfl]
        refine Triple.bind (Q := fun _ s => K.Holds s ∧ id ∈ K.approved) (Triple.update ?_) fun _ => ?_
        · intro s hb
          exact ⟨hb.1.approve (hb.2.1 rfl), hb.2.1 rfl⟩
        · exact Triple.pure fun s hb => ⟨hb.1, fun _ => hb.2, fun _ => rfl⟩
    | false =>
        rw [if_neg (by decide)]
        refine Triple.pure fun s hb => ⟨hb.1, by simp, fun hM => hb.2.2 hM hnot⟩

/-- **The check of an authority.** If the nested check accepts approved accounts only, and all
in `M`, then the check of a settled authority accepts only what is satisfied, and all that is
satisfied by `M`. -/
lemma triple_checkAuthorityWith (hset : K.Settled auth ∨ ∀ s, E .undefined s)
    (h : ∀ id, Triple K.Holds (nested id) (fun b s => K.Holds s ∧ (b = true → id ∈ K.approved) ∧
      (id ∈ M → id ∉ K.approvals → b = true)) E) :
    Triple K.Holds (SignState.checkAuthorityWith K.addresses nested auth)
      (fun b s => K.Holds s ∧ (b = true → K.Satisfied K.approved auth) ∧
        (K.Satisfied M auth → b = true)) E := by
  rw [SignState.checkAuthorityWith]
  refine Triple.bind (triple_weighKeys auth) fun r => Triple.of_and_right fun hkeys => ?_
  obtain ⟨reached, tk⟩ := r
  refine Triple.ite (fun hr => ?_) fun hr => ?_
  · -- the keys reach the threshold
    have hle : auth.weightThreshold ≤ tk := hkeys.reached hr
    have hup : tk ≤ 0 + weightIn {k | k ∈ K.sigs} auth.keyAuths := hkeys.upper
    refine Triple.pure fun s hs => ⟨hs, fun _ => ?_, fun _ => rfl⟩
    rw [Satisfied, signedWeight]
    omega
  obtain rfl : reached = false := by simpa using hr
  have hk0 : 0 + weightIn {k | k ∈ K.sigs} auth.keyAuths ≤ tk := hkeys.lower rfl
  have hk1 : tk ≤ 0 + weightIn {k | k ∈ K.sigs} auth.keyAuths := hkeys.upper
  refine Triple.bind (triple_weighAddresses hset hkeys) fun r => Triple.of_and_right fun haddr => ?_
  obtain ⟨reached, ta⟩ := r
  refine Triple.ite (fun hr => ?_) fun hr => ?_
  · -- the keys and the addresses reach the threshold
    have hle : auth.weightThreshold ≤ ta := haddr.reached hr
    have hup : ta ≤ tk + weightIn K.signedAddresses auth.addressAuths := haddr.upper
    refine Triple.pure fun s hs => ⟨hs, fun _ => ?_, fun _ => rfl⟩
    rw [Satisfied, signedWeight]
    omega
  obtain rfl : reached = false := by simpa using hr
  have ha0 : tk + weightIn K.signedAddresses auth.addressAuths ≤ ta := haddr.lower rfl
  have ha1 : ta ≤ tk + weightIn K.signedAddresses auth.addressAuths := haddr.upper
  refine Triple.bind (Triple.weigh (fun v _ => triple_countsAccount (h v.1)) ta) fun r =>
    Triple.of_and_right fun hacc => ?_
  obtain ⟨reached, total⟩ := r
  have hup : total ≤ ta + weightIn K.approved auth.accountAuths := hacc.upper
  refine Triple.ite (fun hr => ?_) fun hr => ?_
  · have hle : auth.weightThreshold ≤ total := hacc.reached hr
    refine Triple.pure fun s hs => ⟨hs, fun _ => ?_, fun _ => rfl⟩
    rw [Satisfied, signedWeight]
    omega
  · obtain rfl : reached = false := by simpa using hr
    have hlow : ta + weightIn M auth.accountAuths ≤ total := hacc.lower rfl
    refine Triple.pure fun s hs => ⟨hs, fun hb => ?_, fun hM => decide_eq_true ?_⟩
    · have hle : auth.weightThreshold ≤ total := of_decide_eq_true hb
      rw [Satisfied, signedWeight]
      omega
    · unfold Satisfied signedWeight at hM
      omega

/-- **`check_authority`.** What it accepts is satisfied, and it accepts what is satisfied by a
derivation within the depth, whatever accounts were found before. -/
theorem triple_checkAuthority
    (hgraph : (∀ id, K.Settled (K.getActive id)) ∨ ∀ s, E .undefined s)
    (hset : K.Settled auth ∨ ∀ s, E .undefined s) (n : ℕ) :
    Triple K.Holds (SignState.checkAuthority K.addresses K.getActive n auth)
      (fun b s => K.Holds s ∧ (b = true → K.Satisfied K.approved auth) ∧
        (K.Satisfied (K.approvedWithin n) auth → b = true)) E := by
  induction n generalizing auth with
  | zero =>
      refine triple_checkAuthorityWith hset fun id => ?_
      exact Triple.pure fun s hs => ⟨hs, by simp, fun hin hnot => absurd hin hnot⟩
  | succ n ih =>
      refine triple_checkAuthorityWith hset fun id => ?_
      refine (ih (hgraph.imp_left fun h => h id)).conseq (fun _ h => h) (fun b s h => ?_) fun _ _ he => he
      refine ⟨h.1, fun hb => K.mem_approved (h.2.1 hb), fun hin hnot => h.2.2 ?_⟩
      exact (K.mem_approvedWithin_succ.mp hin).resolve_left hnot

/-- `check_authority` of an account. -/
lemma triple_checkAccount
    (hgraph : (∀ id, K.Settled (K.getActive id)) ∨ ∀ s, E .undefined s) (n id : ℕ) :
    Triple K.Holds (SignState.checkAccount K.addresses K.getActive n id)
      (fun b s => K.Holds s ∧ (b = true → id ∈ K.approved) ∧
        (id ∈ K.approvedWithin (n + 1) → b = true)) E := by
  refine Triple.gets_bind fun s hs => ?_
  refine Triple.ite (fun hid => ?_) fun hid => ?_
  · refine Triple.pure ?_
    rintro _ rfl
    exact ⟨hs, fun _ => hs.approved id hid, fun _ => rfl⟩
  · refine (triple_checkAuthority hgraph (hgraph.imp_left fun h => h id) n).conseq
      (by rintro _ rfl; exact hs) (fun b s h => ?_) fun _ _ he => he
    refine ⟨h.1, fun hb => K.mem_approved (h.2.1 hb), fun hin => h.2.2 ?_⟩
    exact (K.mem_approvedWithin_succ.mp hin).resolve_left fun hmem => hid (hs.approvals id hmem)

/-- The check of an authority that is not settled comes to the end of a map. -/
lemma checkAuthorityWith_undefined (h : K.Holds s) (hset : ¬ K.Settled auth) :
    ∃ s', SignState.checkAuthorityWith K.addresses nested auth s = (.error .undefined, s') := by
  rw [Settled, not_or, not_and] at hset
  obtain ⟨hnot, hlate⟩ := hset
  push Not at hnot
  obtain ⟨r, s₁, hrun, hs₁, hkeys⟩ := Triple.exists_ok (triple_weighKeys auth) h
  obtain ⟨reached, tk⟩ := r
  have hk1 : tk ≤ 0 + weightIn {k | k ∈ K.sigs} auth.keyAuths := hkeys.upper
  obtain rfl : reached = false := by
    by_contra hr
    have hle : auth.weightThreshold ≤ tk := hkeys.reached (by simpa using hr)
    obtain ⟨v, hv, hvk⟩ := hkeys.somebody (by simpa using hr)
    exact hlate (by omega) (.inl ⟨v, hv, hvk⟩)
  -- the addresses before the first that nobody has signed for do not reach the threshold
  obtain ⟨v, q, hsplit, hv⟩ := signedPrefix_split hnot
  have hpre : Triple K.Holds (weigh auth.weightThreshold (SignState.signedByAddress K.addresses)
      (K.signedPrefix auth.addressAuths) tk) _ fun _ _ => False :=
    triple_weighSigned (.inl fun v hv => mem_signedPrefix hv) tk
  obtain ⟨r, s₂, hrun₂, hs₂, haddr⟩ := hpre.exists_ok hs₁
  obtain ⟨reached, ta⟩ := r
  have ha1 : ta ≤ tk + weightIn K.signedAddresses (K.signedPrefix auth.addressAuths) := haddr.upper
  obtain rfl : reached = false := by
    by_contra hr
    have hle : auth.weightThreshold ≤ ta := haddr.reached (by simpa using hr)
    obtain ⟨u, hu, -⟩ := haddr.somebody (by simpa using hr)
    exact hlate (by omega) (.inr (List.ne_nil_of_mem hu))
  obtain ⟨s₃, hend⟩ := signedByAddress_undefined hs₂ hv
  have haddrs : weigh auth.weightThreshold (SignState.signedByAddress K.addresses)
      auth.addressAuths tk s₁ = (.error .undefined, s₃) := by
    rw [hsplit, weigh_append, bind_ok hrun₂]
    exact bind_error hend
  refine ⟨s₃, ?_⟩
  rw [SignState.checkAuthorityWith]
  rw [bind_ok hrun]
  exact bind_error haddrs

lemma checkAuthority_undefined (h : K.Holds s) (hset : ¬ K.Settled auth) (n : ℕ) :
    ∃ s', SignState.checkAuthority K.addresses K.getActive n auth s = (.error .undefined, s') := by
  cases n with
  | zero => exact checkAuthorityWith_undefined h hset
  | succ n => exact checkAuthorityWith_undefined h hset

/-! ### Required authorities -/

variable (K) in
/-- The required authorities are satisfied, with `X` for the accounts that count in an authority
and `Y` for those that count by themselves. -/
structure Meets (getOwner : ℕ → Authority κ α) (ownerApprovals : List ℕ) (X Y : Set ℕ)
    (r : Required κ α) : Prop where
  other : ∀ auth ∈ r.other, K.Satisfied X auth
  active : ∀ id ∈ r.active, id ∈ Y ∨ K.Satisfied X (getOwner id)
  owner : ∀ id ∈ r.owner, id ∈ ownerApprovals ∨ K.Satisfied X (getOwner id)

variable {getOwner : ℕ → Authority κ α} {n : ℕ} {ownerApprovals : List ℕ}

lemma triple_requireOther
    (hgraph : (∀ id, K.Settled (K.getActive id)) ∨ ∀ s, E .undefined s)
    (hset : K.Settled auth ∨ ∀ s, E .undefined s)
    (hE : ¬ K.Satisfied (K.approvedWithin n) auth → ∀ s, E .missingOtherAuth s) :
    Triple K.Holds (SignState.requireOther K.addresses K.getActive n auth)
      (fun _ s => K.Holds s ∧ K.Satisfied K.approved auth) E := by
  refine Triple.bind (triple_checkAuthority hgraph hset n) fun b => ?_
  refine Triple.check (fun s h hb => ⟨h.1, h.2.1 hb⟩) fun s h hb => ?_
  exact hE (fun hsat => hb (h.2.2 hsat)) s

lemma triple_requireActive
    (hgraph : (∀ id, K.Settled (K.getActive id)) ∨ ∀ s, E .undefined s) {id : ℕ}
    (hset : K.Settled (getOwner id) ∨ ∀ s, E .undefined s)
    (hE : ¬ (id ∈ K.approvedWithin (n + 1) ∨ K.Satisfied (K.approvedWithin n) (getOwner id)) →
      ∀ s, E (.missingActiveAuth id) s) :
    Triple K.Holds (SignState.requireActive K.addresses K.getActive getOwner n id)
      (fun _ s => K.Holds s ∧ (id ∈ K.approved ∨ K.Satisfied K.approved (getOwner id))) E := by
  refine Triple.bind (triple_checkAccount hgraph n id) fun b => ?_
  refine Triple.ite (fun hb => ?_) fun hb => ?_
  · exact Triple.pure fun s h => ⟨h.1, .inl (h.2.1 hb)⟩
  · refine Triple.of_and_right fun hacc => ?_
    refine Triple.bind (triple_checkAuthority hgraph hset n) fun b' => ?_
    refine Triple.check (fun s h hb' => ⟨h.1, .inr (h.2.1 hb')⟩) fun s h hb' => ?_
    refine hE ?_ s
    rintro (hin | hsat)
    · exact hb (hacc.2 hin)
    · exact hb' (h.2.2 hsat)

lemma triple_requireOwner
    (hgraph : (∀ id, K.Settled (K.getActive id)) ∨ ∀ s, E .undefined s) {id : ℕ}
    (hset : K.Settled (getOwner id) ∨ ∀ s, E .undefined s)
    (hE : ¬ (id ∈ ownerApprovals ∨ K.Satisfied (K.approvedWithin n) (getOwner id)) →
      ∀ s, E (.missingOwnerAuth id) s) :
    Triple K.Holds (SignState.requireOwner K.addresses K.getActive getOwner n ownerApprovals id)
      (fun _ s => K.Holds s ∧ (id ∈ ownerApprovals ∨ K.Satisfied K.approved (getOwner id))) E := by
  refine Triple.ite (fun hid => ?_) fun hid => ?_
  · exact Triple.pure fun s h => ⟨h, .inl hid⟩
  · refine Triple.bind (triple_checkAuthority hgraph hset n) fun b => ?_
    refine Triple.check (fun s h hb => ⟨h.1, .inr (h.2.1 hb)⟩) fun s h hb => ?_
    refine hE ?_ s
    rintro (hin | hsat)
    · exact hid hin
    · exact hb (h.2.2 hsat)

variable (K) in
/-- The check of the required authorities comes to no address that nobody has signed for. An
`other` authority is checked only if those before it are satisfied. -/
structure AddressesSettled (getOwner : ℕ → Authority κ α) (r : Required κ α) : Prop where
  active : ∀ id, K.Settled (K.getActive id)
  owner : ∀ id, K.Settled (getOwner id)
  other : ∀ l₁ auth l₂, r.other = l₁ ++ auth :: l₂ → (∀ a ∈ l₁, K.Satisfied K.approved a) →
    K.Settled auth

variable (K) in
/-- What is known when `verify_authority` fails with `e`. `U` says that the undefined behaviour
is allowed for. -/
structure Refusal (getOwner : ℕ → Authority κ α) (n : ℕ) (allowCommittee : Bool)
    (ownerApprovals : List ℕ) (r : Required κ α) (U : Prop) (e : AuthorityError) : Prop where
  undefined : e = .undefined → U
  missing : K.Meets getOwner ownerApprovals (K.approvedWithin n) (K.approvedWithin (n + 1)) r →
    e = .irrelevantSig ∨ e = .invalidCommitteeApproval ∨ e = .undefined
  committee : e = .invalidCommitteeApproval → allowCommittee = false
  signature : e = .irrelevantSig → K.sigs ≠ []

omit [DecidableEq κ] [DecidableEq α] in
/-- Without keys there is no signature that is not needed. -/
lemma Holds.sigs_ne_nil (h : K.Holds s) (hs : ¬ ∀ e ∈ s.providedSignatures, e.2 = true) :
    K.sigs ≠ [] := by
  intro hnil
  have hkeys : s.providedSignatures.map Prod.fst = [] := by rw [← hnil, ← h.keys, SignState.keys]
  rw [List.map_eq_nil_iff] at hkeys
  exact hs (by simp [hkeys])

/-- The checks of `verify_authority`: if they pass then all that is required is satisfied, and if
one fails then something is not satisfied within the depth, or the committee or a signature is
out of place. -/
lemma triple_verifyRequired {allowCommittee : Bool} {r : Required κ α} {U : Prop}
    (h : K.AddressesSettled getOwner r ∨ U) :
    Triple K.Holds (SignState.verifyRequired K.addresses K.getActive getOwner n allowCommittee
      ownerApprovals r)
      (fun _ _ => K.Meets getOwner ownerApprovals K.approved K.approved r)
      (fun e _ => K.Refusal getOwner n allowCommittee ownerApprovals r U e) := by
  have hU : U → ∀ _ : SignState κ α,
      K.Refusal getOwner n allowCommittee ownerApprovals r U .undefined :=
    fun hU _ => ⟨fun _ => hU, fun _ => .inr (.inr rfl), by simp, by simp⟩
  have hgraph := h.imp (fun h => h.active) hU
  rw [SignState.verifyRequired]
  refine Triple.bind (Q := fun _ s => K.Holds s) (Triple.check (fun s hs _ => hs) ?_) fun _ => ?_
  · intro s hs hc
    refine ⟨by simp, fun _ => .inr (.inl rfl), fun _ => ?_, by simp⟩
    simpa using (not_or.mp hc).1
  refine Triple.bind (Triple.forEach (S := fun auth => K.Satisfied K.approved auth) r.other ?_)
    fun _ => Triple.of_and_right fun hother => ?_
  · intro l₁ auth l₂ hl hS
    refine triple_requireOther hgraph (h.imp (fun h => h.other l₁ auth l₂ hl hS) hU)
      fun hnot s => ?_
    exact ⟨by simp, fun hm => absurd (hm.other auth (by rw [hl]; simp)) hnot, by simp, by simp⟩
  refine Triple.bind (Triple.forEach
    (S := fun id => id ∈ K.approved ∨ K.Satisfied K.approved (getOwner id)) r.active ?_)
    fun _ => Triple.of_and_right fun hactive => ?_
  · intro l₁ id l₂ hl _
    refine triple_requireActive hgraph (h.imp (fun h => h.owner id) hU) fun hnot s => ?_
    exact ⟨by simp, fun hm => absurd (hm.active id (by rw [hl]; simp)) hnot, by simp, by simp⟩
  refine Triple.bind (Triple.forEach
    (S := fun id => id ∈ ownerApprovals ∨ K.Satisfied K.approved (getOwner id)) r.owner ?_)
    fun _ => Triple.of_and_right fun howner => ?_
  · intro l₁ id l₂ hl _
    refine triple_requireOwner hgraph (h.imp (fun h => h.owner id) hU) fun hnot s => ?_
    exact ⟨by simp, fun hm => absurd (hm.owner id (by rw [hl]; simp)) hnot, by simp, by simp⟩
  refine Triple.gets_bind fun s hs => ?_
  refine Triple.check (fun _ _ _ => ⟨hother, hactive, howner⟩) fun _ _ hused => ?_
  exact ⟨by simp, fun _ => .inl rfl, by simp, fun _ => hs.sigs_ne_nil hused⟩

/-- The checks come to an address that nobody has signed for, if an `other` authority does and
those before it are satisfied within the depth. -/
lemma verifyRequired_undefined {allowCommittee : Bool} {r : Required κ α} (h : K.Holds s)
    (hgraph : ∀ id, K.Settled (K.getActive id)) {l₁ l₂ : List (Authority κ α)}
    (hl : r.other = l₁ ++ auth :: l₂) (hset : ∀ a ∈ l₁, K.Settled a)
    (hsat : ∀ a ∈ l₁, K.Satisfied (K.approvedWithin n) a) (hauth : ¬ K.Settled auth)
    (hcomm : allowCommittee = true ∨ committeeAccount ∉ r.active) :
    ∃ s', SignState.verifyRequired K.addresses K.getActive getOwner n allowCommittee
      ownerApprovals r s = (.error .undefined, s') := by
  have hfirst : Triple K.Holds (Exec.forEach (SignState.requireOther K.addresses K.getActive n) l₁)
      (fun _ s => K.Holds s ∧ ∀ a ∈ l₁, K.Satisfied K.approved a) fun _ _ => False := by
    refine Triple.forEach l₁ fun k₁ a k₂ hk _ => ?_
    have ha : a ∈ l₁ := by rw [hk]; simp
    exact triple_requireOther (.inl hgraph) (.inl (hset a ha)) fun hnot _ => hnot (hsat a ha)
  obtain ⟨_, s₁, hrun, hs₁, -⟩ := hfirst.exists_ok h
  obtain ⟨s₂, hend⟩ := checkAuthority_undefined hs₁ hauth n
  have hothers : Exec.forEach (SignState.requireOther K.addresses K.getActive n) r.other s =
      (.error .undefined, s₂) := by
    rw [hl, forEach_append, bind_ok hrun]
    exact bind_error (bind_error hend)
  refine ⟨s₂, ?_⟩
  have hcheck : (check (allowCommittee = true ∨ committeeAccount ∉ r.active)
      .invalidCommitteeApproval : Exec (SignState κ α) AuthorityError Unit) s = (.ok (), s) := by
    rw [check_apply, if_pos hcomm]
  rw [SignState.verifyRequired]
  rw [bind_ok hcheck]
  exact bind_error hothers

end Keyring

/-! ### `verify_authority` -/

section Verify

variable {κ α : Type} [DecidableEq κ] [DecidableEq α] (addresses : κ → List α)
  (getActive getOwner : ℕ → Authority κ α) (sigs : List κ) (n : ℕ) (allowCommittee : Bool)
  (activeApprovals ownerApprovals : List ℕ) (r : Required κ α)

/-- What `verify_authority` starts from. -/
def keyring : Keyring κ α where
  addresses := addresses
  getActive := getActive
  sigs := sigs
  approvals := approvals activeApprovals ownerApprovals

/-- The check is defined, accepts only if all that is required is satisfied, and if all is
satisfied within the depth then it fails at most because of the committee account or of a
signature that is not needed. -/
structure AuthorityChecked : Prop where
  defined : verifyAuthority addresses getActive getOwner sigs n allowCommittee activeApprovals
    ownerApprovals r ≠ .error .undefined
  sound : verifyAuthority addresses getActive getOwner sigs n allowCommittee activeApprovals
      ownerApprovals r = .ok () →
    (keyring addresses getActive sigs activeApprovals ownerApprovals).Meets getOwner ownerApprovals
      (keyring addresses getActive sigs activeApprovals ownerApprovals).approved
      (keyring addresses getActive sigs activeApprovals ownerApprovals).approved r
  complete : (keyring addresses getActive sigs activeApprovals ownerApprovals).Meets getOwner
      ownerApprovals
      ((keyring addresses getActive sigs activeApprovals ownerApprovals).approvedWithin n)
      ((keyring addresses getActive sigs activeApprovals ownerApprovals).approvedWithin (n + 1)) r →
    ∀ e, verifyAuthority addresses getActive getOwner sigs n allowCommittee activeApprovals
      ownerApprovals r = .error e → e = .irrelevantSig ∨ e = .invalidCommitteeApproval

variable {addresses getActive getOwner sigs n allowCommittee activeApprovals ownerApprovals r}

omit [DecidableEq κ] [DecidableEq α] in
lemma holds_start : (keyring addresses getActive sigs activeApprovals ownerApprovals).Holds
    { providedSignatures := sigs.map fun k => (k, false)
      approvedBy := approvals activeApprovals ownerApprovals } where
  keys := by
    rw [SignState.keys]
    rw [List.map_map]
    exact List.map_id sigs
  available := rfl
  maps := .inl rfl
  approvals _ h := h
  approved _ h := (keyring addresses getActive sigs activeApprovals
    ownerApprovals).approvals_subset_approved h

/-- **`verify_authority`.** The check is sound, and complete within the depth, if it comes to no
address that nobody has signed for. If an `other` authority comes to one, those before it being
satisfied within the depth, then the behaviour is undefined. -/
theorem verifyAuthority_correct :
    ((keyring addresses getActive sigs activeApprovals ownerApprovals).AddressesSettled getOwner r →
      AuthorityChecked addresses getActive getOwner sigs n allowCommittee activeApprovals
        ownerApprovals r) ∧
    ∀ l₁ auth l₂, r.other = l₁ ++ auth :: l₂ →
      (∀ id, (keyring addresses getActive sigs activeApprovals ownerApprovals).Settled
        (getActive id)) →
      (∀ a ∈ l₁, (keyring addresses getActive sigs activeApprovals ownerApprovals).Settled a ∧
        (keyring addresses getActive sigs activeApprovals ownerApprovals).Satisfied
          ((keyring addresses getActive sigs activeApprovals ownerApprovals).approvedWithin n) a) →
      ¬ (keyring addresses getActive sigs activeApprovals ownerApprovals).Settled auth →
      (allowCommittee = true ∨ committeeAccount ∉ r.active) →
      ¬ AuthorityChecked addresses getActive getOwner sigs n allowCommittee activeApprovals
        ownerApprovals r := by
  refine ⟨fun h => ?_, fun l₁ auth l₂ hl hgraph hl₁ hauth hcomm hchecked => ?_⟩
  · have htriple : Triple (keyring addresses getActive sigs activeApprovals ownerApprovals).Holds
        (SignState.verifyRequired addresses getActive getOwner n allowCommittee ownerApprovals r)
        _ _ := Keyring.triple_verifyRequired (U := False) (.inl h)
    obtain ⟨hok, herr⟩ := htriple _ holds_start
    refine ⟨fun hv => ?_, fun hv => ?_, fun hm e hv => ?_⟩
    · exact (herr _ _ (Prod.ext hv rfl)).undefined rfl
    · exact hok () _ (Prod.ext hv rfl)
    · have he := herr e _ (Prod.ext hv rfl)
      rcases he.missing hm with hsig | hcomm | hundef
      · exact .inl hsig
      · exact .inr hcomm
      · exact absurd hundef he.undefined
  · have hundef : ∃ s', SignState.verifyRequired addresses getActive getOwner n allowCommittee
        ownerApprovals r _ = (.error .undefined, s') :=
      Keyring.verifyRequired_undefined holds_start hgraph hl (fun a ha => (hl₁ a ha).1)
        (fun a ha => (hl₁ a ha).2) hauth hcomm
    obtain ⟨s', hrun⟩ := hundef
    exact hchecked.defined (congrArg Prod.fst hrun)

end Verify

/-! ### Accounts in a circle, and an address nobody has signed for -/

/-- Accounts 5 and 6 name each other; 6 also has the key 1. -/
def circle (id : ℕ) : Authority ℕ ℕ :=
  if id = 5 then { weightThreshold := 1, accountAuths := [(6, 1)] }
  else { weightThreshold := 1, accountAuths := [(5, 1)], keyAuths := [(1, 1)] }

/-- The key 1 signs for account 5, and for an authority that names its address. -/
theorem verifyAuthority_circle :
    verifyAuthority (fun k => [k + 100]) circle circle [1] 2 false [] []
      { active := [5], other := [{ weightThreshold := 1, addressAuths := [(101, 1)] }] } = .ok () ∧
    AuthorityChecked (fun k => [k + 100]) circle circle [1] 2 false [] []
      { active := [5], other := [{ weightThreshold := 1, addressAuths := [(101, 1)] }] } := by
  have hcircle : ∀ id, (circle id).addressAuths = [] := by
    intro id
    rw [circle]
    split_ifs <;> rfl
  refine ⟨by decide, verifyAuthority_correct.1 ⟨fun id => .inl ?_, fun id => .inl ?_, ?_⟩⟩
  · show ∀ v ∈ (circle id).addressAuths, _
    rw [hcircle id]
    exact fun v hv => absurd hv List.not_mem_nil
  · rw [hcircle id]
    exact fun v hv => absurd hv List.not_mem_nil
  · intro l₁ auth l₂ hl _
    have hauth : auth ∈ [({ weightThreshold := 1, addressAuths := [(101, 1)] } : Authority ℕ ℕ)] := by
      rw [show [_] = l₁ ++ auth :: l₂ from hl]
      simp
    rw [List.mem_singleton] at hauth
    subst hauth
    refine .inl fun v hv => ?_
    rw [List.mem_singleton] at hv
    subst hv
    exact ⟨1, by decide, by decide⟩

/-- An authority that names an address, and no signature. -/
theorem not_authorityChecked_unsigned :
    ¬ AuthorityChecked (fun k => [k + 100]) circle circle [] 2 false [] []
      { other := [{ weightThreshold := 1, addressAuths := [(101, 1)] }] } := by
  intro h
  exact h.defined (by decide)

end ZosCore
