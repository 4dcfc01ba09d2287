import ZosCore.Lib.Asked
import ZosCore.Protocol.Approvals

/-!
Which keys the search for an authority uses.

`check_authority` asks one voter of an authority after another, and stops at the threshold. For an
account it searches the account's active authority, unless the account was found before. If no
account is too deep then what it finds does not depend on what was found before: an authority that
is satisfied is found to be so. It uses only keys that a voter asks for on the way down
(`Touches`), and at least one key for each voter that somebody has signed for (`Covered`).

The fewer keys there are, the more voters are asked. So a key that is used with many keys at hand
is used as well with few of them (`Touches.used`).

* `AuthVoter`, `Authority.voters`: the keys, addresses and accounts of an authority.
* `Keyring.Asks`, `Keyring.Touches`, `Keyring.Covered`.
* `SignState.checkFully`: the search, if it gives up at an account that is too deep.
* `Keyring.triple_checkFully`: what such a search finds and uses.
-/

namespace ZosCore

open Exec

/-! ### Voters -/

/-- A voter of an authority. -/
inductive AuthVoter (κ α : Type) where
  | key (k : κ)
  | address (a : α)
  | account (id : ℕ)

namespace AuthVoter

variable {κ α : Type} (addresses : κ → List α)

/-- A key signs for itself and for its addresses. -/
def SignedBy : AuthVoter κ α → κ → Prop
  | key k', k => k' = k
  | address a, k => a ∈ addresses k
  | account _, _ => False

end AuthVoter

/-- The voters of an authority in the order in which they are asked. -/
def Authority.voters {κ α : Type} (auth : Authority κ α) : List (AuthVoter κ α × ℕ) :=
  auth.keyAuths.map (Prod.map AuthVoter.key id) ++
    (auth.addressAuths.map (Prod.map AuthVoter.address id) ++
      auth.accountAuths.map (Prod.map AuthVoter.account id))

namespace SignState

variable {κ α : Type} [DecidableEq κ] [DecidableEq α] (addresses : κ → List α)
  (nested : ℕ → Exec (SignState κ α) AuthorityError Bool)

/-- The question for a voter. -/
def countsVoter : AuthVoter κ α → Exec (SignState κ α) AuthorityError Bool
  | .key k => signedByKey k
  | .address a => signedByAddress addresses a
  | .account id => countsAccount nested id

/-- The three loops of `check_authority` are one. -/
lemma checkAuthorityWith_eq (auth : Authority κ α) :
    checkAuthorityWith addresses nested auth =
      weigh auth.weightThreshold (countsVoter addresses nested) auth.voters 0 >>= fun r =>
        pure (r.1 || decide (auth.weightThreshold ≤ r.2)) := by
  rw [checkAuthorityWith, Authority.voters, weigh_append, weigh_map, bind_assoc]
  refine bind_congr ?_
  rintro ⟨reached, total⟩
  cases reached with
  | true => rfl
  | false =>
      dsimp only
      rw [if_neg Bool.false_ne_true, if_neg Bool.false_ne_true, weigh_append, weigh_map, bind_assoc]
      refine bind_congr ?_
      rintro ⟨reached, total⟩
      cases reached with
      | true => rfl
      | false =>
          dsimp only
          rw [if_neg Bool.false_ne_true, if_neg Bool.false_ne_true, weigh_map]
          refine bind_congr ?_
          rintro ⟨reached, total⟩
          cases reached with
          | true => rfl
          | false => rfl

/-! ### A search that gives up -/

variable (getActive : ℕ → Authority κ α)

/-- `check_authority`, if it gave up at an account that is too deep. The code passes it over. -/
def checkFully : ℕ → Authority κ α → Exec (SignState κ α) AuthorityError Bool
  | 0 => checkAuthorityWith addresses fun _ => raise .undefined
  | n + 1 => checkAuthorityWith addresses fun id => checkFully n (getActive id)

variable {nested}

lemma cautious_checkAuthorityWith {nested' : ℕ → Exec (SignState κ α) AuthorityError Bool}
    (h : ∀ id, Cautious .undefined (nested id) (nested' id)) (auth : Authority κ α) :
    Cautious .undefined (checkAuthorityWith addresses nested auth)
      (checkAuthorityWith addresses nested' auth) := by
  have hvoter : ∀ v, Cautious .undefined (countsVoter addresses nested v)
      (countsVoter addresses nested' v) := by
    intro v
    cases v with
    | key k => exact Cautious.refl _
    | address a => exact Cautious.refl _
    | account id =>
        refine Cautious.bind (Cautious.refl _) fun s => Cautious.ite (Cautious.refl _) ?_
        exact Cautious.bind (h id) fun b => Cautious.refl _
  rw [checkAuthorityWith_eq, checkAuthorityWith_eq]
  exact Cautious.bind (Cautious.weigh hvoter _ _ _) fun r => Cautious.refl _

/-- A search that does not give up is that of the code. -/
lemma cautious_checkFully (n : ℕ) (auth : Authority κ α) :
    Cautious .undefined (checkFully addresses getActive n auth)
      (checkAuthority addresses getActive n auth) := by
  induction n generalizing auth with
  | zero => exact cautious_checkAuthorityWith addresses (fun id => Cautious.raise _) auth
  | succ n ih => exact cautious_checkAuthorityWith addresses (fun id => ih (getActive id)) auth

end SignState

/-! ### The voters that are asked -/

namespace Keyring

variable {κ α : Type} (K : Keyring κ α)

/-- The voters that count: a key or an address that has signed, an account that is approved. -/
def Counts : AuthVoter κ α → Prop
  | .key k => k ∈ K.sigs
  | .address a => a ∈ K.signedAddresses
  | .account id => id ∈ K.approved

/-- The search for an authority comes to the voter. -/
def Asks (auth : Authority κ α) (v : AuthVoter κ α) : Prop :=
  Asked auth.weightThreshold {v | K.Counts v} auth.voters 0 v

/-- On the way down from an authority a voter is asked for whom `k` has signed. -/
inductive Touches : Authority κ α → κ → Prop
  | signed {auth : Authority κ α} {v : AuthVoter κ α} {k : κ} (asked : K.Asks auth v)
      (hk : k ∈ K.sigs) (hv : v.SignedBy K.addresses k) : Touches auth k
  | account {auth : Authority κ α} {id : ℕ} {k : κ} (asked : K.Asks auth (.account id))
      (hid : id ∉ K.approvals) (nested : Touches (K.getActive id) k) : Touches auth k

/-- For each voter that is asked on the way down, and for whom a key has signed, there is such a
key in `U`. -/
inductive Covered (U : Set κ) : Authority κ α → Prop
  | intro {auth : Authority κ α}
      (signed : ∀ v, K.Asks auth v → ∀ k ∈ K.sigs, v.SignedBy K.addresses k →
        ∃ k' ∈ U, k' ∈ K.sigs ∧ v.SignedBy K.addresses k')
      (accounts : ∀ id, K.Asks auth (.account id) → id ∉ K.approvals →
        Covered U (K.getActive id)) : Covered U auth

variable {K} {auth : Authority κ α} {U U' T : Set κ} {k : κ}

lemma Covered.mono (hU : U ⊆ U') (h : K.Covered U auth) : K.Covered U' auth := by
  induction h with
  | intro signed _ ih =>
      refine .intro (fun v hv k hk hvk => ?_) ih
      obtain ⟨k', hk', hs⟩ := signed v hv k hk hvk
      exact ⟨k', hU hk', hs⟩

/-- An authority is satisfied if the voters that count reach its threshold. -/
lemma satisfied_iff : K.Satisfied K.approved auth ↔
    auth.weightThreshold ≤ 0 + weightIn {v | K.Counts v} auth.voters := by
  have hw : weightIn {v | K.Counts v} auth.voters =
      K.signedWeight auth + weightIn K.approved auth.accountAuths := by
    rw [Authority.voters, weightIn_append, weightIn_append, weightIn_map, weightIn_map,
      weightIn_map, ← Nat.add_assoc]
    rfl
  rw [hw, Nat.zero_add]
  exact Iff.rfl

variable (K) in
/-- An account is approved from the start, or its active authority is satisfied. -/
lemma mem_approved_iff {id : ℕ} :
    id ∈ K.approved ↔ id ∈ K.approvals ∨ K.Satisfied K.approved (K.getActive id) := by
  have hfix : id ∈ K.approve K.approved ↔ id ∈ K.approved := by
    rw [approved, K.approve.map_lfp]
  exact hfix.symm

/-- With more keys more voters count. -/
lemma Extends.counts {K' : Keyring κ α} (h : K.Extends K') {v : AuthVoter κ α} (hv : K.Counts v) :
    K'.Counts v := by
  cases v with
  | key k => exact h.sigs hv
  | address a => exact h.signedAddresses_subset hv
  | account id => exact h.approved_subset hv

/-- What is asked with more keys is asked with fewer. -/
lemma Extends.asks {K' : Keyring κ α} (h : K.Extends K') {v : AuthVoter κ α} (hv : K'.Asks auth v) :
    K.Asks auth v :=
  Asked.anti (fun _ hv => h.counts hv) le_rfl hv

/-- A key that some voter asks for with more keys at hand is used with fewer, if no other key
signs for what it signs for. -/
theorem Touches.used {K' : Keyring κ α} (h : K.Extends K')
    (hunique : ∀ v : AuthVoter κ α, ∀ k' ∈ K.sigs, v.SignedBy K.addresses k →
      v.SignedBy K.addresses k' → k' = k)
    (hk : k ∈ K.sigs) (htouch : K'.Touches auth k) (hcover : K.Covered U auth) : k ∈ U := by
  induction htouch with
  | @signed auth v k hasked _ hv =>
      obtain ⟨signed, -⟩ := hcover
      rw [h.addresses] at hv
      obtain ⟨k', hk'U, hk', hv'⟩ := signed v (h.asks hasked) k hk hv
      rwa [← hunique v k' hk' hv hv']
  | @account auth id k hasked hid _ ih =>
      obtain ⟨-, accounts⟩ := hcover
      refine ih hunique hk ?_
      rw [h.getActive]
      exact accounts id (h.asks hasked) fun hmem => hid (h.approvals hmem)

/-! ### The state of a search -/

variable (K) in
/-- The keys provided and those available are the keys at hand. -/
def Provides (available keys : List κ) : Prop := ∀ k, k ∈ keys ∨ k ∈ available ↔ k ∈ K.sigs

variable (K) in
/-- The state of a search that has the keys of `K` at hand, some of them only available. The keys
in `U` have been used, and none but those in `T`. The accounts that have been found are approved,
and what they ask for is covered. -/
structure Searched (available : List κ) (T U : Set κ) (s : SignState κ α) : Prop where
  available_eq : s.availableKeys = available
  provides : K.Provides available s.keys
  maps : s.addressSigs = none ∨ ∃ keys, K.Provides available keys ∧
    s.addressSigs =
      some (SignState.addressMap K.addresses available, SignState.addressMap K.addresses keys)
  approvals : ∀ id ∈ K.approvals, id ∈ s.approvedBy
  approved : ∀ id ∈ s.approvedBy, id ∈ K.approved
  covered : ∀ id ∈ s.approvedBy, id ∉ K.approvals → K.Covered U (K.getActive id)
  used : ∀ e ∈ s.providedSignatures, e.1 ∈ U → e.2 = true
  touched : ∀ e ∈ s.providedSignatures, e.2 = true → e.1 ∈ T

variable {available : List κ} {s : SignState κ α}

/-- An approved account is found. -/
lemma Searched.approve (h : K.Searched available T U s) {id : ℕ} (hid : id ∈ K.approved)
    (hcover : K.Covered U (K.getActive id)) : K.Searched available T U (s.approve id) := by
  refine ⟨h.available_eq, h.provides, h.maps, fun a ha => List.mem_cons_of_mem _ (h.approvals a ha),
    fun a ha => ?_, fun a ha hnot => ?_, h.used, h.touched⟩
  · rcases List.mem_cons.mp ha with rfl | ha
    · exact hid
    · exact h.approved a ha
  · rcases List.mem_cons.mp ha with rfl | ha
    · exact hcover
    · exact h.covered a ha hnot

/-- The maps of addresses are those of the available keys, and of the keys that were provided when
they were made. -/
lemma Searched.addressMaps (h : K.Searched available T U s) :
    ∃ keys, K.Provides available keys ∧ s.addressMaps K.addresses =
      (SignState.addressMap K.addresses available, SignState.addressMap K.addresses keys) := by
  rcases h.maps with hnone | ⟨keys, hkeys, hsome⟩
  · refine ⟨s.keys, h.provides, ?_⟩
    rw [SignState.addressMaps, hnone, h.available_eq]
    rfl
  · refine ⟨keys, hkeys, ?_⟩
    rw [SignState.addressMaps, hsome]
    rfl

lemma Searched.makeMaps (h : K.Searched available T U s) :
    K.Searched available T U { s with addressSigs := some (s.addressMaps K.addresses) } := by
  obtain ⟨keys, hkeys, hmaps⟩ := h.addressMaps
  exact ⟨h.available_eq, h.provides, .inr ⟨keys, hkeys, congrArg some hmaps⟩, h.approvals,
    h.approved, h.covered, h.used, h.touched⟩

variable [DecidableEq κ]

/-- A use of a key marks the key, and no other one. -/
lemma mem_providedSignatures_use {e : κ × Bool} (h : e ∈ (s.use k).providedSignatures) :
    e = (k, true) ∨ (e ∈ s.providedSignatures ∧ e.1 ≠ k) := by
  rw [SignState.use] at h
  dsimp only at h
  split_ifs at h with hk
  · obtain ⟨e', he', rfl⟩ := List.mem_map.mp h
    split_ifs with heq
    · exact .inl rfl
    · exact .inr ⟨he', heq⟩
  · rcases List.mem_append.mp h with he | he
    · exact .inr ⟨he, fun heq => hk (heq ▸ List.mem_map_of_mem he)⟩
    · exact .inl (List.mem_singleton.mp he)

lemma mem_keys_use {k' : κ} : k' ∈ (s.use k).keys ↔ k' = k ∨ k' ∈ s.keys := by
  constructor
  · intro h
    obtain ⟨e, he, rfl⟩ := List.mem_map.mp h
    rcases mem_providedSignatures_use he with rfl | ⟨he, -⟩
    · exact .inl rfl
    · exact .inr (List.mem_map_of_mem he)
  · intro h
    rw [SignState.use, SignState.keys]
    dsimp only
    split_ifs with hk
    · have hk' : k' ∈ s.keys := h.elim (fun heq => heq ▸ hk) id
      obtain ⟨e, he, rfl⟩ := List.mem_map.mp hk'
      refine List.mem_map.mpr ⟨_, List.mem_map_of_mem he, ?_⟩
      split_ifs with heq
      · exact heq.symm
      · rfl
    · rw [List.map_append, List.mem_append]
      rcases h with rfl | h
      · exact .inr (List.mem_singleton.mpr rfl)
      · exact .inl h

/-- A key at hand is used. -/
lemma Searched.use (h : K.Searched available T U s) (hk : k ∈ K.sigs) (hT : k ∈ T) :
    K.Searched available T (insert k U) (s.use k) := by
  refine ⟨h.available_eq, fun k' => ?_, h.maps, h.approvals, h.approved,
    fun id hid hnot => (h.covered id hid hnot).mono (Set.subset_insert k U), fun e he heU => ?_,
    fun e he het => ?_⟩
  · rw [mem_keys_use, or_assoc, h.provides k', or_iff_right_iff_imp]
    rintro rfl
    exact hk
  · rcases mem_providedSignatures_use he with rfl | ⟨he, hne⟩
    · rfl
    · exact h.used e he (heU.resolve_left hne)
  · rcases mem_providedSignatures_use he with rfl | ⟨he, -⟩
    · exact hT
    · exact h.touched e he het

/-! ### What a search finds and uses -/

variable (K) in
/-- What is known of a voter that has been asked: if somebody has signed for it then such a key is
in `U`, and what it asks for, if it is an account, is covered. -/
structure VoterCovered (v : AuthVoter κ α) (U : Set κ) : Prop where
  signed : ∀ k ∈ K.sigs, v.SignedBy K.addresses k →
    ∃ k' ∈ U, k' ∈ K.sigs ∧ v.SignedBy K.addresses k'
  account : ∀ id, v = .account id → id ∉ K.approvals → K.Covered U (K.getActive id)

omit [DecidableEq κ] in
lemma voterCovered_monotone (v : AuthVoter κ α) : Monotone (K.VoterCovered v) := by
  intro U U' hU h
  refine ⟨fun k hk hv => ?_, fun id hv hid => (h.account id hv hid).mono hU⟩
  obtain ⟨k', hk', hs⟩ := h.signed k hk hv
  exact ⟨k', hU hk', hs⟩

variable {E : AuthorityError → SignState κ α → Prop}

/-- A key at hand is used for a voter for whom it signs. -/
lemma triple_useKey {v : AuthVoter κ α} {s₀ : SignState κ α} (h : K.Searched available T U s₀)
    (hk : k ∈ K.sigs) (hv : v.SignedBy K.addresses k) (hT : k ∈ T) :
    Triple (fun s => s = s₀) (do update (SignState.use k); return true)
      (fun b s => ∃ U', U ≤ U' ∧ K.Searched available T U' s ∧ K.VoterCovered v U' ∧
        (b = true ↔ K.Counts v)) E := by
  refine Triple.bind (Q := fun _ => K.Searched available T (insert k U)) (Triple.update ?_)
    fun _ => Triple.pure fun s hs => ⟨insert k U, Set.subset_insert k U, hs, ⟨?_, ?_⟩, ?_⟩
  · rintro _ rfl
    exact h.use hk hT
  · exact fun _ _ _ => ⟨k, Set.mem_insert k U, hk, hv⟩
  · rintro id rfl
    exact hv.elim
  · refine iff_of_true rfl ?_
    cases v with
    | key k' => exact (show k' = k from hv) ▸ hk
    | address a => exact ⟨k, hk, hv⟩
    | account id => exact hv.elim

/-- A key counts if it is at hand, and then it is used. -/
lemma triple_searchKey (k : κ) (hT : k ∈ K.sigs → k ∈ T) (U : Set κ) :
    Triple (K.Searched available T U) (SignState.signedByKey k)
      (fun b s => ∃ U', U ≤ U' ∧ K.Searched available T U' s ∧ K.VoterCovered (.key k) U' ∧
        (b = true ↔ K.Counts (.key k))) E := by
  refine Triple.gets_bind fun s h => ?_
  rw [h.available_eq]
  refine Triple.ite (fun hk => ?_) fun hk => Triple.ite (fun hk' => ?_) fun hk' => ?_
  · have hin : k ∈ K.sigs := (h.provides k).mp (.inl hk)
    exact triple_useKey h hin rfl (hT hin)
  · have hin : k ∈ K.sigs := (h.provides k).mp (.inr hk')
    exact triple_useKey h hin rfl (hT hin)
  · have hnot : k ∉ K.sigs := fun hmem => ((h.provides k).mpr hmem).elim hk hk'
    refine Triple.pure ?_
    rintro _ rfl
    refine ⟨U, le_rfl, h, ⟨fun k' hk' hv => ?_, fun id hv => by cases hv⟩, ?_⟩
    · cases hv
      exact absurd hk' hnot
    · exact iff_of_false Bool.false_ne_true hnot

variable [DecidableEq α]

/-- An address counts if it is one of a key at hand, and such a key is used then. For any other
one the search comes to the end of a map. -/
lemma triple_searchAddress (a : α) (hT : ∀ k ∈ K.sigs, a ∈ K.addresses k → k ∈ T)
    (hE : ∀ s, E .undefined s) (U : Set κ) :
    Triple (K.Searched available T U) (SignState.signedByAddress K.addresses a)
      (fun b s => ∃ U', U ≤ U' ∧ K.Searched available T U' s ∧ K.VoterCovered (.address a) U' ∧
        (b = true ↔ K.Counts (.address a))) E := by
  refine Triple.bind (Q := fun _ => K.Searched available T U) (Triple.update fun s h => h.makeMaps)
    fun _ => Triple.gets_bind fun s h => ?_
  obtain ⟨keys, hkeys, hmaps⟩ := h.addressMaps
  rw [hmaps]
  cases hl : (SignState.addressMap K.addresses keys).lookup a with
  | some k =>
      obtain ⟨hk, ha⟩ := lookup_addressMap hl
      have hin : k ∈ K.sigs := (hkeys k).mp (.inl hk)
      exact triple_useKey h hin ha (hT k hin ha)
  | none =>
      cases hl' : (SignState.addressMap K.addresses available).lookup a with
      | some k =>
          obtain ⟨hk, ha⟩ := lookup_addressMap hl'
          have hin : k ∈ K.sigs := (hkeys k).mp (.inr hk)
          dsimp only
          rw [h.available_eq, if_pos hk]
          exact triple_useKey h hin ha (hT k hin ha)
      | none => exact Triple.raise fun s _ => hE s

omit [DecidableEq κ] [DecidableEq α] in
/-- An account counts if it is approved. -/
lemma triple_searchAccount {nested : ℕ → Exec (SignState κ α) AuthorityError Bool} (id : ℕ)
    (hnested : id ∉ K.approvals → ∀ U, Triple (K.Searched available T U) (nested id)
      (fun b s => ∃ U', U ≤ U' ∧ K.Searched available T U' s ∧ K.Covered U' (K.getActive id) ∧
        (b = true ↔ K.Satisfied K.approved (K.getActive id))) E) (U : Set κ) :
    Triple (K.Searched available T U) (SignState.countsAccount nested id)
      (fun b s => ∃ U', U ≤ U' ∧ K.Searched available T U' s ∧ K.VoterCovered (.account id) U' ∧
        (b = true ↔ K.Counts (.account id))) E := by
  have hvoter : ∀ U', (id ∉ K.approvals → K.Covered U' (K.getActive id)) →
      K.VoterCovered (.account id) U' := by
    intro U' hcover
    refine ⟨fun k _ hv => hv.elim, fun id' hv hid' => ?_⟩
    cases hv
    exact hcover hid'
  refine Triple.gets_bind fun s h => ?_
  refine Triple.ite (fun hid => ?_) fun hid => ?_
  · refine Triple.pure ?_
    rintro _ rfl
    exact ⟨U, le_rfl, h, hvoter U fun hnot => h.covered id hid hnot,
      iff_of_true rfl (h.approved id hid)⟩
  · have hnot : id ∉ K.approvals := fun hmem => hid (h.approvals id hmem)
    refine Triple.bind ((hnested hnot U).conseq (by rintro _ rfl; exact h) (fun _ _ hb => hb)
      fun _ _ he => he) fun b => Triple.of_exists fun U₁ => Triple.of_and fun hU₁ => ?_
    refine Triple.of_and_right fun ⟨hcover, hb⟩ => ?_
    cases b with
    | true =>
        have hin : id ∈ K.approved := K.mem_approved (hb.mp rfl)
        rw [if_pos rfl]
        refine Triple.bind (Q := fun _ => K.Searched available T U₁)
          (Triple.update fun s hs => hs.approve hin hcover) fun _ => ?_
        refine Triple.pure fun s hs => ⟨U₁, hU₁, hs, hvoter U₁ fun _ => hcover, ?_⟩
        exact iff_of_true rfl hin
    | false =>
        rw [if_neg Bool.false_ne_true]
        refine Triple.pure fun s hs => ⟨U₁, hU₁, hs, hvoter U₁ fun _ => hcover, ?_⟩
        refine iff_of_false Bool.false_ne_true fun hin => ?_
        exact Bool.false_ne_true (hb.mpr ((K.mem_approved_iff.mp hin).resolve_left hnot))

/-- **The search for an authority**, if the nested searches are exact: it finds whether the
authority is satisfied, uses a key for each voter that it asks and somebody has signed for, and no
key that none of them asks for. -/
lemma triple_searchWith {nested : ℕ → Exec (SignState κ α) AuthorityError Bool}
    (hT : ∀ k, K.Touches auth k → k ∈ T) (hE : ∀ s, E .undefined s)
    (hnested : ∀ id, K.Asks auth (.account id) → id ∉ K.approvals → ∀ U,
      Triple (K.Searched available T U) (nested id)
        (fun b s => ∃ U', U ≤ U' ∧ K.Searched available T U' s ∧ K.Covered U' (K.getActive id) ∧
          (b = true ↔ K.Satisfied K.approved (K.getActive id))) E) (U : Set κ) :
    Triple (K.Searched available T U) (SignState.checkAuthorityWith K.addresses nested auth)
      (fun b s => ∃ U', U ≤ U' ∧ K.Searched available T U' s ∧ K.Covered U' auth ∧
        (b = true ↔ K.Satisfied K.approved auth)) E := by
  have hvoters : ∀ v, K.Asks auth v → ∀ U, Triple (K.Searched available T U)
      (SignState.countsVoter K.addresses nested v)
      (fun b s => ∃ U', U ≤ U' ∧ K.Searched available T U' s ∧ K.VoterCovered v U' ∧
        (b = true ↔ K.Counts v)) E := by
    intro v hv
    cases v with
    | key k => exact triple_searchKey k fun hk => hT k (.signed hv hk rfl)
    | address a => exact triple_searchAddress a (fun k hk ha => hT k (.signed hv hk ha)) hE
    | account id => exact triple_searchAccount id (hnested id hv)
  rw [SignState.checkAuthorityWith_eq]
  refine Triple.bind (Triple.weighAsked (fun v => voterCovered_monotone v) hvoters U) fun r =>
    Triple.pure fun s hs => ?_
  obtain ⟨U', hU', hs, hcover, hr⟩ := hs
  refine ⟨U', hU', hs, .intro (fun v hv => (hcover v hv).signed)
    (fun id hv hid => (hcover _ hv).account id rfl hid), ?_⟩
  rw [satisfied_iff, ← hr, Bool.or_eq_true, decide_eq_true_iff]

/-- **The search for an authority** that gives up at an account that is too deep. -/
theorem triple_checkFully (hT : ∀ k, K.Touches auth k → k ∈ T) (hE : ∀ s, E .undefined s)
    (n : ℕ) (U : Set κ) :
    Triple (K.Searched available T U) (SignState.checkFully K.addresses K.getActive n auth)
      (fun b s => ∃ U', U ≤ U' ∧ K.Searched available T U' s ∧ K.Covered U' auth ∧
        (b = true ↔ K.Satisfied K.approved auth)) E := by
  induction n generalizing auth U with
  | zero =>
      refine triple_searchWith hT hE (fun id _ _ U => ?_) U
      exact Triple.raise fun s _ => hE s
  | succ n ih =>
      refine triple_searchWith hT hE (fun id hid hnot U => ?_) U
      exact ih (fun k hk => hT k (.account hid hnot hk)) U

end Keyring

end ZosCore
