import ZosCore.Member.Authentication
import ZosCore.Member.Identity

/-!
`gateway_evaluator.cpp`, `asset_evaluator.cpp`: which gateways an asset has.

That a gateway deals with an asset is stored twice, in `allowed_assets` of the gateway and in
`whitelist_gateways` of the asset, and for a loan option a third time in its `gateways`. Either side
may be replaced as a whole, and the operation that does so has to follow it on the other side.

* `State.gatewayUpdate`, `State.assetUpdateGateway`: the operations; `gateway_create_operation` is
  in `Identity.lean`.
* `State.whitelist`, `State.gatewayOf`: the two sides, and what the operations make of them.
* `Consistent`: both sides say the same, and the index of the gateways is in order.
  `WhitelistOp.consistent`: the operations keep it.
* `WhitelistOp.run_mirrored`: so the two sides say the same after any run, and the options follow.
-/

namespace ZosCore.Member

/-! ### Operations -/

/-- `GRAPHENE_COMMITTEE_ACCOUNT` -/
def committeeAccount : ℕ := 0

/-- `GRAPHENE_NULL_ACCOUNT` -/
def nullAccount : ℕ := 3

/-- `gateway_update_operation` -/
structure GatewayUpdate where
  fee : ℤ
  gateway : ℕ
  gatewayAccount : ℕ
  needAuth : Option ℕ := none
  allowedAsset : Option (Finset ℕ) := none

/-- `asset_update_gateway_operation` -/
structure AssetUpdateGateway where
  fee : ℤ
  issuer : ℕ
  assetToUpdate : ℕ
  whitelistGateways : List ℕ := []

namespace State

/-- The gateway object of an account is modified. -/
def modifyGatewayOf (s : State) (account : ℕ) (f : Gateway → Gateway) :
    Except MemberError State := do
  let _ ← orThrow (s.accounts.lookup account)
  let id ← s.getGatewayId account
  let gate ← s.getGateway id
  return { s with gateways := s.gateways.insert id (f gate.2) }

/-- `do_evaluate` of `gateway_update_operation`. -/
def evaluateGatewayUpdate (s : State) (op : GatewayUpdate) : Except MemberError Unit := do
  fcAssert (0 ≤ op.fee) .invalid
  fcAssert (∀ needAuth ∈ op.needAuth, needAuth &&& gatewayMask = needAuth) .invalid
  let wit ← s.getGateway op.gateway
  fcAssert (wit.1.account = op.gatewayAccount) .wrongIssuer
  fcAssert (∀ allowed ∈ op.allowedAsset, ∀ a ∈ allowed, (s.assets.lookup a).isSome) .notFound

/-- `gateway_update_operation` -/
def gatewayUpdate (s : State) (op : GatewayUpdate) : Except MemberError State := do
  s.evaluateGatewayUpdate op
  let wit ← s.getGateway op.gateway
  let g := { wit.2 with needAuth := op.needAuth.getD wit.2.needAuth }
  match op.allowedAsset with
  | none => return { s with gateways := s.gateways.insert op.gateway g }
  | some allowed =>
      let s₁ ← s.doAllowedAsset wit.1.account g.allowedAssets allowed
      return { s₁ with
        gateways := s₁.gateways.insert op.gateway { g with allowedAssets := allowed } }

/-- `do_evaluate` of `asset_update_gateway_operation`. -/
def evaluateAssetUpdateGateway (s : State) (op : AssetUpdateGateway) : Except MemberError Unit := do
  fcAssert (0 ≤ op.fee) .invalid
  let ass ← orThrow (s.assets.lookup op.assetToUpdate)
  fcAssert (ass.issuer = op.issuer ∨ ass.issuer = nullAccount ∧ op.issuer = committeeAccount)
    .wrongIssuer
  op.whitelistGateways.forM fun a => do
    let acc ← orThrow (s.accounts.lookup a)
    fcAssert acc.isGatewayMember .notGatewayMember
  (ass.whitelistGateways.sort (· ≤ ·)).forM fun a => do
    let _ ← orThrow (s.accounts.lookup a)
    let _ ← s.getGatewayId a

/-- `asset_update_gateway_operation`: the asset leaves its old gateways, takes the new ones, and
enters these. -/
def assetUpdateGateway (s : State) (op : AssetUpdateGateway) : Except MemberError State := do
  s.evaluateAssetUpdateGateway op
  let ass ← orThrow (s.assets.lookup op.assetToUpdate)
  let s₁ ← (ass.whitelistGateways.sort (· ≤ ·)).foldlM (fun s a => s.modifyGatewayOf a fun obj =>
    { obj with allowedAssets := obj.allowedAssets.erase op.assetToUpdate }) s
  let s₂ ← s₁.modifyAsset op.assetToUpdate fun obj =>
    { obj with whitelistGateways := op.whitelistGateways.toFinset }
  let s₃ ← (op.whitelistGateways.toFinset.sort (· ≤ ·)).foldlM (fun s a =>
    s.modifyGatewayOf a fun obj =>
      { obj with allowedAssets := insert op.assetToUpdate obj.allowedAssets }) s₂
  return s₃.refreshOptions fun option =>
    option.assetId = op.assetToUpdate ∧ option.sproduct = lenderDesc

end State

/-! ### The two sides -/

namespace State

variable {s s' : State} {x y a b : ℕ} {f : Asset → Asset} {g : Gateway → Gateway}

/-- The accounts that an asset has as its gateways, if there is such an asset. -/
def whitelist (s : State) (a : ℕ) : Option (Finset ℕ) :=
  (s.assets.lookup a).map Asset.whitelistGateways

/-- The gateway object of an account. -/
def gatewayOf (s : State) (x : ℕ) : Option Gateway :=
  (s.findIdentity .gateway x).bind s.gateways.lookup

/-- What is found by the account of an object has this account. -/
lemma lookup_of_findIdentity {kind : IdentityKind} {n : ℕ} (h : s.findIdentity kind x = some n) :
    ∃ i, s.identities.lookup (kind, n) = some i ∧ i.account = x := by
  obtain ⟨⟨⟨k, m⟩, i⟩, he, hm⟩ := Option.map_eq_some_iff.mp h
  cases hm
  have hp := List.find?_some he
  obtain ⟨rfl, hx⟩ := of_decide_eq_true hp
  refine ⟨i, ?_, hx⟩
  exact AList.mem_lookup_iff.mpr (List.mem_of_find?_eq_some he)

/-- Assets are modified one after the other. -/
lemma foldlM_modifyAsset (hf : ∀ p, f (f p) = f p) {l : List ℕ}
    (h : l.foldlM (fun s a => s.modifyAsset a f) s = .ok s') :
    s' = { s with assets := s'.assets } ∧
      ∀ b, s'.assets.lookup b =
        if b ∈ l then (s.assets.lookup b).map f else s.assets.lookup b := by
  induction l generalizing s with
  | nil =>
      cases h
      exact ⟨rfl, fun b => by simp⟩
  | cons a l ih =>
      simp only [List.foldlM_cons, modifyAsset, except_bind_eq_ok, orThrow_eq_ok] at h
      obtain ⟨s₁, ⟨p, hp, hs₁⟩, h⟩ := h
      cases hs₁
      obtain ⟨hframe, hlookup⟩ := ih h
      refine ⟨hframe, fun b => ?_⟩
      rw [hlookup]
      by_cases hba : b = a
      · subst hba
        by_cases hbl : b ∈ l <;> simp [hbl, hp, hf]
      · by_cases hbl : b ∈ l <;> simp [hbl, hba, AList.lookup_insert_ne hba]

/-- The gateway object of one account is modified. -/
lemma modifyGatewayOf_spec (h : s.modifyGatewayOf x g = .ok s') :
    s' = { s with gateways := s'.gateways } ∧ (s.gatewayOf x).isSome ∧
      ∀ y, s'.gatewayOf y = if y = x then (s.gatewayOf y).map g else s.gatewayOf y := by
  simp only [modifyGatewayOf, getGatewayId, except_bind_eq_ok, orThrow_eq_ok] at h
  obtain ⟨-, -, n, hn, gate, hgate, hs'⟩ := h
  cases hs'
  obtain ⟨hi, hgate⟩ := getGateway_eq_ok.mp hgate
  refine ⟨rfl, by simp [gatewayOf, hn, hgate], fun y => ?_⟩
  by_cases hyx : y = x
  · subst hyx
    have hn' : findIdentity { s with gateways := s.gateways.insert n (g gate.2) } .gateway y =
        some n := hn
    simp [gatewayOf, hn, hn', hgate]
  · rw [if_neg hyx]
    refine Option.bind_congr fun m hm => ?_
    have hne : m ≠ n := by
      rintro rfl
      obtain ⟨i, hi', rfl⟩ := lookup_of_findIdentity hm
      obtain ⟨j, hj, rfl⟩ := lookup_of_findIdentity hn
      exact hyx (congrArg Identity.account (Option.some_inj.mp (hi'.symm.trans hj)))
    exact AList.lookup_insert_ne hne

/-- The gateway objects of accounts are modified one after the other. -/
lemma foldlM_modifyGatewayOf (hg : ∀ p, g (g p) = g p) {l : List ℕ}
    (h : l.foldlM (fun s a => s.modifyGatewayOf a g) s = .ok s') :
    s' = { s with gateways := s'.gateways } ∧ (∀ x ∈ l, (s.gatewayOf x).isSome) ∧
      ∀ x, s'.gatewayOf x = if x ∈ l then (s.gatewayOf x).map g else s.gatewayOf x := by
  induction l generalizing s with
  | nil =>
      cases h
      exact ⟨rfl, by simp, fun x => by simp⟩
  | cons a l ih =>
      simp only [List.foldlM_cons, except_bind_eq_ok] at h
      obtain ⟨s₁, hs₁, h⟩ := h
      obtain ⟨hframe₁, hsome, hone⟩ := modifyGatewayOf_spec hs₁
      obtain ⟨hframe, hall, hmany⟩ := ih h
      refine ⟨?_, ?_, fun x => ?_⟩
      · rw [hframe, hframe₁]
      · intro x hx
        rcases List.mem_cons.mp hx with rfl | hx
        · exact hsome
        · have := hall x hx
          rw [hone] at this
          by_cases hxa : x = a
          · subst hxa
            exact hsome
          · rwa [if_neg hxa] at this
      · rw [hmany, hone]
        by_cases hxa : x = a
        · subst hxa
          by_cases hxl : x ∈ l <;> simp [hxl, Function.comp_def, hg]
        · by_cases hxl : x ∈ l <;> simp [hxl, hxa]

/-- A loan option has the gateways of its asset. -/
def Matches (s : State) (j : ℕ) : Prop :=
  ∀ o w, s.options[j]? = some o → o.sproduct = lenderDesc → s.whitelist o.assetId = some w →
    o.gateways = w

/-- An option that is refreshed is about the same. -/
lemma refreshOption_eq (s : State) (o : BitlenderOption) :
    s.refreshOption o = { o with gateways := (s.whitelist o.assetId).getD o.gateways } := by
  cases h : s.assets.lookup o.assetId <;> simp [refreshOption, whitelist, h]

/-- Options that are not refreshed still match if the whitelists of their assets are as before. -/
lemma refreshOptions_matches {p : BitlenderOption → Prop} [DecidablePred p] {j : ℕ}
    (hoptions : s'.options = s.options)
    (hothers : ∀ o w, ¬ p o → o.sproduct = lenderDesc → s'.whitelist o.assetId = some w →
      s.whitelist o.assetId = some w) (hm : s.Matches j) : (s'.refreshOptions p).Matches j := by
  intro o' w ho' hsproduct hw
  obtain ⟨o, ho, rfl⟩ : ∃ o, s'.options[j]? = some o ∧
      (if p o then s'.refreshOption o else o) = o' := by
    simpa [refreshOptions] using ho'
  by_cases hp : p o
  · rw [if_pos hp, refreshOption_eq] at hw ⊢
    have hw' : s'.whitelist o.assetId = some w := hw
    simp [hw']
  · rw [if_neg hp] at hsproduct hw ⊢
    exact hm o w (hoptions ▸ ho) hsproduct (hothers o w hp hsproduct hw)

/-- The whitelists that `do_allowed_asset` makes, and the options that follow. -/
lemma doAllowedAsset_spec {old new : Finset ℕ} (h : s.doAllowedAsset x old new = .ok s') :
    s' = { s with assets := s'.assets, options := s'.options } ∧
      (∀ b, s'.whitelist b = (s.whitelist b).map fun w =>
        if b ∈ new then insert x w else if b ∈ old then w.erase x else w) ∧
      ∀ j, s.Matches j → s'.Matches j := by
  simp only [doAllowedAsset, except_bind_eq_ok] at h
  obtain ⟨s₁, h₁, s₂, h₂, h⟩ := h
  cases h
  obtain ⟨hframe₁, hlookup₁⟩ := foldlM_modifyAsset (fun p => by simp) h₁
  obtain ⟨hframe₂, hlookup₂⟩ := foldlM_modifyAsset (fun p => by simp) h₂
  have hwhitelist : ∀ b, s₂.whitelist b = (s.whitelist b).map fun w =>
      if b ∈ new then insert x w else if b ∈ old then w.erase x else w := by
    intro b
    have hinsert : ∀ w : Finset ℕ, insert x (w.erase x) = insert x w := fun w => by
      ext y
      by_cases hy : y = x <;> simp [hy]
    simp only [whitelist, hlookup₂, hlookup₁, Finset.mem_sort]
    by_cases hnew : b ∈ new <;> by_cases hold : b ∈ old <;>
      simp [hnew, hold, Function.comp_def, hinsert]
  refine ⟨?_, hwhitelist, fun j hm => ?_⟩
  · rw [hframe₂, hframe₁]
    rfl
  · refine refreshOptions_matches (by rw [hframe₂, hframe₁]) ?_ hm
    intro o w hp _ hw
    rw [Finset.mem_union, not_or] at hp
    simpa [hwhitelist, hp.1, hp.2] using hw

/-- A new object is found by its account. -/
lemma findIdentity_insert {k : IdentityKind × ℕ} {i : Identity}
    (h : s'.identities = s.identities.insert k i) (hfresh : k ∉ s.identities)
    (kind : IdentityKind) (y : ℕ) : s'.findIdentity kind y =
      if k.1 = kind ∧ i.account = y then some k.2 else s.findIdentity kind y := by
  simp only [findIdentity, h, AList.entries_insert_of_notMem hfresh, List.find?_cons]
  by_cases hk : k.1 = kind ∧ i.account = y <;> simp [hk]

/-- An account has become a gateway. -/
structure Joined (s s' : State) (x : ℕ) (gate : Gateway) : Prop where
  account : ∃ a, s.accounts.lookup x = some a ∧ a.uaccountProperty &&& accountGateway = 0
  identities : ∃ fees, s'.identities =
    s.identities.insert (.gateway, s.nextIdentity .gateway) { account := x, lockAsset := fees }
  gateways : s'.gateways = s.gateways.insert (s.nextIdentity .gateway) gate
  nextIdentity : s'.nextIdentity =
    Function.update s.nextIdentity .gateway (s.nextIdentity .gateway + 1)
  accounts : ∀ y a, s.accounts.lookup y = some a → ∃ a', s'.accounts.lookup y = some a' ∧
    a'.uaccountProperty =
      if y = x then a.uaccountProperty ||| accountGateway else a.uaccountProperty
  whitelist : ∀ b, s'.whitelist b = (s.whitelist b).map fun w =>
    if b ∈ gate.allowedAssets then insert x w else w
  matches_ : ∀ j, s.Matches j → s'.Matches j

/-- `gateway_create_operation` makes the account a gateway with these assets. -/
lemma joined {op : GatewayCreate} (h : s.gatewayCreate op = .ok s') :
    Joined s s' op.account { needAuth := op.needAuth, allowedAssets := op.allowedAsset } := by
  simp only [gatewayCreate, except_bind_eq_ok, fcAssert_eq_ok, exists_const] at h
  obtain ⟨-, fees, heval, -, s₁, h₁, h⟩ := h
  simp only [evaluateCreate, except_bind_eq_ok, fcAssert_eq_ok, orThrow_eq_ok,
    exists_const] at heval
  obtain ⟨-, a, ha, -, hflag, -⟩ := heval
  obtain ⟨hframe, hwhitelist, hmatches⟩ := doAllowedAsset_spec h₁
  have hd := takeDeposit_spec h
  refine ⟨⟨a, ha, hflag⟩, ⟨fees, ?_⟩, ?_, ?_, fun y b hb => ?_, fun b => ?_, fun j hm => ?_⟩
  · rw [hd.others, hframe]
    rfl
  · rw [hd.others, hframe]
    rfl
  · rw [hd.others, hframe]
    rfl
  · have hb₁ : s₁.accounts.lookup y = some b := by rw [hframe, ← hb]
    refine ⟨_, (hd.accounts y).trans (congrArg _ hb₁), ?_⟩
    by_cases hy : y = op.account <;> simp [hy, IdentityKind.flag]
  · have hb : s'.whitelist b = s₁.whitelist b := by
      rw [hd.others]
      rfl
    simpa [hwhitelist] using hb
  · intro o w ho hsproduct hw
    rw [hd.others] at ho hw
    exact hmatches j hm o w ho hsproduct hw

end State

/-! ### Consistency -/

/-- The assets and the gateways say the same of each other. A gateway is found by its account, which
has the flag, and the next number is that of no object. -/
structure Consistent (s : State) : Prop where
  mirrored : ∀ x a w, s.whitelist a = some w →
    (x ∈ w ↔ ∃ g, s.gatewayOf x = some g ∧ a ∈ g.allowedAssets)
  indexed : ∀ n i, s.identities.lookup (.gateway, n) = some i →
    s.findIdentity .gateway i.account = some n
  flagged : ∀ n i, s.identities.lookup (.gateway, n) = some i →
    ∃ a, s.accounts.lookup i.account = some a ∧ a.uaccountProperty &&& accountGateway ≠ 0
  fresh : ∀ kind n, (kind, n) ∈ s.identities → n < s.nextIdentity kind

namespace Consistent

variable {s s' : State}

/-- An account without the flag is not a gateway. -/
lemma findIdentity_eq_none (hc : Consistent s) {x : ℕ} {a : Account}
    (ha : s.accounts.lookup x = some a) (hflag : a.uaccountProperty &&& accountGateway = 0) :
    s.findIdentity .gateway x = none := by
  by_contra hne
  obtain ⟨n, hn⟩ := Option.ne_none_iff_exists'.mp hne
  obtain ⟨i, hi, rfl⟩ := State.lookup_of_findIdentity hn
  obtain ⟨a', ha', hflag'⟩ := hc.flagged n i hi
  cases ha.symm.trans ha'
  exact hflag' hflag

/-- The number of a new object is that of no object. -/
lemma notMem (hc : Consistent s) (kind : IdentityKind) :
    (kind, s.nextIdentity kind) ∉ s.identities :=
  fun h => (hc.fresh kind _ h).false

section Joined

variable {x : ℕ} {gate : Gateway}

/-- The new gateway is found by its account, and the others as before. -/
lemma findIdentity_joined (hc : Consistent s) (hj : s.Joined s' x gate) (y : ℕ) :
    s'.findIdentity .gateway y =
      if x = y then some (s.nextIdentity .gateway) else s.findIdentity .gateway y := by
  obtain ⟨fees, hidentities⟩ := hj.identities
  simpa using State.findIdentity_insert hidentities (hc.notMem .gateway) .gateway y

/-- The account has the new gateway, and the others have theirs. -/
lemma gatewayOf_joined (hc : Consistent s) (hj : s.Joined s' x gate) (y : ℕ) :
    s'.gatewayOf y = if x = y then some gate else s.gatewayOf y := by
  rw [State.gatewayOf, hc.findIdentity_joined hj, hj.gateways]
  by_cases hy : x = y
  · simp [hy]
  · rw [if_neg hy, if_neg hy]
    refine Option.bind_congr fun n hn => AList.lookup_insert_ne ?_
    rintro rfl
    obtain ⟨i, hi, -⟩ := State.lookup_of_findIdentity hn
    exact hc.notMem .gateway (AList.lookup_isSome.mp (by simp [hi]))

/-- The objects are the new one and the old ones, which are of other accounts. -/
lemma lookup_joined (hc : Consistent s) (hj : s.Joined s' x gate) {n : ℕ} {i : Identity}
    (hi : s'.identities.lookup (.gateway, n) = some i) :
    n = s.nextIdentity .gateway ∧ i.account = x ∨
      s.identities.lookup (.gateway, n) = some i ∧ i.account ≠ x := by
  obtain ⟨fees, hidentities⟩ := hj.identities
  obtain ⟨a, ha, hflag⟩ := hj.account
  rw [hidentities] at hi
  by_cases hn : n = s.nextIdentity .gateway
  · subst hn
    rw [AList.lookup_insert] at hi
    cases hi
    exact .inl ⟨rfl, rfl⟩
  · rw [AList.lookup_insert_ne (by simpa using hn)] at hi
    refine .inr ⟨hi, ?_⟩
    rintro rfl
    have hfound := hc.indexed n i hi
    rw [hc.findIdentity_eq_none ha hflag] at hfound
    exact absurd hfound (by simp)

/-- A new gateway keeps the two sides alike. -/
lemma joined (hc : Consistent s) (hj : s.Joined s' x gate) : Consistent s' := by
  obtain ⟨a, ha, hflag⟩ := hj.account
  have hnone := hc.findIdentity_eq_none ha hflag
  refine ⟨?_, ?_, ?_, ?_⟩
  · intro y b w' hw'
    obtain ⟨w, hw, rfl⟩ := Option.map_eq_some_iff.mp ((hj.whitelist b).symm.trans hw')
    rw [hc.gatewayOf_joined hj]
    by_cases hy : x = y
    · subst hy
      have hnot : x ∉ w := by
        rw [hc.mirrored _ b w hw]
        simp [State.gatewayOf, hnone]
      by_cases hb : b ∈ gate.allowedAssets <;> simp [hb, hnot]
    · rw [if_neg hy, ← hc.mirrored y b w hw]
      by_cases hb : b ∈ gate.allowedAssets <;> simp [hb, Ne.symm hy]
  · intro n i hi
    rw [hc.findIdentity_joined hj]
    rcases hc.lookup_joined hj hi with ⟨rfl, rfl⟩ | ⟨hi, hne⟩
    · rw [if_pos rfl]
    · rw [if_neg hne.symm, hc.indexed n i hi]
  · intro n i hi
    rcases hc.lookup_joined hj hi with ⟨-, rfl⟩ | ⟨hi, hne⟩
    · obtain ⟨a', ha', hflag'⟩ := hj.accounts _ a ha
      refine ⟨a', ha', ?_⟩
      rw [hflag', if_pos rfl, Nat.and_or_distrib_right]
      simp [accountGateway]
    · obtain ⟨b, hb, hflag'⟩ := hc.flagged n i hi
      obtain ⟨b', hb', hproperty⟩ := hj.accounts _ b hb
      exact ⟨b', hb', by rwa [hproperty, if_neg hne]⟩
  · intro kind n hmem
    obtain ⟨fees, hidentities⟩ := hj.identities
    rw [hidentities, AList.mem_insert] at hmem
    rw [hj.nextIdentity]
    rcases hmem with heq | hmem
    · cases heq
      simp
    · have hlt := hc.fresh kind n hmem
      by_cases hkind : kind = .gateway
      · subst hkind
        rw [Function.update_self]
        omega
      · rwa [Function.update_of_ne hkind]

end Joined

/-- Where only assets, gateways and options differ, the index of the gateways is as before. -/
lemma of_eq (hc : Consistent s) (hidentities : s'.identities = s.identities)
    (haccounts : s'.accounts = s.accounts) (hnext : s'.nextIdentity = s.nextIdentity)
    (hmirrored : ∀ x a w, s'.whitelist a = some w →
      (x ∈ w ↔ ∃ g, s'.gatewayOf x = some g ∧ a ∈ g.allowedAssets)) : Consistent s' where
  mirrored := hmirrored
  indexed n i hi := by
    have := hc.indexed n i (hidentities ▸ hi)
    simpa only [State.findIdentity, hidentities] using this
  flagged n i hi := haccounts ▸ hc.flagged n i (hidentities ▸ hi)
  fresh kind n hmem := hnext ▸ hc.fresh kind n (hidentities ▸ hmem)

/-- The gateway of one account is replaced. -/
lemma gatewayOf_replaced (hc : Consistent s) {n : ℕ} {i : Identity} {gate : Gateway}
    (hi : s.identities.lookup (.gateway, n) = some i) (hidentities : s'.identities = s.identities)
    (hgateways : s'.gateways = s.gateways.insert n gate) (y : ℕ) :
    s'.gatewayOf y = if y = i.account then some gate else s.gatewayOf y := by
  have hsame : s'.findIdentity .gateway y = s.findIdentity .gateway y := by
    simp only [State.findIdentity, hidentities]
  rw [State.gatewayOf, hsame, hgateways]
  by_cases hy : y = i.account
  · subst hy
    simp [hc.indexed n i hi]
  · rw [if_neg hy]
    refine Option.bind_congr fun m hm => AList.lookup_insert_ne ?_
    rintro rfl
    obtain ⟨i', hi', rfl⟩ := State.lookup_of_findIdentity hm
    exact hy (congrArg Identity.account (Option.some_inj.mp (hi'.symm.trans hi)))

/-- A gateway whose assets are replaced is replaced in their whitelists. -/
lemma gatewayUpdate (hc : Consistent s) {op : GatewayUpdate} (h : s.gatewayUpdate op = .ok s') :
    Consistent s' ∧ ∀ j, s.Matches j → s'.Matches j := by
  simp only [State.gatewayUpdate, except_bind_eq_ok] at h
  obtain ⟨-, -, ⟨i, g⟩, hwit, h⟩ := h
  obtain ⟨hi, hg⟩ := State.getGateway_eq_ok.mp hwit
  have hgatewayOf : s.gatewayOf i.account = some g := by
    simpa [State.gatewayOf, hc.indexed _ i hi] using hg
  cases hallowed : op.allowedAsset with
  | none =>
      simp only [hallowed] at h
      have hs' := Except.ok.inj h
      have hreplaced : ∀ y, s'.gatewayOf y = if y = i.account then some _ else s.gatewayOf y :=
        hc.gatewayOf_replaced hi (by rw [← hs']) (by rw [← hs'])
      have hwhitelist : ∀ a, s'.whitelist a = s.whitelist a := fun a => by
        rw [← hs']
        rfl
      refine ⟨hc.of_eq (by rw [← hs']) (by rw [← hs']) (by rw [← hs']) fun x a w hw => ?_,
        fun j hm => ?_⟩
      · rw [hc.mirrored x a w (by rwa [← hwhitelist]), hreplaced]
        by_cases hx : x = i.account
        · subst hx
          simp [hgatewayOf]
        · simp [hx]
      · rw [← hs']
        exact hm
  | some allowed =>
      simp only [hallowed, except_bind_eq_ok] at h
      obtain ⟨s₁, h₁, h⟩ := h
      have hs' := Except.ok.inj h
      obtain ⟨hframe, hwhitelist₁, hmatches⟩ := State.doAllowedAsset_spec h₁
      have hidentities : s'.identities = s.identities := by rw [← hs', hframe]
      have hreplaced : ∀ y, s'.gatewayOf y = if y = i.account then some _ else s.gatewayOf y :=
        hc.gatewayOf_replaced hi hidentities (by rw [← hs', hframe])
      have hwhitelist : ∀ a, s'.whitelist a = s₁.whitelist a := fun a => by
        rw [← hs']
        rfl
      refine ⟨hc.of_eq hidentities (by rw [← hs', hframe]) (by rw [← hs', hframe])
        fun x a w' hw' => ?_, fun j hm => ?_⟩
      · rw [hwhitelist, hwhitelist₁] at hw'
        obtain ⟨w, hw, rfl⟩ := Option.map_eq_some_iff.mp hw'
        have hmem := hc.mirrored x a w hw
        rw [hreplaced]
        by_cases hx : x = i.account
        · subst hx
          rw [hgatewayOf] at hmem
          by_cases hnew : a ∈ allowed
          · simp [hnew]
          · by_cases hold : a ∈ g.allowedAssets
            · simp [hnew, hold]
            · simpa [hnew, hold] using hmem
        · by_cases hnew : a ∈ allowed <;> by_cases hold : a ∈ g.allowedAssets <;>
            simp [hx, hnew, hold, hmem]
      · have := hmatches j hm
        rw [← hs']
        exact this

/-- An asset whose gateways are replaced leaves the old ones and enters the new ones. -/
lemma assetUpdateGateway (hc : Consistent s) {op : AssetUpdateGateway}
    (h : s.assetUpdateGateway op = .ok s') :
    Consistent s' ∧ ∀ j, s.Matches j → s'.Matches j := by
  simp only [State.assetUpdateGateway, except_bind_eq_ok, orThrow_eq_ok] at h
  obtain ⟨-, -, ass, hass, s₁, h₁, s₂, h₂, s₃, h₃, h⟩ := h
  have hs' := Except.ok.inj h
  obtain ⟨hframe₁, hsome₁, hgateways₁⟩ := State.foldlM_modifyGatewayOf (fun p => by simp) h₁
  simp only [State.modifyAsset, except_bind_eq_ok, orThrow_eq_ok] at h₂
  obtain ⟨ass', hass', h₂⟩ := h₂
  have hs₂ := Except.ok.inj h₂
  obtain ⟨hframe₃, hsome₃, hgateways₃⟩ := State.foldlM_modifyGatewayOf (fun p => by simp) h₃
  have hsame₂ : ∀ x, s₂.gatewayOf x = s₁.gatewayOf x := fun x => by
    rw [← hs₂]
    rfl
  have hsame' : ∀ x, s'.gatewayOf x = s₃.gatewayOf x := fun x => by
    rw [← hs']
    rfl
  have hassets₁ : s₁.assets = s.assets := by rw [hframe₁]
  have hwhitelist : ∀ b, s₃.whitelist b =
      if b = op.assetToUpdate then some op.whitelistGateways.toFinset else s.whitelist b := by
    intro b
    have hassets₃ : s₃.assets = s.assets.insert op.assetToUpdate
        { ass' with whitelistGateways := op.whitelistGateways.toFinset } := by
      rw [hframe₃, ← hs₂, ← hassets₁]
    rw [State.whitelist, hassets₃]
    by_cases hb : b = op.assetToUpdate
    · subst hb
      simp
    · simp [hb, AList.lookup_insert_ne hb, State.whitelist]
  have hwhitelist' : ∀ b, s'.whitelist b = s₃.whitelist b := fun b => by
    rw [← hs']
    rfl
  have hold : s.whitelist op.assetToUpdate = some ass.whitelistGateways := by
    simp [State.whitelist, hass]
  refine ⟨hc.of_eq (by rw [← hs', State.refreshOptions, hframe₃, ← hs₂, hframe₁])
    (by rw [← hs', State.refreshOptions, hframe₃, ← hs₂, hframe₁])
    (by rw [← hs', State.refreshOptions, hframe₃, ← hs₂, hframe₁]) fun x b w' hw' => ?_,
    fun j hm => ?_⟩
  · rw [hwhitelist', hwhitelist] at hw'
    by_cases hb : b = op.assetToUpdate
    · subst hb
      rw [if_pos rfl] at hw'
      cases hw'
      have hmem := hc.mirrored x _ _ hold
      by_cases hnew : x ∈ op.whitelistGateways
      · have hsome := hsome₃ x (by simpa using hnew)
        rw [hsame₂] at hsome
        obtain ⟨g, hg⟩ := Option.isSome_iff_exists.mp hsome
        simp [hsame', hgateways₃, hsame₂, hnew, hg]
      · by_cases hx : x ∈ ass.whitelistGateways
        · simp [hsame', hgateways₃, hsame₂, hgateways₁, hnew, hx]
        · simpa [hsame', hgateways₃, hsame₂, hgateways₁, hnew, hx] using hmem
    · rw [if_neg hb] at hw'
      rw [hc.mirrored x b w' hw', hsame', hgateways₃, hsame₂, hgateways₁]
      cases s.gatewayOf x with
      | none => simp
      | some g =>
          by_cases hnew : x ∈ op.whitelistGateways <;> by_cases hx : x ∈ ass.whitelistGateways <;>
            simp [hnew, hx, hb]
  · rw [← hs']
    refine State.refreshOptions_matches (by rw [hframe₃, ← hs₂, hframe₁]) ?_ hm
    intro o w hp hsproduct hw
    have hne : o.assetId ≠ op.assetToUpdate := fun heq => hp ⟨heq, hsproduct⟩
    rwa [hwhitelist, if_neg hne] at hw

end Consistent

/-! ### Runs -/

/-- The operations that change which gateways an asset has. -/
inductive WhitelistOp where
  | gatewayCreate (op : GatewayCreate)
  | gatewayUpdate (op : GatewayUpdate)
  | assetUpdateGateway (op : AssetUpdateGateway)

namespace WhitelistOp

variable {s s' : State}

/-- The evaluator. -/
def apply (s : State) : WhitelistOp → Except MemberError State
  | gatewayCreate op => s.gatewayCreate op
  | gatewayUpdate op => s.gatewayUpdate op
  | assetUpdateGateway op => s.assetUpdateGateway op

/-- Operations that are accepted one after the other. -/
def run (s : State) (ops : List WhitelistOp) : Except MemberError State :=
  ops.foldlM (fun s op => op.apply s) s

/-- Every operation keeps the two sides alike, and the options that match. -/
lemma consistent {op : WhitelistOp} (hc : Consistent s) (h : op.apply s = .ok s') :
    Consistent s' ∧ ∀ j, s.Matches j → s'.Matches j := by
  cases op with
  | gatewayCreate op =>
      have hj := State.joined h
      exact ⟨hc.joined hj, hj.matches_⟩
  | gatewayUpdate op => exact hc.gatewayUpdate h
  | assetUpdateGateway op => exact hc.assetUpdateGateway h

/-- Every run keeps the two sides alike, and the options that match. -/
lemma run_consistent {ops : List WhitelistOp} (hc : Consistent s) (h : run s ops = .ok s') :
    Consistent s' ∧ ∀ j, s.Matches j → s'.Matches j := by
  induction ops generalizing s with
  | nil =>
      cases h
      exact ⟨hc, fun j hm => hm⟩
  | cons op ops ih =>
      obtain ⟨s₁, h₁, h⟩ := except_bind_eq_ok.mp h
      obtain ⟨hc₁, hm₁⟩ := consistent hc h₁
      obtain ⟨hc', hm'⟩ := ih hc₁ h
      exact ⟨hc', fun j hm => hm' j (hm₁ j hm)⟩

/-- **The whitelists of the gateways and of the assets mirror each other.** After any run from a
consistent state, the account of a gateway is in the whitelist of an asset exactly if the asset is
among those of the gateway, and every loan option whose gateways were those of its asset has them
still. -/
theorem run_mirrored {ops : List WhitelistOp} (hc : Consistent s) (h : run s ops = .ok s') :
    (∀ n i g a asset, s'.identities.lookup (.gateway, n) = some i → s'.gateways.lookup n = some g →
      s'.assets.lookup a = some asset →
        (i.account ∈ asset.whitelistGateways ↔ a ∈ g.allowedAssets)) ∧
      ∀ j, s.Matches j → s'.Matches j := by
  obtain ⟨hc', hm⟩ := run_consistent hc h
  refine ⟨fun n i g a asset hi hg ha => ?_, hm⟩
  have hgatewayOf : s'.gatewayOf i.account = some g := by
    simpa [State.gatewayOf, hc'.indexed n i hi] using hg
  rw [hc'.mirrored i.account a _ (by simp [State.whitelist, ha]), hgatewayOf]
  simp

/-- A lifetime member, and an asset with a loan option, before there are any gateways. -/
def beforeGateways : State where
  accounts := AList.insert 2 { membershipExpirationDate := 2 ^ 32 - 1 } ∅
  assets := AList.insert 1 { issuer := 5 } ∅
  options := [{ assetId := 1, sproduct := lenderDesc }]

lemma consistent_beforeGateways : Consistent beforeGateways where
  mirrored x a w hw := by
    have hnone : beforeGateways.gatewayOf x = none := rfl
    obtain ⟨asset, ha, rfl⟩ := Option.map_eq_some_iff.mp hw
    by_cases h1 : a = 1
    · subst h1
      cases ha
      simp [hnone]
    · have hmiss : beforeGateways.assets.lookup a = none := AList.lookup_insert_ne h1
      simp [hmiss] at ha
  indexed n i hi := by simp [beforeGateways] at hi
  flagged n i hi := by simp [beforeGateways] at hi
  fresh kind n hmem := by simp [beforeGateways] at hmem

/-- The account becomes a gateway of the asset, the asset drops it and takes it again. -/
def gatewayLife : List WhitelistOp :=
  [.gatewayCreate { fee := 1, account := 2, allowedAsset := {1} },
    .assetUpdateGateway { fee := 1, issuer := 5, assetToUpdate := 1 },
    .gatewayUpdate { fee := 1, gateway := 0, gatewayAccount := 2, allowedAsset := some {1} }]

theorem run_mirrored_gatewayLife : ∃ s', run beforeGateways gatewayLife = .ok s' ∧
    (∀ n i g a asset, s'.identities.lookup (.gateway, n) = some i → s'.gateways.lookup n = some g →
      s'.assets.lookup a = some asset →
        (i.account ∈ asset.whitelistGateways ↔ a ∈ g.allowedAssets)) ∧
      ∀ j, beforeGateways.Matches j → s'.Matches j := by
  obtain ⟨s', h⟩ := exists_eq_ok (x := run beforeGateways gatewayLife) (by decide +kernel)
  exact ⟨s', h, run_mirrored consistent_beforeGateways h⟩

end WhitelistOp

end ZosCore.Member
