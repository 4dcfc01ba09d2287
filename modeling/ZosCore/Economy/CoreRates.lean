import ZosCore.Economy.MedianFeeds
import ZosCore.Lib.FlagIndex

/-!
Core exchange rates: those of the assets follow those of the current feeds.

A bitasset is flagged when the rate of its feed has changed, and when that of its asset has. The index
`by_cer_update` has the bitassets that are flagged, and have a feed to go by, at its end.

* `RatedBitasset.needToUpdateCer`, `RateState`: the flags, the index, and the rates of the assets.
* `updateCoreExchangeRates`, `updateExpiredFeeds`: what happens with each block.
* `refeed`, `updateAsset`: what operations do.
* `RateStep`: all of this, and new assets. `Consistent`: each bitasset has an asset of its own.
* `updateCoreExchangeRates_spec`: the loop ends, and the rates are those of the feeds.
* **`rates_follow_feeds`**: from every consistent state; all states that are reached are consistent, and no
  rate is ever replaced by a null price.
-/

namespace ZosCore

open GroupedOrders (Price)
open FlagIndex (replace put)

/-! ### Bitassets -/

/-- `operator ==` of prices that may be null. -/
def samePrice : Option Price → Option Price → Bool
  | none, none => true
  | some p, some q => p.eq q
  | _, _ => false

/-- `asset_bitasset_data_object` -/
structure RatedBitasset extends Bitasset where
  assetId : ℕ
  assetCerUpdated : Bool := false

namespace RatedBitasset

variable (b : RatedBitasset)

/-- `current_feed.core_exchange_rate` -/
def feedRate : Option Price := b.currentFeed.map PriceFeed.coreExchangeRate

/-- `need_to_update_cer` -/
def needToUpdateCer : Bool := (b.feedCerUpdated || b.assetCerUpdated) && b.feedRate.isSome

/-- Both flags are cleared. -/
def clearCer : RatedBitasset := { b with assetCerUpdated := false, feedCerUpdated := false }

/-- `feed_is_expired` -/
def feedIsExpired (now : ℕ) : Bool := (b.currentFeedPublicationTime + b.feedLifetimeSec) % 2 ^ 32 ≤ now

/-- `update_median_feeds` -/
def updateMedianFeeds (now : ℕ) (N : NthElement PriceFeed) : Option RatedBitasset :=
  (b.toBitasset.updateMedianFeeds now N).map fun c => { b with toBitasset := c }

end RatedBitasset

open RatedBitasset (needToUpdateCer)

/-- The assets and the bitassets. -/
structure RateState where
  /-- `options.core_exchange_rate`, by asset. -/
  rates : ℕ → Option (Option Price)
  /-- The assets that are market issued, in the order of `by_type`. -/
  marketIssued : List ℕ
  /-- In the order of `by_cer_update`. -/
  bitassets : List RatedBitasset

namespace RateState

variable (s : RateState)

/-- An asset gets a rate. -/
def setRate (id : ℕ) (rate : Option Price) : RateState :=
  { s with rates := Function.update s.rates id (some rate) }

/-- `bitasset_data` -/
def bitasset (id : ℕ) : Option RatedBitasset := s.bitassets.find? fun b => b.assetId = id

/-- `modify` of the bitasset of an asset. -/
def modifyBitasset (id : ℕ) (f : RatedBitasset → Option RatedBitasset) : Option RateState :=
  match s.bitassets.dropWhile fun b => b.assetId ≠ id with
  | [] => none
  | b :: after => do
      let b' ← f b
      some { s with
        bitassets := replace needToUpdateCer (s.bitassets.takeWhile fun b => b.assetId ≠ id) after b' }

/-! ### With each block -/

/-- The rate of the asset, if it is another one, becomes that of the feed. -/
def followFeed (b : RatedBitasset) : Option (ℕ → Option (Option Price)) := do
  let rate ← s.rates b.assetId
  if samePrice rate b.feedRate then some s.rates
  else some (Function.update s.rates b.assetId (some b.feedRate))

/-- A flag less. -/
lemma countP_replace_lt {b : RatedBitasset} (hlast : s.bitassets.getLast? = some b)
    (hneed : b.needToUpdateCer = true) :
    (replace needToUpdateCer s.bitassets.dropLast [] b.clearCer).countP needToUpdateCer <
      s.bitassets.countP needToUpdateCer := by
  obtain ⟨front, hfront⟩ := List.getLast?_eq_some_iff.mp hlast
  have hclear : b.clearCer.needToUpdateCer = false := rfl
  rw [FlagIndex.replace_perm.countP_eq, hfront, List.dropLast_concat, List.append_nil,
    List.countP_cons_of_neg (by rw [hclear]; exact Bool.false_ne_true), List.countP_append,
    List.countP_singleton, hneed]
  exact Nat.lt_succ_self _

/-- `update_core_exchange_rates` -/
def updateCoreExchangeRates (s : RateState) : Option RateState :=
  match _hlast : s.bitassets.getLast? with
  | none => some s
  | some b =>
      if _hneed : b.needToUpdateCer = true then do
        let rates ← s.followFeed b
        updateCoreExchangeRates
          ⟨rates, s.marketIssued, replace needToUpdateCer s.bitassets.dropLast [] b.clearCer⟩
      else some s
  termination_by s.bitassets.countP needToUpdateCer
  decreasing_by exact s.countP_replace_lt _hlast _hneed

variable (N : NthElement PriceFeed) (now : ℕ)

/-- A round of the loop of `update_expired_feeds`. -/
def expireFeed (id : ℕ) : Option RateState := do
  let b ← s.bitasset id
  if b.feedIsExpired now then
    let b ← b.updateMedianFeeds now N
    let updateCer := b.needToUpdateCer
    let s ← s.modifyBitasset id fun _ => some (if updateCer then b.clearCer else b)
    if updateCer then
      let rate ← s.rates id
      if b.feedRate.isSome && !samePrice rate b.feedRate then some (s.setRate id b.feedRate) else some s
    else some s
  else some s

/-- `update_expired_feeds` -/
def updateExpiredFeeds : Option RateState :=
  s.marketIssued.foldlM (fun s id => s.expireFeed N now id) s

/-! ### Operations -/

/-- The options or the feeds of a bitasset are replaced, and the median is taken: by
`asset_publish_feed`, `asset_update_feed_producers` and, if the number of feeds that are needed changes,
`asset_update_bitasset`. -/
def refeed (id feedLifetimeSec minimumFeeds : ℕ) (feeds : List (ℕ × Option (ℕ × PriceFeed))) :
    Option RateState :=
  s.modifyBitasset id fun b =>
    { b with feedLifetimeSec, minimumFeeds, feeds : RatedBitasset }.updateMedianFeeds now N

/-- `asset_update_bitasset`, if the number of feeds that are needed stays. -/
def updateBitasset (id feedLifetimeSec : ℕ) : Option RateState :=
  s.modifyBitasset id fun b => some { b with feedLifetimeSec }

/-- "if core change rate changed, update flag in bitasset data" -/
def flagAsset (id : ℕ) (old : Option Price) (rate : Price) : Option RateState :=
  if id ∈ s.marketIssued ∧ samePrice old rate = false then do
    let b ← s.bitasset id
    if b.assetCerUpdated then some s
    else s.modifyBitasset id fun b => some { b with assetCerUpdated := true }
  else some s

/-- `asset_update`, with a rate that has been validated. -/
def updateAsset (id : ℕ) (rate : Price) : Option RateState := do
  let old ← s.rates id
  let s ← s.flagAsset id old rate
  some (s.setRate id rate)

/-! ### Consistency -/

/-- Every bitasset is of an asset of its own, and the index is in order. -/
structure Consistent (s : RateState) : Prop where
  ordered : FlagIndex.Ordered needToUpdateCer s.bitassets
  ids : (s.bitassets.map RatedBitasset.assetId).Perm s.marketIssued
  nodup : s.marketIssued.Nodup
  exist : ∀ b ∈ s.bitassets, (s.rates b.assetId).isSome

/-- No rate is replaced by a null price. -/
def KeepsRates (s s' : RateState) : Prop :=
  ∀ id rate, s.rates id = some rate → s'.rates id = some rate ∨ ∃ r, s'.rates id = some (some r)

variable {s} {s' s'' : RateState} {b b' c : RatedBitasset} {before after : List RatedBitasset} {id : ℕ}

lemma KeepsRates.refl : KeepsRates s s := fun _ _ h => .inl h

lemma KeepsRates.trans (h : KeepsRates s s') (h' : KeepsRates s' s'') : KeepsRates s s'' := by
  intro id rate hrate
  rcases h id rate hrate with hrate' | ⟨r, hr⟩
  · exact h' id rate hrate'
  · rcases h' id (some r) hr with hr' | hr'
    · exact .inr ⟨r, hr'⟩
    · exact .inr hr'

lemma KeepsRates.isSome (h : KeepsRates s s') (hid : (s.rates id).isSome) : (s'.rates id).isSome := by
  obtain ⟨rate, hrate⟩ := Option.isSome_iff_exists.mp hid
  rcases h id rate hrate with hrate' | ⟨r, hr⟩
  · rw [hrate']
    rfl
  · rw [hr]
    rfl

lemma Consistent.nodup_ids (h : Consistent s) : (s.bitassets.map RatedBitasset.assetId).Nodup :=
  h.ids.nodup_iff.mpr h.nodup

/-- One bitasset is changed, and stays of its asset. -/
lemma Consistent.replace (h : Consistent s) (hl : s.bitassets = before ++ b :: after)
    (hid : b'.assetId = b.assetId) {rates : ℕ → Option (Option Price)}
    (hrates : ∀ id, (s.rates id).isSome → (rates id).isSome) :
    Consistent ⟨rates, s.marketIssued, replace needToUpdateCer before after b'⟩ := by
  have hperm : (FlagIndex.replace needToUpdateCer before after b').Perm (b' :: (before ++ after)) :=
    FlagIndex.replace_perm
  have hordered := h.ordered
  have hids := h.ids
  rw [hl] at hordered hids
  refine ⟨FlagIndex.ordered_replace hordered, ?_, h.nodup, fun c hc => hrates _ ?_⟩
  · refine List.Perm.trans ?_ hids
    refine (hperm.map _).trans ?_
    rw [List.map_cons, hid, ← List.map_cons]
    exact List.perm_middle.symm.map _
  · rcases List.mem_cons.mp (hperm.mem_iff.mp hc) with rfl | hc
    · rw [hid]
      exact h.exist b (by rw [hl]; exact List.mem_append_right _ List.mem_cons_self)
    · exact h.exist c (by
        rw [hl]
        rcases List.mem_append.mp hc with hc | hc
        · exact List.mem_append_left _ hc
        · exact List.mem_append_right _ (List.mem_cons_of_mem _ hc))

/-! ### The loop -/

lemma samePrice_self (rate : Option Price) : samePrice rate rate = true := by
  cases rate with
  | none => rfl
  | some p => exact Price.eq_iff.mpr rfl

lemma feedRate_of_need (h : b.needToUpdateCer = true) : ∃ r, b.feedRate = some r :=
  Option.isSome_iff_exists.mp (Bool.and_eq_true _ _ ▸ h).2

/-- What following a feed does. -/
lemma followFeed_spec (hexist : (s.rates b.assetId).isSome) (hneed : b.needToUpdateCer = true) :
    ∃ rates, s.followFeed b = some rates ∧
      (∃ rate, rates b.assetId = some rate ∧ samePrice rate b.feedRate = true) ∧
      (∀ id, id ≠ b.assetId → rates id = s.rates id) ∧
      ∀ id rate, s.rates id = some rate → rates id = some rate ∨ ∃ r, rates id = some (some r) := by
  obtain ⟨rate, hrate⟩ := Option.isSome_iff_exists.mp hexist
  obtain ⟨r, hr⟩ := feedRate_of_need hneed
  rw [followFeed, hrate, Option.bind_eq_bind, Option.bind_some]
  by_cases hsame : samePrice rate b.feedRate = true
  · rw [if_pos hsame]
    exact ⟨_, rfl, ⟨rate, hrate, hsame⟩, fun _ _ => rfl, fun _ _ h => .inl h⟩
  · rw [if_neg hsame]
    refine ⟨_, rfl, ⟨_, Function.update_self _ _ _, samePrice_self _⟩,
      fun id hid => Function.update_of_ne hid _ _, fun id rate' h => ?_⟩
    by_cases hid : id = b.assetId
    · rw [hid, Function.update_self, hr]
      exact .inr ⟨r, rfl⟩
    · rw [Function.update_of_ne hid]
      exact .inl h

/-- What the loop does. -/
structure Synchronised (s s' : RateState) : Prop where
  consistent : Consistent s'
  none_left : ∀ b ∈ s'.bitassets, b.needToUpdateCer = false
  followed : ∀ b ∈ s.bitassets, b.needToUpdateCer = true → b.clearCer ∈ s'.bitassets ∧
    ∃ rate, s'.rates b.assetId = some rate ∧ samePrice rate b.feedRate = true
  stays : ∀ b ∈ s.bitassets, b.needToUpdateCer = false → b ∈ s'.bitassets ∧
    s'.rates b.assetId = s.rates b.assetId
  keeps : KeepsRates s s'

/-- Where the last bitasset need not be updated, nothing is to be done. -/
lemma Synchronised.refl (h : Consistent s) (hnone : ∀ b ∈ s.bitassets, b.needToUpdateCer = false) :
    Synchronised s s := by
  refine ⟨h, hnone, fun b hb hneed => ?_, fun b hb _ => ⟨hb, rfl⟩, .refl⟩
  rw [hnone b hb] at hneed
  cases hneed

/-- A round of the loop, and the rest. -/
lemma Synchronised.step (h : Consistent s) {front : List RatedBitasset}
    (hl : s.bitassets = front ++ [b]) (hneed : b.needToUpdateCer = true)
    {rates : ℕ → Option (Option Price)}
    (hfollow : ∃ rate, rates b.assetId = some rate ∧ samePrice rate b.feedRate = true)
    (hother : ∀ id, id ≠ b.assetId → rates id = s.rates id)
    (hkeeps : KeepsRates s ⟨rates, s.marketIssued, FlagIndex.replace needToUpdateCer front [] b.clearCer⟩)
    (hrest : Synchronised ⟨rates, s.marketIssued, FlagIndex.replace needToUpdateCer front [] b.clearCer⟩ s') :
    Synchronised s s' := by
  have hperm : (FlagIndex.replace needToUpdateCer front [] b.clearCer).Perm (b.clearCer :: (front ++ [])) :=
    FlagIndex.replace_perm
  rw [List.append_nil] at hperm
  have hmemb : b.clearCer ∈ FlagIndex.replace needToUpdateCer front [] b.clearCer :=
    hperm.mem_iff.mpr List.mem_cons_self
  have hmem {c : RatedBitasset} (hc : c ∈ front) : c ∈ FlagIndex.replace needToUpdateCer front [] b.clearCer :=
    hperm.mem_iff.mpr (List.mem_cons_of_mem _ hc)
  have hb : b ∈ s.bitassets := by
    rw [hl]
    exact List.mem_append_right _ (List.mem_singleton_self b)
  have hne {c : RatedBitasset} (hc : c ∈ front) : c.assetId ≠ b.assetId := by
    intro heq
    have hids := h.nodup_ids
    rw [hl, List.map_append, List.nodup_append] at hids
    exact hids.2.2 _ (List.mem_map_of_mem hc) _ (List.mem_map_of_mem (List.mem_singleton_self b)) heq
  refine ⟨hrest.consistent, hrest.none_left, fun c hc hcneed => ?_, fun c hc hcneed => ?_,
    hkeeps.trans hrest.keeps⟩
  · rw [hl, List.mem_append, List.mem_singleton] at hc
    rcases hc with hc | rfl
    · exact hrest.followed c (hmem hc) hcneed
    · obtain ⟨hin, hrate⟩ := hrest.stays _ hmemb rfl
      exact ⟨hin, by rw [show s'.rates c.assetId = rates c.assetId from hrate]; exact hfollow⟩
  · rw [hl, List.mem_append, List.mem_singleton] at hc
    rcases hc with hc | rfl
    · obtain ⟨hin, hrate⟩ := hrest.stays c (hmem hc) hcneed
      exact ⟨hin, hrate.trans (hother _ (hne hc))⟩
    · rw [hneed] at hcneed
      cases hcneed

/-- The loop, as far as it looks at the last bitasset. -/
lemma updateCoreExchangeRates_none (h : s.bitassets.getLast? = none) :
    s.updateCoreExchangeRates = some s := by
  rw [updateCoreExchangeRates]
  split
  · rfl
  · next heq =>
      rw [h] at heq
      cases heq

lemma updateCoreExchangeRates_some (h : s.bitassets.getLast? = some b) :
    s.updateCoreExchangeRates =
      if b.needToUpdateCer = true then (s.followFeed b).bind fun rates => updateCoreExchangeRates
        ⟨rates, s.marketIssued, FlagIndex.replace needToUpdateCer s.bitassets.dropLast [] b.clearCer⟩
      else some s := by
  rw [updateCoreExchangeRates]
  split
  · next heq =>
      rw [h] at heq
      cases heq
  · next heq =>
      rw [h] at heq
      cases heq
      rw [dite_eq_ite]
      rfl

/-- **The loop.** -/
lemma updateCoreExchangeRates_spec (h : Consistent s) :
    ∃ s', s.updateCoreExchangeRates = some s' ∧ Synchronised s s' := by
  induction s using updateCoreExchangeRates.induct with
  | case1 s hlast =>
      refine ⟨s, updateCoreExchangeRates_none hlast, .refl h fun b hb => ?_⟩
      rw [List.getLast?_eq_none_iff.mp hlast] at hb
      cases hb
  | case2 s b hlast hneed ih =>
      obtain ⟨front, hfront⟩ := List.getLast?_eq_some_iff.mp hlast
      have hb : b ∈ s.bitassets := by
        rw [hfront]
        exact List.mem_append_right _ (List.mem_singleton_self b)
      obtain ⟨rates, hrates, hfollow, hother, hkeeps⟩ := followFeed_spec (h.exist b hb) hneed
      have hkeeps' : KeepsRates s ⟨rates, s.marketIssued, []⟩ := hkeeps
      have hknown : ∀ id, (s.rates id).isSome → (rates id).isSome := fun id => hkeeps'.isSome
      have hsame : b.clearCer.assetId = b.assetId := rfl
      have hconsistent := h.replace hfront hsame hknown
      rw [updateCoreExchangeRates_some hlast, if_pos hneed, hrates, Option.bind_some]
      rw [hfront, List.dropLast_concat] at ih ⊢
      obtain ⟨s', hs', hsync⟩ := ih rates hconsistent
      exact ⟨s', hs', .step h hfront hneed hfollow hother hkeeps hsync⟩
  | case3 s b hlast hneed =>
      rw [updateCoreExchangeRates_some hlast, if_neg hneed]
      exact ⟨s, rfl, .refl h (FlagIndex.flag_of_getLast h.ordered hlast (Bool.not_eq_true _ ▸ hneed))⟩

/-! ### Runs -/

/-- What changes assets and bitassets. -/
inductive RateStep : RateState → RateState → Prop
  | createAsset {s : RateState} {id : ℕ} {rate : Option Price} (fresh : s.rates id = none) :
      RateStep s (s.setRate id rate)
  | createBitasset {s : RateState} {b : RatedBitasset} {rate : Price} {front rest : List ℕ}
      (fresh : s.rates b.assetId = none) (order : s.marketIssued = front ++ rest) :
      RateStep s ⟨Function.update s.rates b.assetId (some rate), front ++ b.assetId :: rest,
        put needToUpdateCer b s.bitassets⟩
  | refeed {s s' : RateState} {now id feedLifetimeSec minimumFeeds : ℕ}
      {feeds : List (ℕ × Option (ℕ × PriceFeed))}
      (done : s.refeed N now id feedLifetimeSec minimumFeeds feeds = some s') : RateStep s s'
  | updateBitasset {s s' : RateState} {id feedLifetimeSec : ℕ}
      (done : s.updateBitasset id feedLifetimeSec = some s') : RateStep s s'
  | updateAsset {s s' : RateState} {id : ℕ} {rate : Price} (done : s.updateAsset id rate = some s') :
      RateStep s s'
  | expire {s s' : RateState} {now : ℕ} (done : s.updateExpiredFeeds N now = some s') : RateStep s s'
  | synchronise {s s' : RateState} (done : s.updateCoreExchangeRates = some s') : RateStep s s'

/-- Consistency is kept, and no rate becomes null. -/
structure Sound (s s' : RateState) : Prop where
  consistent : Consistent s'
  keeps : KeepsRates s s'

lemma Sound.trans (h : Sound s s') (h' : Sound s' s'') : Sound s s'' :=
  ⟨h'.consistent, h.keeps.trans h'.keeps⟩

/-- Where a bitasset has been changed. -/
lemma modifyBitasset_spec {f : RatedBitasset → Option RatedBitasset} (h : s.modifyBitasset id f = some s') :
    ∃ before b after b', s.bitassets = before ++ b :: after ∧ b.assetId = id ∧ f b = some b' ∧
      s' = ⟨s.rates, s.marketIssued, FlagIndex.replace needToUpdateCer before after b'⟩ := by
  rw [modifyBitasset] at h
  split at h
  · cases h
  · next b after hdrop =>
      obtain ⟨b', hb', hs'⟩ := Option.bind_eq_some_iff.mp h
      have hl := List.takeWhile_append_dropWhile (p := fun b : RatedBitasset => b.assetId ≠ id) (l := s.bitassets)
      rw [hdrop] at hl
      have hid : b.assetId = id := by
        have hhead := List.head?_dropWhile_not (fun b : RatedBitasset => decide (b.assetId ≠ id)) s.bitassets
        rw [hdrop] at hhead
        simpa using hhead
      exact ⟨_, b, after, b', hl.symm, hid, hb', (Option.some.inj hs').symm⟩

lemma sound_modifyBitasset (hs : Consistent s) {f : RatedBitasset → Option RatedBitasset}
    (hf : ∀ b b', b.assetId = id → f b = some b' → b'.assetId = id)
    (h : s.modifyBitasset id f = some s') : Sound s s' := by
  obtain ⟨before, b, after, b', hl, hid, hb', rfl⟩ := modifyBitasset_spec h
  exact ⟨hs.replace hl ((hf b b' hid hb').trans hid.symm) fun _ hid => hid, fun _ _ hrate => .inl hrate⟩

lemma sound_setRate (hs : Consistent s) (r : Price) : Sound s (s.setRate id (some r)) := by
  have hkeeps : KeepsRates s (s.setRate id (some r)) := by
    intro id' rate hrate
    by_cases hid : id' = id
    · rw [hid]
      exact .inr ⟨r, Function.update_self _ _ _⟩
    · exact .inl ((Function.update_of_ne hid _ _).trans hrate)
  exact ⟨⟨hs.ordered, hs.ids, hs.nodup, fun b hb => hkeeps.isSome (hs.exist b hb)⟩, hkeeps⟩

lemma assetId_updateMedianFeeds {now : ℕ} (h : b.updateMedianFeeds now N = some b') :
    b'.assetId = b.assetId := by
  obtain ⟨c, -, rfl⟩ := Option.map_eq_some_iff.mp h
  rfl

/-- What a search for a bitasset finds is of the asset. -/
lemma assetId_of_bitasset (h : s.bitasset id = some b) : b.assetId = id := by
  have hid := List.find?_some h
  simpa using hid

lemma sound_expireFeed (hs : Consistent s) {now : ℕ} (h : s.expireFeed N now id = some s') : Sound s s' := by
  rw [expireFeed] at h
  obtain ⟨b, hb, h⟩ := Option.bind_eq_some_iff.mp h
  have hid := assetId_of_bitasset hb
  split_ifs at h with hexpired
  · obtain ⟨b', hb', h⟩ := Option.bind_eq_some_iff.mp h
    obtain ⟨s₁, hs₁, h⟩ := Option.bind_eq_some_iff.mp h
    have hid' := (assetId_updateMedianFeeds N hb').trans hid
    have hsound : Sound s s₁ := by
      refine sound_modifyBitasset hs (fun c c' _ hc => ?_) hs₁
      rw [← Option.some.inj hc]
      split_ifs
      · exact hid'
      · exact hid'
    split_ifs at h with hneed
    · obtain ⟨rate, -, h⟩ := Option.bind_eq_some_iff.mp h
      obtain ⟨r, hr⟩ := feedRate_of_need hneed
      split_ifs at h with hother
      · rw [hr] at h
        cases h
        exact hsound.trans (sound_setRate hsound.consistent r)
      · cases h
        exact hsound
    · cases h
      exact hsound
  · cases h
    exact ⟨hs, .refl⟩

lemma sound_updateExpiredFeeds (hs : Consistent s) {now : ℕ} (h : s.updateExpiredFeeds N now = some s') :
    Sound s s' := by
  rw [updateExpiredFeeds] at h
  generalize s.marketIssued = ids at h
  induction ids generalizing s with
  | nil =>
      cases h
      exact ⟨hs, .refl⟩
  | cons id ids ih =>
      rw [List.foldlM_cons] at h
      obtain ⟨s₁, hs₁, h⟩ := Option.bind_eq_some_iff.mp h
      have hsound := sound_expireFeed N hs hs₁
      exact hsound.trans (ih hsound.consistent h)

lemma sound_updateAsset (hs : Consistent s) {rate : Price} (h : s.updateAsset id rate = some s') :
    Sound s s' := by
  rw [updateAsset] at h
  obtain ⟨old, -, h⟩ := Option.bind_eq_some_iff.mp h
  obtain ⟨s₁, hs₁, h⟩ := Option.bind_eq_some_iff.mp h
  cases h
  have hsound : Sound s s₁ := by
    rw [flagAsset] at hs₁
    split_ifs at hs₁ with hchanged
    · obtain ⟨b, -, hs₁⟩ := Option.bind_eq_some_iff.mp hs₁
      split_ifs at hs₁ with hflag
      · cases hs₁
        exact ⟨hs, .refl⟩
      · refine sound_modifyBitasset hs (fun c c' hc hc' => ?_) hs₁
        rw [← Option.some.inj hc']
        exact hc
    · cases hs₁
      exact ⟨hs, .refl⟩
  exact hsound.trans (sound_setRate hsound.consistent rate)

/-- A new asset. -/
lemma sound_createAsset (hs : Consistent s) {rate : Option Price} (hfresh : s.rates id = none) :
    Sound s (s.setRate id rate) := by
  have hkeeps : KeepsRates s (s.setRate id rate) := by
    intro id' rate' hrate
    have hid : id' ≠ id := by
      rintro rfl
      rw [hfresh] at hrate
      cases hrate
    exact .inl ((Function.update_of_ne hid _ _).trans hrate)
  exact ⟨⟨hs.ordered, hs.ids, hs.nodup, fun b hb => hkeeps.isSome (hs.exist b hb)⟩, hkeeps⟩

/-- A new asset with a bitasset. -/
lemma sound_createBitasset (hs : Consistent s) {rate : Price} {front rest : List ℕ}
    (hfresh : s.rates b.assetId = none) (horder : s.marketIssued = front ++ rest) :
    Sound s ⟨Function.update s.rates b.assetId (some rate), front ++ b.assetId :: rest,
      put needToUpdateCer b s.bitassets⟩ := by
  have hrates : KeepsRates s (s.setRate b.assetId (some rate)) := (sound_createAsset hs hfresh).keeps
  have hperm : (put needToUpdateCer b s.bitassets).Perm (b :: s.bitassets) := FlagIndex.put_perm
  have hids := hs.ids
  have hnodup := hs.nodup
  have hnew : b.assetId ∉ s.marketIssued := by
    intro hmem
    obtain ⟨c, hc, hid⟩ := List.mem_map.mp (hids.mem_iff.mpr hmem)
    have hexist := hs.exist c hc
    rw [hid, hfresh] at hexist
    cases hexist
  rw [horder] at hids hnodup hnew
  refine ⟨⟨FlagIndex.ordered_put hs.ordered, ?_, ?_, fun c hc => ?_⟩, hrates⟩
  · refine (hperm.map _).trans ?_
    rw [List.map_cons]
    exact (hids.cons _).trans List.perm_middle.symm
  · exact List.nodup_middle.mpr (List.nodup_cons.mpr ⟨hnew, hnodup⟩)
  · rcases List.mem_cons.mp (hperm.mem_iff.mp hc) with rfl | hc
    · dsimp only
      rw [Function.update_self]
      rfl
    · exact hrates.isSome (hs.exist c hc)

/-- **Steps.** -/
lemma sound_of_step (hs : Consistent s) (h : RateStep N s s') : Sound s s' := by
  cases h with
  | createAsset fresh => exact sound_createAsset hs fresh
  | createBitasset fresh order => exact sound_createBitasset hs fresh order
  | refeed done =>
      rw [refeed] at done
      refine sound_modifyBitasset hs (fun c c' hc hc' => ?_) done
      exact (assetId_updateMedianFeeds N hc').trans hc
  | updateBitasset done =>
      refine sound_modifyBitasset hs (fun c c' hc hc' => ?_) done
      rw [← Option.some.inj hc']
      exact hc
  | updateAsset done => exact sound_updateAsset hs done
  | expire done => exact sound_updateExpiredFeeds N hs done
  | synchronise done =>
      obtain ⟨s₁, hs₁, hsync⟩ := updateCoreExchangeRates_spec hs
      rw [hs₁] at done
      cases done
      exact ⟨hsync.consistent, hsync.keeps⟩

/-- **Runs.** -/
lemma sound_of_run (hs : Consistent s) (h : Relation.ReflTransGen (RateStep N) s s') : Sound s s' := by
  induction h with
  | refl => exact ⟨hs, .refl⟩
  | tail _ hstep ih => exact ih.trans (sound_of_step N ih.consistent hstep)

/-- There are no assets yet. -/
def empty : RateState := ⟨fun _ => none, [], []⟩

lemma consistent_empty : Consistent empty :=
  ⟨List.Pairwise.nil, List.Perm.refl _, List.nodup_nil, fun _ hb => nomatch hb⟩

/-- **Rates follow feeds.** -/
theorem rates_follow_feeds :
    (∀ s : RateState, Consistent s → ∃ s', s.updateCoreExchangeRates = some s' ∧ Synchronised s s') ∧
    (∀ s s' : RateState, Consistent s → Relation.ReflTransGen (RateStep N) s s' →
      Consistent s' ∧ KeepsRates s s') ∧
    ∀ s : RateState, Relation.ReflTransGen (RateStep N) empty s → Consistent s :=
  ⟨fun _ hs => updateCoreExchangeRates_spec hs,
    fun _ _ hs hrun => ⟨(sound_of_run N hs hrun).consistent, (sound_of_run N hs hrun).keeps⟩,
    fun _ hrun => (sound_of_run N consistent_empty hrun).consistent⟩

end RateState

end ZosCore
