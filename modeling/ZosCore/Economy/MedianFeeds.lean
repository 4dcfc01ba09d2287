import ZosCore.Economy.State
import ZosCore.Lib.Majority
import ZosCore.Plugins.GroupedOrders

/-!
`update_median_feeds`: the current feed of an asset has the medians of the feeds that are alive, field by
field.

Prices are ordered by their assets first. So core exchange rates that are published with the core asset
as base come before all those that have the asset as base, and these descend where the others ascend.

* `PriceFeed.Accepted`: what `asset_publish_feed_operation::validate` and the evaluator check.
* `Bitasset.updateMedianFeeds`: the current feed, for any algorithm of `nth_element`.
* `Price.reduce`: `set_pric` of a price; `rate_reduce`: the rate stays as it was.
* `MedianLaw`: the feed is null if too few are alive, and else has values that resist minorities.
* `OrderedByRate`: the prices that come before the middle, by their assets, do so by their rates as well.
* **`medianLaw_iff`**: the law holds just when this is so of the feeds that are alive, or too few are.
-/

namespace ZosCore

open GroupedOrders (Price)

/-! ### Feeds -/

/-- `GRAPHENE_COLLATERAL_RATIO_DENOM` -/
def collateralRatioDenom : ℕ := 1000

/-- `GRAPHENE_MIN_COLLATERAL_RATIO` -/
def minCollateralRatio : ℕ := 1001

/-- `GRAPHENE_MAX_COLLATERAL_RATIO` -/
def maxCollateralRatio : ℕ := 32000

namespace GroupedOrders.Price

variable (p : Price)

/-- `is_for` -/
def isFor (asset : ℕ) : Bool := p.baseId = asset ∨ p.quoteId = asset

/-- `is_core` -/
def isCore : Bool := p.baseId = coreAsset ∨ p.quoteId = coreAsset

/-- `operator ~` -/
def inverse : Price where
  baseAmount := p.quoteAmount
  baseId := p.quoteId
  quoteAmount := p.baseAmount
  quoteId := p.baseId
  base_pos := p.quote_pos
  quote_pos := p.base_pos
  distinct := p.distinct.symm

/-- The base, for one of the quote. -/
def rate : ℚ := p.baseAmount / p.quoteAmount

/-- The core asset that is paid for one of the other asset, on whichever side they are. -/
def coreRate : ℚ := if p.baseId = coreAsset then p.rate else p.inverse.rate

/-- A loop of `set_pric`: both amounts are divided by ten as long as they can be. -/
def reduce (p : Price) : Price :=
  if h : p.baseAmount % 10 = 0 ∧ p.quoteAmount % 10 = 0 then
    reduce { p with
      baseAmount := p.baseAmount / 10, quoteAmount := p.quoteAmount / 10
      base_pos := Nat.div_pos (Nat.le_of_dvd p.base_pos (Nat.dvd_of_mod_eq_zero h.1)) (by norm_num)
      quote_pos :=
        Nat.div_pos (Nat.le_of_dvd p.quote_pos (Nat.dvd_of_mod_eq_zero h.2)) (by norm_num) }
  else p
termination_by p.baseAmount
decreasing_by exact Nat.div_lt_self p.base_pos (by norm_num)

end GroupedOrders.Price

/-- `price_feed`, of which neither price is null. -/
structure PriceFeed where
  settlementPrice : Price
  maintenanceCollateralRatio : UInt16
  maximumShortSqueezeRatio : UInt16
  coreExchangeRate : Price

namespace PriceFeed

variable (f : PriceFeed)

/-- `set_pric` -/
def setPric : PriceFeed :=
  { f with settlementPrice := f.settlementPrice.reduce, coreExchangeRate := f.coreExchangeRate.reduce }

/-- `maintenance_collateralization` -/
def maintenanceCollateralization : Option Price :=
  f.settlementPrice.inverse.mulRatio f.maintenanceCollateralRatio.toNat collateralRatioDenom

/-- `price_feed::validate`. The amounts have 63 bits, and the bound of their products is the largest
number of 128 bits. -/
structure Valid : Prop where
  minSqueeze : minCollateralRatio ≤ f.maximumShortSqueezeRatio.toNat
  maxSqueeze : f.maximumShortSqueezeRatio.toNat ≤ maxCollateralRatio
  minMaintenance : minCollateralRatio ≤ f.maintenanceCollateralRatio.toNat
  maxMaintenance : f.maintenanceCollateralRatio.toNat ≤ maxCollateralRatio
  squeeze_le : f.maximumShortSqueezeRatio ≤ f.maintenanceCollateralRatio
  room : ∀ amount ∈ [f.settlementPrice.baseAmount, f.settlementPrice.quoteAmount,
    f.coreExchangeRate.baseAmount, f.coreExchangeRate.quoteAmount],
    amount < 2 ^ 63 ∧ f.maintenanceCollateralRatio.toNat * amount < 2 ^ 128 - 1

/-- What `asset_publish_feed_operation::validate` and `asset_publish_feeds_evaluator` check of a feed
for an asset that is backed by another one. -/
structure Accepted (asset backing : ℕ) : Prop where
  valid : f.Valid
  rate_for : f.settlementPrice.isFor f.coreExchangeRate.baseId ∨
    f.settlementPrice.isFor f.coreExchangeRate.quoteId
  price_for : f.settlementPrice.isFor asset
  backed : f.settlementPrice.quoteId = backing
  core_for : f.coreExchangeRate.isFor asset
  core : f.coreExchangeRate.isCore

end PriceFeed

/-! ### Bitassets -/

/-- `asset_bitasset_data_object`, with what `update_median_feeds` reads and writes. -/
structure Bitasset where
  feedLifetimeSec : ℕ
  minimumFeeds : ℕ
  /-- By publisher. There is no feed where the source has the default one, with the time 0. -/
  feeds : List (ℕ × Option (ℕ × PriceFeed)) := []
  currentFeed : Option PriceFeed := none
  currentFeedPublicationTime : ℕ := 0
  currentMaintenanceCollateralization : Option Price := none
  feedCerUpdated : Bool := false

/-- The feed with the medians. The vector is permuted for one field after the other. -/
def medianFeed (N : NthElement PriceFeed) (feeds : List PriceFeed) : Option PriceFeed := do
  let median := feeds.length / 2
  let feeds₁ := N.permute (fun a b => a.settlementPrice.lt b.settlementPrice) median feeds
  let settlement ← feeds₁[median]?
  let feeds₂ := N.permute
    (fun a b => a.maintenanceCollateralRatio < b.maintenanceCollateralRatio) median feeds₁
  let maintenance ← feeds₂[median]?
  let feeds₃ := N.permute
    (fun a b => a.maximumShortSqueezeRatio < b.maximumShortSqueezeRatio) median feeds₂
  let squeeze ← feeds₃[median]?
  let feeds₄ := N.permute (fun a b => a.coreExchangeRate.lt b.coreExchangeRate) median feeds₃
  let core ← feeds₄[median]?
  return {
    settlementPrice := settlement.settlementPrice
    maintenanceCollateralRatio := maintenance.maintenanceCollateralRatio
    maximumShortSqueezeRatio := squeeze.maximumShortSqueezeRatio
    coreExchangeRate := core.coreExchangeRate }

namespace Bitasset

variable (b : Bitasset) (now : ℕ)

/-- The feeds that have been published, and are alive, with their times. -/
def current : List (ℕ × PriceFeed) :=
  b.feeds.filterMap fun e => e.2.bind fun (time, feed) =>
    if (now : ℤ) - time < b.feedLifetimeSec ∧ time ≠ 0 then some (time, feed) else none

/-- `current_feeds` -/
def live : List PriceFeed := (b.current now).map Prod.snd

/-- The core exchange rate is not what it was. -/
def cerChanged (rate : Price) : Bool :=
  match b.currentFeed with
  | some f => ¬ f.coreExchangeRate.eq rate
  | none => true

/-- The end of `update_median_feeds`; `median` is the feed that is compared with the current one. -/
def setCurrent (median feed : PriceFeed) : Option Bitasset := do
  let collateralization ← feed.maintenanceCollateralization
  return { b with
    currentFeed := some feed
    currentFeedPublicationTime := ((b.current now).map Prod.fst).foldl min now
    currentMaintenanceCollateralization := some collateralization
    feedCerUpdated := b.feedCerUpdated || b.cerChanged median.coreExchangeRate }

/-- `update_median_feeds` -/
def updateMedianFeeds (N : NthElement PriceFeed) : Option Bitasset :=
  if (b.live now).length < b.minimumFeeds then
    some { b with
      feedCerUpdated := false
      currentFeedPublicationTime := now
      currentFeed := none
      currentMaintenanceCollateralization := none }
  else
    match b.live now with
    | [feed] => b.setCurrent now feed feed
    | feeds => do
        let median ← medianFeed N feeds
        b.setCurrent now median median.setPric

end Bitasset

/-! ### The law -/

/-- The current feed, with the feeds that are alive: it is null if they are too few, and else its values lie
where those of a majority do. The settlement prices are compared as prices, and as rates if they are of the
same two assets. -/
structure MedianLaw (asset minimum : ℕ) (live : List PriceFeed) (current : Option PriceFeed) : Prop where
  null : current = none ↔ live.length < minimum
  settlementPrice : ∀ f ∈ current,
    Resists live (fun g => g.settlementPrice.rank) f.settlementPrice.rank
  settlementRate : ∀ backing, backing ≠ asset → (∀ g ∈ live, g.Accepted asset backing) →
    ∀ f ∈ current, Resists live (fun g => g.settlementPrice.rate) f.settlementPrice.rate
  maintenance : ∀ f ∈ current,
    Resists live (fun g => g.maintenanceCollateralRatio.toNat) f.maintenanceCollateralRatio.toNat
  squeeze : ∀ f ∈ current,
    Resists live (fun g => g.maximumShortSqueezeRatio.toNat) f.maximumShortSqueezeRatio.toNat
  coreExchangeRate : ∀ f ∈ current,
    Resists live (fun g => g.coreExchangeRate.coreRate) f.coreExchangeRate.coreRate

/-- The core exchange rate has the core asset as base. -/
def PriceFeed.coreBased (f : PriceFeed) : Bool := f.coreExchangeRate.baseId = coreAsset

/-- The rate in the middle, whichever sides it is published with. -/
def medianRate (live : List PriceFeed) : ℚ :=
  ((live.map fun f => f.coreExchangeRate.coreRate).insertionSort (· ≤ ·)).getD (live.length / 2) 0

/-- If more than half of the feeds have the core asset as base, then more than half are among these and
have no more than the rate in the middle; else at least half, those in the middle included, have the asset as
base and no more than this rate. -/
def OrderedByRate (live : List PriceFeed) : Prop :=
  if live.length / 2 < live.countP PriceFeed.coreBased then
    live.length / 2 <
      live.countP fun f => f.coreBased && f.coreExchangeRate.coreRate ≤ medianRate live
  else
    live.length - live.length / 2 ≤
      live.countP fun f => !f.coreBased && f.coreExchangeRate.coreRate ≤ medianRate live

/-! ### Rates -/

namespace GroupedOrders.Price

lemma rate_pos (p : Price) : 0 < p.rate :=
  div_pos (Nat.cast_pos.mpr p.base_pos) (Nat.cast_pos.mpr p.quote_pos)

lemma rate_inverse (p : Price) : p.inverse.rate = p.rate⁻¹ := (inv_div _ _).symm

/-- `set_pric` changes neither the assets nor the rate. -/
lemma reduce_spec (p : Price) :
    p.reduce.baseId = p.baseId ∧ p.reduce.quoteId = p.quoteId ∧ p.reduce.rate = p.rate := by
  induction p using reduce.induct with
  | case1 p h ih =>
      rw [reduce, dif_pos h]
      obtain ⟨hbase, hquote, hrate⟩ := ih
      refine ⟨hbase, hquote, hrate.trans ?_⟩
      have hb : ((p.baseAmount / 10 : ℕ) : ℚ) = p.baseAmount / 10 := by
        rw [Nat.cast_div (Nat.dvd_of_mod_eq_zero h.1) (by norm_num)]
        norm_num
      have hq : ((p.quoteAmount / 10 : ℕ) : ℚ) = p.quoteAmount / 10 := by
        rw [Nat.cast_div (Nat.dvd_of_mod_eq_zero h.2) (by norm_num)]
        norm_num
      rw [rate, rate, hb, hq]
      exact div_div_div_cancel_right₀ (by norm_num) _ _
  | case2 p h =>
      rw [reduce, dif_neg h]
      exact ⟨rfl, rfl, rfl⟩

lemma rank_reduce (p : Price) : p.reduce.rank = p.rank := by
  obtain ⟨hbase, hquote, hrate⟩ := p.reduce_spec
  rw [rank, rank, hbase, hquote]
  exact congrArg (fun r => toLex (p.baseId, toLex (p.quoteId, r))) hrate

lemma coreRate_reduce (p : Price) : p.reduce.coreRate = p.coreRate := by
  obtain ⟨hbase, -, hrate⟩ := p.reduce_spec
  rw [coreRate, coreRate, rate_inverse, rate_inverse, hbase, hrate]

/-- Prices of the same two assets are in the order of their rates. -/
lemma rank_lt_iff_rate {a b : Price} (hbase : a.baseId = b.baseId) (hquote : a.quoteId = b.quoteId) :
    a.rank < b.rank ↔ a.rate < b.rate := by
  rw [rank, rank, Prod.Lex.toLex_lt_toLex, Prod.Lex.toLex_lt_toLex, hbase, hquote]
  simp only [lt_irrefl, false_or, true_and]
  exact Iff.rfl

end GroupedOrders.Price

/-- `set_pric` does not change a rate. -/
lemma PriceFeed.setPric_rates (f : PriceFeed) :
    f.setPric.settlementPrice.rate = f.settlementPrice.rate ∧
    f.setPric.coreExchangeRate.rate = f.coreExchangeRate.rate ∧
    f.setPric.coreExchangeRate.coreRate = f.coreExchangeRate.coreRate :=
  ⟨f.settlementPrice.reduce_spec.2.2, f.coreExchangeRate.reduce_spec.2.2,
    f.coreExchangeRate.coreRate_reduce⟩

/-! ### Core exchange rates -/

section CoreRates

variable {asset backing : ℕ} {f g : PriceFeed} {live : List PriceFeed}

/-- The core exchange rate is between the asset and the core asset. -/
lemma PriceFeed.Accepted.sides (h : f.Accepted asset backing) (hasset : asset ≠ coreAsset) :
    f.coreExchangeRate.baseId = coreAsset ∧ f.coreExchangeRate.quoteId = asset ∨
      f.coreExchangeRate.baseId = asset ∧ f.coreExchangeRate.quoteId = coreAsset := by
  have hfor := of_decide_eq_true h.core_for
  have hcore := of_decide_eq_true h.core
  have hdistinct := f.coreExchangeRate.distinct
  omega

/-- What is published with the core asset as base comes first, and ascends; what is published with the asset
as base descends. -/
lemma PriceFeed.Accepted.decide_rank_lt {backing' : ℕ} (hf : f.Accepted asset backing)
    (hg : g.Accepted asset backing') (hasset : asset ≠ coreAsset) :
    decide (f.coreExchangeRate.rank < g.coreExchangeRate.rank) =
      if f.coreBased then
        !g.coreBased || decide (f.coreExchangeRate.coreRate < g.coreExchangeRate.coreRate)
      else !g.coreBased && decide (g.coreExchangeRate.coreRate < f.coreExchangeRate.coreRate) := by
  rcases hf.sides hasset with ⟨hfb, hfq⟩ | ⟨hfb, hfq⟩ <;>
    rcases hg.sides hasset with ⟨hgb, hgq⟩ | ⟨hgb, hgq⟩
  · have hrank := Price.rank_lt_iff_rate (hfb.trans hgb.symm) (hfq.trans hgq.symm)
    simp [hrank, coreBased, Price.coreRate, hfb, hgb]
  · have hlt : coreAsset < asset := Nat.pos_of_ne_zero hasset
    simp [Price.rank, Prod.Lex.toLex_lt_toLex, coreBased, hfb, hgb, hasset, hlt]
  · have hlt : ¬ asset < coreAsset := Nat.not_lt_zero asset
    simp [Price.rank, Prod.Lex.toLex_lt_toLex, coreBased, hfb, hgb, hasset, hlt]
  · have hinv : g.coreExchangeRate.rate⁻¹ < f.coreExchangeRate.rate⁻¹ ↔
        f.coreExchangeRate.rate < g.coreExchangeRate.rate :=
      inv_lt_inv₀ g.coreExchangeRate.rate_pos f.coreExchangeRate.rate_pos
    have hrank := Price.rank_lt_iff_rate (hfb.trans hgb.symm) (hfq.trans hgq.symm)
    simp [hrank, coreBased, Price.coreRate, Price.rate_inverse, hfb, hgb, hasset, hinv]

/-- The rate in the middle, with what is on its sides. -/
lemma medianRate_sides (h : live ≠ []) :
    live.countP (fun f => f.coreExchangeRate.coreRate < medianRate live) ≤ live.length / 2 ∧
    live.countP (fun f => medianRate live < f.coreExchangeRate.coreRate) <
      live.length - live.length / 2 := by
  have hpos := List.length_pos_iff.mpr h
  have hperm := List.perm_insertionSort (· ≤ ·) (live.map fun f => f.coreExchangeRate.coreRate)
  have hlength : ((live.map fun f => f.coreExchangeRate.coreRate).insertionSort (· ≤ ·)).length =
      live.length := by
    rw [hperm.length_eq, List.length_map]
  have hmiddle : live.length / 2 <
      ((live.map fun f => f.coreExchangeRate.coreRate).insertionSort (· ≤ ·)).length := by
    omega
  have hplaced := placed_of_pairwise (f := fun r : ℚ => r)
    (List.pairwise_insertionSort (· ≤ ·) (live.map fun f => f.coreExchangeRate.coreRate)) hmiddle
  have hmedian : medianRate live = ((live.map fun f =>
      f.coreExchangeRate.coreRate).insertionSort (· ≤ ·))[live.length / 2] := by
    rw [medianRate, List.getD_eq_getElem?_getD, List.getElem?_eq_getElem hmiddle, Option.getD_some]
  have hbelow := hplaced.countP_lt_le
  have habove := hplaced.countP_gt_le
  rw [hperm.countP_eq, List.countP_map, ← hmedian] at hbelow habove
  rw [hlength] at habove
  exact ⟨hbelow, lt_of_le_of_lt habove (by omega)⟩

section Blocks

variable {x : ℚ}

variable (live) in
/-- As many feeds of a side are up to a rate as are up to a greater one. -/
lemma countP_side_le (side : PriceFeed → Bool) {y : ℚ} (h : x ≤ y) :
    live.countP (fun g => side g && g.coreExchangeRate.coreRate ≤ x) ≤
      live.countP (fun g => side g && g.coreExchangeRate.coreRate ≤ y) :=
  List.countP_mono_left fun g _ hg => by
    simp only [Bool.and_eq_true, decide_eq_true_eq] at hg ⊢
    exact ⟨hg.1, hg.2.trans h⟩

variable (live) in
lemma countP_side_lt (side : PriceFeed → Bool) {y : ℚ} (h : y < x) :
    live.countP (fun g => side g && g.coreExchangeRate.coreRate ≤ y) ≤
      live.countP (fun g => side g && g.coreExchangeRate.coreRate < x) :=
  List.countP_mono_left fun g _ hg => by
    simp only [Bool.and_eq_true, decide_eq_true_eq] at hg ⊢
    exact ⟨hg.1, hg.2.trans_lt h⟩

variable (hne : live ≠ [])
include hne

/-- A rate that is in the middle of the feeds with the core asset as base. -/
lemma resists_of_coreBased
    (hbelow : live.countP (fun g => g.coreBased && g.coreExchangeRate.coreRate < x) ≤ live.length / 2)
    (habove : live.countP (fun g => !g.coreBased || x < g.coreExchangeRate.coreRate) ≤
      live.length - (live.length / 2 + 1)) :
    Resists live (fun g => g.coreExchangeRate.coreRate) x ↔ OrderedByRate live := by
  obtain ⟨hmbelow, hmabove⟩ := medianRate_sides hne
  have hpos := List.length_pos_iff.mpr hne
  have hnot : live.countP (fun g => !g.coreBased || x < g.coreExchangeRate.coreRate) +
      live.countP (fun g => g.coreBased && g.coreExchangeRate.coreRate ≤ x) = live.length :=
    countP_add_of_not live fun g => by simp [← not_lt]
  have hx : live.countP (fun g => x < g.coreExchangeRate.coreRate) ≤
      live.countP (fun g => !g.coreBased || x < g.coreExchangeRate.coreRate) :=
    List.countP_mono_left fun g _ hg => by simp [of_decide_eq_true hg]
  have hmany : live.countP (fun g => g.coreBased && g.coreExchangeRate.coreRate ≤ x) ≤
      live.countP PriceFeed.coreBased :=
    List.countP_mono_left fun g _ hg => (Bool.and_eq_true_iff.mp hg).1
  rw [resists_iff_le hmbelow hmabove (by omega), OrderedByRate, if_pos (by omega)]
  constructor
  · intro hle
    have hmono := countP_side_le live PriceFeed.coreBased hle
    omega
  · intro hordered
    by_contra hlt
    have hmono := countP_side_lt live PriceFeed.coreBased (not_le.mp hlt)
    omega

/-- A rate that is in the middle of the feeds with the asset as base, which descend. -/
lemma resists_of_not_coreBased
    (hbelow : live.countP (fun g => g.coreBased || x < g.coreExchangeRate.coreRate) ≤ live.length / 2)
    (habove : live.countP (fun g => !g.coreBased && g.coreExchangeRate.coreRate < x) ≤
      live.length - (live.length / 2 + 1)) :
    Resists live (fun g => g.coreExchangeRate.coreRate) x ↔ OrderedByRate live := by
  obtain ⟨hmbelow, hmabove⟩ := medianRate_sides hne
  have hpos := List.length_pos_iff.mpr hne
  have hnot : live.countP (fun g => g.coreBased || x < g.coreExchangeRate.coreRate) +
      live.countP (fun g => !g.coreBased && g.coreExchangeRate.coreRate ≤ x) = live.length :=
    countP_add_of_not live fun g => by simp [← not_lt]
  have hx : live.countP (fun g => x < g.coreExchangeRate.coreRate) ≤
      live.countP (fun g => g.coreBased || x < g.coreExchangeRate.coreRate) :=
    List.countP_mono_left fun g _ hg => by simp [of_decide_eq_true hg]
  have hfew : live.countP PriceFeed.coreBased ≤
      live.countP (fun g => g.coreBased || x < g.coreExchangeRate.coreRate) :=
    List.countP_mono_left fun g _ hg => by simp [hg]
  rw [resists_iff_le hmbelow hmabove (by omega), OrderedByRate, if_neg (by omega)]
  constructor
  · intro hle
    have hmono := countP_side_le live (fun g => !g.coreBased) hle
    omega
  · intro hordered
    by_contra hlt
    have hmono := countP_side_lt live (fun g => !g.coreBased) (not_le.mp hlt)
    omega

end Blocks

/-- **The core exchange rate.** That of a feed that is in the middle, by the order of the prices, resists
the minorities exactly if the feeds are ordered by rate. -/
lemma resists_coreRate_iff (hasset : asset ≠ coreAsset)
    (hlive : ∀ g ∈ live, ∃ backing, g.Accepted asset backing) (hf : f ∈ live)
    (hbelow : live.countP (fun g => g.coreExchangeRate.rank < f.coreExchangeRate.rank) ≤
      live.length / 2)
    (habove : live.countP (fun g => f.coreExchangeRate.rank < g.coreExchangeRate.rank) ≤
      live.length - (live.length / 2 + 1)) :
    Resists live (fun g => g.coreExchangeRate.coreRate) f.coreExchangeRate.coreRate ↔
      OrderedByRate live := by
  obtain ⟨backing, haccepted⟩ := hlive f hf
  have hless : ∀ g ∈ live, decide (g.coreExchangeRate.rank < f.coreExchangeRate.rank) =
      if f.coreBased then g.coreBased && g.coreExchangeRate.coreRate < f.coreExchangeRate.coreRate
      else g.coreBased || f.coreExchangeRate.coreRate < g.coreExchangeRate.coreRate := by
    intro g hg
    obtain ⟨backing', hg⟩ := hlive g hg
    rw [hg.decide_rank_lt haccepted hasset]
    cases f.coreBased <;> cases g.coreBased <;> rfl
  have hmore : ∀ g ∈ live, decide (f.coreExchangeRate.rank < g.coreExchangeRate.rank) =
      if f.coreBased then !g.coreBased || f.coreExchangeRate.coreRate < g.coreExchangeRate.coreRate
      else !g.coreBased && g.coreExchangeRate.coreRate < f.coreExchangeRate.coreRate := by
    intro g hg
    obtain ⟨backing', hg⟩ := hlive g hg
    exact haccepted.decide_rank_lt hg hasset
  rw [List.countP_congr fun g hg => by rw [hless g hg]] at hbelow
  rw [List.countP_congr fun g hg => by rw [hmore g hg]] at habove
  cases hbased : f.coreBased with
  | true =>
      simp only [hbased, if_true] at hbelow habove
      exact resists_of_coreBased (List.ne_nil_of_mem hf) hbelow habove
  | false =>
      simp only [hbased, Bool.false_eq_true, if_false] at hbelow habove
      exact resists_of_not_coreBased (List.ne_nil_of_mem hf) hbelow habove

end CoreRates

/-! ### The medians -/

/-- The fields of a feed are in the middle of the feeds that are alive. -/
structure Medians (live : List PriceFeed) (median : PriceFeed) : Prop where
  settlement_mem : ∃ g ∈ live, g.settlementPrice = median.settlementPrice
  settlementPrice : Resists live (fun g => g.settlementPrice.rank) median.settlementPrice.rank
  maintenance_mem : ∃ g ∈ live, g.maintenanceCollateralRatio = median.maintenanceCollateralRatio
  maintenance : Resists live (fun g => g.maintenanceCollateralRatio.toNat)
    median.maintenanceCollateralRatio.toNat
  squeeze : Resists live (fun g => g.maximumShortSqueezeRatio.toNat)
    median.maximumShortSqueezeRatio.toNat
  coreExchangeRate : Resists live (fun g => g.coreExchangeRate.coreRate)
    median.coreExchangeRate.coreRate ↔ OrderedByRate live

section Medians

variable {asset : ℕ} {live : List PriceFeed} {f median : PriceFeed}

/-- A feed that is the only one. -/
lemma medians_singleton (hasset : asset ≠ coreAsset)
    (hlive : ∀ g ∈ [f], ∃ backing, g.Accepted asset backing) : Medians [f] f where
  settlement_mem := ⟨f, List.mem_singleton_self f, rfl⟩
  settlementPrice := resists_iff.mpr (by simp)
  maintenance_mem := ⟨f, List.mem_singleton_self f, rfl⟩
  maintenance := resists_iff.mpr (by simp)
  squeeze := resists_iff.mpr (by simp)
  coreExchangeRate := resists_coreRate_iff hasset hlive (List.mem_singleton_self f) (by simp) (by simp)

/-- **The vector.** Whatever has been permuted before, each field is in the middle. -/
lemma medians_medianFeed (N : NthElement PriceFeed) (hasset : asset ≠ coreAsset)
    (hlive : ∀ g ∈ live, ∃ backing, g.Accepted asset backing) (hne : live ≠ []) :
    ∃ median, medianFeed N live = some median ∧ Medians live median := by
  obtain ⟨a, ha, hset, hset₁, hset₂⟩ := N.exists_middle
    (fun a b => a.settlementPrice.lt b.settlementPrice) (List.Perm.refl live) hne
    (f := fun g => g.settlementPrice.rank) fun a b => Price.lt_iff
  have h₁ := N.perm (fun a b => a.settlementPrice.lt b.settlementPrice) (live.length / 2) live
  obtain ⟨b, hb, hmain, hmain₁, hmain₂⟩ := N.exists_middle
    (fun a b => a.maintenanceCollateralRatio < b.maintenanceCollateralRatio) h₁ hne
    (f := fun g => g.maintenanceCollateralRatio.toNat) fun a b => by
      rw [decide_eq_true_eq, UInt16.lt_iff_toNat_lt]
  have h₂ := (N.perm (fun a b => a.maintenanceCollateralRatio < b.maintenanceCollateralRatio)
    (live.length / 2) _).trans h₁
  obtain ⟨c, -, hsqueeze, hsqueeze₁, hsqueeze₂⟩ := N.exists_middle
    (fun a b => a.maximumShortSqueezeRatio < b.maximumShortSqueezeRatio) h₂ hne
    (f := fun g => g.maximumShortSqueezeRatio.toNat) fun a b => by
      rw [decide_eq_true_eq, UInt16.lt_iff_toNat_lt]
  have h₃ := (N.perm (fun a b => a.maximumShortSqueezeRatio < b.maximumShortSqueezeRatio)
    (live.length / 2) _).trans h₂
  obtain ⟨d, hd, hcore, hcore₁, hcore₂⟩ := N.exists_middle
    (fun a b => a.coreExchangeRate.lt b.coreExchangeRate) h₃ hne
    (f := fun g => g.coreExchangeRate.rank) fun a b => Price.lt_iff
  have hrates := resists_coreRate_iff hasset hlive hd hcore₁ hcore₂
  refine ⟨⟨a.settlementPrice, b.maintenanceCollateralRatio, c.maximumShortSqueezeRatio,
    d.coreExchangeRate⟩, ?_, ⟨a, ha, rfl⟩, resists_of_middle hset₁ hset₂, ⟨b, hb, rfl⟩,
    resists_of_middle hmain₁ hmain₂, resists_of_middle hsqueeze₁ hsqueeze₂, hrates⟩
  simp only [medianFeed, hset, hmain, hsqueeze, hcore]
  rfl

end Medians

/-! ### The current feed -/

namespace Bitasset

variable {asset now : ℕ} {b b' : Bitasset} {N : NthElement PriceFeed}

/-- All feeds that have been published were accepted, for what the asset was backed by then. -/
def AllAccepted (b : Bitasset) (asset : ℕ) : Prop :=
  ∀ e ∈ b.feeds, ∀ p ∈ e.2, ∃ backing, p.2.Accepted asset backing

lemma AllAccepted.live (h : b.AllAccepted asset) :
    ∀ f ∈ b.live now, ∃ backing, f.Accepted asset backing := by
  intro f hf
  obtain ⟨⟨time, g⟩, hcurrent, rfl⟩ := List.mem_map.mp hf
  obtain ⟨e, he, hbind⟩ := List.mem_filterMap.mp hcurrent
  obtain ⟨⟨t, g'⟩, hp, hif⟩ := Option.bind_eq_some_iff.mp hbind
  obtain ⟨-, hsome⟩ := Option.ite_none_right_eq_some.mp hif
  cases hsome
  exact h e he (time, g) hp

/-- A ratio in range does not make the collateralization fail. -/
lemma setCurrent_isSome {median feed : PriceFeed} (h : feed.maintenanceCollateralRatio.toNat ≠ 0) :
    ∃ b', b.setCurrent now median feed = some b' ∧ b'.currentFeed = some feed := by
  obtain ⟨q, hq⟩ := feed.settlementPrice.inverse.mulRatio_isSome h
    (show collateralRatioDenom ≠ 0 by decide)
  have hcollateral : feed.maintenanceCollateralization = some q := hq
  exact ⟨_, by rw [setCurrent, hcollateral]; rfl, rfl⟩

/-- **The update.** With enough feeds the current one has the medians, with the rates that they had. -/
lemma updateMedianFeeds_spec (hasset : asset ≠ coreAsset) (h : b.AllAccepted asset)
    (hmin : 0 < b.minimumFeeds) (hmany : b.minimumFeeds ≤ (b.live now).length) :
    ∃ b' f median, b.updateMedianFeeds now N = some b' ∧ b'.currentFeed = some f ∧
      (f = median ∨ f = median.setPric) ∧ Medians (b.live now) median := by
  have hne : b.live now ≠ [] := List.ne_nil_of_length_pos (hmin.trans_le hmany)
  have hratio : ∀ {median}, Medians (b.live now) median →
      median.maintenanceCollateralRatio.toNat ≠ 0 := by
    intro median hmedian
    obtain ⟨g, hg, heq⟩ := hmedian.maintenance_mem
    obtain ⟨backing, haccepted⟩ := h.live g hg
    have hle := haccepted.valid.minMaintenance
    rw [← heq]
    exact (lt_of_lt_of_le (by decide) hle).ne'
  rw [updateMedianFeeds, if_neg (not_lt.mpr hmany)]
  by_cases hone : ∃ f, b.live now = [f]
  · obtain ⟨f, hf⟩ := hone
    have hmedians : Medians (b.live now) f := by
      rw [hf]
      exact medians_singleton hasset (hf ▸ h.live)
    obtain ⟨b', hb', hcurrent⟩ := @setCurrent_isSome now b f f (hratio hmedians)
    refine ⟨b', f, f, ?_, hcurrent, .inl rfl, hmedians⟩
    simp only [hf]
    exact hb'
  · obtain ⟨median, hmedian, hmedians⟩ := medians_medianFeed N hasset h.live hne
    obtain ⟨b', hb', hcurrent⟩ := @setCurrent_isSome now b median median.setPric
      (show median.maintenanceCollateralRatio.toNat ≠ 0 from hratio hmedians)
    refine ⟨b', median.setPric, median, ?_, hcurrent, .inr rfl, hmedians⟩
    split
    · exact absurd ⟨_, ‹_›⟩ hone
    · rw [hmedian]
      exact hb'

/-- What is in the middle as a price is so as a rate, where all prices are of the same two assets. -/
lemma resists_settlementRate {live : List PriceFeed} {backing : ℕ} {p : Price}
    (hbacking : backing ≠ asset) (hlive : ∀ g ∈ live, g.Accepted asset backing)
    (hmem : ∃ g ∈ live, g.settlementPrice.baseId = p.baseId ∧ g.settlementPrice.quoteId = p.quoteId)
    (h : Resists live (fun g => g.settlementPrice.rank) p.rank) :
    Resists live (fun g => g.settlementPrice.rate) p.rate := by
  have hsides : ∀ g ∈ live, g.settlementPrice.baseId = asset ∧ g.settlementPrice.quoteId = backing := by
    intro g hg
    have hfor := of_decide_eq_true (hlive g hg).price_for
    have hbacked := (hlive g hg).backed
    exact ⟨hfor.resolve_right fun heq => hbacking (hbacked.symm.trans heq), hbacked⟩
  obtain ⟨g₀, hg₀, hbase, hquote⟩ := hmem
  obtain ⟨hb₀, hq₀⟩ := hsides g₀ hg₀
  refine (resists_congr (fun g hg => ?_) fun g hg => ?_).mp h
  · obtain ⟨hb, hq⟩ := hsides g hg
    exact Price.rank_lt_iff_rate (by rw [hb, ← hbase, hb₀]) (by rw [hq, ← hquote, hq₀])
  · obtain ⟨hb, hq⟩ := hsides g hg
    exact Price.rank_lt_iff_rate (by rw [hb, ← hbase, hb₀]) (by rw [hq, ← hquote, hq₀])

/-- The law of a feed that has the medians, and has been through `set_pric` or not. -/
lemma medianLaw_of_medians {live : List PriceFeed} {minimum : ℕ} {f median : PriceFeed}
    (hmany : minimum ≤ live.length) (hf : f = median ∨ f = median.setPric)
    (h : Medians live median) : MedianLaw asset minimum live (some f) ↔ OrderedByRate live := by
  have hmaintenance : f.maintenanceCollateralRatio = median.maintenanceCollateralRatio := by
    rcases hf with rfl | rfl <;> rfl
  have hsqueeze : f.maximumShortSqueezeRatio = median.maximumShortSqueezeRatio := by
    rcases hf with rfl | rfl <;> rfl
  have hrank : f.settlementPrice.rank = median.settlementPrice.rank := by
    rcases hf with rfl | rfl
    · rfl
    · exact median.settlementPrice.rank_reduce
  have hids : f.settlementPrice.baseId = median.settlementPrice.baseId ∧
      f.settlementPrice.quoteId = median.settlementPrice.quoteId := by
    rcases hf with rfl | rfl
    · exact ⟨rfl, rfl⟩
    · exact ⟨median.settlementPrice.reduce_spec.1, median.settlementPrice.reduce_spec.2.1⟩
  have hcore : f.coreExchangeRate.coreRate = median.coreExchangeRate.coreRate := by
    rcases hf with rfl | rfl
    · rfl
    · exact median.coreExchangeRate.coreRate_reduce
  refine ⟨fun hlaw => ?_, fun hordered => ⟨?_, ?_, ?_, ?_, ?_, ?_⟩⟩
  · have hresists := hlaw.coreExchangeRate f rfl
    rw [hcore] at hresists
    exact h.coreExchangeRate.mp hresists
  · exact ⟨fun hnone => (Option.some_ne_none f hnone).elim, fun hlt => absurd hmany (not_le.mpr hlt)⟩
  · rintro _ ⟨⟩
    rw [hrank]
    exact h.settlementPrice
  · rintro backing hbacking hlive _ ⟨⟩
    obtain ⟨g, hg, heq⟩ := h.settlement_mem
    refine resists_settlementRate hbacking hlive ⟨g, hg, ?_, ?_⟩ (hrank ▸ h.settlementPrice)
    · rw [heq, hids.1]
    · rw [heq, hids.2]
  · rintro _ ⟨⟩
    rw [hmaintenance]
    exact h.maintenance
  · rintro _ ⟨⟩
    rw [hsqueeze]
    exact h.squeeze
  · rintro _ ⟨⟩
    rw [hcore]
    exact h.coreExchangeRate.mpr hordered

/-- **Median feeds.** For any accepted feeds, lifetime and minimum, `set_pric` changes no rate, and the
update goes through with a feed that keeps to the law, exactly if too few feeds are alive or those that are
come in the order of their core exchange rates. -/
theorem medianLaw_iff (N : NthElement PriceFeed) (hasset : asset ≠ coreAsset)
    (h : b.AllAccepted asset) (hmin : 0 < b.minimumFeeds) :
    (∀ f : PriceFeed, f.setPric.settlementPrice.rate = f.settlementPrice.rate ∧
      f.setPric.coreExchangeRate.rate = f.coreExchangeRate.rate ∧
      f.setPric.coreExchangeRate.coreRate = f.coreExchangeRate.coreRate) ∧
    ((∃ b', b.updateMedianFeeds now N = some b' ∧
        MedianLaw asset b.minimumFeeds (b.live now) b'.currentFeed) ↔
      (b.live now).length < b.minimumFeeds ∨ OrderedByRate (b.live now)) := by
  refine ⟨PriceFeed.setPric_rates, ?_⟩
  by_cases hfew : (b.live now).length < b.minimumFeeds
  · have hupdate : b.updateMedianFeeds now N = some { b with
        feedCerUpdated := false
        currentFeedPublicationTime := now
        currentFeed := none
        currentMaintenanceCollateralization := none } := by
      rw [updateMedianFeeds, if_pos hfew]
    refine ⟨fun _ => .inl hfew, fun _ => ⟨_, hupdate, ⟨fun _ => hfew, fun _ => rfl⟩, ?_, ?_, ?_, ?_, ?_⟩⟩
    all_goals simp
  · obtain ⟨b', f, median, hupdate, hcurrent, hf, hmedians⟩ :=
      updateMedianFeeds_spec (N := N) hasset h hmin (not_lt.mp hfew)
    have hiff : MedianLaw asset b.minimumFeeds (b.live now) (some f) ↔ OrderedByRate (b.live now) :=
      medianLaw_of_medians (not_lt.mp hfew) hf hmedians
    rw [or_iff_right hfew, ← hiff, ← hcurrent]
    constructor
    · rintro ⟨b₁, hb₁, hlaw⟩
      rw [hupdate] at hb₁
      cases hb₁
      exact hlaw
    · exact fun hlaw => ⟨b', hupdate, hlaw⟩

end Bitasset

/-! ### Three feeds -/

/-- So much of the core asset for one of the asset 5. -/
def corePrice (amount : ℕ) (h : 0 < amount) : Price :=
  ⟨amount, 0, 1, 5, h, Nat.one_pos, by decide⟩

/-- The same with the asset as base. -/
def assetPrice (amount : ℕ) (h : 0 < amount) : Price := (corePrice amount h).inverse

/-- A feed for the asset 5, which is backed by the core asset. -/
def feedOf (coreExchangeRate : Price) : PriceFeed where
  settlementPrice := assetPrice 1 Nat.one_pos
  maintenanceCollateralRatio := 1750
  maximumShortSqueezeRatio := 1500
  coreExchangeRate := coreExchangeRate

lemma hundred_pos : 0 < 100 := by decide

/-- Three publishers, the last two of which have the asset as base: 1, 1 and 100 of the core asset for one
of it. -/
def threeFeeds : Bitasset where
  feedLifetimeSec := 86400
  minimumFeeds := 1
  feeds := [(20, some (100, feedOf (corePrice 1 Nat.one_pos))),
    (21, some (100, feedOf (assetPrice 1 Nat.one_pos))),
    (22, some (100, feedOf (assetPrice 100 hundred_pos)))]

/-- The same rates, all with the core asset as base. -/
def threeCoreFeeds : Bitasset where
  feedLifetimeSec := 86400
  minimumFeeds := 1
  feeds := [(20, some (100, feedOf (corePrice 1 Nat.one_pos))),
    (21, some (100, feedOf (corePrice 1 Nat.one_pos))),
    (22, some (100, feedOf (corePrice 100 hundred_pos)))]

lemma accepted_feedOf {p : Price} (hp : p.isCore = true ∧ p.isFor 5 = true)
    (hamounts : p.baseAmount ≤ 100 ∧ p.quoteAmount ≤ 100)
    (hids : p.baseId = 5 ∨ p.baseId = 0) : (feedOf p).Accepted 5 0 where
  valid :=
    { minSqueeze := show (1001 : ℕ) ≤ (1500 : UInt16).toNat by decide
      maxSqueeze := show (1500 : UInt16).toNat ≤ 32000 by decide
      minMaintenance := show (1001 : ℕ) ≤ (1750 : UInt16).toNat by decide
      maxMaintenance := show (1750 : UInt16).toNat ≤ 32000 by decide
      squeeze_le := show (1500 : UInt16) ≤ 1750 by decide
      room := by
        have hratio : (feedOf p).maintenanceCollateralRatio.toNat = 1750 := rfl
        intro amount hamount
        have hle : amount ≤ 100 := by
          simp only [feedOf, assetPrice, corePrice, Price.inverse, List.mem_cons, List.not_mem_nil,
            or_false] at hamount
          omega
        rw [hratio]
        omega }
  rate_for := .inl (by
    rcases hids with h | h <;> simp [feedOf, assetPrice, corePrice, Price.inverse, Price.isFor, h])
  price_for := show (assetPrice 1 Nat.one_pos).isFor 5 = true by decide
  backed := rfl
  core_for := hp.2
  core := hp.1

lemma allAccepted_threeFeeds : threeFeeds.AllAccepted 5 := by
  intro e he p hp
  simp only [threeFeeds, List.mem_cons, List.not_mem_nil, or_false] at he
  rcases he with rfl | rfl | rfl <;> cases hp <;>
    exact ⟨0, accepted_feedOf (by decide) (by decide) (by decide)⟩

lemma allAccepted_threeCoreFeeds : threeCoreFeeds.AllAccepted 5 := by
  intro e he p hp
  simp only [threeCoreFeeds, List.mem_cons, List.not_mem_nil, or_false] at he
  rcases he with rfl | rfl | rfl <;> cases hp <;>
    exact ⟨0, accepted_feedOf (by decide) (by decide) (by decide)⟩

/-- With the core asset as base everywhere, the current feed has one of the two rates that agree. -/
theorem medianLaw_threeCoreFeeds : ∃ b', threeCoreFeeds.updateMedianFeeds 200 (sortNth PriceFeed) =
    some b' ∧ MedianLaw 5 1 (threeCoreFeeds.live 200) b'.currentFeed := by
  have hordered : OrderedByRate (threeCoreFeeds.live 200) := by
    rw [OrderedByRate]
    decide +kernel
  exact (Bitasset.medianLaw_iff (sortNth PriceFeed) (by decide) allAccepted_threeCoreFeeds
    (by decide)).2.mpr (.inr hordered)

/-- Two publishers of three have the rate 1, but the current feed does not: whichever algorithm is used, the
one with 100 is in the middle. -/
theorem not_medianLaw_threeFeeds :
    (threeFeeds.live 200).map (fun f => f.coreExchangeRate.coreRate) = [1, 1, 100] ∧
    ∀ N : NthElement PriceFeed, ∃ b', threeFeeds.updateMedianFeeds 200 N = some b' ∧
      ¬ MedianLaw 5 1 (threeFeeds.live 200) b'.currentFeed := by
  have hunordered : ¬ OrderedByRate (threeFeeds.live 200) := by
    rw [OrderedByRate]
    decide +kernel
  refine ⟨by decide +kernel, fun N => ?_⟩
  obtain ⟨b', f, median, hupdate, hcurrent, hf, hmedians⟩ := Bitasset.updateMedianFeeds_spec (N := N)
    (show (5 : ℕ) ≠ coreAsset by decide) allAccepted_threeFeeds (by decide)
    (show 1 ≤ (threeFeeds.live 200).length by decide)
  refine ⟨b', hupdate, ?_⟩
  rw [hcurrent, Bitasset.medianLaw_of_medians (by decide) hf hmedians]
  exact hunordered

end ZosCore
