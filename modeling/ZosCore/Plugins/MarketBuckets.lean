import ZosCore.Plugins.MarketHistory
import ZosCore.Protocol.AssetPrices

/-!
`market_history_plugin.cpp`: the price buckets.

A fill of a maker order comes, for each tracked size, into the bucket of its time, and takes away the
buckets of its market that are older than `max_history` periods. One key is used for all the sizes.

* `MarketFill`: the fills of a market, in amounts of 64 bits, at a price of its two assets.
* `updateBucket`, `updateBuckets`: the loop over the tracked sizes.
* `MarketState`, `processFill`: `operation_process_fill_order`, with the order history.
* `within`: the maker fills of the time of a bucket. `Recent`: it is not too old for any of its market.
* **`buckets_run`**: at each time the buckets are those of the tracked sizes that are recent, each made
  of the fills within it, in their order.
-/

namespace ZosCore.MarketHistory

/-! ### Fills -/

/-- `share_type` -/
abbrev ShareType := {x : ℤ // Share x}

/-- A fill whose amounts are of 64 bits, at a price of the two assets. -/
structure MarketFill extends FillOrder where
  pays_lt : pays.amount < 2 ^ 63
  receives_lt : receives.amount < 2 ^ 63
  base_pos : 0 < fillPrice.base.amount
  base_lt : fillPrice.base.amount < 2 ^ 63
  quote_pos : 0 < fillPrice.quote.amount
  quote_lt : fillPrice.quote.amount < 2 ^ 63
  assets : fillPrice.base.assetId = pays.assetId ∧ fillPrice.quote.assetId = receives.assetId ∨
    fillPrice.base.assetId = receives.assetId ∧ fillPrice.quote.assetId = pays.assetId

/-- The amount of an asset as a `share_type`. -/
def shareOf (a : AssetAmount) (h : a.amount < 2 ^ 63) : ShareType :=
  ⟨a.amount, ⟨(by norm_num : -2 ^ 63 ≤ (0 : ℤ)).trans (Int.natCast_nonneg _), by exact_mod_cast h⟩⟩

namespace MarketFill

variable (o : MarketFill)

lemma tradePrice_lt :
    o.tradePrice.base.amount < 2 ^ 63 ∧ o.tradePrice.quote.amount < 2 ^ 63 := by
  rw [FillOrder.tradePrice]
  split
  · exact ⟨o.receives_lt, o.pays_lt⟩
  · exact ⟨o.pays_lt, o.receives_lt⟩

lemma turnedFillPrice_lt :
    o.turnedFillPrice.base.amount < 2 ^ 63 ∧ o.turnedFillPrice.quote.amount < 2 ^ 63 := by
  rw [FillOrder.turnedFillPrice]
  split
  · exact ⟨o.quote_lt, o.base_lt⟩
  · exact ⟨o.base_lt, o.quote_lt⟩

lemma turnedFillPrice_pos :
    0 < o.turnedFillPrice.base.amount ∧ 0 < o.turnedFillPrice.quote.amount := by
  rw [FillOrder.turnedFillPrice]
  split
  · exact ⟨o.quote_pos, o.base_pos⟩
  · exact ⟨o.base_pos, o.quote_pos⟩

/-- The two prices of a fill are turned alike. -/
lemma turnedFillPrice_market :
    (o.turnedFillPrice.base.assetId, o.turnedFillPrice.quote.assetId) = o.market := by
  have hdistinct := o.distinct
  rw [FillOrder.turnedFillPrice, FillOrder.market]
  rcases o.assets with ⟨hbase, hquote⟩ | ⟨hbase, hquote⟩
  · rw [hbase, hquote]
    split
    · exact Prod.ext hquote hbase
    · exact Prod.ext hbase hquote
  · rw [hbase, hquote]
    by_cases hlt : o.pays.assetId > o.receives.assetId
    · rw [if_neg (by omega), if_pos hlt]
      exact Prod.ext hbase hquote
    · rw [if_pos (by omega), if_neg hlt]
      exact Prod.ext hquote hbase

/-- `trade_price.base.amount` -/
def tradeBase : ShareType := shareOf o.tradePrice.base o.tradePrice_lt.1

/-- `trade_price.quote.amount` -/
def tradeQuote : ShareType := shareOf o.tradePrice.quote o.tradePrice_lt.2

/-- `fill_price.base.amount` -/
def fillBase : ShareType := shareOf o.turnedFillPrice.base o.turnedFillPrice_lt.1

/-- `fill_price.quote.amount` -/
def fillQuote : ShareType := shareOf o.turnedFillPrice.quote o.turnedFillPrice_lt.2

end MarketFill

/-! ### Buckets -/

/-- `bucket_key` -/
structure BucketKey where
  base : ℕ
  quote : ℕ
  seconds : ℕ
  /-- `open` -/
  openTime : ℕ
  deriving DecidableEq

/-- The market of a bucket. -/
def BucketKey.market (k : BucketKey) : ℕ × ℕ := (k.base, k.quote)

/-- `bucket_object` -/
structure BucketObject where
  key : BucketKey
  highBase : ShareType
  highQuote : ShareType
  lowBase : ShareType
  lowQuote : ShareType
  openBase : ShareType
  openQuote : ShareType
  closeBase : ShareType
  closeQuote : ShareType
  baseVolume : ShareType
  quoteVolume : ShareType

/-- The price of two amounts of the assets of a market. -/
def priceOf (m : ℕ × ℕ) (base quote : ShareType) : Prices.Price :=
  ⟨⟨base, m.1, base.2⟩, ⟨quote, m.2, quote.2⟩⟩

namespace MarketFill

variable (o : MarketFill)

/-- `fill_price` -/
def price : Prices.Price :=
  ⟨⟨o.fillBase, o.turnedFillPrice.base.assetId, o.fillBase.2⟩,
    ⟨o.fillQuote, o.turnedFillPrice.quote.assetId, o.fillQuote.2⟩⟩

/-- It is a price of the market. -/
lemma price_eq : o.price = priceOf o.market o.fillBase o.fillQuote := by
  rw [← o.turnedFillPrice_market]
  rfl

end MarketFill

namespace BucketObject

variable (b : BucketObject)

/-- `bucket_object::high` -/
def high : Prices.Price := priceOf b.key.market b.highBase b.highQuote

/-- `bucket_object::low` -/
def low : Prices.Price := priceOf b.key.market b.lowBase b.lowQuote

/-- The price of the first fill. -/
def openPrice : Prices.Price := priceOf b.key.market b.openBase b.openQuote

/-- The price of the last fill. -/
def closePrice : Prices.Price := priceOf b.key.market b.closeBase b.closeQuote

end BucketObject

/-- A new bucket. -/
def createBucket (key : BucketKey) (o : MarketFill) : BucketObject where
  key
  highBase := o.fillBase
  highQuote := o.fillQuote
  lowBase := o.fillBase
  lowQuote := o.fillQuote
  openBase := o.fillBase
  openQuote := o.fillQuote
  closeBase := o.fillBase
  closeQuote := o.fillQuote
  baseVolume := o.tradeBase
  quoteVolume := o.tradeQuote

lemma share_of_add {a b sum : ℤ} (ha : Share a) (h : Safe.add a b = .ok sum) : Share sum := by
  rw [Safe.add_eq ha] at h
  split at h
  next hshare =>
    cases h
    exact hshare
  next => cases h

/-- What is added to a volume; from an `overflow_exception` on it is the largest number. -/
def addVolume (volume amount : ShareType) : ShareType :=
  match h : Safe.add volume amount with
  | .ok sum => ⟨sum, share_of_add volume.2 h⟩
  | .error _ => ⟨Safe.maximum, by decide⟩

/-- The update of a bucket that there is. -/
def modifyBucket (o : MarketFill) (b : BucketObject) : BucketObject :=
  { b with
    baseVolume := addVolume b.baseVolume o.tradeBase
    quoteVolume := addVolume b.quoteVolume o.tradeQuote
    closeBase := o.fillBase
    closeQuote := o.fillQuote
    highBase := if b.high.lt o.price then o.fillBase else b.highBase
    highQuote := if b.high.lt o.price then o.fillQuote else b.highQuote
    lowBase := if b.low.gt o.price then o.fillBase else b.lowBase
    lowQuote := if b.low.gt o.price then o.fillQuote else b.lowQuote }

/-! ### The loop over the tracked sizes -/

/-- The options of the plugin. The tracked sizes are a `flat_set`, from which 0 is taken. -/
structure BucketConfig extends MarketConfig where
  /-- `history-per-size` -/
  maxHistory : ℕ
  /-- `bucket-size` -/
  trackedBuckets : List ℕ
  ascending : trackedBuckets.Pairwise (· < ·)
  positive : ∀ bucket ∈ trackedBuckets, 0 < bucket

/-- `bucket_index`, by key. -/
abbrev BucketIndex := BucketKey → Option BucketObject

/-- The bucket of a key after one more fill. -/
def addFill (key : BucketKey) (o : MarketFill) : Option BucketObject → BucketObject
  | none => createBucket key o
  | some b => modifyBucket o b

/-- The second loop: from the place of `key` on, what is of its market and size and before `cutoff`. -/
def removeOld (key : BucketKey) (cutoff : ℕ) (index : BucketIndex) : BucketIndex := fun k =>
  if k.base = key.base ∧ k.quote = key.quote ∧ k.seconds = key.seconds ∧ key.openTime ≤ k.openTime ∧
    k.openTime < cutoff then none else index k

variable (cfg : BucketConfig)

/-- `cutoff` -/
def cutoff (now bucket : ℕ) : ℕ :=
  if now / bucket > cfg.maxHistory then bucket * (now / bucket - cfg.maxHistory) else 0

/-- The first loop, for one size. The key comes from the size before. -/
def updateBucket (now : ℕ) (o : MarketFill) (s : BucketKey × BucketIndex) (bucket : ℕ) :
    BucketKey × BucketIndex :=
  let key := { s.1 with seconds := bucket, openTime := now / bucket * bucket }
  let index := Function.update s.2 key (some (addFill key o (s.2 key)))
  let key := { key with openTime := 0 }
  (key, removeOld key (cutoff cfg now bucket) index)

/-- The update of the buckets data. -/
def updateBuckets (now : ℕ) (o : MarketFill) (index : BucketIndex) : BucketIndex :=
  if cfg.maxHistory = 0 then index
  else (cfg.trackedBuckets.foldl (updateBucket cfg now o) (⟨o.market.1, o.market.2, 0, 0⟩, index)).2

/-! ### The plugin -/

/-- The objects of the plugin. -/
structure MarketState where
  history : History := {}
  buckets : BucketIndex := fun _ => none

/-- `operation_process_fill_order` -/
def processFill (s : MarketState) (f : ℕ × MarketFill) : MarketState where
  history := processFillOrder cfg.toMarketConfig f.1 s.history f.2.toFillOrder
  buckets := if f.2.isMaker then updateBuckets cfg f.1 f.2 s.buckets else s.buckets

/-- The plugin after some fills, each with the time of its block. -/
def run (fills : List (ℕ × MarketFill)) : MarketState := fills.foldl (processFill cfg) {}

/-! ### What the buckets are to be -/

section
variable (fills : List (ℕ × MarketFill)) (k : BucketKey)

/-- The fills of maker orders in the time of a bucket. -/
def within : List MarketFill :=
  (fills.filter fun f => f.2.isMaker ∧ f.2.market = k.market ∧ k.openTime ≤ f.1 ∧
    f.1 < k.openTime + k.seconds).map Prod.snd

/-- No fill of a maker order of the market is more than `max_history` whole periods later. -/
def Recent : Prop :=
  ∀ f ∈ fills, f.2.isMaker = true → f.2.market = k.market →
    (f.1 - k.openTime) / k.seconds ≤ cfg.maxHistory

instance : Decidable (Recent cfg fills k) := inferInstanceAs (Decidable (∀ f ∈ fills, _))

/-- The bucket that the fills make, if there are any. -/
def bucketOf (fills : List MarketFill) : Option BucketObject :=
  fills.foldl (fun b o => some (addFill k o b)) none

/-- The bucket of a key: of a tracked size, at the beginning of a period, and recent. -/
def summary : Option BucketObject :=
  if k.seconds ∈ cfg.trackedBuckets ∧ k.seconds ∣ k.openTime ∧ Recent cfg fills k then
    bucketOf k (within fills k)
  else none

end

/-! ### Periods -/

section
variable {n t start : ℕ}

/-- A time is in one period. -/
lemma in_period_iff (hn : 0 < n) (hstart : n ∣ start) :
    start ≤ t ∧ t < start + n ↔ start = t / n * n := by
  obtain ⟨q, rfl⟩ := hstart
  rw [mul_comm n q, Nat.mul_left_inj hn.ne', eq_comm, Nat.div_eq_iff hn]
  omega

/-- What is before the cutoff is too many whole periods old. -/
lemma lt_cutoff_iff (hn : 0 < n) (hstart : n ∣ start) :
    start < cutoff cfg t n ↔ cfg.maxHistory < (t - start) / n := by
  obtain ⟨q, rfl⟩ := hstart
  rw [Nat.sub_mul_div, cutoff]
  split
  · rw [Nat.mul_lt_mul_left hn]
    omega
  · omega

end

/-! ### One fill -/

section
variable {now : ℕ} {o : MarketFill}

/-- What a fill of its market makes of a bucket of a tracked size. -/
def stepBucket (now : ℕ) (o : MarketFill) (k : BucketKey) (b : Option BucketObject) :
    Option BucketObject :=
  if k.openTime < cutoff cfg now k.seconds then none
  else if k.openTime = now / k.seconds * k.seconds then some (addFill k o b)
  else b

/-- One size: the key has the market still, and the buckets of other sizes are the same. -/
lemma updateBucket_apply (s : BucketKey × BucketIndex) (bucket : ℕ) (k : BucketKey) :
    (updateBucket cfg now o s bucket).2 k =
      if k.market = s.1.market ∧ k.seconds = bucket then stepBucket cfg now o k (s.2 k)
      else s.2 k := by
  change (if k.base = s.1.base ∧ k.quote = s.1.quote ∧ k.seconds = bucket ∧ 0 ≤ k.openTime ∧
    k.openTime < cutoff cfg now bucket then none else Function.update s.2 _ _ k) = _
  by_cases h : k.market = s.1.market ∧ k.seconds = bucket
  · rw [if_pos h, stepBucket]
    obtain ⟨hmarket, rfl⟩ := h
    obtain ⟨hbase, hquote⟩ := Prod.mk.injEq .. ▸ hmarket
    by_cases hold : k.openTime < cutoff cfg now k.seconds
    · rw [if_pos ⟨hbase, hquote, rfl, Nat.zero_le _, hold⟩, if_pos hold]
    · rw [if_neg fun h => hold h.2.2.2.2, if_neg hold]
      by_cases hopen : k.openTime = now / k.seconds * k.seconds
      · have hkey : k = ⟨s.1.base, s.1.quote, k.seconds, now / k.seconds * k.seconds⟩ := by
          rw [← hopen, ← hbase, ← hquote]
        rw [← hkey, Function.update_self, if_pos hopen]
      · rw [Function.update_of_ne fun heq => hopen (congrArg BucketKey.openTime heq), if_neg hopen]
  · rw [if_neg fun hold => h ⟨Prod.ext hold.1 hold.2.1, hold.2.2.1⟩, if_neg h,
      Function.update_of_ne]
    rintro rfl
    exact h ⟨rfl, rfl⟩

/-- All sizes of a list. -/
lemma foldl_updateBucket_apply {buckets : List ℕ} (hbuckets : buckets.Nodup)
    (s : BucketKey × BucketIndex) (k : BucketKey) :
    (buckets.foldl (updateBucket cfg now o) s).2 k =
      if k.market = s.1.market ∧ k.seconds ∈ buckets then stepBucket cfg now o k (s.2 k)
      else s.2 k := by
  induction buckets generalizing s with
  | nil => rw [if_neg fun h => List.not_mem_nil h.2, List.foldl_nil]
  | cons bucket buckets ih =>
      obtain ⟨hnot, hbuckets⟩ := List.nodup_cons.mp hbuckets
      -- the market of the key that is handed on is that of the key before
      have hmarket : (updateBucket cfg now o s bucket).1.market = s.1.market := rfl
      rw [List.foldl_cons, ih hbuckets, hmarket, updateBucket_apply]
      by_cases hm : k.market = s.1.market
      · by_cases hk : k.seconds = bucket
        · rw [if_neg fun h => hnot (hk ▸ h.2), if_pos ⟨hm, hk⟩,
            if_pos ⟨hm, List.mem_cons.mpr (.inl hk)⟩]
        · simp only [hm, hk, List.mem_cons, true_and, false_or, if_false]
      · rw [if_neg fun h => hm h.1, if_neg fun h => hm h.1, if_neg fun h => hm h.1]

/-- **A fill of a maker order**, on the buckets. -/
lemma updateBuckets_apply (hhistory : cfg.maxHistory ≠ 0) (index : BucketIndex) (k : BucketKey) :
    updateBuckets cfg now o index k =
      if k.market = o.market ∧ k.seconds ∈ cfg.trackedBuckets then stepBucket cfg now o k (index k)
      else index k := by
  have hnodup : cfg.trackedBuckets.Nodup := cfg.ascending.imp ne_of_lt
  rw [updateBuckets, if_neg hhistory, foldl_updateBucket_apply cfg hnodup]
  rfl

end

/-! ### One fill more -/

section
variable {fills : List (ℕ × MarketFill)} {f : ℕ × MarketFill} {k : BucketKey}

lemma within_append (fills : List (ℕ × MarketFill)) (f : ℕ × MarketFill) (k : BucketKey) :
    within (fills ++ [f]) k = within fills k ++
      if f.2.isMaker ∧ f.2.market = k.market ∧ k.openTime ≤ f.1 ∧ f.1 < k.openTime + k.seconds then
        [f.2] else [] := by
  rw [within, List.filter_append, List.map_append, ← within]
  split
  next h => rw [List.filter_cons_of_pos (by simpa using h), List.filter_nil, List.map_singleton]
  next h => rw [List.filter_cons_of_neg (by simpa using h), List.filter_nil, List.map_nil]

lemma bucketOf_append (l : List MarketFill) (o : MarketFill) (k : BucketKey) :
    bucketOf k (l ++ [o]) = some (addFill k o (bucketOf k l)) := by
  rw [bucketOf, List.foldl_append, ← bucketOf, List.foldl_cons, List.foldl_nil]

/-- Each fill leaves a bucket. -/
lemma eq_nil_of_bucketOf {l : List MarketFill} (h : bucketOf k l = none) : l = [] := by
  induction l using List.reverseRecOn with
  | nil => rfl
  | append_singleton l o _ =>
      rw [bucketOf_append] at h
      cases h

lemma recent_append_iff : Recent cfg (fills ++ [f]) k ↔ Recent cfg fills k ∧
    (f.2.isMaker = true → f.2.market = k.market →
      (f.1 - k.openTime) / k.seconds ≤ cfg.maxHistory) := by
  constructor
  · intro h
    exact ⟨fun g hg => h g (List.mem_append_left _ hg), h f (by simp)⟩
  · rintro ⟨h, hf⟩ g hg
    rcases List.mem_append.mp hg with hg | hg
    · exact h g hg
    · rw [List.mem_singleton.mp hg]
      exact hf

/-- A fill that is not of a maker order of the market makes no difference. -/
lemma summary_append_of_not (h : ¬ (f.2.isMaker = true ∧ f.2.market = k.market)) :
    summary cfg (fills ++ [f]) k = summary cfg fills k := by
  have hrecent : Recent cfg (fills ++ [f]) k ↔ Recent cfg fills k :=
    (recent_append_iff cfg).trans (and_iff_left fun hmk hm => absurd ⟨hmk, hm⟩ h)
  have hwithin : within (fills ++ [f]) k = within fills k := by
    rw [within_append, if_neg fun hf => h ⟨hf.1, hf.2.1⟩, List.append_nil]
  rw [summary, summary, hwithin]
  simp only [hrecent]

/-- A fill of a maker order of the market makes of the bucket what the code makes of it. -/
lemma stepBucket_summary (hmk : f.2.isMaker = true) (hm : f.2.market = k.market)
    (hk : k.seconds ∈ cfg.trackedBuckets) (htimes : ∀ g ∈ fills, g.1 ≤ f.1) :
    stepBucket cfg f.1 f.2 k (summary cfg fills k) = summary cfg (fills ++ [f]) k := by
  have hpos := cfg.positive k.seconds hk
  by_cases hdvd : k.seconds ∣ k.openTime
  · have hperiod := in_period_iff (t := f.1) hpos hdvd
    have hcutoff := lt_cutoff_iff cfg (t := f.1) hpos hdvd
    by_cases hold : k.openTime < cutoff cfg f.1 k.seconds
    · have hnot : ¬ Recent cfg (fills ++ [f]) k := fun h =>
        (hcutoff.mp hold).not_ge (((recent_append_iff cfg).mp h).2 hmk hm)
      rw [stepBucket, if_pos hold, summary, if_neg fun h => hnot h.2.2]
    · have hf := not_lt.mp (mt hcutoff.mpr hold)
      have hrecent : Recent cfg (fills ++ [f]) k ↔ Recent cfg fills k :=
        (recent_append_iff cfg).trans (and_iff_left fun _ _ => hf)
      rw [stepBucket, if_neg hold]
      by_cases hopen : k.openTime = f.1 / k.seconds * k.seconds
      · -- no fill before has been later than this one
        have hall : Recent cfg fills k := fun g hg _ _ =>
          (Nat.div_le_div_right (Nat.sub_le_sub_right (htimes g hg) _)).trans hf
        rw [if_pos hopen, summary, if_pos ⟨hk, hdvd, hall⟩, summary,
          if_pos ⟨hk, hdvd, hrecent.mpr hall⟩, within_append, if_pos ⟨hmk, hm, hperiod.mpr hopen⟩,
          bucketOf_append]
      · have hwithin : within (fills ++ [f]) k = within fills k := by
          rw [within_append, if_neg fun hf => hopen (hperiod.mp hf.2.2), List.append_nil]
        rw [if_neg hopen, summary, summary, hwithin]
        simp only [hrecent]
  · have hopen : ¬ k.openTime = f.1 / k.seconds * k.seconds := fun h =>
      hdvd (h ▸ Nat.dvd_mul_left _ _)
    rw [summary, if_neg fun h => hdvd h.2.1, summary, if_neg fun h => hdvd h.2.1, stepBucket,
      if_neg hopen, ite_self]

/-- **The buckets after a run.** -/
theorem buckets_run (hhistory : cfg.maxHistory ≠ 0) (htimes : fills.Pairwise fun f g => f.1 ≤ g.1)
    (k : BucketKey) : (run cfg fills).buckets k = summary cfg fills k := by
  induction fills using List.reverseRecOn with
  | nil =>
      rw [summary]
      split <;> rfl
  | append_singleton fills f ih =>
      obtain ⟨htimes, -, hlast⟩ := List.pairwise_append.mp htimes
      have hstep : (run cfg (fills ++ [f])).buckets k =
          (if f.2.isMaker then updateBuckets cfg f.1 f.2 (run cfg fills).buckets
            else (run cfg fills).buckets) k := by
        rw [run, List.foldl_append]
        rfl
      rw [hstep]
      by_cases hmk : f.2.isMaker = true
      · rw [if_pos hmk, updateBuckets_apply cfg hhistory, ih htimes]
        by_cases hm : k.market = f.2.market
        · by_cases hk : k.seconds ∈ cfg.trackedBuckets
          · rw [if_pos ⟨hm, hk⟩]
            exact stepBucket_summary cfg hmk hm.symm hk fun g hg => hlast g hg f (by simp)
          · rw [if_neg fun h => hk h.2, summary, summary, if_neg fun h => hk h.1,
              if_neg fun h => hk h.1]
        · rw [if_neg fun h => hm h.1, summary_append_of_not cfg fun h => hm h.2.symm]
      · rw [if_neg hmk, ih htimes, summary_append_of_not cfg fun h => hmk h.1]

end

end ZosCore.MarketHistory
