import Mathlib.Tactic

/-!
`market_history_plugin.cpp`: the order history and the market tickers.

For each `fill_order_operation` the plugin makes a record, trims the records of the market and, for
a maker order, adds the amounts to the ticker of the market. At the end of a block the fills
that are older than a day are rolled out of the tickers, from the record
`rolling_min_order_his_id` on.

The price buckets are updated after all this, and nothing of it reads them: see `MarketBuckets`.

* `processFillOrder`: `operation_process_fill_order`, up to the buckets.
* `rollOut`: the second part of `update_market_histories`.
* `updateMarketHistories`: a block.
-/

namespace ZosCore.MarketHistory

/-! ### Operations -/

/-- `asset`, in a positive amount. -/
structure AssetAmount where
  amount : ℕ
  assetId : ℕ
  deriving DecidableEq, Repr

/-- `price`. -/
structure Price where
  base : AssetAmount
  quote : AssetAmount
  deriving DecidableEq, Repr

/-- `operator ~` of prices. -/
def Price.invert (p : Price) : Price := ⟨p.quote, p.base⟩

/-- `fill_order_operation`: of two different assets, as in every market. -/
structure FillOrder where
  pays : AssetAmount
  receives : AssetAmount
  fillPrice : Price
  isMaker : Bool
  distinct : pays.assetId ≠ receives.assetId
  deriving DecidableEq

/-- The market of a fill: the smaller asset is the base. -/
def FillOrder.market (o : FillOrder) : ℕ × ℕ :=
  if o.pays.assetId > o.receives.assetId then (o.receives.assetId, o.pays.assetId)
  else (o.pays.assetId, o.receives.assetId)

/-- `trade_price`, turned so that the smaller asset is the base. -/
def FillOrder.tradePrice (o : FillOrder) : Price :=
  if o.pays.assetId > o.receives.assetId then ⟨o.receives, o.pays⟩ else ⟨o.pays, o.receives⟩

/-- `fill_price`, turned so that the smaller asset is the base. -/
def FillOrder.turnedFillPrice (o : FillOrder) : Price :=
  if o.fillPrice.base.assetId > o.fillPrice.quote.assetId then o.fillPrice.invert else o.fillPrice

/-! ### Objects -/

/-- `order_history_object`; the key is the market and the sequence number. -/
structure OrderHistory where
  id : ℕ
  market : ℕ × ℕ
  sequence : ℤ
  time : ℕ
  op : FillOrder
  deriving DecidableEq

/-- `market_ticker_object`. The volumes are of type `fc::uint128`. -/
structure MarketTicker where
  lastDayBase : ℕ := 0
  lastDayQuote : ℕ := 0
  latestBase : ℕ
  latestQuote : ℕ
  baseVolume : ℕ
  quoteVolume : ℕ
  deriving DecidableEq, Repr

/-- `market_ticker_meta_object`. -/
structure MarketTickerMeta where
  rollingMinOrderHisId : ℕ
  skipMinOrderHisId : Bool
  deriving DecidableEq, Repr

/-- The options of the plugin. -/
structure MarketConfig where
  /-- `max-order-his-records-per-market` -/
  maxRecords : ℕ
  /-- `max-order-his-seconds-per-market` -/
  maxSeconds : ℕ

/-- The objects of the plugin: the records in the order of their ids, the tickers by market and the
one meta object. -/
structure History where
  records : List OrderHistory := []
  nextId : ℕ := 0
  tickers : ℕ × ℕ → Option MarketTicker := fun _ => none
  tickerMeta : Option MarketTickerMeta := none

/-- The modulus of `fc::uint128`. -/
def uint128 : ℕ := 2 ^ 128

/-! ### The records of a market -/

/-- The records of a market in the order `by_key`. -/
def byKey (records : List OrderHistory) (m : ℕ × ℕ) : List OrderHistory :=
  (records.filter fun r => r.market = m).insertionSort fun r r' => r.sequence ≤ r'.sequence

/-- `by_market_time`: later times first, and among those of one time the smaller sequence
number. -/
def TimeLe (r r' : OrderHistory) : Prop :=
  r'.time < r.time ∨ r.time = r'.time ∧ r.sequence ≤ r'.sequence

instance : DecidableRel TimeLe := fun _ _ => inferInstanceAs (Decidable (_ ∨ _))

/-- The records of a market in the order `by_market_time`. -/
def byMarketTime (records : List OrderHistory) (m : ℕ × ℕ) : List OrderHistory :=
  (records.filter fun r => r.market = m).insertionSort TimeLe

/-- The sequence number of the next record of a market: they count down from 0. -/
def nextSequence (records : List OrderHistory) (m : ℕ × ℕ) : ℤ :=
  match byKey records m with
  | [] => 0
  | r :: _ => r.sequence - 1

variable (cfg : MarketConfig)

/-- `min_time`: what is not later may be trimmed. -/
def minTime (now : ℕ) : ℕ := if cfg.maxSeconds < now then now - cfg.maxSeconds else 0

/-- The removal of old records, `sequence` being that of the record just made. The two loops remove
what comes from a place of an index on, of the market. -/
def trim (now : ℕ) (m : ℕ × ℕ) (sequence : ℤ) (records : List OrderHistory) : List OrderHistory :=
  match (byKey records m).find? fun r => sequence + cfg.maxRecords ≤ r.sequence with
  | none => records
  | some itr =>
      match (byMarketTime records m).find? fun r => r.time ≤ minTime cfg now with
      | none => records
      | some timeItr =>
          if itr.sequence ≥ timeItr.sequence then
            records.filter fun r => ¬ (r.market = m ∧ itr.sequence ≤ r.sequence)
          else records.filter fun r => ¬ (r.market = m ∧ TimeLe timeItr r)

/-! ### The tickers -/

/-- The fill of a maker order comes into the ticker of its market. Overflow is ignored. -/
def addToTicker (o : FillOrder) (ticker : Option MarketTicker) : MarketTicker :=
  match ticker with
  | none =>
      { latestBase := o.turnedFillPrice.base.amount
        latestQuote := o.turnedFillPrice.quote.amount
        baseVolume := o.tradePrice.base.amount % uint128
        quoteVolume := o.tradePrice.quote.amount % uint128 }
  | some t =>
      { t with
        latestBase := o.turnedFillPrice.base.amount
        latestQuote := o.turnedFillPrice.quote.amount
        baseVolume := (t.baseVolume + o.tradePrice.base.amount) % uint128
        quoteVolume := (t.quoteVolume + o.tradePrice.quote.amount) % uint128 }

/-- The fill of a maker order goes out of the ticker of its market. Underflow is ignored. -/
def rollOutOfTicker (o : FillOrder) (t : MarketTicker) : MarketTicker :=
  { t with
    lastDayBase := o.turnedFillPrice.base.amount
    lastDayQuote := o.turnedFillPrice.quote.amount
    baseVolume := (t.baseVolume + (uint128 - o.tradePrice.base.amount % uint128)) % uint128
    quoteVolume := (t.quoteVolume + (uint128 - o.tradePrice.quote.amount % uint128)) % uint128 }

/-! ### A block -/

/-- `operation_process_fill_order` for a fill. -/
def processFillOrder (now : ℕ) (s : History) (o : FillOrder) : History :=
  let sequence := nextSequence s.records o.market
  let record : OrderHistory :=
    { id := s.nextId, market := o.market, sequence, time := now, op := o }
  { records := trim cfg now o.market sequence (s.records ++ [record])
    nextId := s.nextId + 1
    tickers :=
      if o.isMaker then Function.update s.tickers o.market (some (addToTicker o (s.tickers o.market)))
      else s.tickers
    tickerMeta := some (s.tickerMeta.getD ⟨record.id, false⟩) }

/-- The loop that rolls expired records out of the tickers, from the record with the id `rolling`
on, which is left out if `skip` is set. -/
def rollTickers (rolling : ℕ) : Bool → List OrderHistory → (ℕ × ℕ → Option MarketTicker) →
    ℕ × ℕ → Option MarketTicker
  | _, [], tickers => tickers
  | skip, r :: rs, tickers =>
      if skip ∧ r.id = rolling then rollTickers rolling false rs tickers
      else if r.op.isMaker then
        rollTickers rolling skip rs (Function.update tickers r.op.market
          ((tickers r.op.market).map (rollOutOfTicker r.op)))
      else rollTickers rolling skip rs tickers

/-- `b.timestamp - 86400`, of type `uint32_t`. -/
def lastDay (now : ℕ) : ℕ := (now + 2 ^ 32 - 86400) % 2 ^ 32

/-- Expired data are rolled out of the tickers. -/
def rollOut (now : ℕ) (s : History) : History :=
  match s.tickerMeta with
  | none => s
  | some mtm =>
      let history := s.records.filter fun r => mtm.rollingMinOrderHisId ≤ r.id
      let expired := history.takeWhile fun r => r.time < lastDay now
      let rest := history.dropWhile fun r => r.time < lastDay now
      let lastMin := (expired.getLast?.map fun r => r.id).getD mtm.rollingMinOrderHisId
      { s with
        tickers := rollTickers mtm.rollingMinOrderHisId mtm.skipMinOrderHisId expired s.tickers
        tickerMeta := some <| match rest with
          | r :: _ => if r.id ≠ mtm.rollingMinOrderHisId then ⟨r.id, false⟩ else mtm
          | [] => if lastMin ≠ mtm.rollingMinOrderHisId then ⟨lastMin, true⟩ else mtm }

/-- What the plugin reads of a block: its timestamp, a `uint32_t`, and the fills among the applied
operations. -/
structure FillBlock where
  timestamp : ℕ
  timestamp_lt : timestamp < 2 ^ 32
  fills : List FillOrder

/-- `update_market_histories`. -/
def updateMarketHistories (s : History) (b : FillBlock) : History :=
  rollOut b.timestamp (b.fills.foldl (processFillOrder cfg b.timestamp) s)

end ZosCore.MarketHistory
