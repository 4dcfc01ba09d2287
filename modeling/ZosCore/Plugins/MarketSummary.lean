import Mathlib.Data.List.DropRight
import ZosCore.Plugins.DayVolume
import ZosCore.Plugins.MarketBuckets

/-!
The price buckets and the order history against the fills that there have been.

A bucket is made of the fills within it. Of the order history of a market a beginning has been trimmed:
what is gone is not among the newest records, and is old.

* `Summarises`: the volumes and the prices of a bucket are those of some fills.
* `KeptRecords`: what is left of the records of a market.
* `SummarisesMarkets`: what is promised of the buckets and of the order history.
* **`summarisesMarkets_run`**: it is kept, counting the fills of maker orders, and those that are after
  the epoch; with the runs in which others have been counted.
* `run_blocks`: the fills of blocks, between which the tickers are brought up to date.
-/

namespace ZosCore.MarketHistory

/-! ### Prices of fills -/

namespace MarketFill

variable (o o' : MarketFill)

lemma market_distinct : o.market.1 ≠ o.market.2 := by
  have hdistinct := o.distinct
  rw [FillOrder.market]
  split
  · exact hdistinct.symm
  · exact hdistinct

lemma price_valid : o.price.Valid where
  base_pos := Int.natCast_pos.mpr o.turnedFillPrice_pos.1
  quote_pos := Int.natCast_pos.mpr o.turnedFillPrice_pos.2
  distinct := by
    rw [o.price_eq]
    exact o.market_distinct

/-- The comparisons of the prices of two fills of a market. -/
lemma comparesRates_price (h : o.market = o'.market) : Prices.ComparesRates o.price o'.price := by
  refine Prices.comparesRates o.price_valid o'.price_valid ?_
  rw [o.price_eq, o'.price_eq]
  exact ⟨congrArg Prod.fst h, congrArg Prod.snd h⟩

end MarketFill

/-! ### Buckets -/

/-- A sum that stays at the largest number of 64 bits once it would be larger. -/
def saturated (sum : ℤ) : ℤ := min sum Safe.maximum

lemma saturated_of_share {x : ℤ} (h : Share x) : saturated x = x :=
  min_eq_left (Int.le_sub_one_of_lt h.2)

/-- A volume stays at the largest number. -/
lemma addVolume_saturated {volume amount : ShareType} {sum : ℤ} (hv : (volume : ℤ) = saturated sum)
    (ha : 0 ≤ (amount : ℤ)) : (addVolume volume amount : ℤ) = saturated (sum + amount) := by
  have hadd := Safe.add_eq (b := (amount : ℤ)) volume.2
  have hlow := volume.2.1
  rw [saturated, Safe.maximum] at hv
  rw [addVolume, saturated]
  split
  next total hok =>
    rw [hadd] at hok
    split at hok
    next hshare =>
      cases hok
      have hhigh := hshare.2
      change (volume : ℤ) + amount = _
      rw [Safe.maximum]
      omega
    next => cases hok
  next e herror =>
    rw [hadd] at herror
    split at herror
    next => cases herror
    next hnot =>
      have hhigh : ¬ (volume : ℤ) + amount < 2 ^ 63 := fun h => hnot ⟨by omega, h⟩
      change Safe.maximum = _
      rw [Safe.maximum]
      omega

/-- A bucket is made of some fills: it has their volumes, the prices of the first and of the last, and
two of their prices between which all are. -/
structure Summarises (k : BucketKey) (l : List MarketFill) (b : BucketObject) : Prop where
  key : b.key = k
  first : ∃ o, l.head? = some o ∧ b.openPrice = o.price
  last : ∃ o, l.getLast? = some o ∧ b.closePrice = o.price
  baseVolume : (b.baseVolume : ℤ) = saturated (l.map fun o => (o.tradeBase : ℤ)).sum
  quoteVolume : (b.quoteVolume : ℤ) = saturated (l.map fun o => (o.tradeQuote : ℤ)).sum
  high_mem : ∃ o ∈ l, b.high = o.price
  low_mem : ∃ o ∈ l, b.low = o.price
  le_high : ∀ o ∈ l, o.price.rate ≤ b.high.rate
  low_le : ∀ o ∈ l, b.low.rate ≤ o.price.rate

section
variable {k : BucketKey} {l : List MarketFill} {o : MarketFill} {b : BucketObject}

/-- A new bucket is made of its fill. -/
lemma summarises_create (hm : o.market = k.market) : Summarises k [o] (createBucket k o) := by
  have hprice : priceOf k.market o.fillBase o.fillQuote = o.price := by rw [o.price_eq, hm]
  refine ⟨rfl, ⟨o, rfl, hprice⟩, ⟨o, rfl, hprice⟩, ?_, ?_, ⟨o, by simp, hprice⟩,
    ⟨o, by simp, hprice⟩, fun o' ho' => ?_, fun o' ho' => ?_⟩
  · rw [List.map_singleton, List.sum_singleton, saturated_of_share o.tradeBase.2]
    rfl
  · rw [List.map_singleton, List.sum_singleton, saturated_of_share o.tradeQuote.2]
    rfl
  · rw [List.mem_singleton.mp ho']
    exact (congrArg Prices.Price.rate hprice).ge
  · rw [List.mem_singleton.mp ho']
    exact (congrArg Prices.Price.rate hprice).le

/-- The highest price after a fill. -/
lemma high_modify (hm : o.market = b.key.market) :
    (modifyBucket o b).high = if b.high.lt o.price then o.price else b.high := by
  change priceOf b.key.market (if b.high.lt o.price then o.fillBase else b.highBase)
    (if b.high.lt o.price then o.fillQuote else b.highQuote) = _
  split
  · rw [o.price_eq, hm]
  · rfl

/-- The lowest price after a fill. -/
lemma low_modify (hm : o.market = b.key.market) :
    (modifyBucket o b).low = if b.low.gt o.price then o.price else b.low := by
  change priceOf b.key.market (if b.low.gt o.price then o.fillBase else b.lowBase)
    (if b.low.gt o.price then o.fillQuote else b.lowQuote) = _
  split
  · rw [o.price_eq, hm]
  · rfl

/-- The volumes of a fill are not negative. -/
lemma trade_nonneg (o : MarketFill) : 0 ≤ (o.tradeBase : ℤ) ∧ 0 ≤ (o.tradeQuote : ℤ) :=
  ⟨Int.natCast_nonneg _, Int.natCast_nonneg _⟩

/-- **One fill more**, after which the bucket is made of it too. -/
lemma Summarises.modify (h : Summarises k l b) (hl : ∀ o ∈ l, o.market = k.market)
    (hm : o.market = k.market) : Summarises k (l ++ [o]) (modifyBucket o b) := by
  have hkey : o.market = b.key.market := by rw [h.key, hm]
  obtain ⟨first, hfirst, hopen⟩ := h.first
  obtain ⟨high, hhigh, hhighEq⟩ := h.high_mem
  obtain ⟨low, hlow, hlowEq⟩ := h.low_mem
  have hcompare := high.comparesRates_price o ((hl high hhigh).trans hm.symm)
  have hcompare' := low.comparesRates_price o ((hl low hlow).trans hm.symm)
  rw [← hhighEq] at hcompare
  rw [← hlowEq] at hcompare'
  refine ⟨h.key, ⟨first, ?_, hopen⟩, ⟨o, List.getLast?_concat, ?_⟩, ?_, ?_, ?_, ?_, ?_, ?_⟩
  · rw [List.head?_append, hfirst]
    rfl
  · rw [o.price_eq, hkey]
    rfl
  · rw [List.map_append, List.sum_append, List.map_singleton, List.sum_singleton]
    exact addVolume_saturated h.baseVolume (trade_nonneg o).1
  · rw [List.map_append, List.sum_append, List.map_singleton, List.sum_singleton]
    exact addVolume_saturated h.quoteVolume (trade_nonneg o).2
  · rw [high_modify hkey]
    split
    · exact ⟨o, by simp, rfl⟩
    · exact ⟨high, List.mem_append_left _ hhigh, hhighEq⟩
  · rw [low_modify hkey]
    split
    · exact ⟨o, by simp, rfl⟩
    · exact ⟨low, List.mem_append_left _ hlow, hlowEq⟩
  · intro o' ho'
    rw [high_modify hkey]
    rcases List.mem_append.mp ho' with ho' | ho'
    · split
      next hlt => exact (h.le_high o' ho').trans (hcompare.lt.mp hlt).le
      next => exact h.le_high o' ho'
    · rw [List.mem_singleton.mp ho']
      split
      next => exact le_rfl
      next hlt => exact not_lt.mp (mt hcompare.lt.mpr hlt)
  · intro o' ho'
    rw [low_modify hkey]
    rcases List.mem_append.mp ho' with ho' | ho'
    · split
      next hgt => exact (hcompare'.gt.mp hgt).le.trans (h.low_le o' ho')
      next => exact h.low_le o' ho'
    · rw [List.mem_singleton.mp ho']
      split
      next => exact le_rfl
      next hgt => exact not_lt.mp (mt hcompare'.gt.mpr hgt)

/-- The bucket that some fills make is made of them. -/
lemma summarises_bucketOf (hl : ∀ o ∈ l, o.market = k.market) (hb : bucketOf k l = some b) :
    Summarises k l b := by
  induction l using List.reverseRecOn generalizing b with
  | nil => cases hb
  | append_singleton l o ih =>
      rw [bucketOf_append] at hb
      cases hb
      have hm := hl o (by simp)
      have hl' : ∀ o ∈ l, o.market = k.market := fun o' ho' => hl o' (List.mem_append_left _ ho')
      cases hbefore : bucketOf k l with
      | none =>
          rw [eq_nil_of_bucketOf hbefore]
          exact summarises_create hm
      | some b' => exact (ih hl' hbefore).modify hl' hm

end

/-! ### The records of a market -/

/-- The records of a market, in the order in which they have been made. -/
def recordsOf (m : ℕ × ℕ) (records : List OrderHistory) : List OrderHistory :=
  records.filter fun r => r.market = m

/-- The fills of a market. -/
def logOf (m : ℕ × ℕ) (log : List (ℕ × FillOrder)) : List (ℕ × FillOrder) :=
  log.filter fun f => f.2.market = m

/-- What a record is made of. -/
def OrderHistory.entry (r : OrderHistory) : ℕ × FillOrder := (r.time, r.op)

variable (cfg : MarketConfig)

/-- What is left of the records of a market. Some that are gone were the first, and while there are any,
so many are left as are to be kept, and those that are gone are old. -/
structure KeptRecords (m : ℕ × ℕ) (log : List (ℕ × FillOrder)) (records : List OrderHistory) :
    Prop where
  gone : ∃ gone, logOf m log = gone ++ (recordsOf m records).map OrderHistory.entry ∧
    (gone = [] ∨ cfg.maxRecords ≤ (recordsOf m records).length) ∧
    ∀ now, (∀ f ∈ logOf m log, f.1 ≤ now) → ∀ f ∈ gone, f.1 ≤ minTime cfg now
  consecutive : (recordsOf m records).IsChain fun r r' => r.sequence = r'.sequence + 1

/-- The order of the records of a market: older ones have larger numbers. -/
def Older (r r' : OrderHistory) : Prop := r'.sequence < r.sequence ∧ r.time ≤ r'.time

lemma minTime_mono {now now' : ℕ} (h : now ≤ now') : minTime cfg now ≤ minTime cfg now' := by
  rw [minTime, minTime]
  split_ifs <;> omega

/-- In a market larger numbers belong to older records. -/
lemma time_le_of_older {l : List OrderHistory} (h : l.Pairwise Older) :
    ∀ r ∈ l, ∀ r' ∈ l, r.sequence ≤ r'.sequence → r'.time ≤ r.time := by
  induction l with
  | nil => exact fun _ hr => absurd hr List.not_mem_nil
  | cons a l ih =>
      obtain ⟨ha, hl⟩ := List.pairwise_cons.mp h
      intro r hr r' hr' hle
      rcases List.mem_cons.mp hr with heq | hin <;> rcases List.mem_cons.mp hr' with heq' | hin'
      · rw [heq, heq']
      · rw [heq] at hle
        exact absurd (ha r' hin').1 hle.not_gt
      · rw [heq']
        exact (ha r hin).2
      · exact ih hl r hin r' hin' hle

/-- The numbers count down. -/
lemma sequence_of_chain {r last : OrderHistory} {l : List OrderHistory}
    (h : (r :: l).IsChain fun r r' => r.sequence = r'.sequence + 1)
    (hlast : (r :: l).getLast? = some last) : r.sequence = last.sequence + l.length := by
  induction l generalizing r with
  | nil =>
      cases hlast
      simp
  | cons r' l ih =>
      rw [List.isChain_cons_cons] at h
      rw [List.getLast?_cons_cons] at hlast
      rw [h.1, ih h.2 hlast, List.length_cons]
      push_cast
      ring

lemma pairwise_of_chain {l : List OrderHistory}
    (h : l.IsChain fun r r' => r.sequence = r'.sequence + 1) :
    l.Pairwise fun r r' => r'.sequence < r.sequence := by
  have htrans : IsTrans OrderHistory fun r r' => r'.sequence < r.sequence :=
    ⟨fun _ _ _ h h' => h'.trans h⟩
  exact List.isChain_iff_pairwise.mp (h.imp fun r r' h => by omega)

/-- What `trim` takes away. -/
def trims (now : ℕ) (m : ℕ × ℕ) (sequence : ℤ) (r : OrderHistory) : Bool :=
  r.market = m ∧ sequence + cfg.maxRecords ≤ r.sequence ∧ r.time ≤ minTime cfg now

/-- What is trimmed of records in order is a beginning, after which there are so many left. -/
lemma trimmed_first {all : List OrderHistory} {last : OrderHistory} {old : OrderHistory → Bool} {n : ℕ}
    (hchain : all.IsChain fun r r' => r.sequence = r'.sequence + 1) (hlast : all.getLast? = some last)
    (hlost : all.Pairwise fun r r' => old r' = true → old r = true)
    (hold : ∀ r ∈ all, old r = true → last.sequence + n ≤ r.sequence) :
    ∃ gone, all = gone ++ all.filter (fun r => !old r) ∧
      (gone = [] ∨ n ≤ (all.filter fun r => !old r).length) ∧ ∀ r ∈ gone, old r = true := by
  rw [← SortedLists.dropWhile_eq_filter hlost]
  have hparts : all = all.takeWhile old ++ all.dropWhile old := List.takeWhile_append_dropWhile.symm
  refine ⟨all.takeWhile old, hparts, ?_, fun r hr => List.mem_takeWhile_imp hr⟩
  rcases List.eq_nil_or_concat' (all.takeWhile old) with hnil | ⟨init, r, hinit⟩
  · exact .inl hnil
  · -- the last that is gone has a number that counts those that are left
    have hr : r ∈ all.takeWhile old := by simp [hinit]
    have hfrom : all = init ++ r :: all.dropWhile old := by
      rw [hinit, List.append_assoc] at hparts
      exact hparts
    have hrest : (r :: all.dropWhile old).getLast? = some last := by
      rw [hfrom, List.getLast?_append] at hlast
      simpa using hlast
    rw [hfrom] at hchain
    have hnumber := sequence_of_chain (List.isChain_append.mp hchain).2.1 hrest
    have hbound := hold r ((List.takeWhile_sublist old).subset hr) (List.mem_takeWhile_imp hr)
    exact .inr (by omega)

namespace KeptRecords

variable {cfg} {m : ℕ × ℕ} {log : List (ℕ × FillOrder)} {s : History} {T : ℕ} {o : FillOrder}

/-- Before there is a fill. -/
lemma initial (m : ℕ × ℕ) : KeptRecords cfg m [] [] :=
  ⟨⟨[], rfl, .inl rfl, fun _ _ _ hf => absurd hf List.not_mem_nil⟩, .nil⟩

lemma older {records : List OrderHistory} (h : KeptRecords cfg m log records)
    (htimes : log.Pairwise fun f g => f.1 ≤ g.1) : (recordsOf m records).Pairwise Older := by
  obtain ⟨gone, hlog, -, -⟩ := h.gone
  have hall : (logOf m log).Pairwise fun f g => f.1 ≤ g.1 := htimes.filter _
  rw [hlog] at hall
  have htime := List.pairwise_map.mp (List.pairwise_append.mp hall).2.1
  exact (pairwise_of_chain h.consecutive).and htime

/-- The records of the market of a fill, with its own. -/
lemma recordsOf_append (T : ℕ) (s : History) (o : FillOrder) :
    recordsOf o.market (s.records ++ [newRecord T s o]) =
      recordsOf o.market s.records ++ [newRecord T s o] := by
  rw [recordsOf, List.filter_append, ← recordsOf, List.filter_cons_of_pos (by simp [newRecord]),
    List.filter_nil]

/-- The record of a fill has the next number. -/
lemma consecutive_append (h : KeptRecords cfg o.market log s.records) :
    (recordsOf o.market s.records ++ [newRecord T s o]).IsChain
      fun r r' => r.sequence = r'.sequence + 1 := by
  refine List.isChain_append.mpr ⟨h.consecutive, List.isChain_singleton _, ?_⟩
  intro last hlast r hr
  cases hr
  have hmem := List.mem_of_mem_getLast? hlast
  obtain ⟨hin, hm⟩ := List.mem_filter.mp hmem
  obtain ⟨x, hx, hxm, hnext, hmin⟩ := nextSequence_spec hin (of_decide_eq_true hm)
  have hle := hmin last hin (of_decide_eq_true hm)
  have hge : last.sequence ≤ x.sequence := by
    obtain ⟨init, hinit⟩ := List.getLast?_eq_some_iff.mp hlast
    have hpairs := pairwise_of_chain h.consecutive
    have hxin : x ∈ recordsOf o.market s.records := List.mem_filter.mpr ⟨hx, decide_eq_true hxm⟩
    rw [hinit] at hpairs hxin
    rcases List.mem_append.mp hxin with hxin | hxin
    · exact ((List.pairwise_append.mp hpairs).2.2 x hxin last (by simp)).le
    · rw [List.mem_singleton.mp hxin]
  change last.sequence = nextSequence s.records o.market + 1
  omega

/-- The records of the market are in order. -/
lemma older_append (h : KeptRecords cfg o.market log s.records)
    (htimes : (log ++ [(T, o)]).Pairwise fun f g => f.1 ≤ g.1) :
    (recordsOf o.market s.records ++ [newRecord T s o]).Pairwise Older := by
  obtain ⟨hlog, -, hlast⟩ := List.pairwise_append.mp htimes
  have hseq := pairwise_of_chain (h.consecutive_append (T := T))
  obtain ⟨gone, hgone, -, -⟩ := h.gone
  refine List.pairwise_append.mpr ⟨h.older hlog, List.pairwise_singleton _ _, fun r hr r' hr' => ?_⟩
  refine ⟨(List.pairwise_append.mp hseq).2.2 r hr r' hr', ?_⟩
  rw [List.mem_singleton.mp hr']
  have hentry : r.entry ∈ logOf o.market log := by
    rw [hgone]
    exact List.mem_append_right _ (List.mem_map_of_mem hr)
  exact hlast r.entry (List.mem_filter.mp hentry).1 (T, o) (by simp)

/-- What is trimmed of the market of a fill. -/
lemma recordsOf_trim (h : KeptRecords cfg o.market log s.records)
    (htimes : (log ++ [(T, o)]).Pairwise fun f g => f.1 ≤ g.1) (m : ℕ × ℕ) :
    recordsOf m (processFillOrder cfg T s o).records =
      (recordsOf m (s.records ++ [newRecord T s o])).filter fun r =>
        !trims cfg T o.market (newRecord T s o).sequence r := by
  have hrecords : (processFillOrder cfg T s o).records =
      trim cfg T o.market (newRecord T s o).sequence (s.records ++ [newRecord T s o]) := rfl
  have hold : ∀ r ∈ s.records ++ [newRecord T s o], ∀ r' ∈ s.records ++ [newRecord T s o],
      r.market = o.market → r'.market = o.market → r.sequence ≤ r'.sequence → r'.time ≤ r.time := by
    intro r hr r' hr' hm hm'
    have hin : ∀ x ∈ s.records ++ [newRecord T s o], x.market = o.market →
        x ∈ recordsOf o.market s.records ++ [newRecord T s o] := by
      intro x hx hxm
      rw [← recordsOf_append]
      exact List.mem_filter.mpr ⟨hx, decide_eq_true hxm⟩
    exact time_le_of_older (h.older_append htimes) r (hin r hr hm) r' (hin r' hr' hm')
  rw [hrecords, trim_eq cfg hold, recordsOf, recordsOf, List.filter_filter, List.filter_filter]
  simp only [Bool.and_comm, trims, decide_not]

/-- A fill of another market. -/
lemma processFillOrder_of_ne (h : KeptRecords cfg m log s.records)
    (ho : KeptRecords cfg o.market log s.records)
    (htimes : (log ++ [(T, o)]).Pairwise fun f g => f.1 ≤ g.1) (hm : m ≠ o.market) :
    KeptRecords cfg m (log ++ [(T, o)]) (processFillOrder cfg T s o).records := by
  have hlog : logOf m (log ++ [(T, o)]) = logOf m log := by
    rw [logOf, List.filter_append, ← logOf, List.filter_cons_of_neg (by simpa using hm.symm),
      List.filter_nil, List.append_nil]
  have hnew : recordsOf m (s.records ++ [newRecord T s o]) = recordsOf m s.records := by
    rw [recordsOf, List.filter_append, ← recordsOf,
      List.filter_cons_of_neg fun h => hm (of_decide_eq_true h).symm, List.filter_nil, List.append_nil]
  have hrecords : recordsOf m (processFillOrder cfg T s o).records = recordsOf m s.records := by
    rw [ho.recordsOf_trim htimes, hnew]
    refine List.filter_eq_self.mpr fun r hr => ?_
    rw [Bool.not_eq_true', ← Bool.not_eq_true]
    intro htrims
    exact hm ((of_decide_eq_true (List.mem_filter.mp hr).2).symm.trans (of_decide_eq_true htrims).1)
  refine ⟨?_, by rw [hrecords]; exact h.consecutive⟩
  rw [hlog, hrecords]
  exact h.gone

/-- A fill of the market. The records that are trimmed come before all others. -/
lemma processFillOrder_self (h : KeptRecords cfg o.market log s.records)
    (htimes : (log ++ [(T, o)]).Pairwise fun f g => f.1 ≤ g.1) :
    KeptRecords cfg o.market (log ++ [(T, o)]) (processFillOrder cfg T s o).records := by
  let trimmed := trims cfg T o.market (newRecord T s o).sequence
  have hmarket : ∀ r ∈ recordsOf o.market s.records ++ [newRecord T s o], r.market = o.market := by
    intro r hr
    rw [← recordsOf_append] at hr
    exact of_decide_eq_true (List.mem_filter.mp hr).2
  have hlost : (recordsOf o.market s.records ++ [newRecord T s o]).Pairwise
      fun r r' => trimmed r' = true → trimmed r = true := by
    refine (h.older_append htimes).imp_of_mem fun {r r'} hr _ hlt hr' => ?_
    obtain ⟨-, hseq, htime⟩ := of_decide_eq_true hr'
    exact decide_eq_true ⟨hmarket r hr, hseq.trans hlt.1.le, hlt.2.trans htime⟩
  obtain ⟨first, hall, hcount, hfirst⟩ := trimmed_first h.consecutive_append List.getLast?_concat
    hlost fun r _ hr => (of_decide_eq_true hr).2.1
  have hrecords := h.recordsOf_trim htimes o.market
  rw [recordsOf_append] at hrecords
  rw [← hrecords] at hall hcount
  have hchain := h.consecutive_append (T := T)
  rw [hall] at hchain
  have hlog : logOf o.market (log ++ [(T, o)]) = logOf o.market log ++ [(T, o)] := by
    rw [logOf, List.filter_append, ← logOf, List.filter_cons_of_pos (by simp), List.filter_nil]
  obtain ⟨gone, hgone, hleft, hold⟩ := h.gone
  refine ⟨⟨gone ++ first.map OrderHistory.entry, ?_, ?_, fun now hnow f hf => ?_⟩,
    (List.isChain_append.mp hchain).2.1⟩
  · have hentries := congrArg (List.map OrderHistory.entry) hall
    rw [List.map_append, List.map_append] at hentries
    rw [hlog, hgone, List.append_assoc, List.append_assoc, ← hentries]
    rfl
  · rcases hcount with hnil | hcount
    · have hlength := congrArg List.length hall
      rw [hnil, List.nil_append, List.length_append, List.length_singleton] at hlength
      rw [hnil, List.map_nil, List.append_nil]
      exact hleft.imp_right fun hle => by omega
    · exact .inr hcount
  · rw [hlog] at hnow
    rcases List.mem_append.mp hf with hf | hf
    · exact hold now (fun g hg => hnow g (List.mem_append_left _ hg)) f hf
    · obtain ⟨r, hr, rfl⟩ := List.mem_map.mp hf
      have htime := (of_decide_eq_true (hfirst r hr)).2.2
      exact htime.trans (minTime_mono cfg (hnow (T, o) (by simp)))

end KeptRecords

/-! ### Runs -/

/-- What the order history has of some fills. -/
def logFills (fills : List (ℕ × MarketFill)) : List (ℕ × FillOrder) :=
  fills.map fun f => (f.1, f.2.toFillOrder)

section
variable {cfg : BucketConfig} {fills : List (ℕ × MarketFill)}

lemma run_append (fills : List (ℕ × MarketFill)) (f : ℕ × MarketFill) :
    run cfg (fills ++ [f]) = processFill cfg (run cfg fills) f := by
  rw [run, List.foldl_append, ← run, List.foldl_cons, List.foldl_nil]

/-- What is left of the records of each market after a run. -/
theorem keptRecords_run (htimes : fills.Pairwise fun f g => f.1 ≤ g.1) (m : ℕ × ℕ) :
    KeptRecords cfg.toMarketConfig m (logFills fills) (run cfg fills).history.records := by
  induction fills using List.reverseRecOn generalizing m with
  | nil => exact .initial m
  | append_singleton fills f ih =>
      have hlog : logFills (fills ++ [f]) = logFills fills ++ [(f.1, f.2.toFillOrder)] := by
        rw [logFills, List.map_append, List.map_singleton, ← logFills]
      have hall : (logFills (fills ++ [f])).Pairwise fun f g => f.1 ≤ g.1 :=
        List.pairwise_map.mpr htimes
      have hbefore := ih (List.pairwise_append.mp htimes).1
      rw [hlog] at hall
      rw [hlog, run_append]
      by_cases hm : m = f.2.market
      · rw [hm]
        exact (hbefore _).processFillOrder_self hall
      · exact (hbefore m).processFillOrder_of_ne (hbefore _) hall hm

/-- With no periods to be kept there are no buckets. -/
lemma buckets_eq_none (hhistory : cfg.maxHistory = 0) (fills : List (ℕ × MarketFill))
    (k : BucketKey) : (run cfg fills).buckets k = none := by
  induction fills using List.reverseRecOn with
  | nil => rfl
  | append_singleton fills f ih =>
      rw [run_append]
      change (if f.2.isMaker then updateBuckets cfg f.1 f.2 (run cfg fills).buckets
        else (run cfg fills).buckets) k = none
      rw [updateBuckets, if_pos hhistory, ite_self, ih]

end

/-! ### What is promised -/

/-- What is promised of a bucket. For `recent` so many fills count as `counts` says. -/
structure BucketSummary (cfg : BucketConfig) (counts : FillOrder → Bool)
    (fills : List (ℕ × MarketFill)) (k : BucketKey) (b : BucketObject) : Prop where
  multiple : k.seconds ∣ k.openTime
  summarises : Summarises k (within fills k) b
  recent : ∀ f ∈ fills, counts f.2.toFillOrder = true → f.2.market = k.market →
    (f.1 - k.openTime) / k.seconds ≤ cfg.maxHistory

/-- What is promised of the order history of a market: it has the newest fills, and at any time from the
last one on those that are newer than `max_seconds`, if they are not before `first`. -/
structure OrdersKept (cfg : MarketConfig) (first : ℕ) (fills orders : List (ℕ × FillOrder)) :
    Prop where
  last : orders <:+ fills
  newest : fills.rtake cfg.maxRecords <:+ orders
  newer : ∀ now, (∀ f ∈ fills, f.1 ≤ now) →
    (fills.filter fun f => first ≤ f.1 ∧ now < f.1 + cfg.maxSeconds).Sublist orders

/-- What is promised of the buckets and of the order histories after some fills. -/
structure SummarisesMarkets (cfg : BucketConfig) (counts : FillOrder → Bool) (first : ℕ)
    (fills : List (ℕ × MarketFill)) (s : MarketState) : Prop where
  buckets : ∀ k b, s.buckets k = some b → BucketSummary cfg counts fills k b
  orders : ∀ m, OrdersKept cfg.toMarketConfig first (logOf m (logFills fills))
    ((recordsOf m s.history.records).map OrderHistory.entry)

/-- What has been made of a beginning that is trimmed. -/
lemma KeptRecords.ordersKept {m : ℕ × ℕ} {log : List (ℕ × FillOrder)} {records : List OrderHistory}
    (h : KeptRecords cfg m log records) :
    OrdersKept cfg 1 (logOf m log) ((recordsOf m records).map OrderHistory.entry) := by
  obtain ⟨gone, hlog, hcount, hold⟩ := h.gone
  refine ⟨hlog ▸ List.suffix_append _ _, ?_, fun now hnow => ?_⟩
  · rcases hcount with rfl | hcount
    · rw [hlog, List.nil_append]
      exact List.drop_suffix _ _
    · have hlength := congrArg List.length hlog
      rw [List.length_append, List.length_map] at hlength
      rw [List.rtake, hlog, List.drop_append, List.drop_eq_nil_of_le (by rw [← hlog]; omega),
        List.nil_append]
      exact List.drop_suffix _ _
  · have hnone : gone.filter (fun f => 1 ≤ f.1 ∧ now < f.1 + cfg.maxSeconds) = [] := by
      refine List.filter_eq_nil_iff.mpr fun f hf hnewer => ?_
      have htime := hold now hnow f hf
      have hnewer := of_decide_eq_true hnewer
      rw [minTime] at htime
      split at htime <;> omega
    rw [hlog, List.filter_append, hnone, List.nil_append]
    exact List.filter_sublist

/-- The buckets after a run. -/
lemma bucketSummary_run (cfg : BucketConfig) {fills : List (ℕ × MarketFill)}
    (htimes : fills.Pairwise fun f g => f.1 ≤ g.1) {k : BucketKey} {b : BucketObject}
    (hb : (run cfg fills).buckets k = some b) : BucketSummary cfg (fun o => o.isMaker) fills k b := by
  have hhistory : cfg.maxHistory ≠ 0 := by
    intro hzero
    rw [buckets_eq_none hzero] at hb
    cases hb
  rw [buckets_run cfg hhistory htimes, summary] at hb
  split at hb
  next hkept =>
    have hmarket : ∀ o ∈ within fills k, o.market = k.market := by
      intro o ho
      obtain ⟨f, hf, rfl⟩ := List.mem_map.mp ho
      exact (of_decide_eq_true (List.mem_filter.mp hf).2).2.1
    exact ⟨hkept.2.1, summarises_bucketOf hmarket hb, hkept.2.2⟩
  next => cases hb

/-- The promise is kept, counting the fills of maker orders, and those after the epoch. -/
theorem summarisesMarkets_run (cfg : BucketConfig) {fills : List (ℕ × MarketFill)}
    (htimes : fills.Pairwise fun f g => f.1 ≤ g.1) :
    SummarisesMarkets cfg (fun o => o.isMaker) 1 fills (run cfg fills) :=
  ⟨fun _ _ hb => bucketSummary_run cfg htimes hb, fun m => (keptRecords_run htimes m).ordersKept⟩

/-- A fill of the assets 0 and 1. -/
def coreFill (pays receives : Fin 1000) (isMaker : Bool) : MarketFill where
  pays := ⟨pays, 0⟩
  receives := ⟨receives, 1⟩
  fillPrice := ⟨⟨pays + 1, 0⟩, ⟨receives + 1, 1⟩⟩
  isMaker
  distinct := zero_ne_one
  pays_lt := lt_trans pays.2 (by decide)
  receives_lt := lt_trans receives.2 (by decide)
  base_pos := Nat.succ_pos _
  base_lt := lt_of_le_of_lt pays.2 (by decide)
  quote_pos := Nat.succ_pos _
  quote_lt := lt_of_le_of_lt receives.2 (by decide)
  assets := .inl ⟨rfl, rfl⟩

/-- Minutes and hours, of which one that is over is kept. -/
def minutesAndHours : BucketConfig where
  maxRecords := 0
  maxSeconds := 100
  maxHistory := 1
  trackedBuckets := [60, 3600]
  ascending := by decide
  positive := by decide

/-- The maker and the taker of two trades. -/
theorem summarisesMarkets_twoTrades : SummarisesMarkets minutesAndHours (fun o => o.isMaker) 1
    [(90, coreFill 7 3 true), (90, coreFill 3 7 false), (200, coreFill 5 4 true)]
    (run minutesAndHours
      [(90, coreFill 7 3 true), (90, coreFill 3 7 false), (200, coreFill 5 4 true)]) :=
  summarisesMarkets_run minutesAndHours (by decide)

/-- A fill of a taker only leaves a bucket that is four minutes old, and one at the epoch is trimmed
at once. -/
theorem not_summarisesMarkets :
    (∀ first, ¬ ∀ cfg : BucketConfig, 0 < cfg.maxHistory → ∀ fills : List (ℕ × MarketFill),
      (fills.Pairwise fun f g => f.1 ≤ g.1) →
        SummarisesMarkets cfg (fun _ => true) first fills (run cfg fills)) ∧
    ∀ counts, ¬ ∀ cfg : BucketConfig, 0 < cfg.maxHistory → ∀ fills : List (ℕ × MarketFill),
      (fills.Pairwise fun f g => f.1 ≤ g.1) →
        SummarisesMarkets cfg counts 0 fills (run cfg fills) := by
  refine ⟨fun first h => ?_, fun counts h => ?_⟩
  · have hrun := h minutesAndHours (by decide) [(60, coreFill 7 3 true), (300, coreFill 3 7 false)]
      (by decide)
    have hbucket := hrun.buckets ⟨0, 1, 60, 60⟩ (createBucket ⟨0, 1, 60, 60⟩ (coreFill 7 3 true)) rfl
    have hold := hbucket.recent (300, coreFill 3 7 false) (by simp) rfl rfl
    revert hold
    decide
  · have hrun := h minutesAndHours (by decide) [(0, coreFill 7 3 true)] (by decide)
    have hnewer := (hrun.orders (0, 1)).newer 0 (by decide)
    revert hnewer
    decide

/-! ### Blocks -/

/-- What the plugin reads of a block: its timestamp, a `uint32_t`, and its fills. -/
structure MarketBlock where
  timestamp : ℕ
  timestamp_lt : timestamp < 2 ^ 32
  fills : List MarketFill

/-- The fills of a block, with its time. -/
def MarketBlock.timed (b : MarketBlock) : List (ℕ × MarketFill) := b.fills.map fun o => (b.timestamp, o)

/-- `update_market_histories` -/
def applyBlock (cfg : BucketConfig) (s : MarketState) (b : MarketBlock) : MarketState :=
  let s := b.timed.foldl (processFill cfg) s
  { s with history := rollOut b.timestamp s.history }

/-- The same order history and the same buckets. The tickers may be others. -/
structure SameOrders (s s' : MarketState) : Prop where
  records : s.history.records = s'.history.records
  nextId : s.history.nextId = s'.history.nextId
  buckets : s.buckets = s'.buckets

section
variable {cfg : BucketConfig} {s s' : MarketState}

namespace SameOrders

/-- A fill reads nothing of the tickers for the order history and the buckets. -/
lemma processFill (h : SameOrders s s') (f : ℕ × MarketFill) :
    SameOrders (processFill cfg s f) (processFill cfg s' f) := by
  refine ⟨?_, congrArg (· + 1) h.nextId, ?_⟩
  · simp only [MarketHistory.processFill, processFillOrder, h.records, h.nextId]
  · simp only [MarketHistory.processFill, h.buckets]

lemma foldl (h : SameOrders s s') (fills : List (ℕ × MarketFill)) :
    SameOrders (fills.foldl (MarketHistory.processFill cfg) s)
      (fills.foldl (MarketHistory.processFill cfg) s') := by
  induction fills generalizing s s' with
  | nil => exact h
  | cons f fills ih => exact ih (h.processFill f)

/-- The end of a block changes the tickers only. -/
lemma rollOut (h : SameOrders s s') (now : ℕ) :
    SameOrders { s with history := rollOut now s.history } s' := by
  have hrecords : (MarketHistory.rollOut now s.history).records = s.history.records := by
    rw [MarketHistory.rollOut]
    split <;> rfl
  have hnextId : (MarketHistory.rollOut now s.history).nextId = s.history.nextId := by
    rw [MarketHistory.rollOut]
    split <;> rfl
  exact ⟨hrecords.trans h.records, hnextId.trans h.nextId, h.buckets⟩

end SameOrders

/-- **Blocks**, between which the tickers are brought up to date. -/
theorem run_blocks (blocks : List MarketBlock) :
    SameOrders (blocks.foldl (applyBlock cfg) {}) (run cfg (blocks.flatMap MarketBlock.timed)) := by
  induction blocks using List.reverseRecOn with
  | nil => exact ⟨rfl, rfl, rfl⟩
  | append_singleton blocks b ih =>
      rw [List.foldl_append, List.flatMap_append, List.flatMap_singleton, run, List.foldl_append]
      exact (ih.foldl b.timed).rollOut b.timestamp

/-- At the end of each block the buckets are those that the fills of maker orders make, and the promise is
kept. -/
theorem summarisesMarkets_blocks {blocks : List MarketBlock}
    (htimes : blocks.Pairwise fun b b' => b.timestamp ≤ b'.timestamp) :
    (∀ k, (blocks.foldl (applyBlock cfg) {}).buckets k =
      if cfg.maxHistory = 0 then none else summary cfg (blocks.flatMap MarketBlock.timed) k) ∧
    SummarisesMarkets cfg (fun o => o.isMaker) 1 (blocks.flatMap MarketBlock.timed)
      (blocks.foldl (applyBlock cfg) {}) := by
  have hall : (blocks.flatMap MarketBlock.timed).Pairwise fun f g => f.1 ≤ g.1 := by
    refine List.pairwise_flatMap.mpr ⟨fun b _ => List.pairwise_map.mpr ?_, htimes.imp ?_⟩
    · exact List.pairwise_of_forall fun _ _ => le_rfl
    · intro b b' hle f hf g hg
      obtain ⟨-, -, rfl⟩ := List.mem_map.mp hf
      obtain ⟨-, -, rfl⟩ := List.mem_map.mp hg
      exact hle
  have hsame : SameOrders (blocks.foldl (applyBlock cfg) {}) _ := run_blocks blocks
  refine ⟨fun k => ?_, fun k b hb => bucketSummary_run cfg hall ?_, fun m => ?_⟩
  · rw [hsame.buckets]
    split_ifs with hhistory
    · exact buckets_eq_none hhistory _ k
    · exact buckets_run cfg hhistory hall k
  · rw [← hsame.buckets]
    exact hb
  · rw [hsame.records]
    exact (keptRecords_run hall m).ordersKept

end

/-- A trade, and a block without any, at which the tickers are brought up to date: the bucket of its minute
is there, and the promise is kept. -/
theorem summarisesMarkets_blocks_two :
    let blocks : List MarketBlock :=
      [⟨60, by decide, [coreFill 7 3 true]⟩, ⟨90000, by decide, []⟩]
    ((blocks.foldl (applyBlock minutesAndHours) {}).buckets ⟨0, 1, 60, 60⟩).isSome ∧
      SummarisesMarkets minutesAndHours (fun o => o.isMaker) 1 (blocks.flatMap MarketBlock.timed)
        (blocks.foldl (applyBlock minutesAndHours) {}) := by
  intro blocks
  obtain ⟨hbuckets, hpromise⟩ := @summarisesMarkets_blocks minutesAndHours _
    (show blocks.Pairwise fun b b' => b.timestamp ≤ b'.timestamp by decide)
  refine ⟨?_, hpromise⟩
  rw [hbuckets]
  decide

end ZosCore.MarketHistory
