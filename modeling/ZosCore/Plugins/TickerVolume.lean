import ZosCore.Lib.Runs
import ZosCore.Lib.SortedLists
import ZosCore.Plugins.MarketHistory

/-!
The volumes of the market tickers against the fills of the last day.

A fill comes into the volume of its market at once, and goes out when its record is rolled out.
That is right as long as no record is trimmed before it has been rolled out, and none is rolled
out twice.

* `trim_eq`: what is trimmed, by numbers of newer records and times.
* `Trimmed cfg log now fills r`: the fills of a block trim the record.
* `DayVolume`: the volumes are the sums over the maker fills of the last day.
* `RollsOnce`: the block trims nothing before it is rolled out, and rolls nothing out twice.
* `Chronicle`: all records that have ever been made.
-/

namespace ZosCore.MarketHistory

variable (cfg : MarketConfig)

/-! ### What is trimmed -/

section Trim

variable {records : List OrderHistory} {m : ℕ × ℕ} {now : ℕ} {sequence : ℤ}

lemma timeLe_total (r r' : OrderHistory) : TimeLe r r' ∨ TimeLe r' r := by
  simp only [TimeLe]
  omega

lemma TimeLe.trans {a b c : OrderHistory} (h : TimeLe a b) (h' : TimeLe b c) : TimeLe a c := by
  simp only [TimeLe] at h h' ⊢
  omega

lemma TimeLe.refl (r : OrderHistory) : TimeLe r r := .inr ⟨rfl, le_rfl⟩

lemma pairwise_byKey (records : List OrderHistory) (m : ℕ × ℕ) :
    (byKey records m).Pairwise fun r r' => r.sequence ≤ r'.sequence := by
  have htotal : Std.Total fun r r' : OrderHistory => r.sequence ≤ r'.sequence :=
    ⟨fun r r' => le_total _ _⟩
  have htrans : IsTrans OrderHistory fun r r' => r.sequence ≤ r'.sequence :=
    ⟨fun _ _ _ => le_trans⟩
  exact List.pairwise_insertionSort _ _

lemma pairwise_byMarketTime (records : List OrderHistory) (m : ℕ × ℕ) :
    (byMarketTime records m).Pairwise TimeLe := by
  have htotal : Std.Total TimeLe := ⟨timeLe_total⟩
  have htrans : IsTrans OrderHistory TimeLe := ⟨fun _ _ _ => TimeLe.trans⟩
  exact List.pairwise_insertionSort _ _

@[simp] lemma mem_byKey {r : OrderHistory} :
    r ∈ byKey records m ↔ r ∈ records ∧ r.market = m := by
  simp [byKey, List.mem_insertionSort]

@[simp] lemma mem_byMarketTime {r : OrderHistory} :
    r ∈ byMarketTime records m ↔ r ∈ records ∧ r.market = m := by
  simp [byMarketTime, List.mem_insertionSort]

/-- **What is trimmed**: of the market, what has a large sequence number and is old. In a market larger
sequence numbers are to belong to older records. -/
lemma trim_eq (hold : ∀ r ∈ records, ∀ r' ∈ records, r.market = m → r'.market = m →
      r.sequence ≤ r'.sequence → r'.time ≤ r.time) :
    trim cfg now m sequence records = records.filter fun r =>
      ¬ (r.market = m ∧ sequence + cfg.maxRecords ≤ r.sequence ∧ r.time ≤ minTime cfg now) := by
  have hall : ∀ p : OrderHistory → Prop, [DecidablePred p] → (∀ r ∈ records, ¬ p r) →
      records = records.filter fun r => ¬ p r := by
    intro p _ hp
    exact (List.filter_eq_self.mpr fun r hr => by simpa using hp r hr).symm
  simp only [trim]
  cases hitr : (byKey records m).find? fun r => sequence + cfg.maxRecords ≤ r.sequence with
  | none =>
      rw [List.find?_eq_none] at hitr
      refine hall _ fun r hr hp => hitr r (mem_byKey.mpr ⟨hr, hp.1⟩) ?_
      simpa using hp.2.1
  | some itr =>
      have hfirst := SortedLists.rel_of_find?_eq_some (fun r => le_refl r.sequence)
        (pairwise_byKey records m) hitr
      have hmem := mem_byKey.mp (List.mem_of_find?_eq_some hitr)
      have hbound : sequence + cfg.maxRecords ≤ itr.sequence := by
        simpa using List.find?_some hitr
      simp only
      cases htime : (byMarketTime records m).find? fun r => r.time ≤ minTime cfg now with
      | none =>
          rw [List.find?_eq_none] at htime
          refine hall _ fun r hr hp => htime r (mem_byMarketTime.mpr ⟨hr, hp.1⟩) ?_
          simpa using hp.2.2
      | some timeItr =>
          have hfirst' := SortedLists.rel_of_find?_eq_some TimeLe.refl
            (pairwise_byMarketTime records m) htime
          have hmem' := mem_byMarketTime.mp (List.mem_of_find?_eq_some htime)
          have hbound' : timeItr.time ≤ minTime cfg now := by simpa using List.find?_some htime
          simp only
          split_ifs with hcase
          · -- all from the place in the order of the keys on is old
            refine List.filter_congr fun r hr => ?_
            rw [decide_eq_decide, not_iff_not]
            constructor
            · rintro ⟨hm, hle⟩
              have := hold timeItr hmem'.1 r hr hmem'.2 hm (hcase.trans hle)
              exact ⟨hm, hbound.trans hle, this.trans hbound'⟩
            · rintro ⟨hm, hle, htime⟩
              exact ⟨hm, hfirst r (mem_byKey.mpr ⟨hr, hm⟩) (by simpa using hle)⟩
          · -- all from the place in the order of the times on has a large number
            refine List.filter_congr fun r hr => ?_
            rw [decide_eq_decide, not_iff_not]
            constructor
            · rintro ⟨hm, hle⟩
              have htime : r.time ≤ timeItr.time := by
                simp only [TimeLe] at hle
                omega
              have hseq : timeItr.sequence ≤ r.sequence := by
                by_contra hlt
                have := hold r hr timeItr hmem'.1 hm hmem'.2 (by omega)
                simp only [TimeLe] at hle
                omega
              exact ⟨hm, by omega, htime.trans hbound'⟩
            · rintro ⟨hm, hle, htime⟩
              exact ⟨hm, hfirst' r (mem_byMarketTime.mpr ⟨hr, hm⟩) (by simpa using htime)⟩

/-- The number of the next record of a market comes before those of all others. -/
lemma nextSequence_spec {r : OrderHistory} (hr : r ∈ records) (hm : r.market = m) :
    ∃ r' ∈ records, r'.market = m ∧ nextSequence records m = r'.sequence - 1 ∧
      ∀ r ∈ records, r.market = m → r'.sequence ≤ r.sequence := by
  have hsorted := pairwise_byKey records m
  rw [nextSequence]
  cases hkeys : byKey records m with
  | nil =>
      have hin : r ∈ byKey records m := mem_byKey.mpr ⟨hr, hm⟩
      rw [hkeys] at hin
      simp at hin
  | cons r' l =>
      obtain ⟨hr', hm'⟩ := mem_byKey.mp (hkeys ▸ List.mem_cons_self : r' ∈ byKey records m)
      rw [hkeys, List.pairwise_cons] at hsorted
      refine ⟨r', hr', hm', rfl, fun x hx hxm => ?_⟩
      have hin : x ∈ byKey records m := mem_byKey.mpr ⟨hx, hxm⟩
      rw [hkeys] at hin
      rcases List.mem_cons.mp hin with rfl | hin
      · exact le_rfl
      · exact hsorted.1 x hin

end Trim

/-! ### A node -/

/-- The two volumes of a ticker. -/
inductive Side where
  | base
  | quote
  deriving DecidableEq

/-- The amount that a fill adds to a volume. -/
def Side.amount : Side → FillOrder → ℕ
  | .base, o => o.tradePrice.base.amount
  | .quote, o => o.tradePrice.quote.amount

/-- `base_volume` or `quote_volume`. -/
def Side.volume : Side → MarketTicker → ℕ
  | .base, t => t.baseVolume
  | .quote, t => t.quoteVolume

/-- The volume of a market, which is 0 where it has no ticker. -/
def volumeOf (side : Side) (tickers : ℕ × ℕ → Option MarketTicker) (m : ℕ × ℕ) : ℕ :=
  ((tickers m).map side.volume).getD 0

/-- The plugin, with the time of the last block and all fills that there have been. -/
structure TickerNode where
  history : History := {}
  lastTime : ℕ := 0
  log : List (ℕ × FillOrder) := []

/-- A block. -/
def nodeStep (node : TickerNode) (b : FillBlock) : TickerNode where
  history := updateMarketHistories cfg node.history b
  lastTime := b.timestamp
  log := node.log ++ b.fills.map fun o => (b.timestamp, o)

/-- The sum over the maker fills of a market that are at most a day older than `T`. -/
def daySum (side : Side) (T : ℕ) (m : ℕ × ℕ) (log : List (ℕ × FillOrder)) : ℕ :=
  ((log.filter fun x => x.2.isMaker ∧ x.2.market = m ∧ T ≤ x.1 + 86400).map
    fun x => side.amount x.2).sum

/-- **Ticker volume is the last day's volume**, where it fits in 128 bits. -/
def DayVolume (node : TickerNode) : Prop :=
  ∀ side m, daySum side node.lastTime m node.log < uint128 →
    volumeOf side node.history.tickers m = daySum side node.lastTime m node.log

/-! ### When each fill is rolled out once -/

/-- The number of fills of its market that came after that of a record. -/
def newer (log : List (ℕ × FillOrder)) (r : OrderHistory) : ℕ :=
  (log.drop (r.id + 1)).countP fun x => x.2.market = r.market

/-- The fills of a block, at the time `now`, trim the record: there is one of its market, it is old, and
after them it is not among the newest records. -/
def Trimmed (log : List (ℕ × FillOrder)) (now : ℕ) (fills : List FillOrder) (r : OrderHistory) :
    Prop :=
  (∃ o ∈ fills, o.market = r.market) ∧ r.time ≤ minTime cfg now ∧
    cfg.maxRecords ≤ newer log r + fills.countP fun o => o.market = r.market

instance (log : List (ℕ × FillOrder)) (now : ℕ) (fills : List FillOrder) (r : OrderHistory) :
    Decidable (Trimmed cfg log now fills r) :=
  inferInstanceAs (Decidable (_ ∧ _ ∧ _))

/-- The block trims no maker fill that has not been rolled out, and finds none that has been rolled
out and is to be rolled out again; and a day has passed since the epoch, if there are maker
fills at all. -/
structure RollsOnce (node : TickerNode) (b : FillBlock) : Prop where
  day : 86400 ≤ b.timestamp ∨
    (∀ x ∈ node.log, x.2.isMaker = false) ∧ ∀ o ∈ b.fills, o.isMaker = false
  kept : ∀ r ∈ node.history.records, r.op.isMaker = true → node.lastTime ≤ r.time + 86400 →
    ¬ Trimmed cfg node.log b.timestamp b.fills r
  once : ∀ r ∈ node.history.records, r.op.isMaker = true → r.time + 86400 < node.lastTime →
    node.history.tickerMeta = some ⟨r.id, false⟩ → Trimmed cfg node.log b.timestamp b.fills r

/-! ### All records that have been made -/

/-- All records that have been made, in their order, against the fills that made them. -/
structure Chronicle (made : List OrderHistory) (log : List (ℕ × FillOrder)) : Prop where
  log_eq : made.map (fun r => (r.time, r.op)) = log
  ids : made.map (fun r => r.id) = List.range made.length
  market : ∀ r ∈ made, r.market = r.op.market
  times : made.Pairwise fun r r' => r.time ≤ r'.time

namespace Chronicle

variable {made : List OrderHistory} {log : List (ℕ × FillOrder)} {r r' : OrderHistory}

lemma length_eq (h : Chronicle made log) : log.length = made.length := by
  rw [← h.log_eq, List.length_map]

lemma getElem?_id (h : Chronicle made log) (hr : r ∈ made) : made[r.id]? = some r := by
  obtain ⟨n, hn, rfl⟩ := List.mem_iff_getElem.mp hr
  have hid : made[n].id = n := by
    have hget := congrArg (fun l => l[n]?) h.ids
    simpa [hn] using hget
  rw [hid, List.getElem?_eq_getElem hn]

lemma id_lt (h : Chronicle made log) (hr : r ∈ made) : r.id < made.length :=
  (List.getElem?_eq_some_iff.mp (h.getElem?_id hr)).1

/-- An id belongs to one record. -/
lemma id_inj (h : Chronicle made log) (hr : r ∈ made) (hr' : r' ∈ made) (heq : r.id = r'.id) :
    r = r' := by
  have hget := h.getElem?_id hr
  rw [heq, h.getElem?_id hr'] at hget
  exact (Option.some.inj hget).symm

lemma nodup (h : Chronicle made log) : made.Nodup := by
  refine List.Nodup.of_map (fun r => r.id) ?_
  rw [h.ids]
  exact List.nodup_range

lemma ids_lt (h : Chronicle made log) : made.Pairwise fun r r' => r.id < r'.id := by
  refine List.pairwise_map.mp ?_
  rw [h.ids]
  exact List.pairwise_lt_range

/-- A record with a smaller id is not later. -/
lemma time_le (h : Chronicle made log) (hr : r ∈ made) (hr' : r' ∈ made) (hle : r.id ≤ r'.id) :
    r.time ≤ r'.time := by
  rcases hle.lt_or_eq with hlt | heq
  · have hget := h.getElem?_id hr
    have hget' := h.getElem?_id hr'
    obtain ⟨hn, hget⟩ := List.getElem?_eq_some_iff.mp hget
    obtain ⟨hn', hget'⟩ := List.getElem?_eq_some_iff.mp hget'
    have := List.pairwise_iff_getElem.mp h.times r.id r'.id hn hn' hlt
    rwa [hget, hget'] at this
  · rw [h.id_inj hr hr' heq]

/-- An older record has more newer ones. -/
lemma newer_lt (h : Chronicle made log) (hr' : r' ∈ made) (hm : r.market = r'.market)
    (hlt : r.id < r'.id) : newer log r' < newer log r := by
  have hlog : log[r'.id]? = some (r'.time, r'.op) := by
    rw [← h.log_eq, List.getElem?_map, h.getElem?_id hr']
    rfl
  obtain ⟨hn, hget⟩ := List.getElem?_eq_some_iff.mp hlog
  have hdrop : log.drop r'.id = (r'.time, r'.op) :: log.drop (r'.id + 1) := by
    rw [List.drop_eq_getElem_cons hn, hget]
  have hsub : (log.drop r'.id).Sublist (log.drop (r.id + 1)) :=
    List.drop_sublist_drop_left log hlt
  have hle := hsub.countP_le (p := fun x => x.2.market = r'.market)
  rw [hdrop, List.countP_cons_of_pos (by simpa using (h.market r' hr').symm)] at hle
  rw [newer, newer, hm]
  exact hle

/-- One more fill. -/
lemma append (h : Chronicle made log) {now : ℕ} (hnow : ∀ r ∈ made, r.time ≤ now) (o : FillOrder)
    (sequence : ℤ) :
    Chronicle (made ++ [⟨made.length, o.market, sequence, now, o⟩]) (log ++ [(now, o)]) := by
  refine ⟨by simp [h.log_eq], by simp [h.ids, List.range_succ], fun r hr => ?_, ?_⟩
  · rcases List.mem_append.mp hr with hr | hr
    · exact h.market r hr
    · rw [List.mem_singleton.mp hr]
  · rw [List.pairwise_append]
    refine ⟨h.times, List.pairwise_singleton _ _, fun r hr r' hr' => ?_⟩
    rw [List.mem_singleton.mp hr']
    exact hnow r hr

end Chronicle

lemma newer_append {log : List (ℕ × FillOrder)} {r : OrderHistory} (hr : r.id < log.length)
    (x : ℕ × FillOrder) :
    newer (log ++ [x]) r = newer log r + if x.2.market = r.market then 1 else 0 := by
  rw [newer, List.drop_append_of_le_length hr, List.countP_append, newer, List.countP_singleton]
  simp

/-- The newest record has no newer ones. -/
lemma newer_self {log : List (ℕ × FillOrder)} {r : OrderHistory} (hr : r.id = log.length)
    (x : ℕ × FillOrder) : newer (log ++ [x]) r = 0 := by
  rw [newer, List.drop_eq_nil_of_le (by simp [hr])]
  rfl

end ZosCore.MarketHistory
