import Mathlib.Data.Nat.ModEq
import ZosCore.Plugins.TickerVolume

/-!
The ticker volumes over a run.

The records that are rolled out in a block are the maker fills whose day ends in it, provided that
none of them has been trimmed (`present`) and that the rolling record is not one of those that have
been rolled out before.

* `rollTickers_volume`: what the loop takes out of a volume.
* `daySum_rolled`: what leaves the sum over the last day.
* `Sound`: the objects against all records that have been made, with the tickers rolled to a
  time.
* `Sound.processFillOrder`, `Sound.rollOut`: the two parts of a block.
* **`day_volume`**: the run theorem, with the run in which a record is rolled out twice.
-/

namespace ZosCore.MarketHistory

variable {cfg : MarketConfig}

/-! ### Volumes -/

section Volumes

variable {side : Side} {tickers : ℕ × ℕ → Option MarketTicker} {m : ℕ × ℕ} {o : FillOrder}

lemma volumeOf_addToTicker (hlt : volumeOf side tickers m < uint128) :
    volumeOf side (Function.update tickers o.market (some (addToTicker o (tickers o.market)))) m =
      (volumeOf side tickers m + if o.market = m then side.amount o else 0) % uint128 := by
  by_cases hm : o.market = m
  · subst hm
    rw [volumeOf, Function.update_self, if_pos rfl, volumeOf]
    cases tickers o.market <;> cases side <;> simp [addToTicker, Side.volume, Side.amount]
  · rw [volumeOf, Function.update_of_ne (Ne.symm hm), if_neg hm, add_zero]
    exact (Nat.mod_eq_of_lt hlt).symm

/-- What goes out of the ticker of a market. -/
def rolled (tickers : ℕ × ℕ → Option MarketTicker) (r : OrderHistory) :
    ℕ × ℕ → Option MarketTicker :=
  Function.update tickers r.op.market ((tickers r.op.market).map (rollOutOfTicker r.op))

lemma isSome_rolled (r : OrderHistory) (m : ℕ × ℕ) :
    (rolled tickers r m).isSome = (tickers m).isSome := by
  by_cases hm : m = r.op.market
  · subst hm
    rw [rolled, Function.update_self, Option.isSome_map]
  · rw [rolled, Function.update_of_ne hm]

lemma volumeOf_rolled_lt {r : OrderHistory} (hlt : volumeOf side tickers m < uint128) :
    volumeOf side (rolled tickers r) m < uint128 := by
  by_cases hm : m = r.op.market
  · subst hm
    rw [volumeOf, rolled, Function.update_self]
    cases tickers r.op.market with
    | none => simp [uint128]
    | some t => cases side <;> exact Nat.mod_lt _ (by simp [uint128])
  · rwa [volumeOf, rolled, Function.update_of_ne hm]

/-- What is taken out of a volume would have to be added again. -/
lemma volumeOf_rolled {r : OrderHistory} (hticker : (tickers r.op.market).isSome) :
    volumeOf side (rolled tickers r) m + (if r.op.market = m then side.amount r.op else 0) ≡
      volumeOf side tickers m [MOD uint128] := by
  have hpos : 0 < uint128 := by simp [uint128]
  by_cases hm : m = r.op.market
  · subst hm
    obtain ⟨t, ht⟩ := Option.isSome_iff_exists.mp hticker
    have hback : ∀ v x : ℕ, (v + (uint128 - x % uint128)) % uint128 + x ≡ v [MOD uint128] := by
      intro v x
      have hx := Nat.mod_lt x hpos
      calc (v + (uint128 - x % uint128)) % uint128 + x
          ≡ v + (uint128 - x % uint128) + x % uint128 [MOD uint128] :=
            (Nat.mod_modEq _ _).add (Nat.mod_modEq x _).symm
        _ = v + uint128 := by omega
        _ ≡ v [MOD uint128] := Nat.add_mod_right v uint128
    rw [volumeOf, rolled, Function.update_self, volumeOf, ht, if_pos rfl]
    cases side <;> exact hback _ _
  · rw [volumeOf, rolled, Function.update_of_ne hm, if_neg (Ne.symm hm)]
    rfl

/-- The loop takes out what is of maker orders, but for the record that it leaves out. -/
lemma rollTickers_eq {rolling : ℕ} {skip : Bool} {rs : List OrderHistory}
    (hids : rs.Pairwise fun r r' => r.id < r'.id) :
    rollTickers rolling skip rs tickers =
      (rs.filter fun r => r.op.isMaker ∧ ¬ (skip = true ∧ r.id = rolling)).foldl rolled
        tickers := by
  induction rs generalizing skip tickers with
  | nil => simp [rollTickers]
  | cons r rs ih =>
      obtain ⟨hr, hids⟩ := List.pairwise_cons.mp hids
      rw [rollTickers]
      by_cases hskip : skip = true ∧ r.id = rolling
      · -- the record that is left out is the only one with its id
        rw [if_pos hskip, ih hids, List.filter_cons_of_neg (by simp [hskip])]
        congr 1
        refine List.filter_congr fun x hx => ?_
        have := hr x hx
        have hne : x.id ≠ rolling := by omega
        simp [hne]
      · have hskip' : skip = false ∨ ¬ r.id = rolling := by simpa [or_iff_not_imp_left] using hskip
        rw [if_neg hskip]
        cases hmaker : r.op.isMaker with
        | true =>
            rw [if_pos rfl, ih hids, List.filter_cons_of_pos (by simpa [hmaker] using hskip')]
            rfl
        | false =>
            rw [if_neg Bool.false_ne_true, ih hids, List.filter_cons_of_neg (by simp [hmaker])]

lemma foldl_rolled_volume {rs : List OrderHistory}
    (htickers : ∀ r ∈ rs, (tickers r.op.market).isSome) :
    volumeOf side (rs.foldl rolled tickers) m +
        ((rs.filter fun r => r.op.market = m).map fun r => side.amount r.op).sum ≡
      volumeOf side tickers m [MOD uint128] := by
  induction rs generalizing tickers with
  | nil => rfl
  | cons r rs ih =>
      obtain ⟨hr, hrs⟩ := List.forall_mem_cons.mp htickers
      have hrest := ih (fun x hx => (isSome_rolled r x.op.market).trans (hrs x hx))
      have hfirst : volumeOf side (rolled tickers r) m + _ ≡ _ [MOD uint128] := volumeOf_rolled hr
      have hsum : (((r :: rs).filter fun r => r.op.market = m).map fun r => side.amount r.op).sum =
          ((rs.filter fun r => r.op.market = m).map fun r => side.amount r.op).sum +
            if r.op.market = m then side.amount r.op else 0 := by
        by_cases hm : r.op.market = m
        · rw [List.filter_cons_of_pos (by simpa using hm), if_pos hm, List.map_cons, List.sum_cons,
            add_comm]
        · rw [List.filter_cons_of_neg (by simpa using hm), if_neg hm, add_zero]
      rw [List.foldl_cons, hsum, ← add_assoc]
      exact (hrest.add_right _).trans hfirst

lemma foldl_rolled_lt {rs : List OrderHistory} (hlt : volumeOf side tickers m < uint128) :
    volumeOf side (rs.foldl rolled tickers) m < uint128 := by
  induction rs generalizing tickers with
  | nil => exact hlt
  | cons r rs ih => exact ih (volumeOf_rolled_lt hlt)

lemma isSome_foldl_rolled (rs : List OrderHistory) (m : ℕ × ℕ) :
    (rs.foldl rolled tickers m).isSome = (tickers m).isSome := by
  induction rs generalizing tickers with
  | nil => rfl
  | cons r rs ih => exact ih.trans (isSome_rolled r m)

end Volumes

/-! ### Sums -/

section Sums

variable {side : Side} {m : ℕ × ℕ} {L T : ℕ} {log : List (ℕ × FillOrder)}

/-- A fill comes into the sum if it is of a maker. -/
lemma daySum_append (hT : L ≤ T + 86400) (o : FillOrder) :
    daySum side L m (log ++ [(T, o)]) =
      daySum side L m log + if o.isMaker then (if o.market = m then side.amount o else 0) else 0 := by
  rw [daySum, List.filter_append, List.map_append, List.sum_append, daySum]
  congr 1
  by_cases hmaker : o.isMaker = true <;> by_cases hm : o.market = m <;> simp [hmaker, hm, hT]

/-- The fills whose day ends between two times leave the sum. -/
lemma daySum_rolled (hle : L ≤ T) {made : List OrderHistory} (hmade : Chronicle made log) :
    daySum side L m log = daySum side T m log +
      ((made.filter fun r => r.op.isMaker ∧ r.op.market = m ∧ L ≤ r.time + 86400 ∧
        r.time + 86400 < T).map fun r => side.amount r.op).sum := by
  rw [← hmade.log_eq]
  clear hmade
  induction made with
  | nil => rfl
  | cons r made ih =>
      simp only [daySum, List.map_cons] at ih ⊢
      by_cases hmaker : r.op.isMaker = true ∧ r.op.market = m
      · by_cases hL : L ≤ r.time + 86400
        · by_cases hT : T ≤ r.time + 86400
          · have hT' : ¬ r.time + 86400 < T := by omega
            simp only [List.filter_cons, hmaker, hL, hT, hT', true_and, decide_true, if_true,
              decide_false, List.map_cons, List.sum_cons, ih, and_false]
            simp only [Bool.false_eq_true, if_false]
            omega
          · have hT' : r.time + 86400 < T := by omega
            simp only [List.filter_cons, hmaker, hL, hT, hT', true_and, decide_true, if_true,
              decide_false, List.map_cons, List.sum_cons, ih, and_false]
            simp only [Bool.false_eq_true, if_false]
            omega
        · have hT : ¬ T ≤ r.time + 86400 := by omega
          simpa [List.filter_cons, hL, hT] using ih
      · have hnot : ∀ p : Prop, ¬ (r.op.isMaker = true ∧ r.op.market = m ∧ p) :=
          fun p h => hmaker ⟨h.1, h.2.1⟩
        simpa [List.filter_cons, hnot] using ih

end Sums

/-! ### The objects after some fills -/

/-- The record that a fill makes. -/
def newRecord (now : ℕ) (s : History) (o : FillOrder) : OrderHistory where
  id := s.nextId
  market := o.market
  sequence := nextSequence s.records o.market
  time := now
  op := o

/-- The objects against all records that have been made, up to the time `now`; the fills that are more
than a day older than `L` have been rolled out of the tickers. -/
structure Sound (L now : ℕ) (made : List OrderHistory) (log : List (ℕ × FillOrder)) (s : History) :
    Prop where
  chronicle : Chronicle made log
  upTo : ∀ r ∈ made, r.time ≤ now
  nextId : s.nextId = made.length
  sublist : s.records.Sublist made
  numbers : ∃ first : ℕ × ℕ → ℤ, ∀ r ∈ s.records, r.sequence = first r.market + newer log r
  newest : ∀ r ∈ s.records, ∃ r' ∈ s.records, r'.market = r.market ∧ newer log r' = 0
  present : ∀ r ∈ made, r.op.isMaker = true → L ≤ r.time + 86400 → r ∈ s.records
  tickers : ∀ r ∈ made, r.op.isMaker = true → (s.tickers r.op.market).isSome
  volumes : ∀ side m, volumeOf side s.tickers m = daySum side L m log % uint128
  meta_lt : ∀ q, s.tickerMeta = some q → q.rollingMinOrderHisId < made.length
  meta_none : s.tickerMeta = none → made = []
  behind : ∀ q, s.tickerMeta = some q → ∀ r ∈ s.records, r.op.isMaker = true →
    r.id < q.rollingMinOrderHisId ∨ r.id = q.rollingMinOrderHisId ∧ q.skipMinOrderHisId = true →
    r.time + 86400 < L
  ahead : ∀ q, s.tickerMeta = some q → ∀ r ∈ s.records, r.op.isMaker = true →
    q.rollingMinOrderHisId < r.id → L ≤ r.time + 86400

lemma minTime_lt {T : ℕ} (hsec : 86400 ≤ cfg.maxSeconds) (hT : 86400 ≤ T) : minTime cfg T < T := by
  rw [minTime]
  split_ifs <;> omega

namespace Sound

variable {L now : ℕ} {made : List OrderHistory} {log : List (ℕ × FillOrder)} {s : History}
  {r r' : OrderHistory}

lemma mem_made (h : Sound L now made log s) (hr : r ∈ s.records) : r ∈ made :=
  h.sublist.subset hr

lemma id_lt (h : Sound L now made log s) (hr : r ∈ s.records) : r.id < log.length := by
  rw [h.chronicle.length_eq]
  exact h.chronicle.id_lt (h.mem_made hr)

/-- The sequence number after that of the next record. -/
lemma nextSequence_eq (h : Sound L now made log s) {first : ℕ × ℕ → ℤ}
    (hfirst : ∀ r ∈ s.records, r.sequence = first r.market + newer log r) (hr : r ∈ s.records) :
    nextSequence s.records r.market + 1 = first r.market := by
  obtain ⟨x, hx, hxm, hnext, hmin⟩ := nextSequence_spec hr rfl
  obtain ⟨y, hy, hym, hzero⟩ := h.newest r hr
  have hle := hmin y hy hym
  have hxs := hfirst x hx
  have hys := hfirst y hy
  rw [hxm] at hxs
  rw [hym, hzero] at hys
  omega

/-! ### A fill -/

variable {T : ℕ} {o : FillOrder}

/-- The sequence numbers of a market before and after a fill: larger ones belong to older
records. -/
lemma time_le_of_sequence (h : Sound L now made log s) (hT : now ≤ T) :
    ∀ r ∈ s.records ++ [newRecord T s o], ∀ r' ∈ s.records ++ [newRecord T s o],
      r.market = o.market → r'.market = o.market → r.sequence ≤ r'.sequence →
      r'.time ≤ r.time := by
  obtain ⟨first, hfirst⟩ := h.numbers
  have hlow : ∀ r ∈ s.records, r.market = o.market → (newRecord T s o).sequence < r.sequence := by
    intro r hr hm
    have hnext := h.nextSequence_eq hfirst hr
    have hseq := hfirst r hr
    rw [hm] at hnext hseq
    have hnew : (newRecord T s o).sequence = nextSequence s.records o.market := rfl
    omega
  have hup : ∀ r ∈ s.records, r.time ≤ T := fun r hr => (h.upTo r (h.mem_made hr)).trans hT
  intro r hr r' hr' hm hm' hle
  rcases List.mem_append.mp hr with hr | hr <;> rcases List.mem_append.mp hr' with hr' | hr'
  · by_contra hlt
    have hid : r.id < r'.id := by
      by_contra hge
      exact hlt (h.chronicle.time_le (h.mem_made hr') (h.mem_made hr) (by omega))
    have hnewer := h.chronicle.newer_lt (h.mem_made hr') (hm.trans hm'.symm) hid
    have hseq := hfirst r hr
    have hseq' := hfirst r' hr'
    rw [hm] at hseq
    rw [hm'] at hseq'
    omega
  · rw [List.mem_singleton.mp hr'] at hle
    have := hlow r hr hm
    omega
  · rw [List.mem_singleton.mp hr]
    exact hup r' hr'
  · rw [List.mem_singleton.mp hr, List.mem_singleton.mp hr']

/-- **A record and a fill.** -/
lemma mem_records_iff (h : Sound L now made log s) (hT : now ≤ T) (hr : r ∈ made) :
    r ∈ (processFillOrder cfg T s o).records ↔
      r ∈ s.records ∧ ¬ Trimmed cfg log T [o] r := by
  have hrecords : (processFillOrder cfg T s o).records =
      trim cfg T o.market (newRecord T s o).sequence (s.records ++ [newRecord T s o]) := rfl
  have hne : r ≠ newRecord T s o := by
    rintro rfl
    have hid : (newRecord T s o).id = s.nextId := rfl
    have := h.chronicle.id_lt hr
    have := h.nextId
    omega
  rw [hrecords, trim_eq cfg (h.time_le_of_sequence hT), List.mem_filter, List.mem_append,
    List.mem_singleton, or_iff_left hne]
  refine and_congr_right fun hr => ?_
  obtain ⟨first, hfirst⟩ := h.numbers
  rw [decide_eq_true_eq, not_iff_not, Trimmed]
  constructor
  · rintro ⟨hm, hle, htime⟩
    refine ⟨⟨o, List.mem_singleton_self o, hm.symm⟩, htime, ?_⟩
    have hnext := h.nextSequence_eq hfirst hr
    have hseq := hfirst r hr
    have hnew : (newRecord T s o).sequence = nextSequence s.records r.market := by rw [hm]; rfl
    rw [List.countP_singleton, if_pos (by simpa using hm.symm)]
    omega
  · rintro ⟨⟨x, hx, hm⟩, htime, hcount⟩
    rw [List.mem_singleton.mp hx] at hm
    refine ⟨hm.symm, ?_, htime⟩
    have hnext := h.nextSequence_eq hfirst hr
    have hseq := hfirst r hr
    have hnew : (newRecord T s o).sequence = nextSequence s.records r.market := by rw [← hm]; rfl
    rw [List.countP_singleton, if_pos (by simpa using hm)] at hcount
    omega

/-- The record of a fill stays if any other of its market does. -/
lemma newRecord_mem (h : Sound L now made log s) (hT : now ≤ T)
    (hstay : (minTime cfg T < T) ∨
      ∃ r ∈ made, r.market = o.market ∧ r ∈ (processFillOrder cfg T s o).records) :
    newRecord T s o ∈ (processFillOrder cfg T s o).records := by
  have hrecords : (processFillOrder cfg T s o).records =
      trim cfg T o.market (newRecord T s o).sequence (s.records ++ [newRecord T s o]) := rfl
  rw [hrecords, trim_eq cfg (h.time_le_of_sequence hT), List.mem_filter]
  refine ⟨by simp, ?_⟩
  rw [decide_eq_true_eq]
  rintro ⟨-, hzero, htime⟩
  have htime : T ≤ minTime cfg T := htime
  rcases hstay with hlt | ⟨r, hr, hm, hmem⟩
  · omega
  · -- then all of the market would be trimmed
    obtain ⟨-, hnot⟩ := (h.mem_records_iff hT hr).mp hmem
    refine hnot ⟨⟨o, List.mem_singleton_self o, hm.symm⟩, ?_, ?_⟩
    · exact ((h.upTo r hr).trans hT).trans htime
    · omega

/-- A record of before or the new one. -/
lemma mem_cases (hr : r ∈ made ++ [newRecord T s o]) : r ∈ made ∨ r = newRecord T s o :=
  (List.mem_append.mp hr).imp_right List.mem_singleton.mp

/-- What the tickers of a fill have in common with those of before. -/
lemma isSome_processFillOrder {m : ℕ × ℕ} (hm : (s.tickers m).isSome) :
    ((processFillOrder cfg T s o).tickers m).isSome := by
  simp only [processFillOrder]
  split_ifs
  · by_cases heq : m = o.market
    · rw [heq, Function.update_self]
      rfl
    · rwa [Function.update_of_ne heq]
  · exact hm

/-- The records that a fill leaves were there before, or are its own. -/
lemma mem_records_or (h : Sound L now made log s) (hT : now ≤ T)
    (hr : r ∈ (processFillOrder cfg T s o).records) : r ∈ s.records ∨ r = newRecord T s o := by
  have hrecords : (processFillOrder cfg T s o).records =
      trim cfg T o.market (newRecord T s o).sequence (s.records ++ [newRecord T s o]) := rfl
  rw [hrecords, trim_eq cfg (h.time_le_of_sequence hT)] at hr
  exact (List.mem_append.mp (List.mem_filter.mp hr).1).imp_right List.mem_singleton.mp

lemma newer_of_mem (h : Sound L now made log s) (hr : r ∈ made) :
    newer (log ++ [(T, o)]) r = newer log r + if o.market = r.market then 1 else 0 := by
  refine newer_append ?_ _
  rw [h.chronicle.length_eq]
  exact h.chronicle.id_lt hr

lemma newer_newRecord (h : Sound L now made log s) :
    newer (log ++ [(T, o)]) (newRecord T s o) = 0 :=
  newer_self (h.nextId.trans h.chronicle.length_eq.symm) _

/-- The sequence numbers of the market begin with that of the new record. -/
lemma numbers_processFillOrder (h : Sound L now made log s) (hT : now ≤ T) :
    ∃ first : ℕ × ℕ → ℤ, ∀ r ∈ (processFillOrder cfg T s o).records,
      r.sequence = first r.market + newer (log ++ [(T, o)]) r := by
  obtain ⟨first, hfirst⟩ := h.numbers
  refine ⟨Function.update first o.market (newRecord T s o).sequence, fun r hr => ?_⟩
  rcases h.mem_records_or hT hr with hr | rfl
  · rw [h.newer_of_mem (h.mem_made hr), hfirst r hr]
    by_cases hm : r.market = o.market
    · have hnext := h.nextSequence_eq hfirst hr
      rw [hm] at hnext
      rw [if_pos hm.symm, hm, Function.update_self]
      simp only [newRecord]
      omega
    · rw [if_neg (Ne.symm hm), Function.update_of_ne hm]
      simp
  · have hm : (newRecord T s o).market = o.market := rfl
    rw [h.newer_newRecord, hm, Function.update_self]
    simp

/-- The newest record of the market is the new one, that of another market is not trimmed. -/
lemma newest_processFillOrder (h : Sound L now made log s) (hT : now ≤ T) :
    ∀ r ∈ (processFillOrder cfg T s o).records, ∃ r' ∈ (processFillOrder cfg T s o).records,
      r'.market = r.market ∧ newer (log ++ [(T, o)]) r' = 0 := by
  intro r hr
  rcases h.mem_records_or hT hr with hr' | rfl
  · by_cases hm : r.market = o.market
    · exact ⟨newRecord T s o, h.newRecord_mem hT (.inr ⟨r, h.mem_made hr', hm, hr⟩), hm.symm,
        h.newer_newRecord⟩
    · obtain ⟨x, hx, hxm, hzero⟩ := h.newest r hr'
      have hne : ¬ o.market = x.market := fun heq => hm (hxm.symm.trans heq.symm)
      refine ⟨x, (h.mem_records_iff hT (h.mem_made hx)).mpr ⟨hx, ?_⟩, hxm, ?_⟩
      · rintro ⟨⟨y, hy, hym⟩, -, -⟩
        rw [List.mem_singleton.mp hy] at hym
        exact hne hym
      · rw [h.newer_of_mem (h.mem_made hx), hzero, if_neg hne]
  · exact ⟨newRecord T s o, hr, rfl, h.newer_newRecord⟩

/-- The volumes grow with the sums. -/
lemma volumes_processFillOrder (h : Sound L now made log s) (hL : L ≤ T) (side : Side)
    (m : ℕ × ℕ) : volumeOf side (processFillOrder cfg T s o).tickers m =
      daySum side L m (log ++ [(T, o)]) % uint128 := by
  have hpos : 0 < uint128 := by simp [uint128]
  rw [daySum_append (by omega)]
  have hbefore := h.volumes side m
  cases hmk : o.isMaker with
  | false => simpa [processFillOrder, hmk] using hbefore
  | true =>
      have htickers : (processFillOrder cfg T s o).tickers =
          Function.update s.tickers o.market (some (addToTicker o (s.tickers o.market))) := by
        simp [processFillOrder, hmk]
      have hlt : volumeOf side s.tickers m < uint128 := by
        rw [hbefore]
        exact Nat.mod_lt _ hpos
      rw [htickers, volumeOf_addToTicker hlt, hbefore, if_pos rfl, Nat.mod_add_mod]

/-- The rolling record stays; the first record of all becomes the first rolling one. -/
lemma tickerMeta_processFillOrder (h : Sound L now made log s) {q : MarketTickerMeta}
    (hq : (processFillOrder cfg T s o).tickerMeta = some q) :
    s.tickerMeta = some q ∨ made = [] ∧ q = ⟨0, false⟩ := by
  have hq : s.tickerMeta.getD ⟨s.nextId, false⟩ = q := Option.some.inj hq
  cases hmeta : s.tickerMeta with
  | none =>
      have hnil := h.meta_none hmeta
      rw [hmeta, Option.getD_none, h.nextId, hnil] at hq
      exact .inr ⟨hnil, hq.symm⟩
  | some q' =>
      rw [hmeta, Option.getD_some] at hq
      exact .inl (congrArg some hq)

/-- **A fill.** No maker fill that is still in the volumes may be trimmed. -/
theorem processFillOrder (h : Sound L now made log s) (hsec : 86400 ≤ cfg.maxSeconds)
    (hT : now ≤ T) (hL : L ≤ T) (hday : o.isMaker = true → 86400 ≤ T)
    (hkept : ∀ r ∈ s.records, r.op.isMaker = true → L ≤ r.time + 86400 →
      ¬ Trimmed cfg log T [o] r) :
    Sound L T (made ++ [newRecord T s o]) (log ++ [(T, o)]) (processFillOrder cfg T s o) := by
  have hup : ∀ r ∈ made, r.time ≤ T := fun r hr => (h.upTo r hr).trans hT
  refine ⟨?_, ?_, ?_, ?_, h.numbers_processFillOrder hT, h.newest_processFillOrder hT, ?_, ?_,
    h.volumes_processFillOrder hL, ?_, ?_, ?_, ?_⟩
  · -- chronicle
    have hnew : newRecord T s o =
        ⟨made.length, o.market, nextSequence s.records o.market, T, o⟩ := by
      rw [newRecord, h.nextId]
    rw [hnew]
    exact h.chronicle.append hup o _
  · -- upTo
    intro r hr
    rcases mem_cases hr with hr | rfl
    · exact hup r hr
    · exact le_rfl
  · -- nextId
    simp [MarketHistory.processFillOrder, h.nextId]
  · -- sublist
    have hrecords : (MarketHistory.processFillOrder cfg T s o).records =
        trim cfg T o.market (newRecord T s o).sequence (s.records ++ [newRecord T s o]) := rfl
    rw [hrecords, trim_eq cfg (h.time_le_of_sequence hT)]
    exact List.filter_sublist.trans (h.sublist.append_right _)
  · -- present
    intro r hr hmk hLr
    rcases mem_cases hr with hr | rfl
    · have hin := h.present r hr hmk hLr
      exact (h.mem_records_iff hT hr).mpr ⟨hin, hkept r hin hmk hLr⟩
    · exact h.newRecord_mem hT (.inl (minTime_lt hsec (hday hmk)))
  · -- tickers
    intro r hr hmk
    rcases mem_cases hr with hr | rfl
    · exact isSome_processFillOrder (h.tickers r hr hmk)
    · have hmk : o.isMaker = true := hmk
      simp [MarketHistory.processFillOrder, newRecord, hmk]
  · -- meta_lt
    intro q hq
    rw [List.length_append, List.length_singleton]
    rcases h.tickerMeta_processFillOrder hq with hq | ⟨-, rfl⟩
    · have := h.meta_lt q hq
      omega
    · exact Nat.succ_pos _
  · -- meta_none
    intro hq
    simp [MarketHistory.processFillOrder] at hq
  · -- behind
    intro q hq r hr hmk hcase
    rcases h.tickerMeta_processFillOrder hq with hq | ⟨-, rfl⟩
    · rcases h.mem_records_or hT hr with hr | rfl
      · exact h.behind q hq r hr hmk hcase
      · have hlt := h.meta_lt q hq
        have hid : (newRecord T s o).id = made.length := h.nextId
        omega
    · simp at hcase
  · -- ahead
    intro q hq r hr hmk hcase
    rcases h.mem_records_or hT hr with hr | rfl
    · rcases h.tickerMeta_processFillOrder hq with hq | ⟨hnil, -⟩
      · exact h.ahead q hq r hr hmk hcase
      · have hin := h.mem_made hr
        simp [hnil] at hin
    · exact hL.trans (Nat.le_add_right T 86400)

/-! ### The roll-out -/

/-- The records from the rolling one on, in the order of their ids. -/
lemma pairwise_id (h : Sound L now made log s) : s.records.Pairwise fun r r' => r.id < r'.id :=
  h.chronicle.ids_lt.sublist h.sublist

/-- What has expired is a beginning of the records from any id on. -/
lemma pairwise_expired (h : Sound L now made log s) (D rolling : ℕ) :
    (s.records.filter fun r => rolling ≤ r.id).Pairwise fun r r' =>
      decide (r'.time < D) = true → decide (r.time < D) = true := by
  have htimes : (s.records.filter fun r => rolling ≤ r.id).Pairwise fun r r' => r.time ≤ r'.time :=
    h.chronicle.times.sublist (List.filter_sublist.trans h.sublist)
  refine htimes.imp fun {r r'} hle hlt => ?_
  simp only [decide_eq_true_eq] at hlt ⊢
  omega

/-- The next rolling record: what comes before it has been rolled out before or has expired, and what
comes after it has not expired. -/
lemma rollOut_meta (h : Sound L now made log s) {q q' : MarketTickerMeta}
    (hq : s.tickerMeta = some q) (hq' : (rollOut T s).tickerMeta = some q') :
    q'.rollingMinOrderHisId < made.length ∧ ∀ r ∈ s.records,
      (r.id < q'.rollingMinOrderHisId ∨
          r.id = q'.rollingMinOrderHisId ∧ q'.skipMinOrderHisId = true →
        (r.id < q.rollingMinOrderHisId ∨
          r.id = q.rollingMinOrderHisId ∧ q.skipMinOrderHisId = true) ∨ r.time < lastDay T) ∧
      (q'.rollingMinOrderHisId < r.id → ¬ r.time < lastDay T) := by
  have hhistory := h.pairwise_expired (lastDay T) q.rollingMinOrderHisId
  have hids : (s.records.filter fun r => q.rollingMinOrderHisId ≤ r.id).Pairwise
      fun r r' => r.id < r'.id := h.pairwise_id.sublist List.filter_sublist
  have hmem : ∀ {r}, r ∈ (s.records.filter fun r => q.rollingMinOrderHisId ≤ r.id) ↔
      r ∈ s.records ∧ q.rollingMinOrderHisId ≤ r.id := fun {r} => by simp
  simp only [rollOut, hq, SortedLists.takeWhile_eq_filter hhistory,
    SortedLists.dropWhile_eq_filter hhistory, Option.some.injEq] at hq'
  generalize (s.records.filter fun r => q.rollingMinOrderHisId ≤ r.id) = history
    at hids hmem hq'
  have hold : q' = q → q'.rollingMinOrderHisId < made.length := by
    rintro rfl
    exact h.meta_lt _ hq
  cases hrest : history.filter (fun r => !decide (r.time < lastDay T)) with
  | cons x rest =>
      -- `x` is the first record that has not expired
      have hx : x ∈ history ∧ ¬ x.time < lastDay T := by
        have hin : x ∈ history.filter (fun r => !decide (r.time < lastDay T)) := by simp [hrest]
        simpa using hin
      have hfirst : ∀ r ∈ history, ¬ r.time < lastDay T → x.id ≤ r.id := by
        intro r hr htime
        have hin : r ∈ x :: rest := hrest ▸ List.mem_filter.mpr ⟨hr, by simpa using htime⟩
        have hsorted : (x :: rest).Pairwise fun r r' => r.id < r'.id :=
          hrest ▸ hids.sublist List.filter_sublist
        rcases List.mem_cons.mp hin with rfl | hin
        · exact le_rfl
        · exact ((List.pairwise_cons.mp hsorted).1 r hin).le
      have hxmade := h.mem_made (hmem.mp hx.1).1
      have hlate : ∀ r ∈ s.records, x.id < r.id → ¬ r.time < lastDay T := by
        intro r hr hlt
        have := h.chronicle.time_le hxmade (h.mem_made hr) hlt.le
        omega
      rw [hrest] at hq'
      simp only at hq'
      split_ifs at hq' with hne
      · -- the rolling record has been rolled out
        subst hq'
        refine ⟨h.chronicle.id_lt hxmade, fun r hr => ⟨fun hcase => ?_, hlate r hr⟩⟩
        simp only [Bool.false_eq_true, and_false, or_false] at hcase
        by_contra hnot
        push Not at hnot
        have := hfirst r (hmem.mpr ⟨hr, by omega⟩) (by omega)
        omega
      · -- it stays
        subst hq'
        exact ⟨hold rfl, fun r hr => ⟨.inl, fun hlt => hlate r hr (by omega)⟩⟩
  | nil =>
      have hall : ∀ r ∈ history, r.time < lastDay T := by
        intro r hr
        have := List.filter_eq_nil_iff.mp hrest r hr
        simpa using this
      have hexpired : history.filter (fun r => decide (r.time < lastDay T)) = history :=
        List.filter_eq_self.mpr fun r hr => by simpa using hall r hr
      rw [hrest, hexpired] at hq'
      simp only at hq'
      -- the last record of all, if there is one
      have hlast : ∀ r ∈ history,
          r.id ≤ (history.getLast?.map fun r => r.id).getD q.rollingMinOrderHisId := by
        intro r hr
        have hne : history ≠ [] := List.ne_nil_of_mem hr
        have hsorted : history.Pairwise fun r r' => r.id ≤ r'.id := hids.imp fun h => h.le
        rw [List.getLast?_eq_some_getLast hne, Option.map_some, Option.getD_some]
        exact hsorted.rel_getLast_of_rel_getLast_getLast hr le_rfl
      split_ifs at hq' with hne
      · -- all have been rolled out, up to the last one
        cases hget : history.getLast? with
        | none => simp [hget] at hne
        | some y =>
            rw [hget] at hq' hlast
            simp only [Option.map_some, Option.getD_some] at hq' hlast
            have hy := hmem.mp (List.mem_of_getLast? hget)
            subst hq'
            refine ⟨h.chronicle.id_lt (h.mem_made hy.1), fun r hr => ⟨fun hcase => ?_, fun hlt => ?_⟩⟩
            · by_contra hnot
              push Not at hnot
              have := hall r (hmem.mpr ⟨hr, by omega⟩)
              omega
            · have hlt : y.id < r.id := hlt
              have := hlast r (hmem.mpr ⟨hr, hy.2.trans hlt.le⟩)
              omega
      · subst hq'
        refine ⟨hold rfl, fun r hr => ⟨.inl, fun hlt => ?_⟩⟩
        have := hlast r (hmem.mpr ⟨hr, hlt.le⟩)
        omega

lemma lt_lastDay_iff (hT : 86400 ≤ T) (hlt : T < 2 ^ 32) (t : ℕ) :
    t < lastDay T ↔ t + 86400 < T := by
  rw [lastDay]
  omega

/-- **What is rolled out**: the maker fills of the market whose day ends in the block. -/
lemma rolled_eq (h : Sound L now made log s) {q : MarketTickerMeta} (hq : s.tickerMeta = some q)
    (hday : 86400 ≤ T ∨ ∀ r ∈ made, r.op.isMaker = false) (hlt : T < 2 ^ 32)
    (honce : ∀ r ∈ s.records, r.op.isMaker = true → r.time + 86400 < L →
      s.tickerMeta ≠ some ⟨r.id, false⟩) (m : ℕ × ℕ) :
    ((((s.records.filter fun r => q.rollingMinOrderHisId ≤ r.id).takeWhile
        fun r => r.time < lastDay T).filter fun r => r.op.isMaker ∧
          ¬ (q.skipMinOrderHisId = true ∧ r.id = q.rollingMinOrderHisId)).filter
        fun r => r.op.market = m) =
      made.filter fun r => r.op.isMaker ∧ r.op.market = m ∧ L ≤ r.time + 86400 ∧
        r.time + 86400 < T := by
  rw [SortedLists.takeWhile_eq_filter (h.pairwise_expired _ _)]
  simp only [List.filter_filter]
  refine Eq.trans (List.filter_congr fun r hr => ?_)
    (SortedLists.filter_eq_of_sublist h.sublist h.chronicle.nodup fun r hr hp => ?_)
  · cases hmk : r.op.isMaker with
    | false => simp
    | true =>
        have hT : 86400 ≤ T := hday.resolve_right fun hnone => by
          rw [hnone r (h.mem_made hr)] at hmk
          cases hmk
        have hbehind := h.behind q hq r hr hmk
        have hahead := h.ahead q hq r hr hmk
        rw [Bool.eq_iff_iff]
        simp only [Bool.and_eq_true, decide_eq_true_eq, lt_lastDay_iff hT hlt, true_and]
        constructor
        · rintro ⟨hm, hskip, htime, hle⟩
          refine ⟨hm, ?_, htime⟩
          rcases hle.lt_or_eq with hlt | heq
          · exact hahead hlt
          · -- the rolling record has not been rolled out
            by_contra hlate
            refine honce r hr hmk (by omega) ?_
            have hfalse : q.skipMinOrderHisId = false := by
              simpa [heq] using hskip
            rw [hq, ← heq, ← hfalse]
        · rintro ⟨hm, hL, htime⟩
          refine ⟨hm, fun hskip => ?_, htime, ?_⟩
          · have := hbehind (.inr ⟨hskip.2, hskip.1⟩)
            omega
          · by_contra hle
            have := hbehind (.inl (by omega))
            omega
  · have hp := decide_eq_true_eq.mp hp
    exact h.present r hr hp.1 hp.2.2.1

/-- **The roll-out.** Beforehand the rolling record may not be one that has been rolled out
already. -/
theorem rollOut (h : Sound L T made log s) (hL : L ≤ T)
    (hday : 86400 ≤ T ∨ ∀ r ∈ made, r.op.isMaker = false) (hlt : T < 2 ^ 32)
    (honce : ∀ r ∈ s.records, r.op.isMaker = true → r.time + 86400 < L →
      s.tickerMeta ≠ some ⟨r.id, false⟩) :
    Sound T T made log (MarketHistory.rollOut T s) := by
  cases hq : s.tickerMeta with
  | none =>
      have hnil := h.meta_none hq
      have hsame : MarketHistory.rollOut T s = s := by simp [MarketHistory.rollOut, hq]
      have hlog : log = [] := by
        rw [← h.chronicle.log_eq, hnil]
        rfl
      rw [hsame]
      refine { h with present := ?_, volumes := ?_, behind := ?_, ahead := ?_ }
      · intro r hr
        simp [hnil] at hr
      · intro side m
        have hbefore := h.volumes side m
        rwa [hlog] at hbefore ⊢
      · intro q hq'
        simp [hq] at hq'
      · intro q hq'
        simp [hq] at hq'
  | some q =>
      have hrecords : (MarketHistory.rollOut T s).records = s.records := by
        simp [MarketHistory.rollOut, hq]
      have hnext : (MarketHistory.rollOut T s).nextId = s.nextId := by
        simp [MarketHistory.rollOut, hq]
      have hids : ((s.records.filter fun r => q.rollingMinOrderHisId ≤ r.id).takeWhile
          fun r => r.time < lastDay T).Pairwise fun r r' => r.id < r'.id :=
        h.pairwise_id.sublist ((List.takeWhile_sublist _).trans List.filter_sublist)
      have htickers : (MarketHistory.rollOut T s).tickers = _ :=
        calc (MarketHistory.rollOut T s).tickers
            = rollTickers q.rollingMinOrderHisId q.skipMinOrderHisId
                ((s.records.filter fun r => q.rollingMinOrderHisId ≤ r.id).takeWhile
                  fun r => r.time < lastDay T) s.tickers := by simp [MarketHistory.rollOut, hq]
          _ = _ := rollTickers_eq hids
      have hmeta : ∀ q', (MarketHistory.rollOut T s).tickerMeta = some q' → _ :=
        fun q' hq' => h.rollOut_meta hq hq'
      have hmaker : ∀ r ∈ s.records, r.op.isMaker = true →
          (r.time < lastDay T ↔ r.time + 86400 < T) := by
        intro r hr hmk
        have hT : 86400 ≤ T := hday.resolve_right fun hnone => by
          rw [hnone r (h.mem_made hr)] at hmk
          cases hmk
        exact lt_lastDay_iff hT hlt r.time
      refine ⟨h.chronicle, h.upTo, hnext.trans h.nextId, ?_, ?_, ?_, ?_, ?_, ?_, ?_, ?_, ?_, ?_⟩
      · rw [hrecords]
        exact h.sublist
      · rw [hrecords]
        exact h.numbers
      · rw [hrecords]
        exact h.newest
      · intro r hr hmk hle
        rw [hrecords]
        exact h.present r hr hmk (hL.trans hle)
      · intro r hr hmk
        rw [htickers, isSome_foldl_rolled]
        exact h.tickers r hr hmk
      · -- the volumes lose what the sums lose
        intro side m
        have hpos : 0 < uint128 := by simp [uint128]
        have hbefore := h.volumes side m
        have hlt' : volumeOf side s.tickers m < uint128 := by
          rw [hbefore]
          exact Nat.mod_lt _ hpos
        rw [htickers, ← Nat.mod_eq_of_lt (foldl_rolled_lt hlt')]
        set out := ((made.filter fun r => r.op.isMaker ∧ r.op.market = m ∧ L ≤ r.time + 86400 ∧
          r.time + 86400 < T).map fun r => side.amount r.op).sum with hout
        have hsum : daySum side L m log = daySum side T m log + out := daySum_rolled hL h.chronicle
        refine Nat.ModEq.add_right_cancel' out ?_
        calc _ ≡ volumeOf side s.tickers m [MOD uint128] := by
              rw [hout, ← h.rolled_eq hq hday hlt honce m]
              refine foldl_rolled_volume fun r hr => ?_
              have hr := List.mem_filter.mp hr
              have hin := (List.takeWhile_sublist _).subset hr.1
              exact h.tickers r (h.mem_made (List.mem_filter.mp hin).1)
                (decide_eq_true_eq.mp hr.2).1
          _ ≡ daySum side L m log [MOD uint128] := by
              rw [hbefore]
              exact Nat.mod_modEq _ _
          _ = daySum side T m log + out := hsum
      · intro q' hq'
        exact (hmeta q' hq').1
      · intro hnone
        simp [MarketHistory.rollOut, hq] at hnone
      · intro q' hq' r hr hmk hcase
        rw [hrecords] at hr
        rcases ((hmeta q' hq').2 r hr).1 hcase with hcase | htime
        · exact (h.behind q hq r hr hmk hcase).trans_le hL
        · exact (hmaker r hr hmk).mp htime
      · intro q' hq' r hr hmk hcase
        rw [hrecords] at hr
        have htime := ((hmeta q' hq').2 r hr).2 hcase
        rw [hmaker r hr hmk] at htime
        omega

end Sound

/-! ### A block -/

/-- One more fill in front. -/
lemma trimmed_cons {log : List (ℕ × FillOrder)} {T : ℕ} {o : FillOrder} {fills : List FillOrder}
    {r : OrderHistory} (hr : r.id < log.length) :
    Trimmed cfg log T (o :: fills) r ↔
      Trimmed cfg log T [o] r ∨ Trimmed cfg (log ++ [(T, o)]) T fills r := by
  simp only [Trimmed, newer_append hr, List.countP_cons, List.countP_nil, List.mem_cons,
    decide_eq_true_eq, List.not_mem_nil, or_false, exists_eq_left]
  by_cases hm : o.market = r.market
  · simp only [hm, if_true]
    constructor
    · rintro ⟨-, htime, hcount⟩
      by_cases hex : ∃ x ∈ fills, x.market = r.market
      · exact .inr ⟨hex, htime, by omega⟩
      · have hnone : fills.countP (fun x => decide (x.market = r.market)) = 0 := by
          rw [List.countP_eq_zero]
          intro x hx heq
          exact hex ⟨x, hx, by simpa using heq⟩
        exact .inl ⟨trivial, htime, by omega⟩
    · rintro (⟨-, htime, hcount⟩ | ⟨-, htime, hcount⟩)
      · exact ⟨⟨o, .inl rfl, hm⟩, htime, by omega⟩
      · exact ⟨⟨o, .inl rfl, hm⟩, htime, by omega⟩
  · simp [hm]

/-- The condition on a block, at some point of its fills. -/
structure Clear (cfg : MarketConfig) (L T : ℕ) (made : List OrderHistory)
    (log : List (ℕ × FillOrder)) (s : History) (fills : List FillOrder) : Prop where
  day : 86400 ≤ T ∨
    (∀ r ∈ made, r.op.isMaker = false) ∧ ∀ o ∈ fills, o.isMaker = false
  kept : ∀ r ∈ s.records, r.op.isMaker = true → L ≤ r.time + 86400 →
    ¬ Trimmed cfg log T fills r
  once : ∀ r ∈ s.records, r.op.isMaker = true → r.time + 86400 < L →
    s.tickerMeta = some ⟨r.id, false⟩ → Trimmed cfg log T fills r

section Block

variable {L now T : ℕ} {made : List OrderHistory} {log : List (ℕ × FillOrder)} {s : History}
  {o : FillOrder} {fills : List FillOrder}

lemma Clear.maker (hc : Clear cfg L T made log s (o :: fills)) (hmk : o.isMaker = true) :
    86400 ≤ T := by
  refine hc.day.resolve_right fun hnone => ?_
  rw [hnone.2 o List.mem_cons_self] at hmk
  cases hmk

/-- What is in the volumes is not trimmed by the first fill. -/
lemma Clear.kept_first (hc : Clear cfg L T made log s (o :: fills)) (h : Sound L now made log s) :
    ∀ r ∈ s.records, r.op.isMaker = true → L ≤ r.time + 86400 → ¬ Trimmed cfg log T [o] r :=
  fun r hr hmk hL htrim =>
    hc.kept r hr hmk hL ((trimmed_cons (h.id_lt hr)).mpr (.inl htrim))

/-- The condition after the first fill. -/
lemma Clear.tail (hc : Clear cfg L T made log s (o :: fills)) (hsec : 86400 ≤ cfg.maxSeconds)
    (h : Sound L now made log s) (hT : now ≤ T) (hL : L ≤ T) :
    Clear cfg L T (made ++ [newRecord T s o]) (log ++ [(T, o)]) (processFillOrder cfg T s o)
      fills := by
  have hsplit : ∀ r ∈ (processFillOrder cfg T s o).records, r ∈ made ∨ r = newRecord T s o :=
    fun r hr => (h.mem_records_or hT hr).imp_left h.mem_made
  refine ⟨?_, fun r hr hmk hLr htrim => ?_, fun r hr hmk hLr hq => ?_⟩
  · refine hc.day.imp_right fun ⟨hmade, hfills⟩ => ⟨fun r hr => ?_, fun x hx => ?_⟩
    · rcases Sound.mem_cases hr with hr | rfl
      · exact hmade r hr
      · exact hfills o List.mem_cons_self
    · exact hfills x (List.mem_cons_of_mem o hx)
  · rcases hsplit r hr with hmade | rfl
    · have hin := ((h.mem_records_iff hT hmade).mp hr).1
      exact hc.kept r hin hmk hLr ((trimmed_cons (h.id_lt hin)).mpr (.inr htrim))
    · -- a record of the block itself is too young
      exact absurd htrim.2.1 (minTime_lt hsec (hc.maker hmk)).not_ge
  · rcases hsplit r hr with hmade | rfl
    · obtain ⟨hin, hnot⟩ := (h.mem_records_iff hT hmade).mp hr
      refine ((trimmed_cons (h.id_lt hin)).mp (hc.once r hin hmk hLr ?_)).resolve_left hnot
      cases hmeta : s.tickerMeta with
      | none =>
          rw [h.meta_none hmeta] at hmade
          simp at hmade
      | some q =>
          rw [← hq]
          simp [processFillOrder, hmeta]
    · have hlate : T + 86400 < L := hLr
      omega

/-- **A block** keeps the objects sound. -/
theorem sound_block (hsec : 86400 ≤ cfg.maxSeconds) (hlt : T < 2 ^ 32) (hL : L ≤ T)
    (h : Sound L now made log s) (hT : now ≤ T) (hc : Clear cfg L T made log s fills) :
    ∃ made', Sound T T made' (log ++ fills.map fun o => (T, o))
      (rollOut T (fills.foldl (processFillOrder cfg T) s)) := by
  induction fills generalizing now made log s with
  | nil =>
      have hup : Sound L T made log s := { h with upTo := fun r hr => (h.upTo r hr).trans hT }
      refine ⟨made, ?_⟩
      rw [List.map_nil, List.append_nil]
      refine hup.rollOut hL (hc.day.imp_right And.left) hlt fun r hr hmk hLr hq => ?_
      obtain ⟨⟨o, ho, -⟩, -⟩ := hc.once r hr hmk hLr hq
      simp at ho
  | cons o fills ih =>
      have hstep := h.processFillOrder hsec hT hL hc.maker (hc.kept_first h)
      obtain ⟨made', hmade'⟩ := ih hstep le_rfl (hc.tail hsec h hT hL)
      rw [List.append_assoc] at hmade'
      exact ⟨made', hmade'⟩

end Block

/-! ### Runs -/

/-- The node knows of all records, and has rolled out what is due at its time. -/
def NodeSound (node : TickerNode) : Prop :=
  ∃ made, Sound node.lastTime node.lastTime made node.log node.history

lemma NodeSound.dayVolume {node : TickerNode} (h : NodeSound node) : DayVolume node := by
  obtain ⟨made, hmade⟩ := h
  intro side m hlt
  rw [hmade.volumes side m, Nat.mod_eq_of_lt hlt]

lemma nodeSound_initial : NodeSound {} := by
  refine ⟨[], ⟨rfl, rfl, by simp, List.Pairwise.nil⟩, by simp, rfl, .slnil, ⟨fun _ => 0, by simp⟩,
    by simp, by simp, by simp, fun side m => ?_, by simp, by simp, by simp, by simp⟩
  rfl

/-- **A block** that meets the condition keeps the node sound. -/
theorem nodeSound_step (hsec : 86400 ≤ cfg.maxSeconds) {node : TickerNode} {b : FillBlock}
    (h : NodeSound node) (hT : node.lastTime ≤ b.timestamp) (hb : RollsOnce cfg node b) :
    NodeSound (nodeStep cfg node b) := by
  obtain ⟨made, hmade⟩ := h
  refine sound_block hsec b.timestamp_lt hT hmade hT ⟨?_, hb.kept, hb.once⟩
  refine hb.day.imp_right fun ⟨hlog, hfills⟩ => ⟨fun r hr => ?_, hfills⟩
  have hmem : (r.time, r.op) ∈ node.log := by
    rw [← hmade.chronicle.log_eq]
    exact List.mem_map.mpr ⟨r, hr, rfl⟩
  exact hlog _ hmem

/-- In a run with increasing timestamps each block is later than the one before. -/
lemma each_later {C : TickerNode → FillBlock → Prop} {node : TickerNode} {blocks : List FillBlock}
    (hlater : ∀ b ∈ blocks, node.lastTime ≤ b.timestamp)
    (hincreasing : blocks.Pairwise fun b b' => b.timestamp < b'.timestamp)
    (h : Runs.Each (nodeStep cfg) C node blocks) :
    Runs.Each (nodeStep cfg) (fun node b => node.lastTime ≤ b.timestamp ∧ C node b) node
      blocks := by
  induction blocks generalizing node with
  | nil => trivial
  | cons b blocks ih =>
      obtain ⟨hb, hincreasing⟩ := List.pairwise_cons.mp hincreasing
      exact ⟨⟨hlater b List.mem_cons_self, h.1⟩,
        ih (fun b' hb' => (hb b' hb').le) hincreasing h.2⟩

/-- **Ticker volume is the last day's volume**, in every run in which each fill is rolled out
once. -/
theorem day_volume (cfg : MarketConfig) (hsec : 86400 ≤ cfg.maxSeconds) (blocks : List FillBlock)
    (hincreasing : blocks.Pairwise fun b b' => b.timestamp < b'.timestamp)
    (h : Runs.Each (nodeStep cfg) (RollsOnce cfg) {} blocks) :
    Runs.Always (nodeStep cfg) DayVolume {} blocks := by
  have heach := each_later (fun b _ => Nat.zero_le b.timestamp) hincreasing h
  refine Runs.Always.imp (fun node => NodeSound.dayVolume) ?_
  exact Runs.always_of_each
    (fun node b hnode hb => nodeSound_step hsec hnode hb.1 hb.2) nodeSound_initial heach

/-- A fill of a maker order, 10 of asset 1 for 20 of asset 2. -/
def makerFill : FillOrder where
  pays := ⟨10, 1⟩
  receives := ⟨20, 2⟩
  fillPrice := ⟨⟨10, 1⟩, ⟨20, 2⟩⟩
  isMaker := true
  distinct := by decide

/-- Records are kept for two days. -/
def twoDays : MarketConfig := ⟨1000, 2 * 86400⟩

/-- Two fills, the first of which is rolled out in the third block. -/
theorem day_volume_rolled :
    Runs.Always (nodeStep twoDays) DayVolume {}
      [⟨100000, by decide, [makerFill]⟩, ⟨150000, by decide, [makerFill]⟩,
        ⟨190000, by decide, []⟩] := by
  refine day_volume twoDays (by decide) _ (by simp) ⟨⟨?_, ?_, ?_⟩, ⟨?_, ?_, ?_⟩, ⟨?_, ?_, ?_⟩, trivial⟩
  all_goals decide +kernel

/-- The last record of all is rolled out in the second block, and once more in the third one. -/
theorem not_dayVolume :
    ¬ ∀ (cfg : MarketConfig) (blocks : List FillBlock), 86400 ≤ cfg.maxSeconds →
      blocks.Pairwise (fun b b' => b.timestamp < b'.timestamp) →
      Runs.Always (nodeStep cfg) DayVolume {} blocks := by
  intro h
  have hlast := h twoDays [⟨100000, by decide, [makerFill]⟩, ⟨200000, by decide, []⟩,
    ⟨200001, by decide, []⟩] (by decide) (by simp)
  have hvolume := hlast.2.2.2 .base (1, 2) (by decide +kernel)
  revert hvolume
  decide +kernel

end ZosCore.MarketHistory
