import ZosCore.Protocol.AssetPrices

/-!
The fees of operations (`protocol/fee_schedule.cpp`).

A fee is scaled, converted at the core exchange rate, which rounds down, and then raised until it is worth
enough when it is converted back, which rounds down again.

* `scaledFee`, `raise`, `calculateFee`: the fee of a base value. The loop ends because amounts do.
* `OperationFees`, `stabilize`, `setFee`: the fee is put into the operation until that changes nothing.
* `raise_spec`: the loop raises a fee that is too low by one.
* `calculateFee_eq`: the fee is the exact one rounded up, or beyond the supply.
* **`fees_suffice`**: fees are enough and least, also where they change what they are for.
-/

namespace ZosCore.Prices

/-! ### The fee of a base value -/

/-- `operator <` of amounts. -/
def Asset.lt (a b : Asset) : Except NumberError Bool :=
  if a.assetId ≠ b.assetId then .error .assertion else .ok (a.amount < b.amount)

/-- `GRAPHENE_100_PERCENT` -/
def hundredPercent : ℕ := 10000

/-- `scaled` -/
def scaledFee (baseValue : UInt64) (scale : UInt32) : ℕ :=
  let scaled := baseValue.toNat * scale.toNat / hundredPercent
  if baseValue > 0 ∧ scaled = 0 then 1 else scaled

/-- `while( result * core_exchange_rate < target ) result.amount++` -/
def raise (coreExchangeRate : Price) (target result : Asset) : Except NumberError Asset := do
  let back ← result.mul coreExchangeRate
  if ← back.lt target then
    if h : Share (result.amount + 1) then raise coreExchangeRate target ⟨_, result.assetId, h⟩
    else .error .overflow
  else .ok result
  termination_by (2 ^ 63 - result.amount).toNat
  decreasing_by
    have hlt := h.2
    omega

/-- The amount that has to be paid, in the core asset. -/
def coreFee (scaled : ℕ) (h : (scaled : ℤ) ≤ maxShareSupply) : Asset :=
  ⟨scaled, 0, share_of_le (h.trans maxShareSupply_le)⟩

/-- `fee_schedule::calculate_fee`, of an operation with the base value. -/
def calculateFee (baseValue : UInt64) (scale : UInt32) (coreExchangeRate : Price) :
    Except NumberError Asset :=
  if h : (scaledFee baseValue scale : ℤ) ≤ maxShareSupply then do
    let target := coreFee _ h
    let result ← target.mul coreExchangeRate
    let result ← raise coreExchangeRate target result
    if result.amount ≤ maxShareSupply then .ok result else .error .assertion
  else .error .assertion

/-! ### The fee of an operation -/

/-- What the fee schedule needs of a kind of operations: their base value, which may depend on the fee
that is in them, and that fee. -/
structure OperationFees (Op : Type) where
  baseValue : Op → UInt64
  fee : Op → Asset
  setFee : Asset → Op → Op
  fee_setFee : ∀ f op, fee (setFee f op) = f

/-- `std::max` -/
def Asset.max (a b : Asset) : Except NumberError Asset := do
  if ← a.lt b then .ok b else .ok a

section Operations

variable {Op : Type} (ops : OperationFees Op) (scale : UInt32) (coreExchangeRate : Price)

/-- The loop of `set_fee`; the result says whether it broke off because the fee had become stable. -/
def stabilize : ℕ → Asset → Asset → Op → Except NumberError (Asset × Op × Bool)
  | 0, _, fMax, op => .ok (fMax, op, false)
  | rounds + 1, f, fMax, op => do
      let op := ops.setFee fMax op
      let f2 ← calculateFee (ops.baseValue op) scale coreExchangeRate
      if f.assetId = f2.assetId ∧ f.amount = f2.amount then .ok (fMax, op, true)
      else do
        let fMax ← fMax.max f2
        stabilize rounds f2 fMax op

/-- `MAX_FEE_STABILIZATION_ITERATION` -/
def maxFeeStabilizationIteration : ℕ := 4

/-- `fee_schedule::set_fee` -/
def setFee (op : Op) : Except NumberError (Asset × Op × Bool) := do
  let f ← calculateFee (ops.baseValue op) scale coreExchangeRate
  stabilize ops scale coreExchangeRate maxFeeStabilizationIteration f f op

end Operations

/-! ### The loop -/

variable {p : Price} {target result : Asset}

/-- The amount is of the asset that the target is converted to. -/
lemma converts_back (target : Asset) (hp : p.Valid) (h : p.IsFor target.assetId)
    (hid : result.assetId = (p.otherSide target.assetId).assetId) (hr : 0 ≤ result.amount) :
    Gives (result.mul p) maxBitcoreSupply ⌊result.exact p⌋ target.assetId := by
  obtain ⟨hown, hfor, -, hback⟩ := hp.side_otherSide h
  rw [← hid] at hfor hback
  have hspec := Asset.mul_spec hp hr hfor
  rwa [hback, hown] at hspec

/-- An amount below the exact conversion is worth less than what was converted. -/
lemma exact_lt_iff (target : Asset) (hp : p.Valid) (h : p.IsFor target.assetId)
    (hid : result.assetId = (p.otherSide target.assetId).assetId) :
    result.exact p < target.amount ↔ (result.amount : ℚ) < target.exact p := by
  obtain ⟨hside, hother⟩ := hp.side_pos target.assetId
  obtain ⟨-, -, hback, hback'⟩ := hp.side_otherSide h
  have hoq : (0 : ℚ) < (p.otherSide target.assetId).amount := by exact_mod_cast hother
  have hsq : (0 : ℚ) < (p.side target.assetId).amount := by exact_mod_cast hside
  rw [Asset.exact, Asset.exact, hid, hback, hback', div_lt_iff₀ hoq, lt_div_iff₀ hsq]

/-- An amount that is enough stays, if it can be converted back. -/
lemma raise_enough (hp : p.Valid) (h : p.IsFor target.assetId)
    (hid : result.assetId = (p.otherSide target.assetId).assetId) (hr : 0 ≤ result.amount)
    (henough : target.exact p ≤ result.amount) :
    raise p target result = if ⌊result.exact p⌋ ≤ maxBitcoreSupply then .ok result else .error .assertion := by
  have hgives := converts_back target hp h hid hr
  have hworth : target.amount ≤ ⌊result.exact p⌋ :=
    Int.le_floor.mpr (not_lt.mp (mt (exact_lt_iff target hp h hid).mp henough.not_gt))
  by_cases hbound : ⌊result.exact p⌋ ≤ maxBitcoreSupply
  · rw [Gives, if_pos hbound] at hgives
    obtain ⟨back, hback, hamount, hbackId⟩ := hgives
    have hlt : ¬ back.amount < target.amount := by rw [hamount]; exact hworth.not_gt
    rw [raise, hback, except_ok_bind, Asset.lt, if_neg (not_not.mpr hbackId), except_ok_bind,
      if_neg (by rw [decide_eq_true_eq]; exact hlt), if_pos hbound]
  · rw [Gives, if_neg hbound] at hgives
    rw [raise, hgives, if_neg hbound]
    rfl

/-- An amount that is not is raised. -/
lemma raise_less (hp : p.Valid) (h : p.IsFor target.assetId)
    (hid : result.assetId = (p.otherSide target.assetId).assetId) (hr : 0 ≤ result.amount)
    (hsmall : target.amount ≤ maxBitcoreSupply) (hless : (result.amount : ℚ) < target.exact p)
    (hshare : Share (result.amount + 1)) :
    raise p target result = raise p target ⟨_, result.assetId, hshare⟩ := by
  have hgives := converts_back target hp h hid hr
  have hworth : ⌊result.exact p⌋ < target.amount := Int.floor_lt.mpr ((exact_lt_iff target hp h hid).mpr hless)
  rw [Gives, if_pos (hworth.le.trans hsmall)] at hgives
  obtain ⟨back, hback, hamount, hbackId⟩ := hgives
  have hlt : back.amount < target.amount := by rw [hamount]; exact hworth
  rw [raise, hback, except_ok_bind, Asset.lt, if_neg (not_not.mpr hbackId), except_ok_bind,
    if_pos (by rw [decide_eq_true_eq]; exact hlt), dif_pos hshare]

/-- **The loop.** From the exact conversion rounded down, the amount goes up to that rounded up. -/
lemma raise_spec (hp : p.Valid) (h : p.IsFor target.assetId)
    (hid : result.assetId = (p.otherSide target.assetId).assetId) (hr : result.amount = ⌊target.exact p⌋)
    (hnonneg : 0 ≤ target.amount) (hsmall : target.amount ≤ maxBitcoreSupply)
    (hbound : ⌊target.exact p⌋ ≤ maxBitcoreSupply) :
    ∃ r : Asset, r.assetId = result.assetId ∧ r.amount = ⌈target.exact p⌉ ∧
      raise p target result = if ⌊r.exact p⌋ ≤ maxBitcoreSupply then .ok r else .error .assertion := by
  have hexact := Asset.exact_nonneg hp hnonneg
  have hr0 : 0 ≤ result.amount := by rw [hr]; exact Int.floor_nonneg.mpr hexact
  by_cases hless : (result.amount : ℚ) < target.exact p
  · have hceil : ⌈target.exact p⌉ = result.amount + 1 := by
      rw [Int.ceil_eq_iff]
      have hlt := Int.lt_floor_add_one (target.exact p)
      rw [← hr] at hlt
      exact ⟨by push_cast; linarith, by push_cast; exact hlt.le⟩
    have hshare : Share (result.amount + 1) := by
      rw [← hr, maxBitcoreSupply] at hbound
      exact ⟨by omega, by omega⟩
    refine ⟨⟨_, result.assetId, hshare⟩, rfl, hceil.symm, ?_⟩
    have henough : target.exact p ≤ ((result.amount + 1 : ℤ) : ℚ) := by
      rw [← hceil]
      exact Int.le_ceil _
    rw [raise_less hp h hid hr0 hsmall hless hshare]
    exact raise_enough hp h hid (Int.add_nonneg hr0 zero_le_one) henough
  · have hge := not_lt.mp hless
    have hceil : ⌈target.exact p⌉ = result.amount :=
      le_antisymm (Int.ceil_le.mpr hge) (by rw [hr]; exact Int.floor_le_ceil _)
    exact ⟨result, rfl, hceil.symm, raise_enough hp h hid hr0 hge⟩

/-! ### The least amount -/

/-- The exact fee. -/
def exactFee (p : Price) (scaled : ℕ) : ℚ := scaled * (p.otherSide 0).amount / (p.side 0).amount

/-- What an amount of the fee asset is worth. -/
def worth (p : Price) (amount : ℤ) : ℚ := amount * (p.side 0).amount / (p.otherSide 0).amount

/-- The fee is within the bounds of the conversions and of the result. -/
def WithinSupply (p : Price) (scaled : ℕ) : Prop :=
  (scaled : ℤ) ≤ maxShareSupply ∧ ⌈exactFee p scaled⌉ ≤ maxShareSupply ∧
    ⌊worth p ⌈exactFee p scaled⌉⌋ ≤ maxBitcoreSupply

/-- An amount is enough, when it is converted back. -/
def Enough (p : Price) (scaled : ℕ) (r : Asset) : Prop :=
  ∃ back, r.mul p = .ok back ∧ back.assetId = 0 ∧ scaled ≤ back.amount

/-- The least amount of the fee asset that is enough. -/
structure LeastFee (p : Price) (scaled : ℕ) (r : Asset) : Prop where
  asset : r.assetId = (p.otherSide 0).assetId
  nonneg : 0 ≤ r.amount
  enough : Enough p scaled r
  least : ∀ r' : Asset, r'.assetId = r.assetId → 0 ≤ r'.amount → Enough p scaled r' → r.amount ≤ r'.amount

variable {scaled : ℕ} {baseValue : UInt64} {scale : UInt32}

lemma scaledFee_pos (h : 0 < baseValue) : 1 ≤ scaledFee baseValue scale := by
  rw [scaledFee]
  split_ifs with hzero
  · exact le_rfl
  · exact Nat.one_le_iff_ne_zero.mpr fun hz => hzero ⟨h, hz⟩

/-- The exact worth of an amount of the fee asset. -/
lemma exact_eq_worth (hp : p.Valid) (h : p.IsFor 0) (hid : result.assetId = (p.otherSide 0).assetId) :
    result.exact p = worth p result.amount := by
  obtain ⟨-, -, hback, hback'⟩ := hp.side_otherSide h
  rw [Asset.exact, hid, hback, hback', worth]

/-- An amount is enough if it is not below the exact fee. -/
lemma le_of_enough (hp : p.Valid) (h : p.IsFor 0) (hid : result.assetId = (p.otherSide 0).assetId)
    (hr : 0 ≤ result.amount) (hs : (scaled : ℤ) ≤ maxShareSupply) (henough : Enough p scaled result) :
    exactFee p scaled ≤ result.amount := by
  obtain ⟨back, hback, -, hle⟩ := henough
  obtain ⟨hamount, -⟩ := (converts_back (coreFee scaled hs) hp h hid hr).of_ok hback
  rw [hamount, Int.le_floor] at hle
  exact not_lt.mp (mt (exact_lt_iff (coreFee scaled hs) hp h hid).mpr (by
    rw [not_lt]
    exact_mod_cast hle))

/-- The exact fee, rounded up, is the least that is enough. -/
lemma leastFee_of_ceil (hp : p.Valid) (h : p.IsFor 0) (hs : (scaled : ℤ) ≤ maxShareSupply)
    (hid : result.assetId = (p.otherSide 0).assetId) (hr : result.amount = ⌈exactFee p scaled⌉)
    (hbound : ⌊result.exact p⌋ ≤ maxBitcoreSupply) : LeastFee p scaled result := by
  have hexact : (coreFee scaled hs).exact p = exactFee p scaled := by
    rw [Asset.exact, coreFee, exactFee, Int.cast_natCast]
  have hnonneg : 0 ≤ result.amount := by
    rw [hr, ← hexact]
    exact Int.ceil_nonneg (Asset.exact_nonneg hp (Int.natCast_nonneg _))
  have hgives := converts_back (coreFee scaled hs) hp h hid hnonneg
  rw [Gives, if_pos hbound] at hgives
  obtain ⟨back, hback, hamount, hbackId⟩ := hgives
  have hle : exactFee p scaled ≤ result.amount := by
    rw [hr]
    exact Int.le_ceil _
  have hworth := mt (exact_lt_iff (coreFee scaled hs) hp h hid).mp (by
    rw [hexact, not_lt]
    exact hle)
  refine ⟨hid, hnonneg, ⟨back, hback, hbackId, ?_⟩, fun r' hid' hr' henough => ?_⟩
  · rw [hamount]
    exact Int.le_floor.mpr (not_lt.mp hworth)
  · rw [hr]
    exact Int.ceil_le.mpr (le_of_enough hp h (hid'.trans hid) hr' hs henough)

/-- **The fee of a base value.** -/
lemma calculateFee_eq (hp : p.Valid) (h : p.IsFor 0) :
    (WithinSupply p (scaledFee baseValue scale) →
      ∃ r, calculateFee baseValue scale p = .ok r ∧ LeastFee p (scaledFee baseValue scale) r) ∧
    (¬ WithinSupply p (scaledFee baseValue scale) →
      calculateFee baseValue scale p = .error .assertion) := by
  by_cases hs : (scaledFee baseValue scale : ℤ) ≤ maxShareSupply
  swap
  · exact ⟨fun hw => absurd hw.1 hs, fun _ => dif_neg hs⟩
  have hsmall := hs.trans maxShareSupply_le
  have hexact : (coreFee _ hs).exact p = exactFee p (scaledFee baseValue scale) := by
    rw [Asset.exact, coreFee, exactFee, Int.cast_natCast]
  have hfloor := Int.floor_le_ceil (exactFee p (scaledFee baseValue scale))
  have hgives := Asset.mul_spec (a := coreFee _ hs) hp (Int.natCast_nonneg _) h
  rw [calculateFee, dif_pos hs, WithinSupply]
  dsimp only
  rw [hexact] at hgives
  by_cases hbound : ⌊exactFee p (scaledFee baseValue scale)⌋ ≤ maxBitcoreSupply
  · rw [Gives, if_pos hbound] at hgives
    obtain ⟨result, hresult, hamount, hid⟩ := hgives
    rw [← hexact] at hamount hbound
    obtain ⟨r, hrid, hramount, hraise⟩ := raise_spec hp h hid hamount (Int.natCast_nonneg _) hsmall hbound
    rw [hid] at hrid
    rw [hexact] at hramount
    rw [hresult, except_ok_bind, hraise, ← hramount, ← exact_eq_worth hp h hrid]
    by_cases hback : ⌊r.exact p⌋ ≤ maxBitcoreSupply
    · rw [if_pos hback, except_ok_bind]
      by_cases hmax : r.amount ≤ maxShareSupply
      · rw [if_pos hmax]
        exact ⟨fun _ => ⟨r, rfl, leastFee_of_ceil hp h hs hrid hramount hback⟩,
          fun hw => absurd ⟨hs, hmax, hback⟩ hw⟩
      · rw [if_neg hmax]
        exact ⟨fun hw => absurd hw.2.1 hmax, fun _ => rfl⟩
    · rw [if_neg hback]
      exact ⟨fun hw => absurd hw.2.2 hback, fun _ => rfl⟩
  · rw [Gives, if_neg hbound] at hgives
    rw [hgives]
    exact ⟨fun hw => absurd ((hfloor.trans hw.2.1).trans maxShareSupply_le) hbound, fun _ => rfl⟩

/-! ### The fee of an operation that it changes -/

variable {Op : Type} {ops : OperationFees Op} {op op' : Op} {f fMax g : Asset}

/-- The greatest fee is not below the last. -/
def Above (fMax f : Asset) : Prop := fMax.assetId = f.assetId ∧ f.amount ≤ fMax.amount

lemma max_above (h : fMax.max f = .ok g) : Above g f := by
  rw [Asset.max, Asset.lt] at h
  split_ifs at h with hid
  · cases h
  · rw [except_ok_bind] at h
    split_ifs at h with hlt
    · cases h
      exact ⟨rfl, le_rfl⟩
    · cases h
      rw [decide_eq_true_eq] at hlt
      exact ⟨not_not.mp hid, not_lt.mp hlt⟩

/-- What a stable fee is. -/
structure Sufficient (ops : OperationFees Op) (scale : UInt32) (p : Price) (f : Asset) (op : Op) : Prop where
  stored : ops.fee op = f
  enough : ∃ g, calculateFee (ops.baseValue op) scale p = .ok g ∧ Above (ops.fee op) g

/-- The loop keeps the greatest fee above the last, and breaks off where the last is the fee again. -/
lemma stabilize_spec {rounds : ℕ} (hf : Above fMax f)
    (h : stabilize ops scale p rounds f fMax op = .ok (g, op', true)) : Sufficient ops scale p g op' := by
  induction rounds generalizing f fMax op with
  | zero => cases h
  | succ rounds ih =>
      rw [stabilize] at h
      cases hcalc : calculateFee (ops.baseValue (ops.setFee fMax op)) scale p with
      | error e =>
          rw [hcalc] at h
          cases h
      | ok f2 =>
          rw [hcalc, except_ok_bind] at h
          split_ifs at h with heq
          · cases h
            refine ⟨ops.fee_setFee _ _, f2, hcalc, ?_⟩
            rw [ops.fee_setFee]
            exact ⟨hf.1.trans heq.1, heq.2 ▸ hf.2⟩
          · cases hmax : fMax.max f2 with
            | error e =>
                rw [hmax] at h
                cases h
            | ok fMax' =>
                rw [hmax, except_ok_bind] at h
                exact ih (max_above hmax) h

/-- **Fees suffice.** -/
theorem fees_suffice (hp : p.Valid) (h : p.IsFor 0) :
    (∀ (baseValue : UInt64) (scale : UInt32), (0 < baseValue → 1 ≤ scaledFee baseValue scale) ∧
      (WithinSupply p (scaledFee baseValue scale) →
        ∃ r, calculateFee baseValue scale p = .ok r ∧ LeastFee p (scaledFee baseValue scale) r) ∧
      (¬ WithinSupply p (scaledFee baseValue scale) →
        calculateFee baseValue scale p = .error .assertion)) ∧
    ∀ (Op : Type) (ops : OperationFees Op) (scale : UInt32) (op op' : Op) (f : Asset),
      setFee ops scale p op = .ok (f, op', true) → Sufficient ops scale p f op' := by
  refine ⟨fun baseValue scale => ⟨scaledFee_pos, calculateFee_eq hp h⟩,
    fun Op ops scale op op' f hset => ?_⟩
  rw [setFee] at hset
  cases hcalc : calculateFee (ops.baseValue op) scale p with
  | error e =>
      rw [hcalc] at hset
      cases hset
  | ok f0 =>
      rw [hcalc, except_ok_bind] at hset
      exact stabilize_spec ⟨rfl, le_rfl⟩ hset

lemma withinSupply_ten : WithinSupply threeForSeven (scaledFee 10 10000) := by
  rw [WithinSupply]
  decide +kernel

/-- A fee of ten, at three of the core asset for seven of the fee asset. -/
theorem fees_suffice_ten : ∃ r, calculateFee 10 10000 threeForSeven = .ok r ∧
    LeastFee threeForSeven (scaledFee 10 10000) r :=
  ((fees_suffice threeForSeven_valid (.inl rfl)).1 10 10000).2.1 withinSupply_ten

end ZosCore.Prices
