import ZosCore.Lib.Fraction
import ZosCore.Protocol.PriceProducts

/-!
Prices times ratios, and the prices of margin positions (`protocol/asset.cpp`).

Fractions of 128 bits are halved until both parts are amounts. The product of a price and a ratio is
then compared with the fraction one of whose parts is 1, and the one that is nearer to the exact product
is taken. The comparison is the only place where 128 bits may be too few.

* `intoRange`, `candidate`, `Price.mulRatio`: the product. `callPrice`, `feedPrice`: the other loops.
* `ExactWithin`: differences are compared as they should be where the products fit into 128 bits.
* `intoRange_fits`, `product_closest`: what the loop and the comparison give.
* **`scales_right`**: the product is right wherever the comparison fits; the other loops always are.
* `difference`: the comparison in a magnitude of 128 bits and a sign. `not_scalesRight_oneAndAQuarter`:
  where it does not fit, the worse candidate is taken.
-/

namespace ZosCore.Prices

/-! ### Ratios -/

/-- `GRAPHENE_MAX_SHARE_SUPPLY` -/
def maxShares : ℕ := 7000000000 * 100000

lemma maxShares_pos : 0 < maxShares := by decide

lemma two_le_maxShares : 2 ≤ maxShares := by decide

/-- `ratio_type` -/
structure RatioType where
  numerator : ℤ
  denominator : ℕ
  num_range : -2 ^ 31 ≤ numerator ∧ numerator < 2 ^ 31
  den_range : 0 < denominator ∧ denominator < 2 ^ 31
  coprime : numerator.natAbs.Coprime denominator

/-- A positive ratio as a `boost::rational<int128_t>`. -/
def RatioType.fraction (r : RatioType) (h : 0 < r.numerator) : Fraction :=
  .of r.numerator.toNat r.denominator (Int.lt_toNat.mpr h) r.den_range.1

/-- A price as a `boost::rational<int128_t>`. -/
def Price.fraction (p : Price) (h : p.Valid) : Fraction :=
  .of p.base.amount.toNat p.quote.amount.toNat (Int.lt_toNat.mpr h.base_pos) (Int.lt_toNat.mpr h.quote_pos)

instance (p : Price) : Decidable p.Valid :=
  decidable_of_iff (0 < p.base.amount ∧ 0 < p.quote.amount ∧ p.base.assetId ≠ p.quote.assetId)
    ⟨fun h => ⟨h.1, h.2.1, h.2.2⟩, fun h => ⟨h.base_pos, h.quote_pos, h.distinct⟩⟩

/-- `operator /` of two amounts. -/
def Asset.div (base quote : Asset) : Except NumberError Price :=
  if base.assetId = quote.assetId then .error .assertion else .ok ⟨base, quote⟩

/-- The price that the parts of a fraction are the amounts of. -/
def priceOf (cp : Fraction) (baseId quoteId : ℕ) : Except NumberError Price :=
  Asset.div ⟨convertToInt64 cp.num, baseId, share_convertToInt64 _⟩
    ⟨convertToInt64 cp.den, quoteId, share_convertToInt64 _⟩

/-! ### The product -/

lemma half_pos_of_ne {n : ℕ} (h : 0 < n) (hne : n ≠ 1) : 0 < n / 2 := by omega

/-- The loop of `operator *`, and whether it has halved. -/
def intoRange (cp : Fraction) (shrinked : Bool) : Fraction × Bool :=
  if maxShares < cp.num ∨ maxShares < cp.den then
    if hnum : cp.num = 1 then
      (⟨1, maxShares, Nat.one_pos, maxShares_pos, Nat.coprime_one_left _⟩, shrinked)
    else if hden : cp.den = 1 then
      (⟨maxShares, 1, maxShares_pos, Nat.one_pos, Nat.coprime_one_right _⟩, shrinked)
    else
      intoRange (.of (cp.num / 2) (cp.den / 2) (half_pos_of_ne cp.num_pos hnum)
        (half_pos_of_ne cp.den_pos hden)) true
  else (cp, shrinked)
  termination_by cp.num + cp.den
  decreasing_by
    have hle := Fraction.of_num_le (half_pos_of_ne cp.num_pos hnum) (half_pos_of_ne cp.den_pos hden)
    have hle' := Fraction.of_den_le (half_pos_of_ne cp.num_pos hnum) (half_pos_of_ne cp.den_pos hden)
    have hpos := cp.num_pos
    omega

/-- "from the accurate ocp, now we have ncp": the fraction one of whose parts is 1. -/
def candidate (ocp : Fraction) : Fraction :=
  if h : ocp.den < ocp.num then
    ⟨min (ocp.num / ocp.den) maxShares, 1, lt_min (Nat.div_pos h.le ocp.den_pos) maxShares_pos,
      Nat.one_pos, Nat.coprime_one_right _⟩
  else
    ⟨1, min (ocp.den / ocp.num) maxShares, Nat.one_pos,
      lt_min (Nat.div_pos (not_lt.mp h) ocp.num_pos) maxShares_pos, Nat.coprime_one_left _⟩

/-- The exact product. -/
def exactProduct (p : Price) (r : RatioType) (hp : p.Valid) (hr : 0 < r.numerator) : Fraction :=
  (p.fraction hp).mul (r.fraction hr)

section Product

-- `diff1 < diff2`: whether the first fraction is nearer to the third than the second, in 128 bits.
variable (nearer : Fraction → Fraction → Fraction → Bool)

/-- "use the one which is closer to ocp" -/
def closer (ocp cp : Fraction) : Fraction :=
  let ncp := candidate ocp
  if ncp.num = maxShares ∨ ncp.den = maxShares then ncp
  else if nearer ncp cp ocp then ncp
  else cp

/-- The exact product, brought into range. -/
def product (ocp : Fraction) : Fraction :=
  let cp := intoRange ocp false
  if cp.2 then closer nearer ocp cp.1 else cp.1

/-- `operator *` of a price and a ratio. -/
def Price.mulRatio (p : Price) (r : RatioType) : Except NumberError Price :=
  if hp : p.Valid then
    if hr : 0 < r.numerator then
      if r.numerator = r.denominator then .ok p
      else do
        let cp := product nearer (exactProduct p r hp hr)
        let np ← priceOf cp p.base.assetId p.quote.assetId
        let np := if (r.numerator > r.denominator ∧ np.lt p) ∨ (r.numerator < r.denominator ∧ np.gt p)
          then p else np
        if np.Valid then .ok np else .error .assertion
    else .error .assertion
  else .error .assertion

end Product

/-! ### The prices of margin positions -/

/-- `( n >> 1 ) + 1` -/
def plusOne : Half := ⟨fun n => n / 2 + 1, fun _ _ => Nat.succ_pos _, fun _ => le_rfl⟩

lemma half_add_rest_pos (n : ℕ) (h : 0 < n) : 0 < n / 2 + n % 2 := by omega

lemma half_add_rest_le (n : ℕ) : n / 2 + n % 2 ≤ n / 2 + 1 := by omega

/-- `( n >> 1 ) + ( n & 1 )` -/
def roundedUp : Half := ⟨fun n => n / 2 + n % 2, half_add_rest_pos, half_add_rest_le⟩

/-- `GRAPHENE_COLLATERAL_RATIO_DENOM` -/
def collateralRatioDenom : ℕ := 1000

lemma collateralRatioDenom_pos : 0 < collateralRatioDenom := by decide

/-- `price::call_price` -/
def callPrice (debt collateral : Asset) (collateralRatio : ℕ) (hdebt : 0 < debt.amount)
    (hcollateral : 0 < collateral.amount) (hratio : 0 < collateralRatio) : Except NumberError Price := do
  let swan := Fraction.of debt.amount.toNat collateral.amount.toNat (Int.lt_toNat.mpr hdebt)
    (Int.lt_toNat.mpr hcollateral)
  let ratio := Fraction.of collateralRatio collateralRatioDenom hratio collateralRatioDenom_pos
  let cp := (swan.mul ratio).halve plusOne maxShares two_le_maxShares
  let p ← priceOf cp debt.assetId collateral.assetId
  .ok p.inverse

/-- The settlement price, over a ratio of at least 1001 thousandths. -/
def collateralPrice (settlementPrice : Price) (hp : settlementPrice.Valid) (ratio : ℕ) (hratio : 0 < ratio) :
    Except NumberError Price :=
  let sp := settlementPrice.fraction hp
  let ratio := Fraction.of collateralRatioDenom ratio collateralRatioDenom_pos hratio
  let cp := (sp.mul ratio).halve roundedUp maxShares two_le_maxShares
  priceOf cp settlementPrice.base.assetId settlementPrice.quote.assetId

/-- `price_feed`, as far as its margin prices depend on it, with what `price_feed::validate` asks of that. -/
structure MarginFeed where
  settlementPrice : Price
  maintenanceCollateralRatio : ℕ
  maximumShortSqueezeRatio : ℕ
  valid : settlementPrice.Valid
  squeeze_pos : 1001 ≤ maximumShortSqueezeRatio
  squeeze_le : maximumShortSqueezeRatio ≤ maintenanceCollateralRatio
  maintenance_le : maintenanceCollateralRatio ≤ 32000

lemma MarginFeed.ratio_pos (f : MarginFeed) :
    0 < f.maximumShortSqueezeRatio ∧ 0 < f.maintenanceCollateralRatio := by
  have hsqueeze := f.squeeze_pos
  have hle := f.squeeze_le
  omega

/-- `price_feed::max_short_squeeze_price` -/
def MarginFeed.maxShortSqueezePrice (f : MarginFeed) : Except NumberError Price :=
  collateralPrice f.settlementPrice f.valid f.maximumShortSqueezeRatio f.ratio_pos.1

/-- `price_feed::max_collateral_price` -/
def MarginFeed.maxCollateralPrice (f : MarginFeed) : Except NumberError Price :=
  collateralPrice f.settlementPrice f.valid f.maintenanceCollateralRatio f.ratio_pos.2

/-- `price_feed::user_collateral_price` -/
def MarginFeed.userCollateralPrice (f : MarginFeed) (collateralRatio : ℕ) (hratio : 0 < collateralRatio) :
    Except NumberError Price :=
  collateralPrice f.settlementPrice f.valid collateralRatio hratio

/-! ### What the product should be -/

/-- Both parts are amounts. -/
def Fits (a : Fraction) : Prop := a.num ≤ maxShares ∧ a.den ≤ maxShares

/-- The products in the difference of two fractions have no more than 128 bits. -/
def Comparable (a b : Fraction) : Prop :=
  a.num * b.den < 2 ^ 128 ∧ b.num * a.den < 2 ^ 128 ∧ a.den * b.den < 2 ^ 128

/-- Differences are compared as they are, where 128 bits are enough for them. -/
def ExactWithin (nearer : Fraction → Fraction → Fraction → Bool) : Prop :=
  ∀ a b c, Comparable a c → Comparable b c →
    (nearer a b c = true ↔ |a.value - c.value| < |b.value - c.value|)

/-- The exact product, halved until it fits. -/
def halved (ocp : Fraction) : Fraction := (intoRange ocp false).1

/-- One part is 1, and the other at the bound. -/
def OnEdge (a : Fraction) : Prop := a.num = maxShares ∨ a.den = maxShares

/-- If the candidates have to be compared, then 128 bits are enough. -/
def ComparesWithin (ocp : Fraction) : Prop :=
  ¬ Fits ocp → ¬ OnEdge (candidate ocp) → Comparable (candidate ocp) ocp ∧ Comparable (halved ocp) ocp

/-- The one of the candidates that is nearer. -/
structure Closest (ocp c : Fraction) : Prop where
  one : c = halved ocp ∨ c = candidate ocp
  le_halved : |c.value - ocp.value| ≤ |(halved ocp).value - ocp.value|
  le_candidate : |c.value - ocp.value| ≤ |(candidate ocp).value - ocp.value|

/-- The amounts are the parts of a fraction. -/
def Price.IsOf (p : Price) (c : Fraction) : Prop := p.base.amount = c.num ∧ p.quote.amount = c.den

/-- A product that went down although the ratio is above 1, or up although it is below. -/
def OnWrongSide (p : Price) (r : RatioType) (x : ℚ) : Prop :=
  r.denominator < r.numerator ∧ x < p.rate ∨ r.numerator < r.denominator ∧ p.rate < x

/-- What a price times a ratio should be. -/
structure ScalesRight (p : Price) (r : RatioType) (ocp : Fraction) (np : Price) : Prop where
  valid : np.Valid
  pair : p.SamePair np
  bounded : np = p ∨ np.base.amount ≤ maxShareSupply ∧ np.quote.amount ≤ maxShareSupply
  exact : Fits ocp → np.rate = p.rate * (r.numerator / r.denominator)
  up : r.denominator < r.numerator → p.rate ≤ np.rate
  down : r.numerator < r.denominator → np.rate ≤ p.rate
  closest : ¬ Fits ocp → r.numerator ≠ r.denominator → ∃ c, Closest ocp c ∧
    (np.IsOf c ∨ np = p ∧ OnWrongSide p r c.value)

/-- Both amounts are positive and within the limit. -/
def InLimits (x : Except NumberError Price) : Prop :=
  ∃ p, x = .ok p ∧ (0 < p.base.amount ∧ p.base.amount ≤ maxShareSupply) ∧
    0 < p.quote.amount ∧ p.quote.amount ≤ maxShareSupply

/-! ### The loop -/

variable {nearer : Fraction → Fraction → Fraction → Bool} {ocp cp c : Fraction} {p : Price} {r : RatioType}

/-- The loop ends with parts that are amounts. -/
lemma intoRange_fits (cp : Fraction) (b : Bool) : Fits (intoRange cp b).1 := by
  fun_induction intoRange cp b with
  | case1 cp b hbig hnum => exact ⟨maxShares_pos, le_rfl⟩
  | case2 cp b hbig hnum hden => exact ⟨le_rfl, maxShares_pos⟩
  | case3 cp b hbig hnum hden ih => exact ih
  | case4 cp b hsmall => exact ⟨not_lt.mp (not_or.mp hsmall).1, not_lt.mp (not_or.mp hsmall).2⟩

lemma intoRange_of_fits {b : Bool} (h : Fits cp) : intoRange cp b = (cp, b) := by
  rw [intoRange, if_neg (not_or.mpr ⟨h.1.not_gt, h.2.not_gt⟩)]

lemma intoRange_flag {b : Bool} (h : b = true) : (intoRange cp b).2 = true := by
  fun_induction intoRange cp b with
  | case1 cp b hbig hnum => exact h
  | case2 cp b hbig hnum hden => exact h
  | case3 cp b hbig hnum hden ih => exact ih rfl
  | case4 cp b hsmall => exact h

lemma candidate_fits (ocp : Fraction) : Fits (candidate ocp) := by
  rw [candidate]
  split_ifs with h
  · exact ⟨min_le_right _ _, maxShares_pos⟩
  · exact ⟨maxShares_pos, min_le_right _ _⟩

/-- Where nothing is halved, one part is 1, and there is only one candidate. -/
lemma halved_eq_candidate (h : ¬ Fits ocp) (hflag : (intoRange ocp false).2 = false) :
    halved ocp = candidate ocp := by
  have hbig : maxShares < ocp.num ∨ maxShares < ocp.den := by
    rw [Fits] at h
    omega
  have hnumpos := ocp.num_pos
  have hdenpos := ocp.den_pos
  have hmax := two_le_maxShares
  rw [halved]
  rw [intoRange, if_pos hbig] at hflag ⊢
  split_ifs at hflag ⊢ with hnum hden
  · have hle : ¬ ocp.den < ocp.num := by omega
    have hmin : min (ocp.den / ocp.num) maxShares = maxShares := by
      rw [hnum, Nat.div_one]
      omega
    rw [candidate, dif_neg hle]
    ext
    · rfl
    · exact hmin.symm
  · have hlt : ocp.den < ocp.num := by omega
    have hmin : min (ocp.num / ocp.den) maxShares = maxShares := by
      rw [hden, Nat.div_one]
      omega
    rw [candidate, dif_pos hlt]
    ext
    · exact hmin.symm
    · rfl
  · rw [intoRange_flag rfl] at hflag
    cases hflag

/-! ### The comparison -/

/-- What lies between is nearer. -/
lemma abs_sub_le_of_between {x y z : ℚ} (h : x ≤ y ∧ y ≤ z ∨ z ≤ y ∧ y ≤ x) : |y - z| ≤ |x - z| := by
  rcases h with ⟨hxy, hyz⟩ | ⟨hzy, hyx⟩
  · rw [abs_of_nonpos (by linarith), abs_of_nonpos (by linarith)]
    linarith
  · rw [abs_of_nonneg (by linarith), abs_of_nonneg (by linarith)]
    linarith

/-- "it's on the edge, we know it's accurate enough" -/
lemma candidate_closest (h : OnEdge (candidate ocp)) (hc : Fits c) :
    |(candidate ocp).value - ocp.value| ≤ |c.value - ocp.value| := by
  have hmax := two_le_maxShares
  have hnum := c.num_pos
  have hden := c.den_pos
  refine abs_sub_le_of_between ?_
  rw [Fraction.value_le_iff, Fraction.value_le_iff, Fraction.value_le_iff, Fraction.value_le_iff]
  rw [OnEdge, candidate] at h
  rw [candidate]
  split_ifs at h ⊢ with hlt
  · have hmin : min (ocp.num / ocp.den) maxShares = maxShares := h.resolve_right (by dsimp only; omega)
    have hle : maxShares * ocp.den ≤ ocp.num :=
      (Nat.le_div_iff_mul_le ocp.den_pos).mp (min_eq_right_iff.mp hmin)
    dsimp only
    rw [hmin, mul_one, mul_one]
    exact .inl ⟨hc.1.trans (Nat.le_mul_of_pos_right _ hden), hle⟩
  · have hmin : min (ocp.den / ocp.num) maxShares = maxShares := h.resolve_left (by dsimp only; omega)
    have hle : maxShares * ocp.num ≤ ocp.den :=
      (Nat.le_div_iff_mul_le ocp.num_pos).mp (min_eq_right_iff.mp hmin)
    dsimp only
    rw [hmin, one_mul, one_mul, mul_comm ocp.num]
    exact .inr ⟨hle, hc.2.trans (Nat.le_mul_of_pos_left _ hnum)⟩

/-- **The comparison.** Where it is within 128 bits, the nearer candidate is taken. -/
lemma product_closest (hn : ExactWithin nearer) (hw : ComparesWithin ocp) (h : ¬ Fits ocp) :
    Closest ocp (product nearer ocp) := by
  rw [product]
  split_ifs with hflag
  · rw [closer]
    split_ifs with hedge hnear
    · exact ⟨.inr rfl, candidate_closest hedge (intoRange_fits ocp false), le_rfl⟩
    · obtain ⟨hcandidate, hhalved⟩ := hw h hedge
      exact ⟨.inr rfl, ((hn _ _ _ hcandidate hhalved).mp hnear).le, le_rfl⟩
    · obtain ⟨hcandidate, hhalved⟩ := hw h hedge
      exact ⟨.inl rfl, le_rfl, not_lt.mp (mt (hn _ _ _ hcandidate hhalved).mpr hnear)⟩
  · have heq := halved_eq_candidate h (Bool.not_eq_true _ ▸ hflag)
    exact ⟨.inl rfl, le_rfl, by rw [← heq]; exact le_rfl⟩

/-! ### The product of a price and a ratio -/

lemma value_fraction (hp : p.Valid) : (p.fraction hp).value = p.rate := by
  rw [Price.fraction, Fraction.value_of, Price.rate, ← Int.cast_natCast p.base.amount.toNat,
    ← Int.cast_natCast p.quote.amount.toNat, Int.toNat_of_nonneg hp.base_pos.le,
    Int.toNat_of_nonneg hp.quote_pos.le]

lemma value_exactProduct (hp : p.Valid) (hr : 0 < r.numerator) :
    (exactProduct p r hp hr).value = p.rate * (r.numerator / r.denominator) := by
  rw [exactProduct, Fraction.value_mul, value_fraction, RatioType.fraction, Fraction.value_of,
    ← Int.cast_natCast r.numerator.toNat, Int.toNat_of_nonneg hr.le]

lemma Price.IsOf.rate (h : p.IsOf c) : p.rate = c.value := by
  rw [Price.rate, h.1, h.2, Fraction.value, Int.cast_natCast, Int.cast_natCast]

lemma maxShares_eq : (maxShares : ℤ) = maxShareSupply := by decide

lemma convertToInt64_of_le {n : ℕ} (h : n ≤ maxShares) : convertToInt64 n = n := by
  have hmax : maxShares = 700000000000000 := by decide
  rw [convertToInt64, min_eq_left (by omega)]

/-- Parts that fit are the amounts of a price. -/
lemma priceOf_eq {baseId quoteId : ℕ} (hc : Fits c) (hne : baseId ≠ quoteId) :
    ∃ np, priceOf c baseId quoteId = .ok np ∧ np.Valid ∧ np.IsOf c ∧ np.base.assetId = baseId ∧
      np.quote.assetId = quoteId := by
  have hnum := convertToInt64_of_le hc.1
  have hden := convertToInt64_of_le hc.2
  refine ⟨_, if_neg hne, ⟨?_, ?_, hne⟩, ⟨hnum, hden⟩, rfl, rfl⟩
  · exact convertToInt64_pos.mpr c.num_pos
  · exact convertToInt64_pos.mpr c.den_pos

lemma product_fits (nearer : Fraction → Fraction → Fraction → Bool) (ocp : Fraction) :
    Fits (product nearer ocp) := by
  rw [product, closer]
  split_ifs
  · exact candidate_fits ocp
  · exact candidate_fits ocp
  · exact intoRange_fits ocp false
  · exact intoRange_fits ocp false

lemma product_of_fits (h : Fits ocp) : product nearer ocp = ocp := by
  rw [product, intoRange_of_fits h]
  rfl

/-- The product is the price of the chosen fraction, or the price itself if that is on the wrong side. -/
lemma mulRatio_eq (nearer : Fraction → Fraction → Fraction → Bool) (hp : p.Valid)
    (hr : 0 < r.numerator) (hne : r.numerator ≠ r.denominator) :
    ∃ np, np.Valid ∧ p.SamePair np ∧ np.IsOf (product nearer (exactProduct p r hp hr)) ∧
      (OnWrongSide p r np.rate ∧ p.mulRatio nearer r = .ok p ∨
        ¬ OnWrongSide p r np.rate ∧ p.mulRatio nearer r = .ok np) := by
  obtain ⟨np, hnp, hvalid, hof, hbase, hquote⟩ :=
    priceOf_eq (product_fits nearer (exactProduct p r hp hr)) hp.distinct
  have hwrong : (r.numerator > r.denominator ∧ np.lt p ∨ r.numerator < r.denominator ∧ np.gt p) ↔
      OnWrongSide p r np.rate := by
    rw [Price.lt_iff hvalid hp ⟨hbase, hquote⟩, (comparesRates hvalid hp ⟨hbase, hquote⟩).gt]
    exact Iff.rfl
  refine ⟨np, hvalid, ⟨hbase.symm, hquote.symm⟩, hof, ?_⟩
  rw [Price.mulRatio, dif_pos hp, dif_pos hr, if_neg hne]
  dsimp only
  rw [hnp, except_ok_bind]
  by_cases hside : OnWrongSide p r np.rate
  · rw [if_pos (hwrong.mpr hside), if_pos hp]
    exact .inl ⟨hside, rfl⟩
  · rw [if_neg (mt hwrong.mp hside), if_pos hvalid]
    exact .inr ⟨hside, rfl⟩

lemma rate_pos (hp : p.Valid) : 0 < p.rate := by
  rw [← value_fraction hp]
  exact Fraction.value_pos _

/-- An exact product is on the right side. -/
lemma not_onWrongSide (hp : p.Valid) : ¬ OnWrongSide p r (p.rate * (r.numerator / r.denominator)) := by
  have hrate := rate_pos hp
  have hden : (0 : ℚ) < r.denominator := by exact_mod_cast r.den_range.1
  rintro (⟨h, hlt⟩ | ⟨h, hlt⟩)
  · have hone : (1 : ℚ) < r.numerator / r.denominator := (one_lt_div hden).mpr (by exact_mod_cast h)
    exact absurd (lt_mul_of_one_lt_right hrate hone) hlt.not_gt
  · have hone : (r.numerator / r.denominator : ℚ) < 1 := (div_lt_one hden).mpr (by exact_mod_cast h)
    exact absurd (mul_lt_of_lt_one_right hrate hone) hlt.not_gt

lemma IsOf.le_maxShareSupply (h : p.IsOf c) (hc : Fits c) :
    p.base.amount ≤ maxShareSupply ∧ p.quote.amount ≤ maxShareSupply := by
  rw [h.1, h.2, ← maxShares_eq]
  exact ⟨by exact_mod_cast hc.1, by exact_mod_cast hc.2⟩

/-- A price times one is the price. -/
lemma scalesRight_one (hp : p.Valid) (hr : 0 < r.numerator) (h : r.numerator = r.denominator) :
    p.mulRatio nearer r = .ok p ∧ ScalesRight p r ocp p := by
  have hone : (r.numerator / r.denominator : ℚ) = 1 := by
    have hden : (r.denominator : ℚ) ≠ 0 := by exact_mod_cast r.den_range.1.ne'
    rw [h, Int.cast_natCast, div_self hden]
  rw [Price.mulRatio, dif_pos hp, dif_pos hr, if_pos h]
  exact ⟨rfl, hp, ⟨rfl, rfl⟩, .inl rfl, fun _ => by rw [hone, mul_one], fun _ => le_rfl, fun _ => le_rfl,
    fun _ hne => absurd h hne⟩

/-- **The product.** -/
lemma scalesRight (hn : ExactWithin nearer) (hp : p.Valid) (hr : 0 < r.numerator)
    (hw : ComparesWithin (exactProduct p r hp hr)) :
    ∃ np, p.mulRatio nearer r = .ok np ∧ ScalesRight p r (exactProduct p r hp hr) np := by
  by_cases hne : r.numerator = r.denominator
  · exact ⟨p, scalesRight_one hp hr hne⟩
  · obtain ⟨np, hvalid, hpair, hof, ⟨hside, heq⟩ | ⟨hside, heq⟩⟩ := mulRatio_eq nearer hp hr hne
    · refine ⟨p, heq, hp, ⟨rfl, rfl⟩, .inl rfl, fun hfits => ?_, fun _ => le_rfl, fun _ => le_rfl,
        fun hfits _ => ⟨_, product_closest hn hw hfits, .inr ⟨rfl, ?_⟩⟩⟩
      · rw [hof.rate, product_of_fits hfits, value_exactProduct] at hside
        exact absurd hside (not_onWrongSide hp)
      · rw [← hof.rate]
        exact hside
    · obtain ⟨hup, hdown⟩ := not_or.mp hside
      refine ⟨np, heq, hvalid, hpair, .inr (IsOf.le_maxShareSupply hof (product_fits _ _)), fun hfits => ?_,
        fun h => not_lt.mp fun hlt => hup ⟨h, hlt⟩, fun h => not_lt.mp fun hlt => hdown ⟨h, hlt⟩,
          fun hfits _ => ⟨_, product_closest hn hw hfits, .inl hof⟩⟩
      rw [hof.rate, product_of_fits hfits, value_exactProduct]

/-! ### The other loops -/

/-- A fraction that is halved gives a price within the limits. -/
lemma priceOf_halve {a : Fraction} {h : Half} {baseId quoteId : ℕ} (hne : baseId ≠ quoteId) :
    ∃ q, priceOf (a.halve h maxShares two_le_maxShares) baseId quoteId = .ok q ∧
      (0 < q.base.amount ∧ q.base.amount ≤ maxShareSupply) ∧
        0 < q.quote.amount ∧ q.quote.amount ≤ maxShareSupply := by
  have hfits : Fits (a.halve h maxShares two_le_maxShares) := Fraction.halve_le a
  obtain ⟨q, hq, hvalid, hof, -, -⟩ := priceOf_eq hfits hne
  obtain ⟨hbase, hquote⟩ := IsOf.le_maxShareSupply hof hfits
  exact ⟨q, hq, ⟨hvalid.base_pos, hbase⟩, hvalid.quote_pos, hquote⟩

lemma inLimits_collateralPrice (hp : p.Valid) {ratio : ℕ} (hratio : 0 < ratio) :
    InLimits (collateralPrice p hp ratio hratio) := priceOf_halve hp.distinct

lemma inLimits_callPrice {debt collateral : Asset} {ratio : ℕ} (hdebt : 0 < debt.amount)
    (hcollateral : 0 < collateral.amount) (hratio : 0 < ratio) (hne : debt.assetId ≠ collateral.assetId) :
    InLimits (callPrice debt collateral ratio hdebt hcollateral hratio) := by
  rw [callPrice]
  obtain ⟨q, hq, hbase, hquote⟩ := priceOf_halve (h := plusOne) hne
  rw [hq, except_ok_bind]
  exact ⟨q.inverse, rfl, hquote, hbase⟩

/-! ### In 128 bits -/

/-- `int128_t`: a magnitude of 128 bits and a sign. What is beyond is cut off. -/
def int128 (x : ℤ) : ℤ := x.sign * (x.natAbs % 2 ^ 128 : ℕ)

lemma int128_of_lt {x : ℤ} (h : x.natAbs < 2 ^ 128) : int128 x = x := by
  rw [int128, Nat.mod_eq_of_lt h, Int.sign_mul_natAbs]

lemma int128_of_natCast {n : ℕ} (h : n < 2 ^ 128) : int128 n = n := int128_of_lt (by rwa [Int.natAbs_natCast])

/-- The difference of two fractions, in 128 bits: the denominators are reduced before they are
multiplied. -/
def difference (a b : Fraction) : ℤ × ℤ :=
  let g := a.den.gcd b.den
  let den := a.den / g
  let num := int128 (int128 (a.num * (b.den / g) : ℕ) - int128 (b.num * den : ℕ))
  let g' := num.natAbs.gcd g
  (num / g', int128 (den * (b.den / g') : ℕ))

/-- The comparison of two differences. -/
def nearer128 (a b c : Fraction) : Bool :=
  |(difference a c).1| * (difference b c).2 < |(difference b c).1| * (difference a c).2

/-- The numerator of a difference is not cut off. -/
lemma numerator_eq {a b : Fraction} (h : Comparable a b) {g : ℕ} :
    int128 (int128 (a.num * (b.den / g) : ℕ) - int128 (b.num * (a.den / g) : ℕ)) =
      (a.num * (b.den / g) : ℕ) - (b.num * (a.den / g) : ℕ) := by
  have hleft : a.num * (b.den / g) < 2 ^ 128 :=
    (Nat.mul_le_mul_left _ (Nat.div_le_self _ _)).trans_lt h.1
  have hright : b.num * (a.den / g) < 2 ^ 128 :=
    (Nat.mul_le_mul_left _ (Nat.div_le_self _ _)).trans_lt h.2.1
  rw [int128_of_natCast hleft, int128_of_natCast hright, int128_of_lt (by omega)]

/-- Where the products fit, the difference is what it should be. -/
lemma difference_spec {a b : Fraction} (h : Comparable a b) :
    0 < (difference a b).2 ∧ ((difference a b).1 : ℚ) / (difference a b).2 = a.value - b.value := by
  have hgpos : 0 < a.den.gcd b.den := Nat.gcd_pos_of_pos_left _ a.den_pos
  have hga : a.den.gcd b.den ∣ a.den := Nat.gcd_dvd_left _ _
  have hgb : a.den.gcd b.den ∣ b.den := Nat.gcd_dvd_right _ _
  rw [difference]
  dsimp only
  rw [numerator_eq h]
  generalize a.den.gcd b.den = g at hgpos hga hgb ⊢
  generalize hnum : ((a.num * (b.den / g) : ℕ) - (b.num * (a.den / g) : ℕ) : ℤ) = num
  have hg'num : ((num.natAbs.gcd g : ℕ) : ℤ) ∣ num := Int.natCast_dvd.mpr (Nat.gcd_dvd_left _ _)
  have hg'den : num.natAbs.gcd g ∣ b.den := (Nat.gcd_dvd_right _ _).trans hgb
  have hg'pos : 0 < num.natAbs.gcd g := Nat.gcd_pos_of_pos_right _ hgpos
  generalize num.natAbs.gcd g = g' at hg'num hg'den hg'pos ⊢
  have hden : a.den / g * (b.den / g') < 2 ^ 128 :=
    (Nat.mul_le_mul (Nat.div_le_self _ _) (Nat.div_le_self _ _)).trans_lt h.2.2
  have hdenpos : 0 < a.den / g * (b.den / g') := Nat.mul_pos
    (Nat.div_pos (Nat.le_of_dvd a.den_pos hga) hgpos) (Nat.div_pos (Nat.le_of_dvd b.den_pos hg'den) hg'pos)
  rw [int128_of_natCast hden]
  refine ⟨by exact_mod_cast hdenpos, ?_⟩
  have hgq : (g : ℚ) ≠ 0 := by exact_mod_cast hgpos.ne'
  have hg'q : (g' : ℚ) ≠ 0 := by exact_mod_cast hg'pos.ne'
  have hxq : (a.den : ℚ) ≠ 0 := a.cast_pos.2.ne'
  have hyq : (b.den : ℚ) ≠ 0 := b.cast_pos.2.ne'
  have hnumq : (num : ℚ) = a.num * (b.den / g) - b.num * (a.den / g) := by
    rw [← hnum, Int.cast_sub, Int.cast_natCast, Int.cast_natCast, Nat.cast_mul, Nat.cast_mul,
      Nat.cast_div hgb hgq, Nat.cast_div hga hgq]
  rw [Int.cast_div hg'num (by exact_mod_cast hg'q), Int.cast_natCast, Int.cast_natCast, Nat.cast_mul,
    Nat.cast_div hga hgq, Nat.cast_div hg'den hg'q, hnumq, Fraction.value, Fraction.value]
  field_simp

lemma nearer128_exact : ExactWithin nearer128 := by
  intro a b c hac hbc
  obtain ⟨hpos, heq⟩ := difference_spec hac
  obtain ⟨hpos', heq'⟩ := difference_spec hbc
  have hpos : (0 : ℚ) < (difference a c).2 := by exact_mod_cast hpos
  have hpos' : (0 : ℚ) < (difference b c).2 := by exact_mod_cast hpos'
  rw [nearer128, decide_eq_true_eq, ← heq, ← heq', abs_div, abs_div, abs_of_pos hpos, abs_of_pos hpos',
    div_lt_div_iff₀ hpos hpos']
  exact_mod_cast Iff.rfl

/-- 128 bits are enough, if the exact product has no more than 78. -/
lemma comparesWithin_of_lt (hnum : ocp.num < 2 ^ 78) (hden : ocp.den < 2 ^ 78) : ComparesWithin ocp := by
  have hcomparable {c : Fraction} (hc : Fits c) : Comparable c ocp := by
    have hmax : maxShares * 2 ^ 78 < 2 ^ 128 := by decide
    refine ⟨?_, ?_, ?_⟩
    · exact (Nat.mul_le_mul hc.1 hden.le).trans_lt hmax
    · rw [mul_comm]
      exact (Nat.mul_le_mul hc.2 hnum.le).trans_lt hmax
    · exact (Nat.mul_le_mul hc.2 hden.le).trans_lt hmax
  exact fun _ _ => ⟨hcomparable (candidate_fits ocp), hcomparable (intoRange_fits ocp false)⟩

/-- **Prices times ratios.** -/
theorem scales_right (hn : ExactWithin nearer) :
    (∀ (p : Price) (r : RatioType) (hp : p.Valid) (hr : 0 < r.numerator),
      ComparesWithin (exactProduct p r hp hr) →
        ∃ np, p.mulRatio nearer r = .ok np ∧ ScalesRight p r (exactProduct p r hp hr) np) ∧
    (∀ (debt collateral : Asset) (ratio : ℕ) (hdebt : 0 < debt.amount)
      (hcollateral : 0 < collateral.amount) (hratio : 0 < ratio), debt.assetId ≠ collateral.assetId →
        InLimits (callPrice debt collateral ratio hdebt hcollateral hratio)) ∧
    ∀ f : MarginFeed, InLimits f.maxShortSqueezePrice ∧ InLimits f.maxCollateralPrice ∧
      ∀ (ratio : ℕ) (hratio : 0 < ratio), InLimits (f.userCollateralPrice ratio hratio) :=
  ⟨fun _ _ hp hr hw => scalesRight hn hp hr hw,
    fun _ _ _ hdebt hcollateral hratio hne => inLimits_callPrice hdebt hcollateral hratio hne,
    fun f => ⟨inLimits_collateralPrice f.valid _, inLimits_collateralPrice f.valid _,
      fun _ hratio => inLimits_collateralPrice f.valid hratio⟩⟩

lemma share_large : Share 2000000000000001 := by decide

/-- More than the limit of the core asset for three of asset 1. -/
def largeForThree : Price := ⟨⟨2000000000000001, 0, share_large⟩, ⟨3, 1, share_three⟩⟩

lemma largeForThree_valid : largeForThree.Valid := ⟨by decide, by decide, by decide⟩

lemma range_half : -2 ^ 31 ≤ (1 : ℤ) ∧ (1 : ℤ) < 2 ^ 31 := by decide

lemma range_half' : 0 < 2 ∧ 2 < 2 ^ 31 := by decide

lemma coprime_half : (1 : ℤ).natAbs.Coprime 2 := by decide

/-- One half. -/
def oneHalf : RatioType := ⟨1, 2, range_half, range_half', coprime_half⟩

lemma oneHalf_pos : 0 < oneHalf.numerator := by decide

/-- The half of a price that has to be brought into range. -/
theorem scales_right_half : ∃ np, largeForThree.mulRatio nearer128 oneHalf = .ok np ∧
    ScalesRight largeForThree oneHalf
      (exactProduct largeForThree oneHalf largeForThree_valid oneHalf_pos) np :=
  (scales_right nearer128_exact).1 largeForThree oneHalf largeForThree_valid oneHalf_pos
    (comparesWithin_of_lt (by decide +kernel) (by decide +kernel))

/-- A round of the loop of `operator *`. -/
def halfOf (cp : Fraction) : Fraction :=
  if h : 1 < cp.num ∧ 1 < cp.den then
    .of (cp.num / 2) (cp.den / 2) (Nat.div_pos h.1 two_pos) (Nat.div_pos h.2 two_pos)
  else cp

/-- The loop goes on to halve. -/
def Halves (cp : Fraction) : Prop :=
  (maxShares < cp.num ∨ maxShares < cp.den) ∧ 1 < cp.num ∧ 1 < cp.den

instance (cp : Fraction) : Decidable (Halves cp) := instDecidableAnd

lemma intoRange_halfOf {b : Bool} (h : Halves cp) : intoRange cp b = intoRange (halfOf cp) true := by
  rw [intoRange, if_pos h.1, dif_neg h.2.1.ne', dif_neg h.2.2.ne', halfOf, dif_pos h.2]

lemma intoRange_iterate (n : ℕ) (h : ∀ i < n, Halves (halfOf^[i] cp)) :
    intoRange cp true = intoRange (halfOf^[n] cp) true := by
  induction n with
  | zero => rfl
  | succ n ih =>
      rw [ih fun i hi => h i (by omega), intoRange_halfOf (h n (by omega)), Function.iterate_succ_apply']

lemma share_almostEven : Share 9223372028264841217 := by decide

lemma share_almostEven' : Share 9223372028264841224 := by decide

/-- Almost one of the core asset for one of asset 1. -/
def almostEven : Price := ⟨⟨9223372028264841217, 0, share_almostEven⟩, ⟨9223372028264841224, 1, share_almostEven'⟩⟩

lemma almostEven_valid : almostEven.Valid := ⟨by decide, by decide, by decide⟩

lemma range_quarter : -2 ^ 31 ≤ (1342177281 : ℤ) ∧ (1342177281 : ℤ) < 2 ^ 31 := by decide

lemma range_quarter' : 0 < 1073741825 ∧ 1073741825 < 2 ^ 31 := by decide

lemma coprime_quarter : (1342177281 : ℤ).natAbs.Coprime 1073741825 := by decide

/-- One and a quarter. -/
def oneAndAQuarter : RatioType := ⟨1342177281, 1073741825, range_quarter, range_quarter', coprime_quarter⟩

lemma oneAndAQuarter_pos : 0 < oneAndAQuarter.numerator := by decide

/-- Their exact product. -/
def quarterProduct : Fraction := exactProduct almostEven oneAndAQuarter almostEven_valid oneAndAQuarter_pos

lemma intoRange_quarterProduct :
    intoRange quarterProduct false = (halfOf^[15] (halfOf quarterProduct), true) := by
  have hfirst : Halves quarterProduct := by decide +kernel
  have hrounds : ∀ i < 15, Halves (halfOf^[i] (halfOf quarterProduct)) := by decide +kernel
  have hfits : Fits (halfOf^[15] (halfOf quarterProduct)) := by
    rw [Fits]
    decide +kernel
  rw [intoRange_halfOf hfirst, intoRange_iterate 15 hrounds, intoRange_of_fits hfits]

/-- One is taken to be nearer, although the other candidate has fifteen digits. -/
lemma product_quarterProduct : product nearer128 quarterProduct = candidate quarterProduct := by
  have hedge : ¬ ((candidate quarterProduct).num = maxShares ∨ (candidate quarterProduct).den = maxShares) := by
    decide +kernel
  have hnearer : nearer128 (candidate quarterProduct) (halfOf^[15] (halfOf quarterProduct))
      quarterProduct = true := by decide +kernel
  rw [product, intoRange_quarterProduct]
  dsimp only
  rw [if_pos rfl, closer, if_neg hedge, if_pos hnearer]

/-- Which is wrong. -/
lemma not_closest_candidate : ¬ Closest quarterProduct (candidate quarterProduct) := by
  intro h
  have hle := h.le_halved
  have hlt : |(halfOf^[15] (halfOf quarterProduct)).value - quarterProduct.value| <
      |(candidate quarterProduct).value - quarterProduct.value| := by decide +kernel
  rw [halved, intoRange_quarterProduct] at hle
  exact absurd hle hlt.not_ge

/-- **Beyond 128 bits.** The product is 1. -/
theorem not_scalesRight_oneAndAQuarter : ¬ ∃ np, almostEven.mulRatio nearer128 oneAndAQuarter = .ok np ∧
    ScalesRight almostEven oneAndAQuarter quarterProduct np := by
  rintro ⟨np, hnp, h⟩
  have hfits : ¬ Fits quarterProduct := by
    rw [Fits]
    decide +kernel
  have hparts : (candidate quarterProduct).num = 1 ∧ (candidate quarterProduct).den = 1 := by decide +kernel
  have hne : oneAndAQuarter.numerator ≠ oneAndAQuarter.denominator := by decide
  obtain ⟨np', -, -, hof, hresult⟩ :=
    mulRatio_eq nearer128 almostEven_valid oneAndAQuarter_pos hne
  rw [← quarterProduct, product_quarterProduct] at hof
  have hside : ¬ OnWrongSide almostEven oneAndAQuarter np'.rate := by
    have hrate : np'.rate = 1 := by
      rw [hof.rate, Fraction.value, hparts.1, hparts.2]
      norm_num
    rw [hrate, OnWrongSide]
    decide +kernel
  obtain ⟨hwrong, -⟩ | ⟨-, heq⟩ := hresult
  · exact absurd hwrong hside
  · rw [heq] at hnp
    cases hnp
    obtain ⟨c, hclosest, hc | ⟨rfl, -⟩⟩ := h.closest hfits hne
    · have hceq : c = candidate quarterProduct :=
        Fraction.ext (by exact_mod_cast hc.1.symm.trans hof.1) (by exact_mod_cast hc.2.symm.trans hof.2)
      rw [hceq] at hclosest
      exact not_closest_candidate hclosest
    · have hbase := hof.1
      rw [hparts.1] at hbase
      exact absurd hbase (by decide)

end ZosCore.Prices
