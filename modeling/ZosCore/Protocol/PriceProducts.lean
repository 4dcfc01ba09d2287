import ZosCore.Protocol.AssetPrices

/-!
Prices times prices (`protocol/asset.cpp`).

The products of the amounts are brought down together until that of the bases is at most `10 ^ 12`;
nothing looks at that of the quotes.

* `Price.mulPrice`: the product, in whichever way the prices share an asset.
* `scale`: the power of 100 that both products are divided by.
* `mulPrice_eq`: the product by the asset that is shared; so it does not depend on the side on which
  that stands (`mulPrice_inverse`).
* `near_exactRate_iff`: what is cut from the products decides how exact the rate is.
* **`composes_iff`**: the products that are prices, and as exact as they should be.
-/

namespace ZosCore.Prices

/-! ### The product -/

/-- `convert_to<int64_t>`: what is too large becomes the largest number. -/
def convertToInt64 (n : ℕ) : ℤ := min n (2 ^ 63 - 1)

lemma share_convertToInt64 (n : ℕ) : Share (convertToInt64 n) := by
  rw [convertToInt64]
  exact ⟨by omega, by omega⟩

/-- The loop of `operator *`. -/
def reduceProducts (base quote : ℕ) : ℕ × ℕ :=
  if base > 1000000000000 then reduceProducts (base / 100) (quote / 100) else (base, quote)
  termination_by base
  decreasing_by exact Nat.div_lt_self (by omega) (by norm_num)

lemma share_tenThousand : Share 10000 := by decide

namespace Price

/-- The prices turned so that the quote of the first is the base of the second. -/
def orient (a b : Price) : Except NumberError (Price × Price) :=
  if a.base.assetId = b.base.assetId then .ok (a.inverse, b)
  else if a.base.assetId = b.quote.assetId then .ok (a.inverse, b.inverse)
  else if a.quote.assetId = b.base.assetId then .ok (a, b)
  else if a.quote.assetId = b.quote.assetId then .ok (a, b.inverse)
  else .error .thrown

/-- A price of an asset for itself. -/
def unit (p : Price) : Price :=
  if p.base.assetId = p.quote.assetId then
    ⟨⟨10000, p.base.assetId, share_tenThousand⟩, ⟨10000, p.quote.assetId, share_tenThousand⟩⟩
  else p

/-- The product of prices that are turned. -/
def composed (a b : Price) : Price :=
  let r := reduceProducts (uint128 (uint128 a.base.amount * b.base.amount))
    (uint128 (uint128 b.quote.amount * a.quote.amount))
  ⟨⟨convertToInt64 r.1, a.base.assetId, share_convertToInt64 _⟩,
    ⟨convertToInt64 r.2, b.quote.assetId, share_convertToInt64 _⟩⟩

/-- `operator *` of two prices. -/
def mulPrice (a b : Price) : Except NumberError Price := do
  let (aP, bP) ← a.orient b
  .ok (aP.unit.composed bP.unit)

end Price

/-! ### The loop -/

/-- The power of 100 that the products are divided by. -/
def scale (base : ℕ) : ℕ := if base > 1000000000000 then 100 * scale (base / 100) else 1
  termination_by base
  decreasing_by exact Nat.div_lt_self (by omega) (by norm_num)

lemma scale_pos (base : ℕ) : 0 < scale base := by
  fun_induction scale base with
  | case1 base h ih => omega
  | case2 base h => omega

lemma reduceProducts_eq (base quote : ℕ) :
    reduceProducts base quote = (base / scale base, quote / scale base) := by
  fun_induction reduceProducts base quote with
  | case1 base quote h ih =>
      rw [ih, scale.eq_def base, if_pos h, Nat.div_div_eq_div_mul, Nat.div_div_eq_div_mul]
  | case2 base quote h => rw [scale, if_neg h, Nat.div_one, Nat.div_one]

/-- What is left of the base is positive, and at most `10 ^ 12`. -/
lemma base_div_scale {base : ℕ} (h : 0 < base) :
    0 < base / scale base ∧ base / scale base ≤ 1000000000000 := by
  fun_induction scale base with
  | case1 base hbig ih =>
      rw [← Nat.div_div_eq_div_mul]
      exact ih (by omega)
  | case2 base hsmall =>
      rw [Nat.div_one]
      omega

/-! ### The asset that is shared -/

/-- Two prices share one asset, and only that. -/
structure Shares (a b : Price) (c : ℕ) : Prop where
  first : a.IsFor c
  second : b.IsFor c
  only : (a.otherSide c).assetId ≠ (b.otherSide c).assetId

/-- The product of the bases: what remains of the first price, and what is shared of the second. -/
def baseProduct (a b : Price) (c : ℕ) : ℕ := ((a.otherSide c).amount * (b.side c).amount).toNat

/-- The product of the quotes. -/
def quoteProduct (a b : Price) (c : ℕ) : ℕ := ((b.otherSide c).amount * (a.side c).amount).toNat

variable {a b p : Price} {c : ℕ}

lemma side_inverse (h : p.Valid) (hc : p.IsFor c) :
    p.inverse.side c = p.side c ∧ p.inverse.otherSide c = p.otherSide c := by
  rw [Price.side, Price.side, Price.otherSide, Price.otherSide, Price.inverse]
  rcases hc with rfl | rfl
  · rw [if_neg h.distinct, if_pos rfl, if_neg h.distinct, if_pos rfl]
    exact ⟨rfl, rfl⟩
  · rw [if_pos rfl, if_neg h.distinct.symm, if_pos rfl, if_neg h.distinct.symm]
    exact ⟨rfl, rfl⟩

lemma Price.Valid.inverse (h : p.Valid) : p.inverse.Valid :=
  ⟨h.quote_pos, h.base_pos, h.distinct.symm⟩

lemma Price.Valid.unit_eq (h : p.Valid) : p.unit = p := if_neg h.distinct

lemma side_of_base (h : c = p.base.assetId) : p.side c = p.base ∧ p.otherSide c = p.quote :=
  ⟨if_pos h, if_pos h⟩

lemma Price.Valid.side_of_quote (hp : p.Valid) (h : c = p.quote.assetId) :
    p.side c = p.quote ∧ p.otherSide c = p.base :=
  have hbase : c ≠ p.base.assetId := fun hc => hp.distinct (hc.symm.trans h)
  ⟨if_neg hbase, if_neg hbase⟩

/-- The prices are turned to the asset that they share. -/
lemma orient_eq (ha : a.Valid) (hb : b.Valid) (h : Shares a b c) :
    a.orient b = .ok (⟨a.otherSide c, a.side c⟩, ⟨b.side c, b.otherSide c⟩) := by
  have honly := h.only
  rw [Price.orient]
  rcases h.first with hca | hca <;> rcases h.second with hcb | hcb
  · rw [(side_of_base hca).1, (side_of_base hca).2, (side_of_base hcb).1, (side_of_base hcb).2,
      if_pos (hca.symm.trans hcb)]
    rfl
  · have hne : a.base.assetId ≠ b.base.assetId := fun h => hb.distinct (h.symm.trans (hca.symm.trans hcb))
    rw [(side_of_base hca).1, (side_of_base hca).2, (hb.side_of_quote hcb).1, (hb.side_of_quote hcb).2,
      if_neg hne, if_pos (hca.symm.trans hcb)]
    rfl
  · rw [(ha.side_of_quote hca).2, (side_of_base hcb).2] at honly
    have hne : a.base.assetId ≠ b.base.assetId := fun h => ha.distinct (h.trans (hcb.symm.trans hca))
    rw [(ha.side_of_quote hca).1, (ha.side_of_quote hca).2, (side_of_base hcb).1, (side_of_base hcb).2,
      if_neg hne, if_neg honly, if_pos (hca.symm.trans hcb)]
  · rw [(ha.side_of_quote hca).2, (hb.side_of_quote hcb).2] at honly
    have hne : a.base.assetId ≠ b.quote.assetId := fun h => ha.distinct (h.trans (hcb.symm.trans hca))
    have hne' : a.quote.assetId ≠ b.base.assetId := fun h => hb.distinct (h.symm.trans (hca.symm.trans hcb))
    rw [(ha.side_of_quote hca).1, (ha.side_of_quote hca).2, (hb.side_of_quote hcb).1,
      (hb.side_of_quote hcb).2, if_neg honly, if_neg hne, if_neg hne', if_pos (hca.symm.trans hcb)]
    rfl

/-- The sides of a price are a price. -/
lemma Price.Valid.sides (hp : p.Valid) (h : p.IsFor c) :
    Price.Valid ⟨p.side c, p.otherSide c⟩ ∧ Price.Valid ⟨p.otherSide c, p.side c⟩ := by
  rcases h with h | h
  · rw [(side_of_base h).1, (side_of_base h).2]
    exact ⟨hp, hp.inverse⟩
  · rw [(hp.side_of_quote h).1, (hp.side_of_quote h).2]
    exact ⟨hp.inverse, hp⟩

lemma uint128_product_eq {x y : Asset} (hx : 0 ≤ x.amount) (hy : 0 ≤ y.amount) :
    uint128 (uint128 x.amount * y.amount) = (x.amount * y.amount).toNat := by
  rw [← uint128_product hx hy x.share y.share, Int.toNat_natCast]

/-- The product, by the asset that is shared. -/
lemma mulPrice_eq (ha : a.Valid) (hb : b.Valid) (h : Shares a b c) : a.mulPrice b =
    .ok ⟨⟨convertToInt64 (baseProduct a b c / scale (baseProduct a b c)), (a.otherSide c).assetId,
        share_convertToInt64 _⟩,
      ⟨convertToInt64 (quoteProduct a b c / scale (baseProduct a b c)), (b.otherSide c).assetId,
        share_convertToInt64 _⟩⟩ := by
  obtain ⟨haside, haother⟩ := ha.side_pos c
  obtain ⟨hbside, hbother⟩ := hb.side_pos c
  have hbase : uint128 (uint128 (a.otherSide c).amount * (b.side c).amount) = baseProduct a b c :=
    uint128_product_eq haother.le hbside.le
  have hquote : uint128 (uint128 (b.otherSide c).amount * (a.side c).amount) = quoteProduct a b c :=
    uint128_product_eq hbother.le haside.le
  have hreduce := reduceProducts_eq (baseProduct a b c) (quoteProduct a b c)
  rw [Price.mulPrice, orient_eq ha hb h, except_ok_bind]
  dsimp only
  rw [(ha.sides h.first).2.unit_eq, (hb.sides h.second).1.unit_eq]
  simp only [Price.composed, hbase, hquote, hreduce]

/-- So the product does not depend on the side on which the asset stands. -/
lemma mulPrice_inverse (ha : a.Valid) (hb : b.Valid) (h : Shares a b c) :
    a.inverse.mulPrice b = a.mulPrice b ∧ a.mulPrice b.inverse = a.mulPrice b := by
  obtain ⟨haside, haother⟩ := side_inverse ha h.first
  obtain ⟨hbside, hbother⟩ := side_inverse hb h.second
  have hfirst : Shares a.inverse b c := ⟨h.first.symm, h.second, by rw [haother]; exact h.only⟩
  have hsecond : Shares a b.inverse c := ⟨h.first, h.second.symm, by rw [hbother]; exact h.only⟩
  rw [mulPrice_eq ha.inverse hb hfirst, mulPrice_eq ha hb.inverse hsecond, mulPrice_eq ha hb h]
  simp only [baseProduct, quoteProduct, haside, haother, hbside, hbother]
  exact ⟨trivial, trivial⟩

/-! ### How exact the product is -/

/-- The product of the rates. -/
def exactRate (a b : Price) (c : ℕ) : ℚ :=
  Price.rate ⟨a.otherSide c, a.side c⟩ * Price.rate ⟨b.side c, b.otherSide c⟩

/-- What of the product of the bases is divided away. -/
def cutFromBase (a b : Price) (c : ℕ) : ℕ := baseProduct a b c % scale (baseProduct a b c)

/-- What of the product of the quotes is divided away, or is beyond 64 bits. -/
def cutFromQuote (a b : Price) (c : ℕ) : ℕ :=
  max (quoteProduct a b c % scale (baseProduct a b c))
    (quoteProduct a b c - scale (baseProduct a b c) * (2 ^ 63 - 1))

/-- The product of two prices is a price for what they do not share, and where both products are large its
rate is near the exact one; and either of the prices can be turned around. -/
def Composes (a b : Price) (c : ℕ) : Prop :=
  (∃ r, a.mulPrice b = .ok r ∧ r.base.assetId = (a.otherSide c).assetId ∧
    r.quote.assetId = (b.otherSide c).assetId ∧ (0 < r.base.amount ∧ Share r.base.amount) ∧
      (0 < r.quote.amount ∧ Share r.quote.amount) ∧
        (1000000000000 < baseProduct a b c → 1000000000000 < quoteProduct a b c →
          |r.rate - exactRate a b c| ≤ exactRate a b c / 1000000000)) ∧
  a.inverse.mulPrice b = a.mulPrice b ∧ a.mulPrice b.inverse = a.mulPrice b

lemma products_pos (ha : a.Valid) (hb : b.Valid) :
    0 < baseProduct a b c ∧ 0 < quoteProduct a b c := by
  obtain ⟨haside, haother⟩ := ha.side_pos c
  obtain ⟨hbside, hbother⟩ := hb.side_pos c
  rw [baseProduct, quoteProduct, Int.lt_toNat, Int.lt_toNat]
  exact ⟨mul_pos haother hbside, mul_pos hbother haside⟩

/-- The exact rate is that of the products. -/
lemma exactRate_eq (ha : a.Valid) (hb : b.Valid) :
    exactRate a b c = baseProduct a b c / quoteProduct a b c := by
  obtain ⟨haside, haother⟩ := ha.side_pos c
  obtain ⟨hbside, hbother⟩ := hb.side_pos c
  have hbase : (baseProduct a b c : ℤ) = (a.otherSide c).amount * (b.side c).amount :=
    Int.toNat_of_nonneg (mul_nonneg haother.le hbside.le)
  have hquote : (quoteProduct a b c : ℤ) = (b.otherSide c).amount * (a.side c).amount :=
    Int.toNat_of_nonneg (mul_nonneg hbother.le haside.le)
  rw [exactRate, Price.rate, Price.rate, div_mul_div_comm, ← Int.cast_mul, ← Int.cast_mul,
    mul_comm (a.side c).amount, ← hbase, ← hquote, Int.cast_natCast, Int.cast_natCast]

/-- The base is what is left of its product. -/
lemma base_of_product (h : 0 < baseProduct a b c) :
    convertToInt64 (baseProduct a b c / scale (baseProduct a b c)) * scale (baseProduct a b c) =
      baseProduct a b c - cutFromBase a b c := by
  have hle := (base_div_scale h).2
  have hdiv := Nat.div_add_mod (baseProduct a b c) (scale (baseProduct a b c))
  rw [convertToInt64, min_eq_left (by omega), cutFromBase, eq_sub_iff_add_eq, mul_comm]
  exact_mod_cast hdiv

/-- A quotient that is cut at a bound. -/
lemma min_div_mul (q m : ℕ) {s : ℕ} (hs : 0 < s) :
    (min (q / s) m : ℕ) * s + max (q % s) (q - s * m) = q := by
  have hdiv := Nat.div_add_mod q s
  rcases le_or_gt (q / s) m with hle | hgt
  · have hmul : s * (q / s) ≤ s * m := Nat.mul_le_mul_left s hle
    rw [min_eq_left hle, max_eq_left (by omega), mul_comm, hdiv]
  · have hmul : s * (m + 1) ≤ s * (q / s) := Nat.mul_le_mul_left s hgt
    have hmod := Nat.mod_lt q hs
    rw [mul_add, mul_one] at hmul
    rw [min_eq_right hgt.le, max_eq_right (by omega), mul_comm]
    omega

/-- The quote is what is left of its product. -/
lemma quote_of_product : convertToInt64 (quoteProduct a b c / scale (baseProduct a b c)) *
    scale (baseProduct a b c) = quoteProduct a b c - cutFromQuote a b c := by
  have hcut := min_div_mul (quoteProduct a b c) (2 ^ 63 - 1) (scale_pos (baseProduct a b c))
  have hmin (n : ℕ) : min (n : ℤ) (2 ^ 63 - 1) = (min n (2 ^ 63 - 1) : ℕ) := by
    rw [Nat.cast_min]
    norm_num
  rw [convertToInt64, cutFromQuote, eq_sub_iff_add_eq, hmin]
  exact_mod_cast hcut

/-- Rates are within a billionth of each other. -/
lemma abs_rate_sub_le_iff {x y base quote : ℚ} (hy : 0 < y) (hquote : 0 < quote) :
    |x / y - base / quote| ≤ base / quote / 1000000000 ↔
      |x * quote - base * y| * 1000000000 ≤ base * y := by
  rw [div_sub_div _ _ hy.ne' hquote.ne', abs_div, abs_of_pos (mul_pos hy hquote), div_div,
    div_le_div_iff₀ (mul_pos hy hquote) (by positivity), mul_comm y base]
  constructor
  · intro h
    have h' : quote * (|x * quote - base * y| * 1000000000) ≤ quote * (base * y) := by linarith
    exact le_of_mul_le_mul_left h' hquote
  · intro h
    have h' := mul_le_mul_of_nonneg_left h hquote.le
    linarith

lemma convertToInt64_pos {n : ℕ} : 0 < convertToInt64 n ↔ 0 < n := by
  rw [convertToInt64]
  omega

/-- The rate of the product is as exact as what is cut from both products is proportionate. -/
lemma near_exactRate_iff (ha : a.Valid) (hb : b.Valid)
    (hquote : 0 < quoteProduct a b c / scale (baseProduct a b c)) :
    |(convertToInt64 (baseProduct a b c / scale (baseProduct a b c)) /
        convertToInt64 (quoteProduct a b c / scale (baseProduct a b c)) : ℚ) - exactRate a b c| ≤
          exactRate a b c / 1000000000 ↔
      |(quoteProduct a b c * cutFromBase a b c : ℤ) - baseProduct a b c * cutFromQuote a b c| *
        1000000000 ≤ baseProduct a b c * (quoteProduct a b c - cutFromQuote a b c) := by
  obtain ⟨hB, hQ⟩ := products_pos (c := c) ha hb
  have hbase := base_of_product hB
  have hcut := quote_of_product (a := a) (b := b) (c := c)
  have hpos := convertToInt64_pos.mpr hquote
  have hscale : (0 : ℤ) < scale (baseProduct a b c) := by exact_mod_cast scale_pos _
  rw [exactRate_eq ha hb, abs_rate_sub_le_iff (by exact_mod_cast hpos) (by exact_mod_cast hQ)]
  generalize convertToInt64 (baseProduct a b c / scale (baseProduct a b c)) = x at hbase ⊢
  generalize convertToInt64 (quoteProduct a b c / scale (baseProduct a b c)) = y at hcut ⊢
  have hdiff : (quoteProduct a b c * cutFromBase a b c : ℤ) - baseProduct a b c * cutFromQuote a b c =
      -((x * quoteProduct a b c - baseProduct a b c * y) * scale (baseProduct a b c)) := by
    linear_combination quoteProduct a b c * hbase - baseProduct a b c * hcut
  rw [hdiff, ← hcut, abs_neg, abs_mul, abs_of_pos hscale, mul_right_comm, ← mul_assoc,
    mul_le_mul_iff_left₀ hscale]
  exact_mod_cast Iff.rfl

/-- **Composed prices.** -/
theorem composes_iff (ha : a.Valid) (hb : b.Valid) (h : Shares a b c) :
    Composes a b c ↔ scale (baseProduct a b c) ≤ quoteProduct a b c ∧
      (1000000000000 < baseProduct a b c → 1000000000000 < quoteProduct a b c →
        |(quoteProduct a b c * cutFromBase a b c : ℤ) - baseProduct a b c * cutFromQuote a b c| *
          1000000000 ≤ baseProduct a b c * (quoteProduct a b c - cutFromQuote a b c)) := by
  obtain ⟨hB, hQ⟩ := products_pos (c := c) ha hb
  have hdiv : 0 < quoteProduct a b c / scale (baseProduct a b c) ↔
      scale (baseProduct a b c) ≤ quoteProduct a b c := by
    rw [Nat.div_pos_iff, and_iff_right (scale_pos _)]
  rw [← hdiv]
  constructor
  · rintro ⟨⟨r, hr, -, -, -, ⟨hquote, -⟩, hnear⟩, -, -⟩
    rw [mulPrice_eq ha hb h] at hr
    cases hr
    have hpos := convertToInt64_pos.mp hquote
    exact ⟨hpos, fun hb' hq' => (near_exactRate_iff ha hb hpos).mp (hnear hb' hq')⟩
  · rintro ⟨hpos, hnear⟩
    have hbase := convertToInt64_pos.mpr (base_div_scale hB).1
    exact ⟨⟨_, mulPrice_eq ha hb h, rfl, rfl, ⟨hbase, share_convertToInt64 _⟩,
      ⟨convertToInt64_pos.mpr hpos, share_convertToInt64 _⟩,
        fun hb' hq' => (near_exactRate_iff ha hb hpos).mpr (hnear hb' hq')⟩, mulPrice_inverse ha hb h⟩

lemma share_twoTrillions : Share 2000000000000 := by decide

lemma share_one : Share 1 := by decide

/-- Two trillions of the core asset for one of asset 1. -/
def dear : Price := ⟨⟨2000000000000, 0, share_twoTrillions⟩, ⟨1, 1, share_one⟩⟩

/-- One of asset 1 for one of asset 2. -/
def even : Price := ⟨⟨1, 1, share_one⟩, ⟨1, 2, share_one⟩⟩

lemma dear_valid : dear.Valid := ⟨by decide, by decide, by decide⟩

lemma even_valid : even.Valid := ⟨by decide, by decide, by decide⟩

lemma shares_one {p : Price} (hp : p = threeForSeven ∨ p = dear) : Shares p even 1 := by
  rcases hp with rfl | rfl
  · exact ⟨.inr rfl, .inl rfl, by decide⟩
  · exact ⟨.inr rfl, .inl rfl, by decide⟩

/-- Three of the core asset for seven of asset 2. -/
theorem composes_iff_seven : Composes threeForSeven even 1 := by
  have hbase : baseProduct threeForSeven even 1 = 3 := by decide
  have hquote : quoteProduct threeForSeven even 1 = 7 := by decide
  have hscale : scale 3 = 1 := by rw [scale, if_neg (by decide)]
  refine (composes_iff threeForSeven_valid even_valid (shares_one (.inl rfl))).mpr ⟨?_, ?_⟩
  · rw [hbase, hquote, hscale]
    decide
  · rw [hbase]
    intro h
    omega

/-- The quote of one is divided to zero. -/
theorem not_composes_dear : dear.Valid ∧ even.Valid ∧ Shares dear even 1 ∧ ¬ Composes dear even 1 := by
  have hbase : baseProduct dear even 1 = 2000000000000 := by decide
  have hquote : quoteProduct dear even 1 = 1 := by decide
  have hscale : scale 2000000000000 = 100 := by
    rw [scale, if_pos (by decide), scale, if_neg (by decide)]
  refine ⟨dear_valid, even_valid, shares_one (.inr rfl), ?_⟩
  rintro ⟨⟨r, hr, -, -, -, ⟨hpos, -⟩, -⟩, -, -⟩
  rw [mulPrice_eq dear_valid even_valid (shares_one (.inr rfl)), hbase, hquote, hscale] at hr
  cases hr
  exact absurd (convertToInt64_pos.mp hpos) (by decide)

end ZosCore.Prices
