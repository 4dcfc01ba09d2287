import Mathlib.Algebra.Order.Floor.Ring
import ZosCore.Economy.Supply
import ZosCore.Protocol.SafeInt

/-!
Amounts times prices, and the order of prices (`protocol/asset.cpp`).

* `Asset`, `Price`: amounts of 64 bits; `Price.Valid` is what `price::validate` asks for.
* `Asset.mul`, `Asset.multiplyAndRoundUp`: the products, in 128 bits without a sign.
* `Asset.mul_spec`, `Asset.multiplyAndRoundUp_spec`: the floor and the ceiling of the exact product,
  where they are within their bounds.
* `Price.lt_iff`, `Price.eq_iff`: the comparisons are those of the rates.
* **`prices_round`**: all of this, and what converting an amount there and back makes of it.
-/

namespace ZosCore.Prices

/-! ### Amounts and prices -/

/-- `asset` -/
structure Asset where
  amount : ℤ
  assetId : ℕ
  share : Share amount

/-- `price` -/
structure Price where
  base : Asset
  quote : Asset

/-- The larger bound of the products fits into 64 bits. -/
lemma share_of_le {n : ℕ} (h : (n : ℤ) ≤ maxBitcoreSupply) : Share n := by
  rw [maxBitcoreSupply] at h
  exact ⟨by omega, by omega⟩

lemma maxShareSupply_le : maxShareSupply ≤ maxBitcoreSupply := by decide

namespace Price

variable (a b : Price)

/-- `operator ~` -/
def inverse : Price := ⟨a.quote, a.base⟩

/-- `price::validate` -/
structure Valid : Prop where
  base_pos : 0 < a.base.amount
  quote_pos : 0 < a.quote.amount
  distinct : a.base.assetId ≠ a.quote.assetId

/-- `amult` of the comparisons; `bmult` is the same with the prices exchanged. -/
def mult : ℕ := uint128 (uint128 b.quote.amount * a.base.amount)

/-- `operator ==` -/
def eq : Bool :=
  if a.base.assetId ≠ b.base.assetId ∨ a.quote.assetId ≠ b.quote.assetId then false
  else a.mult b = b.mult a

/-- `operator <` -/
def lt : Bool :=
  if a.base.assetId < b.base.assetId then true
  else if a.base.assetId > b.base.assetId then false
  else if a.quote.assetId < b.quote.assetId then true
  else if a.quote.assetId > b.quote.assetId then false
  else a.mult b < b.mult a

/-- `operator <=` -/
def le : Bool := a.eq b || a.lt b

/-- `operator !=` -/
def ne : Bool := !a.eq b

/-- `operator >` -/
def gt : Bool := !a.le b

/-- `operator >=` -/
def ge : Bool := !a.lt b

/-- The base, for one of the quote. -/
def rate : ℚ := a.base.amount / a.quote.amount

end Price

namespace Asset

/-- A branch of `operator *`: the amount is paid in `pay` and comes back in `receive`. -/
def mulBranch (a receive pay : Asset) : Except NumberError Asset :=
  if ¬ pay.amount > 0 then .error .assertion
  else if h : (uint128 (uint128 a.amount * receive.amount) / pay.amount.toNat : ℕ) ≤
      maxBitcoreSupply then .ok ⟨_, receive.assetId, share_of_le h⟩
  else .error .assertion

/-- `operator *` of an amount and a price. -/
def mul (a : Asset) (b : Price) : Except NumberError Asset :=
  if a.assetId = b.base.assetId then a.mulBranch b.quote b.base
  else if a.assetId = b.quote.assetId then a.mulBranch b.base b.quote
  else .error .thrown

/-- A branch of `multiply_and_round_up`. -/
def roundUpBranch (a receive pay : Asset) : Except NumberError Asset :=
  if ¬ pay.amount > 0 then .error .assertion
  else if h : (uint128 (uint128 (uint128 (uint128 a.amount * receive.amount) + pay.amount) - 1) /
      pay.amount.toNat : ℕ) ≤ maxShareSupply then
    .ok ⟨_, receive.assetId, share_of_le (h.trans maxShareSupply_le)⟩
  else .error .assertion

/-- `asset::multiply_and_round_up` -/
def multiplyAndRoundUp (a : Asset) (b : Price) : Except NumberError Asset :=
  if a.assetId = b.base.assetId then a.roundUpBranch b.quote b.base
  else if a.assetId = b.quote.assetId then a.roundUpBranch b.base b.quote
  else .error .thrown

end Asset

/-! ### Exact products -/

/-- The side of a price on which an asset is. -/
def Price.side (p : Price) (assetId : ℕ) : Asset := if assetId = p.base.assetId then p.base else p.quote

/-- The other side. -/
def Price.otherSide (p : Price) (assetId : ℕ) : Asset :=
  if assetId = p.base.assetId then p.quote else p.base

/-- `price::is_for` -/
def Price.IsFor (p : Price) (assetId : ℕ) : Prop := assetId = p.base.assetId ∨ assetId = p.quote.assetId

/-- The exact product of an amount and a price. -/
def Asset.exact (a : Asset) (p : Price) : ℚ :=
  a.amount * (p.otherSide a.assetId).amount / (p.side a.assetId).amount

/-- A computation gives the amount `n` of the asset, or fails because it is beyond the bound. -/
def Gives (x : Except NumberError Asset) (bound n : ℤ) (assetId : ℕ) : Prop :=
  if n ≤ bound then ∃ r, x = .ok r ∧ r.amount = n ∧ r.assetId = assetId else x = .error .assertion

variable {a b c : Asset} {p q : Price}

lemma floor_ratio {x d : ℤ} (hd : 0 < d) : ⌊(x : ℚ) / d⌋ = x / d := by
  have hdq : (0 : ℚ) < d := by exact_mod_cast hd
  have hle := Int.ediv_mul_le x hd.ne'
  have hlt := Int.lt_ediv_add_one_mul_self x hd
  rw [Int.floor_eq_iff, le_div_iff₀ hdq, div_lt_iff₀ hdq]
  exact ⟨by exact_mod_cast hle, by exact_mod_cast hlt⟩

lemma ceil_ratio {x d : ℤ} (hd : 0 < d) : ⌈(x : ℚ) / d⌉ = (x + d - 1) / d := by
  have hdq : (0 : ℚ) < d := by exact_mod_cast hd
  have hle := Int.ediv_mul_le (x + d - 1) hd.ne'
  have hlt := Int.lt_ediv_add_one_mul_self (x + d - 1) hd
  have hlower : ((x + d - 1) / d - 1) * d < x := by
    rw [sub_mul, one_mul]
    omega
  have hupper : x ≤ (x + d - 1) / d * d := by
    rw [add_mul, one_mul] at hlt
    omega
  rw [Int.ceil_eq_iff, lt_div_iff₀ hdq, div_le_iff₀ hdq]
  exact ⟨by exact_mod_cast hlower, by exact_mod_cast hupper⟩

/-- Products of two amounts fit into 128 bits. -/
lemma product_bounds {x y : ℤ} (hx : 0 ≤ x) (hy : 0 ≤ y) (hx' : Share x) (hy' : Share y) :
    0 ≤ x * y ∧ x * y < 2 ^ 126 := by
  refine ⟨mul_nonneg hx hy, ?_⟩
  calc x * y ≤ (2 ^ 63 - 1) * (2 ^ 63 - 1) :=
        mul_le_mul (by have := hx'.2; omega) (by have := hy'.2; omega) hy (by norm_num)
    _ < 2 ^ 126 := by norm_num

lemma uint128_product {x y : ℤ} (hx : 0 ≤ x) (hy : 0 ≤ y) (hx' : Share x) (hy' : Share y) :
    (uint128 (uint128 x * y) : ℤ) = x * y := by
  obtain ⟨h0, h1⟩ := product_bounds hx hy hx' hy'
  have hxbound := hx'.2
  rw [uint128_of_nonneg hx (by omega), uint128_of_nonneg h0 (by omega)]

/-- A branch of `operator *` gives the floor. -/
lemma Asset.mulBranch_gives {receive pay : Asset} (ha : 0 ≤ a.amount) (hr : 0 ≤ receive.amount)
    (hp : 0 < pay.amount) : Gives (a.mulBranch receive pay) maxBitcoreSupply
      ⌊(a.amount * receive.amount : ℚ) / pay.amount⌋ receive.assetId := by
  have hresult : ((uint128 (uint128 a.amount * receive.amount) / pay.amount.toNat : ℕ) : ℤ) =
      ⌊(a.amount * receive.amount : ℚ) / pay.amount⌋ := by
    rw [← Int.cast_mul, floor_ratio hp, Int.natCast_ediv, uint128_product ha hr a.share receive.share,
      Int.toNat_of_nonneg hp.le]
  rw [Gives, Asset.mulBranch, if_neg (not_not.mpr hp), ← hresult]
  split_ifs with h
  · exact ⟨_, rfl, rfl, rfl⟩
  · rfl

/-- A branch of `multiply_and_round_up` gives the ceiling. -/
lemma Asset.roundUpBranch_gives {receive pay : Asset} (ha : 0 ≤ a.amount) (hr : 0 ≤ receive.amount)
    (hp : 0 < pay.amount) : Gives (a.roundUpBranch receive pay) maxShareSupply
      ⌈(a.amount * receive.amount : ℚ) / pay.amount⌉ receive.assetId := by
  have hbounds := product_bounds ha hr a.share receive.share
  have hpay := pay.share.2
  have hadd : (uint128 (uint128 (uint128 a.amount * receive.amount) + pay.amount) : ℤ) =
      a.amount * receive.amount + pay.amount := by
    rw [uint128_product ha hr a.share receive.share, uint128_of_nonneg (by omega) (by omega)]
  have hsum : (uint128 (uint128 (uint128 (uint128 a.amount * receive.amount) + pay.amount) - 1) : ℤ) =
      a.amount * receive.amount + pay.amount - 1 := by
    rw [hadd, uint128_of_nonneg (by omega) (by omega)]
  have hresult : ((uint128 (uint128 (uint128 (uint128 a.amount * receive.amount) + pay.amount) - 1) /
      pay.amount.toNat : ℕ) : ℤ) = ⌈(a.amount * receive.amount : ℚ) / pay.amount⌉ := by
    rw [← Int.cast_mul, ceil_ratio hp, Int.natCast_ediv, hsum, Int.toNat_of_nonneg hp.le]
  rw [Gives, Asset.roundUpBranch, if_neg (not_not.mpr hp), ← hresult]
  split_ifs with h
  · exact ⟨_, rfl, rfl, rfl⟩
  · rfl

/-- Of the amount's own asset is the side of the price that is paid. -/
lemma Asset.mul_eq (h : p.IsFor a.assetId) :
    a.mul p = a.mulBranch (p.otherSide a.assetId) (p.side a.assetId) := by
  rw [Asset.mul, Price.otherSide, Price.side]
  split_ifs with hbase hquote
  · rfl
  · rfl
  · exact absurd h (not_or.mpr ⟨hbase, hquote⟩)

lemma Asset.multiplyAndRoundUp_eq (h : p.IsFor a.assetId) :
    a.multiplyAndRoundUp p = a.roundUpBranch (p.otherSide a.assetId) (p.side a.assetId) := by
  rw [Asset.multiplyAndRoundUp, Price.otherSide, Price.side]
  split_ifs with hbase hquote
  · rfl
  · rfl
  · exact absurd h (not_or.mpr ⟨hbase, hquote⟩)

lemma Price.Valid.side_pos (hp : p.Valid) (id : ℕ) :
    0 < (p.side id).amount ∧ 0 < (p.otherSide id).amount := by
  rw [Price.side, Price.otherSide]
  split_ifs
  · exact ⟨hp.base_pos, hp.quote_pos⟩
  · exact ⟨hp.quote_pos, hp.base_pos⟩

/-- **The floor.** A product is the exact one, rounded down. -/
lemma Asset.mul_spec (hp : p.Valid) (ha : 0 ≤ a.amount) (h : p.IsFor a.assetId) :
    Gives (a.mul p) maxBitcoreSupply ⌊a.exact p⌋ (p.otherSide a.assetId).assetId := by
  obtain ⟨hside, hother⟩ := hp.side_pos a.assetId
  rw [Asset.mul_eq h]
  exact Asset.mulBranch_gives ha hother.le hside

/-- **The ceiling.** `multiply_and_round_up` gives the exact product, rounded up. -/
lemma Asset.multiplyAndRoundUp_spec (hp : p.Valid) (ha : 0 ≤ a.amount) (h : p.IsFor a.assetId) :
    Gives (a.multiplyAndRoundUp p) maxShareSupply ⌈a.exact p⌉ (p.otherSide a.assetId).assetId := by
  obtain ⟨hside, hother⟩ := hp.side_pos a.assetId
  rw [Asset.multiplyAndRoundUp_eq h]
  exact Asset.roundUpBranch_gives ha hother.le hside

/-- An amount of a third asset has no product. -/
lemma Asset.mul_not_for (h : ¬ p.IsFor a.assetId) :
    a.mul p = .error .thrown ∧ a.multiplyAndRoundUp p = .error .thrown := by
  obtain ⟨hbase, hquote⟩ := not_or.mp h
  rw [Asset.mul, Asset.multiplyAndRoundUp, if_neg hbase, if_neg hquote, if_neg hbase, if_neg hquote]
  exact ⟨rfl, rfl⟩

/-! ### There and back -/

lemma Gives.of_ok {x : Except NumberError Asset} {bound n : ℤ} {id : ℕ} (h : Gives x bound n id)
    (hx : x = .ok b) : b.amount = n ∧ b.assetId = id := by
  rw [Gives, hx] at h
  split_ifs at h
  obtain ⟨r, hr, hn, hid⟩ := h
  cases hr
  exact ⟨hn, hid⟩

/-- The other side of the other side is the side itself. -/
lemma Price.Valid.side_otherSide (hp : p.Valid) {id : ℕ} (h : p.IsFor id) :
    (p.side id).assetId = id ∧ p.IsFor (p.otherSide id).assetId ∧
      p.side (p.otherSide id).assetId = p.otherSide id ∧
        p.otherSide (p.otherSide id).assetId = p.side id := by
  by_cases hid : id = p.base.assetId
  · have hother : p.otherSide id = p.quote := if_pos hid
    have hside : p.side id = p.base := if_pos hid
    rw [hother, hside]
    exact ⟨hid.symm, .inr rfl, if_neg hp.distinct.symm, if_neg hp.distinct.symm⟩
  · have hother : p.otherSide id = p.base := if_neg hid
    have hside : p.side id = p.quote := if_neg hid
    rw [hother, hside]
    exact ⟨(h.resolve_left hid).symm, .inl rfl, if_pos rfl, if_pos rfl⟩

/-- What a product is, if there is one. -/
lemma Asset.mul_of_ok (hp : p.Valid) (ha : 0 ≤ a.amount) (h : a.mul p = .ok b) :
    p.IsFor a.assetId ∧ b.amount = ⌊a.exact p⌋ ∧ b.assetId = (p.otherSide a.assetId).assetId := by
  have hfor : p.IsFor a.assetId := by
    by_contra hfor
    rw [(Asset.mul_not_for hfor).1] at h
    cases h
  exact ⟨hfor, (Asset.mul_spec hp ha hfor).of_ok h⟩

lemma Asset.multiplyAndRoundUp_of_ok (hp : p.Valid) (ha : 0 ≤ a.amount)
    (h : a.multiplyAndRoundUp p = .ok b) :
    p.IsFor a.assetId ∧ b.amount = ⌈a.exact p⌉ ∧ b.assetId = (p.otherSide a.assetId).assetId := by
  have hfor : p.IsFor a.assetId := by
    by_contra hfor
    rw [(Asset.mul_not_for hfor).2] at h
    cases h
  exact ⟨hfor, (Asset.multiplyAndRoundUp_spec hp ha hfor).of_ok h⟩

lemma Asset.exact_nonneg (hp : p.Valid) (ha : 0 ≤ a.amount) : 0 ≤ a.exact p := by
  obtain ⟨hside, hother⟩ := hp.side_pos a.assetId
  have haq : (0 : ℚ) ≤ a.amount := by exact_mod_cast ha
  have hoq : (0 : ℚ) ≤ (p.otherSide a.assetId).amount := by exact_mod_cast hother.le
  have hsq : (0 : ℚ) ≤ (p.side a.assetId).amount := by exact_mod_cast hside.le
  exact div_nonneg (mul_nonneg haq hoq) hsq

/-- Converted back, the exact product is the amount: so what is more than it comes back as more, and what
is less as less. -/
lemma Asset.exact_back (hp : p.Valid) (h : p.IsFor a.assetId)
    (hb : b.assetId = (p.otherSide a.assetId).assetId) :
    ((b.amount : ℚ) ≤ a.exact p → b.exact p ≤ a.amount) ∧
      (a.exact p ≤ (b.amount : ℚ) → (a.amount : ℚ) ≤ b.exact p) := by
  obtain ⟨hside, hother⟩ := hp.side_pos a.assetId
  obtain ⟨-, -, hback, hback'⟩ := hp.side_otherSide h
  have hoq : (0 : ℚ) < (p.otherSide a.assetId).amount := by exact_mod_cast hother
  have hsq : (0 : ℚ) < (p.side a.assetId).amount := by exact_mod_cast hside
  rw [Asset.exact, Asset.exact, hb, hback, hback', le_div_iff₀ hsq, div_le_iff₀ hoq, div_le_iff₀ hsq,
    le_div_iff₀ hoq]
  exact ⟨id, id⟩

/-- What converting an amount to the other asset and back makes of it. -/
structure Returns (p : Price) (a : Asset) : Prop where
  floor_floor : ∀ b c, a.mul p = .ok b → b.mul p = .ok c → c.assetId = a.assetId ∧ c.amount ≤ a.amount
  ceil_ceil : ∀ b c, a.multiplyAndRoundUp p = .ok b → b.multiplyAndRoundUp p = .ok c →
    c.assetId = a.assetId ∧ a.amount ≤ c.amount
  ceil_floor : ∀ b c, a.multiplyAndRoundUp p = .ok b → b.mul p = .ok c →
    c.assetId = a.assetId ∧ a.amount ≤ c.amount

lemma returns (hp : p.Valid) (ha : 0 ≤ a.amount) : Returns p a := by
  have hnonneg := Asset.exact_nonneg hp ha
  refine ⟨fun b c hb hc => ?_, fun b c hb hc => ?_, fun b c hb hc => ?_⟩
  · obtain ⟨hfor, hamount, hid⟩ := Asset.mul_of_ok hp ha hb
    obtain ⟨hown, -, -, hback⟩ := hp.side_otherSide hfor
    have hb0 : 0 ≤ b.amount := hamount ▸ Int.floor_nonneg.mpr hnonneg
    obtain ⟨-, hc, hcid⟩ := Asset.mul_of_ok hp hb0 hc
    have hle := (Asset.exact_back hp hfor hid).1 (hamount ▸ Int.floor_le _)
    rw [hc, hcid, hid, hback]
    exact ⟨hown, Int.floor_le_iff.mpr (by linarith)⟩
  · obtain ⟨hfor, hamount, hid⟩ := Asset.multiplyAndRoundUp_of_ok hp ha hb
    obtain ⟨hown, -, -, hback⟩ := hp.side_otherSide hfor
    have hb0 : 0 ≤ b.amount := hamount ▸ Int.ceil_nonneg hnonneg
    obtain ⟨-, hc, hcid⟩ := Asset.multiplyAndRoundUp_of_ok hp hb0 hc
    have hle := (Asset.exact_back hp hfor hid).2 (hamount ▸ Int.le_ceil _)
    rw [hc, hcid, hid, hback]
    exact ⟨hown, by exact_mod_cast hle.trans (Int.le_ceil _)⟩
  · obtain ⟨hfor, hamount, hid⟩ := Asset.multiplyAndRoundUp_of_ok hp ha hb
    obtain ⟨hown, -, -, hback⟩ := hp.side_otherSide hfor
    have hb0 : 0 ≤ b.amount := hamount ▸ Int.ceil_nonneg hnonneg
    obtain ⟨-, hc, hcid⟩ := Asset.mul_of_ok hp hb0 hc
    have hle := (Asset.exact_back hp hfor hid).2 (hamount ▸ Int.le_ceil _)
    rw [hc, hcid, hid, hback]
    exact ⟨hown, Int.le_floor.mpr hle⟩

/-! ### The order of prices -/

/-- The same assets, on the same sides. -/
def Price.SamePair (p q : Price) : Prop :=
  p.base.assetId = q.base.assetId ∧ p.quote.assetId = q.quote.assetId

/-- The comparisons of two prices are those of their rates. -/
structure ComparesRates (p q : Price) : Prop where
  eq : p.eq q = true ↔ p.rate = q.rate
  ne : p.ne q = true ↔ p.rate ≠ q.rate
  lt : p.lt q = true ↔ p.rate < q.rate
  le : p.le q = true ↔ p.rate ≤ q.rate
  gt : p.gt q = true ↔ q.rate < p.rate
  ge : p.ge q = true ↔ q.rate ≤ p.rate

lemma Price.mult_eq (hp : p.Valid) (hq : q.Valid) :
    (p.mult q : ℤ) = q.quote.amount * p.base.amount := by
  rw [Price.mult, uint128_product hq.quote_pos.le hp.base_pos.le q.quote.share p.base.share]

/-- The products are in the order of the rates. -/
lemma Price.mult_lt_iff (hp : p.Valid) (hq : q.Valid) : p.mult q < q.mult p ↔ p.rate < q.rate := by
  have hpq : (0 : ℚ) < p.quote.amount := by exact_mod_cast hp.quote_pos
  have hqq : (0 : ℚ) < q.quote.amount := by exact_mod_cast hq.quote_pos
  rw [Price.rate, Price.rate, div_lt_div_iff₀ hpq hqq, ← Nat.cast_lt (α := ℤ), Price.mult_eq hp hq,
    Price.mult_eq hq hp, mul_comm q.quote.amount, mul_comm p.quote.amount]
  exact_mod_cast Iff.rfl

lemma Price.lt_iff (hp : p.Valid) (hq : q.Valid) (h : p.SamePair q) :
    p.lt q = true ↔ p.rate < q.rate := by
  rw [Price.lt, if_neg (by rw [h.1]; exact lt_irrefl _), if_neg (by rw [h.1]; exact lt_irrefl _),
    if_neg (by rw [h.2]; exact lt_irrefl _), if_neg (by rw [h.2]; exact lt_irrefl _), decide_eq_true_eq,
    Price.mult_lt_iff hp hq]

lemma Price.eq_iff (hp : p.Valid) (hq : q.Valid) (h : p.SamePair q) :
    p.eq q = true ↔ p.rate = q.rate := by
  have hlt := Price.mult_lt_iff hp hq
  have hgt := Price.mult_lt_iff hq hp
  rw [Price.eq, if_neg (by rw [h.1, h.2]; simp), decide_eq_true_eq]
  constructor
  · intro heq
    rw [heq] at hlt hgt
    exact le_antisymm (not_lt.mp (mt hgt.mpr (lt_irrefl _))) (not_lt.mp (mt hlt.mpr (lt_irrefl _)))
  · intro heq
    rw [heq] at hlt hgt
    exact le_antisymm (not_lt.mp (mt hgt.mp (lt_irrefl _))) (not_lt.mp (mt hlt.mp (lt_irrefl _)))

/-- **The comparisons.** -/
lemma comparesRates (hp : p.Valid) (hq : q.Valid) (h : p.SamePair q) : ComparesRates p q := by
  have heq := Price.eq_iff hp hq h
  have hlt := Price.lt_iff hp hq h
  have hle : p.le q = true ↔ p.rate ≤ q.rate := by
    rw [Price.le, Bool.or_eq_true, heq, hlt, le_iff_eq_or_lt]
  refine ⟨heq, ?_, hlt, hle, ?_, ?_⟩
  · rw [Price.ne, Bool.not_eq_true', ← Bool.not_eq_true, heq]
  · rw [Price.gt, Bool.not_eq_true', ← Bool.not_eq_true, hle, not_le]
  · rw [Price.ge, Bool.not_eq_true', ← Bool.not_eq_true, hlt, not_lt]

/-- **Products and prices.** -/
theorem prices_round (hp : p.Valid) :
    (∀ a : Asset, 0 ≤ a.amount → p.IsFor a.assetId →
      Gives (a.mul p) maxBitcoreSupply ⌊a.exact p⌋ (p.otherSide a.assetId).assetId ∧
        Gives (a.multiplyAndRoundUp p) maxShareSupply ⌈a.exact p⌉ (p.otherSide a.assetId).assetId) ∧
    (∀ a : Asset, 0 ≤ a.amount → Returns p a) ∧
    ∀ q r : Price, q.Valid → r.Valid → p.SamePair q → q.SamePair r → ComparesRates p q ∧
      (p.le q = true ∨ q.le p = true) ∧ (p.le q = true → q.le r = true → p.le r = true) ∧
        (p.eq q = true ↔ p.le q = true ∧ q.le p = true) := by
  refine ⟨fun a ha h => ⟨Asset.mul_spec hp ha h, Asset.multiplyAndRoundUp_spec hp ha h⟩,
    fun a ha => returns hp ha, fun q r hq hr hpq hqr => ?_⟩
  have hforth := comparesRates hp hq hpq
  have hback := comparesRates hq hp ⟨hpq.1.symm, hpq.2.symm⟩
  have hnext := comparesRates hq hr hqr
  have hthrough := comparesRates hp hr ⟨hpq.1.trans hqr.1, hpq.2.trans hqr.2⟩
  refine ⟨hforth, ?_, ?_, ?_⟩
  · rw [hforth.le, hback.le]
    exact le_total _ _
  · rw [hforth.le, hnext.le, hthrough.le]
    exact le_trans
  · rw [hforth.eq, hforth.le, hback.le]
    exact le_antisymm_iff

lemma share_three : Share 3 := by decide

lemma share_seven : Share 7 := by decide

lemma share_ten : Share 10 := by decide

/-- Three of the core asset for seven of asset 1. -/
def threeForSeven : Price := ⟨⟨3, 0, share_three⟩, ⟨7, 1, share_seven⟩⟩

lemma threeForSeven_valid : threeForSeven.Valid := ⟨by decide, by decide, by decide⟩

/-- Ten of the core asset are twenty-three of the other, or twenty-four if that is rounded up. -/
theorem prices_round_ten :
    Gives ((Asset.mk 10 0 share_ten).mul threeForSeven) maxBitcoreSupply
        ⌊(Asset.mk 10 0 share_ten).exact threeForSeven⌋ 1 ∧
      Gives ((Asset.mk 10 0 share_ten).multiplyAndRoundUp threeForSeven) maxShareSupply
        ⌈(Asset.mk 10 0 share_ten).exact threeForSeven⌉ 1 :=
  (prices_round threeForSeven_valid).1 (Asset.mk 10 0 share_ten) (by decide) (.inl rfl)

end ZosCore.Prices
