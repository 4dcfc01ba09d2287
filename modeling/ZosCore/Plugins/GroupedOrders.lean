import Mathlib.Data.List.TakeWhile
import ZosCore.Lib.Segments

/-!
`grouped_orders_plugin.cpp`: the limit orders of a market in groups of prices that are not further
apart than a tracked percentage.

The groups of all percentages and markets are in one map, which is ordered by the lowest price of a
group, descending. A group grows at either end by the price of an order, if the price is not beyond
the other end by more than the percentage; so it is put into the map under another key when it grows
downwards.

* `Price`, `mulRatio`: prices, their order, and a price times a ratio.
* `insertInGroup`, `removeFromGroup`: an order comes into the groups of a percentage, or leaves them.
* `Tracked.apply`: orders are inserted, removed and modified.
* `Partitioned`: every order is in one group, the groups do not overlap, and their totals are right.
* **`partitioned_run`**: this is so in every run where no price is capped and no order is removed from
  a group in which orders with nothing for sale are left.
-/

namespace ZosCore.GroupedOrders

/-! ### Prices -/

/-- `GRAPHENE_MAX_SHARE_SUPPLY` -/
def maxShareSupply : ℕ := 7000000000 * 100000

/-- `price`, in positive amounts of two different assets. -/
structure Price where
  baseAmount : ℕ
  baseId : ℕ
  quoteAmount : ℕ
  quoteId : ℕ
  base_pos : 0 < baseAmount
  quote_pos : 0 < quoteAmount
  distinct : baseId ≠ quoteId
  deriving DecidableEq

namespace Price

/-- `operator ==` -/
def eq (a b : Price) : Bool :=
  a.baseId = b.baseId ∧ a.quoteId = b.quoteId ∧
    b.quoteAmount * a.baseAmount = a.quoteAmount * b.baseAmount

/-- `operator <` -/
def lt (a b : Price) : Bool :=
  if a.baseId < b.baseId then true
  else if b.baseId < a.baseId then false
  else if a.quoteId < b.quoteId then true
  else if b.quoteId < a.quoteId then false
  else b.quoteAmount * a.baseAmount < a.quoteAmount * b.baseAmount

/-- `operator <=` -/
def le (a b : Price) : Bool := a.eq b || a.lt b

/-- `operator >` -/
def gt (a b : Price) : Bool := !a.le b

/-- `operator >=` -/
def ge (a b : Price) : Bool := !a.lt b

/-- `price::max` -/
def max (p : Price) : Price :=
  { p with baseAmount := maxShareSupply, quoteAmount := 1, base_pos := by decide, quote_pos := by decide }

/-- `price::min` -/
def min (p : Price) : Price :=
  { p with baseAmount := 1, quoteAmount := maxShareSupply, base_pos := by decide, quote_pos := by decide }

/-- The loop that halves both parts of a fraction until they are in range, and whether it had to. The
parts have 128 bits. -/
def shrink : ℕ → ℚ → Bool → ℚ × Bool
  | 0, cp, shrinked => (cp, shrinked)
  | fuel + 1, cp, shrinked =>
      if cp.num ≤ maxShareSupply ∧ cp.den ≤ maxShareSupply then (cp, shrinked)
      else if cp.num = 1 then (1 / maxShareSupply, shrinked)
      else if cp.den = 1 then (maxShareSupply, shrinked)
      else shrink fuel ((cp.num / 2 : ℤ) / (cp.den / 2 : ℕ)) true

/-- What comes closer to the exact price `ocp`: the halved fraction `cp`, or the one whose smaller part
is 1. -/
def closer (ocp cp : ℚ) : ℚ :=
  let num : ℕ := if (ocp.den : ℤ) < ocp.num then Nat.min (ocp.num.toNat / ocp.den) maxShareSupply else 1
  let den : ℕ := if (ocp.den : ℤ) < ocp.num then 1 else Nat.min (ocp.den / ocp.num.toNat) maxShareSupply
  let ncp : ℚ := num / den
  if num = maxShareSupply ∨ den = maxShareSupply then ncp
  else if |ncp - ocp| < |cp - ocp| then ncp
  else cp

/-- A price times a ratio, as a fraction in range. -/
def scaled (p : Price) (numerator denominator : ℕ) : ℚ :=
  let ocp : ℚ := p.baseAmount / p.quoteAmount * (numerator / denominator)
  let r := shrink 128 ocp false
  if r.2 then closer ocp r.1 else r.1

/-- `operator *` of a price and a ratio; `none` stands for an exception. -/
def mulRatio (p : Price) (numerator denominator : ℕ) : Option Price :=
  if numerator = 0 ∨ denominator = 0 then none
  else if numerator = denominator then some p
  else
    let cp := p.scaled numerator denominator
    if h : 0 < cp.num then
      let np : Price := { p with
        baseAmount := cp.num.toNat, quoteAmount := cp.den
        base_pos := by omega, quote_pos := cp.den_pos }
      if (denominator < numerator ∧ np.lt p) ∨ (numerator < denominator ∧ np.gt p) then some p
      else some np
    else none

/-- `operator /` of a price and a ratio. -/
def divRatio (p : Price) (numerator denominator : ℕ) : Option Price :=
  p.mulRatio denominator numerator

end Price

/-! ### Groups -/

/-- `limit_order_object` -/
structure Order where
  id : ℕ
  sellPrice : Price
  forSale : ℕ
  deriving DecidableEq

/-- `limit_order_group_key` and `limit_order_group_data` -/
structure OrderGroup where
  group : ℕ
  minPrice : Price
  maxPrice : Price
  totalForSale : ℕ
  deriving DecidableEq

/-- `operator <` of keys: the prices descend. -/
def keyLt (group : ℕ) (p : Price) (group' : ℕ) (p' : Price) : Bool :=
  group < group' ∨ group = group' ∧ p'.lt p

/-- The groups before `idx.lower_bound( limit_order_group_key( group, p ) )`, and those from it on. -/
def lowerBound (group : ℕ) (p : Price) (idx : List OrderGroup) : List OrderGroup × List OrderGroup :=
  idx.span fun e => keyLt e.group e.minPrice group p

/-- `idx[ key ] = data`; a key that is there stays. -/
def assign (e : OrderGroup) : List OrderGroup → List OrderGroup
  | [] => [e]
  | x :: idx =>
      if keyLt x.group x.minPrice e.group e.minPrice then x :: assign e idx
      else if keyLt e.group e.minPrice x.group x.minPrice then e :: x :: idx
      else { e with minPrice := x.minPrice } :: idx

/-- The group is of this percentage and market. -/
def OrderGroup.sameMarket (e : OrderGroup) (group : ℕ) (p : Price) : Bool :=
  e.group = group ∧ e.minPrice.baseId = p.baseId ∧ e.minPrice.quoteId = p.quoteId

/-- `operator +` of `share_type`; `none` stands for an overflow. -/
def safeAdd (a b : ℕ) : Option ℕ := if a + b < 2 ^ 63 then some (a + b) else none

/-- `GRAPHENE_100_PERCENT` -/
def hundredPercent : ℕ := 10000

/-- The price of an order, as far as the groups regard it. -/
structure Capped where
  price : Price
  max : Bool
  min : Bool

/-- "cap the price" -/
def capPrice (p : Price) : Capped :=
  if p.gt p.max then ⟨p.max, true, false⟩
  else if p.lt p.min then ⟨p.min, false, true⟩
  else ⟨p, false, false⟩

/-- `object_inserted`, as far as it looks at the group that is found; `some none` if it has to check
the one before it. -/
def insertAtNext (group : ℕ) (o : Order) (capped : Capped) (before after : List OrderGroup) :
    Option (Option (List OrderGroup)) :=
  match after with
  | [] => some none
  | e :: rest =>
      if !e.sameMarket group o.sellPrice then some none
      else do
        let updateMax := capped.price.gt e.maxPrice
        let outOfRange ←
          if updateMax then
            (e.minPrice.mulRatio (hundredPercent + group) hundredPercent).map (capped.price.gt ·)
          else some false
        if outOfRange then some none
        else if capped.min && o.sellPrice.lt e.minPrice then
          let total ← safeAdd o.forSale e.totalForSale
          some (some (assign ⟨group, o.sellPrice, e.maxPrice, total⟩ (before ++ rest)))
        else
          let total ← safeAdd e.totalForSale o.forSale
          let maxPrice :=
            if updateMax || (capped.max && o.sellPrice.gt e.maxPrice) then o.sellPrice else e.maxPrice
          some (some (before ++ { e with maxPrice, totalForSale := total } :: rest))

/-- `check_previous` -/
def insertAtPrevious (group : ℕ) (o : Order) (capped : Capped) (before after : List OrderGroup) :
    Option (List OrderGroup) :=
  let created := assign ⟨group, o.sellPrice, o.sellPrice, o.forSale⟩ (before ++ after)
  match before.getLast? with
  | none => some created
  | some e =>
      if !e.sameMarket group o.sellPrice then some created
      else do
        let minPrice ← e.maxPrice.divRatio (hundredPercent + group) hundredPercent
        if capped.price.lt minPrice then some created
        else if capped.max && o.sellPrice.ge e.minPrice then
          let total ← safeAdd e.totalForSale o.forSale
          let maxPrice := if o.sellPrice.gt e.maxPrice then o.sellPrice else e.maxPrice
          some (before.dropLast ++ { e with maxPrice, totalForSale := total } :: after)
        else
          let total ← safeAdd o.forSale e.totalForSale
          some (assign ⟨group, o.sellPrice, e.maxPrice, total⟩ (before.dropLast ++ after))

/-- `object_inserted`, for a tracked group; `none` stands for an exception. -/
def insertInGroup (o : Order) (idx : List OrderGroup) (group : ℕ) : Option (List OrderGroup) :=
  if idx = [] then some (assign ⟨group, o.sellPrice, o.sellPrice, o.forSale⟩ idx)
  else
    let capped := capPrice o.sellPrice
    let (before, after) := lowerBound group capped.price idx
    match insertAtNext group o capped before after with
    | none => none
    | some (some idx) => some idx
    | some none => insertAtPrevious group o capped before after

/-- `remove_order`, for a tracked group, and whether it reports what "should not happen". -/
def removeFromGroup (removeEmpty : Bool) (o : Order) (idx : List OrderGroup) (group : ℕ) :
    List OrderGroup × Bool :=
  let (before, after) := lowerBound group o.sellPrice idx
  match after with
  | [] => (idx, true)
  | e :: rest =>
      if !e.sameMarket group o.sellPrice || e.maxPrice.lt o.sellPrice then (idx, true)
      else if e.totalForSale < o.forSale then (idx, true)
      else if !removeEmpty || o.forSale < e.totalForSale then
        (before ++ { e with totalForSale := e.totalForSale - o.forSale } :: rest, false)
      else (before ++ rest, false)

/-! ### The index -/

/-- `_tracked_groups`, without 0. -/
structure Tracked where
  groups : List ℕ
  sorted : groups.Pairwise (· < ·)
  pos : ∀ g ∈ groups, 0 < g

/-- The live orders, `_og_data`, and how often something was reported that "should not happen". -/
structure State where
  orders : List Order := []
  idx : List OrderGroup := []
  warnings : ℕ := 0

/-- What may happen to the orders. -/
inductive Event where
  | insert (o : Order)
  | remove (id : ℕ)
  | modify (id forSale : ℕ)

namespace Tracked

variable (T : Tracked)

/-- `object_inserted` -/
def objectInserted (o : Order) (idx : List OrderGroup) : Option (List OrderGroup) :=
  T.groups.foldlM (insertInGroup o) idx

/-- `remove_order` -/
def removeOrder (removeEmpty : Bool) (o : Order) (idx : List OrderGroup) : List OrderGroup × ℕ :=
  T.groups.foldl
    (fun r group =>
      let r' := removeFromGroup removeEmpty o r.1 group
      (r'.1, r.2 + if r'.2 then 1 else 0))
    (idx, 0)

/-- An order is inserted, removed or modified; there is no second order with an id, and only orders
that are there are removed and modified. -/
def apply (ev : Event) (s : State) : Option State :=
  match ev with
  | .insert o =>
      if o.id ∈ s.orders.map Order.id then some s
      else (T.objectInserted o s.idx).map fun idx => { s with orders := o :: s.orders, idx }
  | .remove id =>
      match s.orders.find? (·.id = id) with
      | none => some s
      | some o =>
          let r := T.removeOrder true o s.idx
          some { orders := s.orders.filter (·.id ≠ id), idx := r.1, warnings := s.warnings + r.2 }
  | .modify id forSale =>
      match s.orders.find? (·.id = id) with
      | none => some s
      | some o =>
          let r := T.removeOrder false o s.idx
          (T.objectInserted { o with forSale } r.1).map fun idx =>
            { orders := { o with forSale } :: s.orders.filter (·.id ≠ id), idx,
              warnings := s.warnings + r.2 }

/-- One event after the other. -/
def run (evs : List Event) (s : State) : Option State := evs.foldlM (fun s ev => T.apply ev s) s

end Tracked

/-! ### The order of the map -/

/-- The place of a price in the order of prices. -/
def Price.rank (p : Price) : ℕ ×ₗ (ℕ ×ₗ ℚ) :=
  toLex (p.baseId, toLex (p.quoteId, (p.baseAmount : ℚ) / p.quoteAmount))

/-- The places in the map. -/
abbrev Position : Type := ℕ ×ₗ (ℕ ×ₗ (ℕ ×ₗ ℚ))ᵒᵈ

/-- The place of a price among the groups of a percentage. -/
def position (group : ℕ) (p : Price) : Position := toLex (group, OrderDual.toDual p.rank)

namespace Price

variable {a b p : Price}

lemma ratio_lt_iff (a b : Price) :
    (a.baseAmount : ℚ) / a.quoteAmount < b.baseAmount / b.quoteAmount ↔
      b.quoteAmount * a.baseAmount < a.quoteAmount * b.baseAmount := by
  have ha : (0 : ℚ) < a.quoteAmount := Nat.cast_pos.mpr a.quote_pos
  have hb : (0 : ℚ) < b.quoteAmount := Nat.cast_pos.mpr b.quote_pos
  rw [div_lt_div_iff₀ ha hb, mul_comm (a.baseAmount : ℚ), mul_comm (b.baseAmount : ℚ)]
  exact_mod_cast Iff.rfl

lemma ratio_eq_iff (a b : Price) :
    (a.baseAmount : ℚ) / a.quoteAmount = b.baseAmount / b.quoteAmount ↔
      b.quoteAmount * a.baseAmount = a.quoteAmount * b.baseAmount := by
  have ha : (a.quoteAmount : ℚ) ≠ 0 := Nat.cast_ne_zero.mpr a.quote_pos.ne'
  have hb : (b.quoteAmount : ℚ) ≠ 0 := Nat.cast_ne_zero.mpr b.quote_pos.ne'
  rw [div_eq_div_iff ha hb, mul_comm (a.baseAmount : ℚ), mul_comm (b.baseAmount : ℚ)]
  exact_mod_cast Iff.rfl

lemma lt_iff : a.lt b ↔ a.rank < b.rank := by
  rw [lt, rank, rank, Prod.Lex.toLex_lt_toLex, Prod.Lex.toLex_lt_toLex, ratio_lt_iff]
  split_ifs <;> simp only [decide_eq_true_eq, true_iff, false_iff] <;> omega

lemma eq_iff : a.eq b ↔ a.rank = b.rank := by
  rw [eq, decide_eq_true_eq, rank, rank, toLex_inj, Prod.mk.injEq, toLex_inj, Prod.mk.injEq,
    ratio_eq_iff]

lemma le_iff : a.le b ↔ a.rank ≤ b.rank := by
  rw [le, Bool.or_eq_true, eq_iff, lt_iff, or_comm, le_iff_lt_or_eq]

lemma gt_iff : a.gt b ↔ b.rank < a.rank := by
  rw [gt, Bool.not_eq_true', ← Bool.not_eq_true, le_iff, not_le]

end Price

variable {g g' : ℕ} {p p' : Price}

lemma position_lt : position g p < position g' p' ↔ g < g' ∨ g = g' ∧ p'.rank < p.rank := by
  rw [position, position, Prod.Lex.toLex_lt_toLex, OrderDual.toDual_lt_toDual]

lemma position_le : position g p ≤ position g' p' ↔ g < g' ∨ g = g' ∧ p'.rank ≤ p.rank := by
  rw [position, position, Prod.Lex.toLex_le_toLex, OrderDual.toDual_le_toDual]

@[simp] lemma position_lt_same : position g p < position g p' ↔ p'.rank < p.rank := by
  rw [position_lt]
  simp

@[simp] lemma position_le_same : position g p ≤ position g p' ↔ p'.rank ≤ p.rank := by
  rw [position_le]
  simp

lemma keyLt_iff : keyLt g p g' p' ↔ position g p < position g' p' := by
  rw [keyLt, decide_eq_true_eq, position_lt, Price.lt_iff]

/-- A group as a segment of the map. -/
def OrderGroup.segment (e : OrderGroup) : Segment Position :=
  ⟨position e.group e.maxPrice, position e.group e.minPrice, e.totalForSale⟩

/-- What the map knows of an order. -/
def point (o : Order) (g : ℕ) : Position × ℕ := (position g o.sellPrice, o.forSale)

/-- A price in a group, by its percentage. -/
lemma contains_iff {e : OrderGroup} : e.segment.Contains (position g p) ↔
    e.group = g ∧ e.minPrice.rank ≤ p.rank ∧ p.rank ≤ e.maxPrice.rank := by
  rw [Segment.Contains, OrderGroup.segment, position_le, position_le]
  constructor
  · rintro ⟨h | ⟨rfl, hmax⟩, h' | ⟨hg, hmin⟩⟩
    · omega
    · omega
    · omega
    · exact ⟨rfl, hmin, hmax⟩
  · rintro ⟨rfl, hmin, hmax⟩
    exact ⟨.inr ⟨rfl, hmax⟩, .inr ⟨rfl, hmin⟩⟩

/-! ### A price times a ratio -/

namespace Price

lemma shrink_pos {fuel : ℕ} {cp : ℚ} {shrinked : Bool} (h : 0 < cp) :
    0 < (shrink fuel cp shrinked).1 := by
  induction fuel generalizing cp shrinked with
  | zero => exact h
  | succ fuel ih =>
      have hnum : 0 < cp.num := Rat.num_pos.mpr h
      have hden := cp.den_pos
      rw [shrink]
      split_ifs with hrange hnum1 hden1
      · exact h
      · norm_num [maxShareSupply]
      · norm_num [maxShareSupply]
      · -- both parts are at least 2
        have hn : (0 : ℤ) < cp.num / 2 := by omega
        have hd : 0 < cp.den / 2 := by omega
        exact ih (div_pos (Int.cast_pos.mpr hn) (Nat.cast_pos.mpr hd))

lemma pos_of_choice {c c' : Prop} [Decidable c] [Decidable c'] {a b : ℚ} (ha : 0 < a) (hb : 0 < b) :
    0 < if c then a else if c' then a else b := by
  split
  · exact ha
  · split
    · exact ha
    · exact hb

lemma closer_pos {ocp cp : ℚ} (ho : 0 < ocp) (h : 0 < cp) : 0 < closer ocp cp := by
  have hnum : 0 < ocp.num := Rat.num_pos.mpr ho
  have hden := ocp.den_pos
  have hmax : 0 < maxShareSupply := by decide
  have hpos : ∀ a b : ℕ, 0 < b → b ≤ a → 0 < Nat.min (a / b) maxShareSupply := fun a b hb hba =>
    lt_min (Nat.div_pos hba hb) hmax
  have hncp : (0 : ℚ) < ((if (ocp.den : ℤ) < ocp.num then
        Nat.min (ocp.num.toNat / ocp.den) maxShareSupply else 1 : ℕ) : ℚ) /
      ((if (ocp.den : ℤ) < ocp.num then 1
        else Nat.min (ocp.den / ocp.num.toNat) maxShareSupply : ℕ) : ℚ) := by
    split_ifs with hlt
    · exact div_pos (Nat.cast_pos.mpr (hpos _ _ hden (by omega))) (by norm_num)
    · exact div_pos (by norm_num) (Nat.cast_pos.mpr (hpos _ _ (by omega) (by omega)))
  exact pos_of_choice hncp h

lemma scaled_pos (p : Price) {numerator denominator : ℕ} (hn : numerator ≠ 0) (hd : denominator ≠ 0) :
    0 < p.scaled numerator denominator := by
  have hbase : (0 : ℚ) < p.baseAmount := Nat.cast_pos.mpr p.base_pos
  have hquote : (0 : ℚ) < p.quoteAmount := Nat.cast_pos.mpr p.quote_pos
  have hnum : (0 : ℚ) < numerator := Nat.cast_pos.mpr (Nat.pos_of_ne_zero hn)
  have hden : (0 : ℚ) < denominator := Nat.cast_pos.mpr (Nat.pos_of_ne_zero hd)
  have hocp : (0 : ℚ) < p.baseAmount / p.quoteAmount * (numerator / denominator) := by positivity
  rw [scaled]
  split
  · exact closer_pos hocp (shrink_pos hocp)
  · exact shrink_pos hocp

/-- A price times a ratio is a price. -/
lemma mulRatio_isSome (p : Price) {numerator denominator : ℕ} (hn : numerator ≠ 0)
    (hd : denominator ≠ 0) : ∃ q, p.mulRatio numerator denominator = some q := by
  have hpos : 0 < (p.scaled numerator denominator).num := Rat.num_pos.mpr (p.scaled_pos hn hd)
  rw [mulRatio, if_neg (not_or.mpr ⟨hn, hd⟩)]
  split
  · exact ⟨p, rfl⟩
  · rw [dif_pos hpos]
    dsimp only
    split
    · exact ⟨p, rfl⟩
    · exact ⟨_, rfl⟩

end Price

/-! ### The map -/

variable {idx before after : List OrderGroup} {pts : Multiset (Position × ℕ)} {e : OrderGroup}
  {o : Order}

/-- The groups divide what the map knows of the orders; each is of one market. -/
structure Grouped (idx : List OrderGroup) (pts : Multiset (Position × ℕ)) : Prop where
  divides : Segment.Divides (idx.map OrderGroup.segment) pts
  market : ∀ e ∈ idx, e.minPrice.baseId = e.maxPrice.baseId ∧ e.minPrice.quoteId = e.maxPrice.quoteId

lemma Grouped.empty : Grouped [] 0 := ⟨.empty, fun _ h => by cases h⟩

lemma sameMarket_iff : e.sameMarket g p ↔
    e.group = g ∧ e.minPrice.baseId = p.baseId ∧ e.minPrice.quoteId = p.quoteId := by
  rw [OrderGroup.sameMarket, decide_eq_true_eq]

/-- The prices between two prices of a market are of this market. -/
lemma market_of_between {a b : Price} (hid : a.baseId = b.baseId ∧ a.quoteId = b.quoteId)
    (ha : a.rank ≤ p.rank) (hb : p.rank ≤ b.rank) :
    a.baseId = p.baseId ∧ a.quoteId = p.quoteId := by
  rw [Price.rank, Price.rank, Prod.Lex.toLex_le_toLex, Prod.Lex.toLex_le_toLex] at ha hb
  dsimp only at ha hb
  omega

/-- Where the map is cut, the groups before are before the price, and the others end after it. -/
lemma lowerBound_spec (h : Grouped idx pts) (hcut : lowerBound g p idx = (before, after)) :
    idx = before ++ after ∧ (∀ e ∈ before, e.segment.hi < position g p) ∧
      ∀ e ∈ after, position g p ≤ e.segment.hi := by
  rw [lowerBound, List.span_eq_takeWhile_dropWhile, Prod.mk.injEq] at hcut
  obtain ⟨rfl, rfl⟩ := hcut
  have hkey : ∀ e : OrderGroup, keyLt e.group e.minPrice g p ↔ e.segment.hi < position g p :=
    fun e => keyLt_iff
  refine ⟨List.takeWhile_append_dropWhile.symm, fun e he => ?_, ?_⟩
  · exact (hkey e).mp (List.mem_takeWhile_imp (p := fun e : OrderGroup => keyLt e.group e.minPrice g p) he)
  · cases hdrop : idx.dropWhile (fun e => keyLt e.group e.minPrice g p) with
    | nil => exact fun e he => by cases he
    | cons a l =>
        have hfirst : position g p ≤ a.segment.hi := by
          have hnot := List.head?_dropWhile_not (fun e => keyLt e.group e.minPrice g p) idx
          rw [hdrop] at hnot
          exact not_lt.mp fun hlt => Bool.noConfusion (hnot.symm.trans ((hkey a).mpr hlt))
        have hapart := h.divides.apart
        rw [← List.takeWhile_append_dropWhile (p := fun e => keyLt e.group e.minPrice g p) (l := idx),
          hdrop, List.map_append, List.map_cons] at hapart
        have hnext := (List.pairwise_cons.mp (List.pairwise_append.mp hapart).2.1).1
        intro e he
        rcases List.mem_cons.mp he with rfl | he
        · exact hfirst
        · have hlt := hnext e.segment (List.mem_map_of_mem he)
          have hle := h.divides.le e.segment (List.mem_map_of_mem
            (List.dropWhile_sublist _ |>.subset (hdrop ▸ List.mem_cons_of_mem a he)))
          exact hfirst.trans (hlt.trans_le hle).le

/-- A group is assigned to its place between the others. -/
lemma assign_between (hbefore : ∀ a ∈ before, a.segment.hi < e.segment.hi)
    (hafter : ∀ a ∈ after, e.segment.hi < a.segment.hi) :
    assign e (before ++ after) = before ++ e :: after := by
  induction before with
  | nil =>
      cases after with
      | nil => rfl
      | cons a after =>
          have hlt := hafter a List.mem_cons_self
          have hnot : ¬ keyLt a.group a.minPrice e.group e.minPrice = true := fun h =>
            absurd (keyLt_iff.mp h) hlt.asymm
          rw [List.nil_append, assign, if_neg hnot, if_pos (keyLt_iff.mpr hlt)]
          rfl
  | cons a before ih =>
      rw [List.cons_append, assign, if_pos (keyLt_iff.mpr (hbefore a List.mem_cons_self)),
        ih fun b hb => hbefore b (List.mem_cons_of_mem a hb)]
      rfl

/-- A group of another market that ends after a price begins after it. -/
lemma lt_lo_of_not_sameMarket
    (hmarket : e.minPrice.baseId = e.maxPrice.baseId ∧ e.minPrice.quoteId = e.maxPrice.quoteId)
    (hhi : position g p ≤ e.segment.hi) (hne : ¬ e.sameMarket g p) :
    position g p < e.segment.lo := by
  by_contra hlo
  have hcontains : e.segment.Contains (position g p) := ⟨not_lt.mp hlo, hhi⟩
  obtain ⟨hgroup, hmin, hmax⟩ := contains_iff.mp hcontains
  exact hne (sameMarket_iff.mpr ⟨hgroup, market_of_between hmarket hmin hmax⟩)


/-! ### An order comes in -/

/-- The order gets a group of its own, between the others. -/
lemma created_grouped (h : Grouped (before ++ after) pts)
    (hbefore : ∀ a ∈ before, a.segment.hi < position g o.sellPrice)
    (hafter : ∀ a ∈ after, position g o.sellPrice < a.segment.lo) :
    Grouped (assign ⟨g, o.sellPrice, o.sellPrice, o.forSale⟩ (before ++ after))
      (point o g ::ₘ pts) := by
  have hle : ∀ a ∈ before ++ after, a.segment.lo ≤ a.segment.hi := fun a ha =>
    h.divides.le a.segment (List.mem_map_of_mem ha)
  rw [assign_between (e := ⟨g, o.sellPrice, o.sellPrice, o.forSale⟩) hbefore fun a ha =>
    (hafter a ha).trans_le (hle a (List.mem_append_right before ha))]
  refine ⟨?_, ?_⟩
  · have hdivides := h.divides
    rw [List.map_append] at hdivides
    rw [List.map_append, List.map_cons]
    exact hdivides.add (List.forall_mem_map.mpr hbefore) (List.forall_mem_map.mpr hafter)
  · intro a ha
    rcases List.mem_append.mp ha with ha | ha
    · exact h.market a (List.mem_append_left _ ha)
    · rcases List.mem_cons.mp ha with rfl | ha
      · exact ⟨rfl, rfl⟩
      · exact h.market a (List.mem_append_right _ ha)

/-- A group takes the order in. -/
lemma widened_grouped {e' : OrderGroup} (h : Grouped (before ++ e :: after) pts)
    (hlo : e'.segment.lo ≤ e.segment.lo) (hhi : e.segment.hi ≤ e'.segment.hi)
    (hx : e'.segment.Contains (position g o.sellPrice))
    (hbefore : ∀ a ∈ before, a.segment.hi < e'.segment.lo)
    (hafter : ∀ a ∈ after, e'.segment.hi < a.segment.lo)
    (htotal : e'.totalForSale = e.totalForSale + o.forSale)
    (hmarket : e'.minPrice.baseId = e'.maxPrice.baseId ∧ e'.minPrice.quoteId = e'.maxPrice.quoteId) :
    Grouped (before ++ e' :: after) (point o g ::ₘ pts) := by
  refine ⟨?_, ?_⟩
  · have hdivides := h.divides
    rw [List.map_append, List.map_cons] at hdivides
    rw [List.map_append, List.map_cons]
    exact hdivides.widen hlo hhi hx (List.forall_mem_map.mpr hbefore) (List.forall_mem_map.mpr hafter)
      htotal
  · intro a ha
    rcases List.mem_append.mp ha with ha | ha
    · exact h.market a (List.mem_append_left _ ha)
    · rcases List.mem_cons.mp ha with rfl | ha
      · exact hmarket
      · exact h.market a (List.mem_append_right _ (List.mem_cons_of_mem e ha))

lemma Grouped.hi_lt (h : Grouped (before ++ e :: after) pts) {a : OrderGroup} (ha : a ∈ before) :
    a.segment.hi < e.segment.lo := by
  have hdivides := h.divides
  rw [List.map_append, List.map_cons] at hdivides
  exact hdivides.hi_lt (List.mem_map_of_mem ha)

lemma Grouped.lt_lo (h : Grouped (before ++ e :: after) pts) {a : OrderGroup} (ha : a ∈ after) :
    e.segment.hi < a.segment.lo := by
  have hdivides := h.divides
  rw [List.map_append, List.map_cons] at hdivides
  exact hdivides.lt_lo (List.mem_map_of_mem ha)

lemma safeAdd_eq {a b : ℕ} (h : a + b < 2 ^ 63) : safeAdd a b = some (a + b) := if_pos h

/-- The sums that `object_inserted` may make do not overflow. -/
def Fits (o : Order) (idx : List OrderGroup) (group : ℕ) : Prop :=
  ∀ e ∈ idx, e.sameMarket group o.sellPrice → e.totalForSale + o.forSale < 2 ^ 63

/-- The group before takes the order in, or there is a new one. -/
lemma insertAtPrevious_grouped (h : Grouped (before ++ after) pts)
    (hbefore : ∀ a ∈ before, a.segment.hi < position g o.sellPrice)
    (hafter : ∀ a ∈ after, position g o.sellPrice < a.segment.lo) (hfits : Fits o (before ++ after) g) :
    ∃ idx, insertAtPrevious g o ⟨o.sellPrice, false, false⟩ before after = some idx ∧
      Grouped idx (point o g ::ₘ pts) := by
  have hcreated := created_grouped h hbefore hafter
  rcases List.eq_nil_or_concat' before with rfl | ⟨init, e, rfl⟩
  · exact ⟨_, rfl, hcreated⟩
  rw [insertAtPrevious, List.getLast?_concat, List.dropLast_concat]
  by_cases hmarket : e.sameMarket g o.sellPrice
  case neg =>
    dsimp only
    rw [if_pos (by simpa using hmarket)]
    exact ⟨_, rfl, hcreated⟩
  obtain ⟨q, hq⟩ := e.maxPrice.mulRatio_isSome (show hundredPercent ≠ 0 by decide)
    (show hundredPercent + g ≠ 0 by simp [hundredPercent])
  dsimp only
  rw [if_neg (by simpa using hmarket), Price.divRatio, hq]
  simp only [Option.bind_eq_bind, Option.bind_some, Bool.false_and, Bool.false_eq_true, if_false]
  by_cases hlt : o.sellPrice.lt q
  · rw [if_pos hlt]
    exact ⟨_, rfl, hcreated⟩
  · -- the group is put under the key of the order
    obtain ⟨hgroup, hbase, hquote⟩ := sameMarket_iff.mp hmarket
    have he : e.segment.hi < position g o.sellPrice :=
      hbefore e (List.mem_append_right _ List.mem_cons_self)
    have hle : ∀ a ∈ init ++ [e] ++ after, a.segment.lo ≤ a.segment.hi := fun a ha =>
      h.divides.le a.segment (List.mem_map_of_mem ha)
    have hsplit : init ++ [e] ++ after = init ++ e :: after := by simp
    have hsum := hfits e (by simp) hmarket
    rw [hsplit] at h hle
    rw [if_neg hlt, safeAdd_eq (by omega)]
    refine ⟨_, rfl, ?_⟩
    have hinit : ∀ a ∈ init, a.segment.hi < e.segment.lo := fun a ha => h.hi_lt ha
    rw [assign_between (e := ⟨g, o.sellPrice, e.maxPrice, o.forSale + e.totalForSale⟩)
      (fun a ha => ((hinit a ha).trans_le (hle e (by simp))).trans he)
      fun a ha => (hafter a ha).trans_le (hle a (by simp [ha]))]
    refine widened_grouped h ?_ he.le ?_ ?_ hafter (Nat.add_comm _ _) ?_
    · exact (position_le.mpr (.inr ⟨hgroup.symm, le_rfl⟩))
    · refine ⟨?_, le_rfl⟩
      have hlo := (hle e (by simp)).trans he.le
      rwa [OrderGroup.segment, hgroup] at hlo
    · intro a ha
      have := hinit a ha
      rwa [OrderGroup.segment, OrderGroup.segment, hgroup] at this
    · obtain ⟨hb, hq'⟩ := h.market e (by simp)
      exact ⟨hbase.symm.trans hb, hquote.symm.trans hq'⟩


/-- A price that is not capped. -/
def Price.InRange (p : Price) : Prop := p.gt p.max = false ∧ p.lt p.min = false

lemma capPrice_inRange (h : p.InRange) : capPrice p = ⟨p, false, false⟩ := by
  rw [capPrice, h.1, h.2]
  rfl

/-- An order whose price is not capped comes into the groups of a percentage. -/
lemma insertInGroup_grouped (h : Grouped idx pts) (hrange : o.sellPrice.InRange)
    (hfits : Fits o idx g) :
    ∃ idx', insertInGroup o idx g = some idx' ∧ Grouped idx' (point o g ::ₘ pts) := by
  by_cases hempty : idx = []
  · subst hempty
    have hnil : Grouped ([] ++ []) pts := h
    exact ⟨_, rfl, created_grouped hnil (by simp) (by simp)⟩
  rw [insertInGroup, if_neg hempty, capPrice_inRange hrange]
  rcases hcut : lowerBound g o.sellPrice idx with ⟨before, after⟩
  obtain ⟨rfl, hbefore, hafter⟩ := lowerBound_spec h hcut
  dsimp only
  rw [hcut]
  cases after with
  | nil => exact insertAtPrevious_grouped h hbefore (by simp) hfits
  | cons e rest =>
      have he : position g o.sellPrice ≤ e.segment.hi := hafter e List.mem_cons_self
      -- the groups after this one begin after it ends
      have hrest : position g o.sellPrice < e.segment.lo →
          ∀ a ∈ e :: rest, position g o.sellPrice < a.segment.lo := by
        intro hlt a ha
        rcases List.mem_cons.mp ha with rfl | ha
        · exact hlt
        · exact he.trans_lt (h.lt_lo ha)
      by_cases hmarket : e.sameMarket g o.sellPrice
      case neg =>
        have hlt := lt_lo_of_not_sameMarket (h.market e (by simp)) he hmarket
        dsimp only [insertAtNext]
        rw [if_pos (by simpa using hmarket)]
        exact insertAtPrevious_grouped h hbefore (hrest hlt) hfits
      obtain ⟨hgroup, hbase, hquote⟩ := sameMarket_iff.mp hmarket
      have hsum := hfits e (by simp) hmarket
      have hlo : e.segment.lo = position g e.maxPrice := by rw [OrderGroup.segment, hgroup]
      dsimp only [insertAtNext]
      rw [if_neg (by simpa using hmarket)]
      by_cases hgt : o.sellPrice.gt e.maxPrice
      · have hlt : position g o.sellPrice < e.segment.lo := by
          rw [hlo, position_lt_same]
          exact Price.gt_iff.mp hgt
        obtain ⟨q, hq⟩ := e.minPrice.mulRatio_isSome
          (show hundredPercent + g ≠ 0 by simp [hundredPercent]) (show hundredPercent ≠ 0 by decide)
        rw [hgt, if_pos rfl, hq]
        simp only [Option.map_some, Option.bind_eq_bind, Option.bind_some, Bool.false_and,
          Bool.false_eq_true, if_false, Bool.true_or, if_true, safeAdd_eq hsum]
        by_cases hout : o.sellPrice.gt q
        · rw [if_pos hout]
          exact insertAtPrevious_grouped h hbefore (hrest hlt) hfits
        · -- the group grows up to the order
          rw [if_neg hout]
          refine ⟨_, rfl, widened_grouped h ?_ le_rfl ?_ ?_ (fun a ha => h.lt_lo ha) rfl ?_⟩
          · rw [OrderGroup.segment, hgroup]
            exact hlt.le
          · refine ⟨?_, he⟩
            rw [OrderGroup.segment, hgroup]
          · intro a ha
            rw [OrderGroup.segment, hgroup]
            exact hbefore a ha
          · exact ⟨hbase, hquote⟩
      · -- the order is in the group
        have hcontains : e.segment.Contains (position g o.sellPrice) := by
          refine ⟨?_, he⟩
          rw [hlo, position_le_same]
          exact not_lt.mp fun hlt => hgt (Price.gt_iff.mpr hlt)
        rw [Bool.not_eq_true] at hgt
        rw [hgt]
        simp only [Bool.false_eq_true, if_false, Option.bind_eq_bind, Option.bind_some,
          Bool.false_and, Bool.or_false, safeAdd_eq hsum]
        exact ⟨_, rfl, widened_grouped h le_rfl le_rfl hcontains (fun a ha => h.hi_lt ha)
          (fun a ha => h.lt_lo ha) rfl (h.market e (by simp))⟩

/-! ### An order leaves -/

/-- The order is not the last in the group that has something for sale, unless it is the only one. -/
def LeavesNone (o : Order) (idx : List OrderGroup) (g : ℕ) (pts : Multiset (Position × ℕ)) : Prop :=
  ∀ e ∈ idx, e.segment.Contains (position g o.sellPrice) →
    (∃ q ∈ pts, e.segment.Contains q.1) → 0 < e.segment.weight pts

/-- An order leaves the groups of a percentage, and nothing is reported. -/
lemma removeFromGroup_grouped (h : Grouped idx (point o g ::ₘ pts)) (removeEmpty : Bool)
    (hlast : removeEmpty = true → LeavesNone o idx g pts) :
    ∃ idx', removeFromGroup removeEmpty o idx g = (idx', false) ∧ Grouped idx' pts ∧
      ∀ e' ∈ idx', e'.group = g ∨ e' ∈ idx := by
  rcases hcut : lowerBound g o.sellPrice idx with ⟨before, after⟩
  obtain ⟨rfl, hbefore, hafter⟩ := lowerBound_spec h hcut
  obtain ⟨s, hs, hcontains⟩ := h.divides.covered (point o g) (Multiset.mem_cons_self _ _)
  obtain ⟨e₀, he₀, rfl⟩ := List.mem_map.mp hs
  rw [removeFromGroup, hcut]
  dsimp only
  -- the group that is found is the one with the order
  rcases List.mem_append.mp he₀ with he₀ | he₀
  · exact absurd hcontains.2 (not_le.mpr (hbefore e₀ he₀))
  cases after with
  | nil => cases he₀
  | cons e rest =>
      have hfound : e₀ = e := by
        rcases List.mem_cons.mp he₀ with rfl | he₀
        · rfl
        · have hlt := (hafter e List.mem_cons_self).trans_lt (h.lt_lo he₀)
          exact absurd hcontains.1 (not_le.mpr hlt)
      subst hfound
      obtain ⟨hgroup, hmin, hmax⟩ := contains_iff.mp hcontains
      have hmarket : e₀.sameMarket g o.sellPrice :=
        sameMarket_iff.mpr ⟨hgroup, market_of_between (h.market e₀ (by simp)) hmin hmax⟩
      have hnotlt : e₀.maxPrice.lt o.sellPrice = false := by
        rw [← Bool.not_eq_true, Price.lt_iff]
        exact not_lt.mpr hmax
      have hdivides := h.divides
      rw [List.map_append, List.map_cons] at hdivides
      have hle : o.forSale ≤ e₀.totalForSale := hdivides.le_total (by simp) hcontains
      have hold : ∀ a ∈ before ++ rest, a ∈ before ++ e₀ :: rest := fun a ha =>
        (List.Sublist.append_left (List.sublist_cons_self e₀ rest) before).subset ha
      dsimp only
      rw [hmarket, hnotlt, if_neg (by simp), if_neg (by omega)]
      by_cases hstays : (!removeEmpty || decide (o.forSale < e₀.totalForSale)) = true
      · rw [if_pos hstays]
        refine ⟨_, rfl, ⟨?_, ?_⟩, ?_⟩
        · rw [List.map_append, List.map_cons]
          exact hdivides.lower hcontains
        · intro a ha
          rcases List.mem_append.mp ha with ha | ha
          · exact h.market a (by simp [ha])
          · rcases List.mem_cons.mp ha with rfl | ha
            · exact h.market e₀ (by simp)
            · exact h.market a (by simp [ha])
        · intro a ha
          rcases List.mem_append.mp ha with ha | ha
          · exact .inr (by simp [ha])
          · rcases List.mem_cons.mp ha with rfl | ha
            · exact .inl hgroup
            · exact .inr (by simp [ha])
      · rw [if_neg hstays]
        simp only [Bool.or_eq_true, Bool.not_eq_true', decide_eq_true_eq, not_or,
          Bool.not_eq_false] at hstays
        have hweight : e₀.segment.weight pts = 0 := by
          have hplace : e₀.segment.Contains (position g o.sellPrice) := hcontains
          have htotal := hdivides.total e₀.segment (by simp)
          rw [point, Segment.weight_cons_of_contains hplace] at htotal
          have : e₀.segment.total = e₀.totalForSale := rfl
          omega
        have hnone : ∀ q ∈ pts, ¬ e₀.segment.Contains q.1 := fun q hq hc =>
          (hlast hstays.1 e₀ (by simp) hcontains ⟨q, hq, hc⟩).ne' hweight
        refine ⟨_, rfl, ⟨?_, ?_⟩, fun a ha => .inr (hold a ha)⟩
        · rw [List.map_append]
          exact hdivides.drop hcontains hnone
        · exact fun a ha => h.market a (hold a ha)


/-! ### All percentages -/

/-- The place is of this percentage, and of a market where this asset is sold. -/
def InMarket (g base : ℕ) (x : Position) : Prop :=
  (ofLex x).1 = g ∧ (ofLex (OrderDual.ofDual (ofLex x).2)).1 = base

instance (g base : ℕ) : DecidablePred (InMarket g base) := fun x =>
  inferInstanceAs (Decidable ((ofLex x).1 = g ∧ (ofLex (OrderDual.ofDual (ofLex x).2)).1 = base))

/-- What is for sale at the places in `P`. -/
def amountAt (P : Position → Prop) [DecidablePred P] (pts : Multiset (Position × ℕ)) : ℕ :=
  ((pts.filter fun q => P q.1).map Prod.snd).sum

/-- What the map knows of the orders. -/
def points (gs : List ℕ) (orders : List Order) : Multiset (Position × ℕ) :=
  (orders : Multiset Order).bind fun o => (gs.map (point o) : Multiset (Position × ℕ))

variable {gs : List ℕ} {orders : List Order} {P : Position → Prop} [DecidablePred P]

lemma amountAt_add (pts pts' : Multiset (Position × ℕ)) :
    amountAt P (pts + pts') = amountAt P pts + amountAt P pts' := by
  rw [amountAt, Multiset.filter_add, Multiset.map_add, Multiset.sum_add]
  rfl

/-- Of the places of an order, only the one of a percentage counts for it. -/
lemma amountAt_point (hgs : gs.Nodup) (hP : ∀ g' p, P (position g' p) → g' = g) (hg : g ∈ gs)
    (o : Order) :
    amountAt P (gs.map (point o) : Multiset (Position × ℕ)) =
      if P (position g o.sellPrice) then o.forSale else 0 := by
  have hnone : ∀ l : List ℕ, g ∉ l → amountAt P (l.map (point o) : Multiset (Position × ℕ)) = 0 := by
    intro l hl
    have hempty : (l.map (point o) : Multiset (Position × ℕ)).filter (fun q => P q.1) = 0 := by
      refine Multiset.filter_eq_nil.mpr fun q hq hp => ?_
      obtain ⟨g', hg', rfl⟩ := List.mem_map.mp (Multiset.mem_coe.mp hq)
      exact hl (hP _ _ hp ▸ hg')
    rw [amountAt, hempty]
    rfl
  obtain ⟨l, l', rfl⟩ := List.append_of_mem hg
  have hnodup := List.nodup_append.mp hgs
  have hl : g ∉ l := fun h => hnodup.2.2 g h g List.mem_cons_self rfl
  have hl' : g ∉ l' := (List.nodup_cons.mp hnodup.2.1).1
  rw [List.map_append, List.map_cons, ← Multiset.coe_add, amountAt_add, hnone l hl, ← Multiset.cons_coe,
    ← Multiset.singleton_add, amountAt_add, hnone l' hl', Nat.zero_add, Nat.add_zero, amountAt,
    Multiset.filter_singleton]
  by_cases hplace : P (position g o.sellPrice)
  · rw [if_pos hplace, if_pos (show P (point o g).1 from hplace)]
    simp [point]
  · rw [if_neg hplace, if_neg (show ¬ P (point o g).1 from hplace)]
    rfl

/-- What is for sale at places of a percentage. -/
lemma amountAt_points (hgs : gs.Nodup) (hP : ∀ g' p, P (position g' p) → g' = g) (hg : g ∈ gs)
    (orders : List Order) : amountAt P (points gs orders) =
      ((orders.filter fun o => P (position g o.sellPrice)).map Order.forSale).sum := by
  induction orders with
  | nil => rfl
  | cons o orders ih =>
      rw [points, ← Multiset.cons_coe, Multiset.cons_bind, amountAt_add, amountAt_point hgs hP hg]
      change _ + amountAt P (points gs orders) = _
      rw [ih, List.filter_cons]
      by_cases h : P (position g o.sellPrice)
      · rw [if_pos h, if_pos (by simpa using h), List.map_cons, List.sum_cons]
      · rw [if_neg h, if_neg (by simpa using h), Nat.zero_add]

lemma group_of_inMarket {base g' : ℕ} {p : Price} (h : InMarket g base (position g' p)) : g' = g := h.1

lemma inMarket_position {base : ℕ} {p : Price} :
    InMarket g base (position g p) ↔ p.baseId = base :=
  ⟨fun h => h.2, fun h => ⟨rfl, h⟩⟩

lemma amountAt_cons_of_ne {base : ℕ} (h : g' ≠ g) (o : Order) (pts : Multiset (Position × ℕ)) :
    amountAt (InMarket g base) (point o g' ::ₘ pts) = amountAt (InMarket g base) pts := by
  have hnot : ¬ InMarket g base (point o g').1 := fun hin => h (group_of_inMarket hin)
  rw [amountAt, Multiset.filter_cons_of_neg
    (p := fun q : Position × ℕ => InMarket g base q.1) (a := point o g') _ hnot]
  rfl

/-- The places of a group are of its market. -/
lemma inMarket_of_contains {x : Position} (hmarket : e.minPrice.baseId = e.maxPrice.baseId)
    (h : e.segment.Contains x) : InMarket e.group e.minPrice.baseId x := by
  obtain ⟨hlo, hhi⟩ := h
  rw [OrderGroup.segment] at hlo hhi
  dsimp only at hlo hhi
  rw [position, Prod.Lex.le_iff] at hlo hhi
  simp only [ofLex_toLex, OrderDual.toDual_le, OrderDual.le_toDual, Price.rank,
    Prod.Lex.le_iff] at hlo hhi
  refine ⟨?_, ?_⟩ <;> omega

/-- The total of a group is of what is for sale of its asset. -/
lemma fits_of_amountAt (h : Grouped idx pts)
    (hsum : amountAt (InMarket g o.sellPrice.baseId) pts + o.forSale < 2 ^ 63) : Fits o idx g := by
  intro e he hmarket
  obtain ⟨hgroup, hbase, -⟩ := sameMarket_iff.mp hmarket
  have hle : e.totalForSale ≤ amountAt (InMarket g o.sellPrice.baseId) pts := by
    have htotal : e.totalForSale = e.segment.weight pts := h.divides.total _ (List.mem_map_of_mem he)
    rw [htotal, Segment.weight, amountAt]
    have hfilter : (pts.filter fun q => e.segment.Contains q.1) ≤
        pts.filter fun q => InMarket g o.sellPrice.baseId q.1 := by
      refine Multiset.monotone_filter_right pts fun q hq => ?_
      rw [← hgroup, ← hbase]
      exact inMarket_of_contains (h.market e he).1 hq
    obtain ⟨rest, hrest⟩ := Multiset.le_iff_exists_add.mp (Multiset.map_le_map (f := Prod.snd) hfilter)
    rw [hrest, Multiset.sum_add]
    exact Nat.le_add_right _ _
  omega

/-- The order comes into the groups of all percentages. -/
lemma foldlM_insertInGroup (hgs : gs.Nodup) (h : Grouped idx pts) (hrange : o.sellPrice.InRange)
    (hsum : ∀ g ∈ gs, amountAt (InMarket g o.sellPrice.baseId) pts + o.forSale < 2 ^ 63) :
    ∃ idx', gs.foldlM (insertInGroup o) idx = some idx' ∧
      Grouped idx' ((gs.map (point o) : Multiset (Position × ℕ)) + pts) := by
  induction gs generalizing idx pts with
  | nil => exact ⟨idx, rfl, by simpa using h⟩
  | cons g gs ih =>
      obtain ⟨idx₁, hinsert, h₁⟩ :=
        insertInGroup_grouped h hrange (fits_of_amountAt h (hsum g List.mem_cons_self))
      have hg : g ∉ gs := (List.nodup_cons.mp hgs).1
      obtain ⟨idx₂, hrest, h₂⟩ := ih (List.nodup_cons.mp hgs).2 h₁ fun g' hg' => by
        rw [amountAt_cons_of_ne (show g ≠ g' from fun heq => hg (heq ▸ hg'))]
        exact hsum g' (List.mem_cons_of_mem g hg')
      refine ⟨idx₂, ?_, ?_⟩
      · rw [List.foldlM_cons, hinsert]
        exact hrest
      · rw [List.map_cons, ← Multiset.cons_coe, Multiset.cons_add, ← Multiset.add_cons]
        exact h₂

/-- The order leaves the groups of all percentages. -/
lemma foldl_removeFromGroup (hgs : gs.Nodup) {removeEmpty : Bool} {n : ℕ}
    (h : Grouped idx ((gs.map (point o) : Multiset (Position × ℕ)) + pts))
    (hlast : removeEmpty = true → ∀ g ∈ gs, LeavesNone o idx g pts) :
    ∃ idx', gs.foldl
        (fun r group =>
          let r' := removeFromGroup removeEmpty o r.1 group
          (r'.1, r.2 + if r'.2 then 1 else 0)) (idx, n) = (idx', n) ∧ Grouped idx' pts := by
  induction gs generalizing idx with
  | nil => exact ⟨idx, rfl, by simpa using h⟩
  | cons g gs ih =>
      have hg : g ∉ gs := (List.nodup_cons.mp hgs).1
      rw [List.map_cons, ← Multiset.cons_coe, Multiset.cons_add] at h
      -- the places of the other percentages are not in a group of this one
      have hout : ∀ e ∈ idx, e.segment.Contains (position g o.sellPrice) →
          ∀ q ∈ (gs.map (point o) : Multiset (Position × ℕ)), ¬ e.segment.Contains q.1 := by
        intro e he hc q hq hcq
        obtain ⟨g', hg', rfl⟩ := List.mem_map.mp (Multiset.mem_coe.mp hq)
        have hgroup := (contains_iff.mp hc).1.symm.trans (contains_iff.mp hcq).1
        exact hg (hgroup ▸ hg')
      obtain ⟨idx₁, hremove, h₁, hframe⟩ := removeFromGroup_grouped h removeEmpty (by
        intro hempty e he hc hex
        obtain ⟨q, hq, hcq⟩ := hex
        have hpts : ∃ q ∈ pts, e.segment.Contains q.1 := by
          rcases Multiset.mem_add.mp hq with hq | hq
          · exact absurd hcq (hout e he hc q hq)
          · exact ⟨q, hq, hcq⟩
        have hweight := hlast hempty g List.mem_cons_self e he hc hpts
        rw [Segment.weight] at hweight ⊢
        rw [Multiset.filter_add, Multiset.map_add, Multiset.sum_add]
        omega)
      obtain ⟨idx₂, hrest, h₂⟩ := ih (List.nodup_cons.mp hgs).2 h₁ (by
        intro hempty g' hg' e he hc
        have hgroup := (contains_iff.mp hc).1
        rcases hframe e he with heq | hidx
        · exact absurd (heq.symm.trans hgroup ▸ hg') hg
        · exact hlast hempty g' (List.mem_cons_of_mem g hg') e hidx hc)
      refine ⟨idx₂, ?_, h₂⟩
      rw [List.foldl_cons]
      dsimp only
      rw [hremove]
      exact hrest


/-! ### Runs -/

/-- The price of the order is between the two prices of the group. -/
def OrderGroup.Holds (e : OrderGroup) (o : Order) : Prop :=
  e.minPrice.le o.sellPrice ∧ o.sellPrice.le e.maxPrice

instance (e : OrderGroup) : DecidablePred e.Holds := fun o =>
  inferInstanceAs (Decidable ((e.minPrice.le o.sellPrice : Prop) ∧ o.sellPrice.le e.maxPrice))

lemma contains_iff_holds (hgroup : e.group = g) :
    e.segment.Contains (position g o.sellPrice) ↔ e.Holds o := by
  rw [contains_iff, OrderGroup.Holds, Price.le_iff, Price.le_iff]
  exact and_iff_right hgroup

/-- What is for sale of an asset. -/
def State.amountForSale (s : State) (base : ℕ) : ℕ :=
  ((s.orders.filter fun o => o.sellPrice.baseId = base).map Order.forSale).sum

/-- **Order groups partition the order book**, for every tracked percentage: every live order is in
exactly one group, groups of one market do not overlap, and the total of a group is the sum of its
orders. -/
structure Partitioned (T : Tracked) (s : State) : Prop where
  one_group : ∀ g ∈ T.groups, ∀ o ∈ s.orders, ∃! e, e ∈ s.idx ∧ e.group = g ∧ e.Holds o
  apart : s.idx.Pairwise fun a b => a.sameMarket b.group b.minPrice → b.maxPrice.lt a.minPrice
  total : ∀ e ∈ s.idx, e.group ∈ T.groups →
    e.totalForSale = ((s.orders.filter fun o => e.Holds o).map Order.forSale).sum

/-- What goes wrong at an event does not happen: the price of an order is not capped; what is for sale
of an asset is a `share_type`; and an order that is removed does not leave orders in its group with
nothing for sale. -/
def State.Meets (s : State) : Event → Prop
  | .insert o => o.sellPrice.InRange ∧ s.amountForSale o.sellPrice.baseId + o.forSale < 2 ^ 63
  | .remove id => ∀ o ∈ s.orders, o.id = id → ∀ e ∈ s.idx, e.Holds o →
      (∃ o' ∈ s.orders, o'.id ≠ id ∧ e.Holds o') →
        ∃ o' ∈ s.orders, o'.id ≠ id ∧ e.Holds o' ∧ 0 < o'.forSale
  | .modify id forSale => ∀ o ∈ s.orders, o.id = id →
      s.amountForSale o.sellPrice.baseId + forSale < 2 ^ 63

namespace Tracked

variable (T : Tracked)

/-- All events of a run meet the condition. -/
def Admissible : List Event → State → Prop
  | [], _ => True
  | ev :: evs, s => s.Meets ev ∧ ∀ s', T.apply ev s = some s' → Admissible evs s'

/-- What a run keeps. -/
structure Sound (s : State) : Prop where
  grouped : Grouped s.idx (points T.groups s.orders)
  nodup : (s.orders.map Order.id).Nodup
  range : ∀ o ∈ s.orders, o.sellPrice.InRange
  warnings : s.warnings = 0

end Tracked

lemma Tracked.nodup (T : Tracked) : T.groups.Nodup := T.sorted.imp Nat.ne_of_lt

lemma group_of_contains (h : e.segment.Contains (position g' p)) (hg : e.group = g) : g' = g :=
  (contains_iff.mp h).1.symm.trans hg

lemma weight_points (hgs : gs.Nodup) (hg : e.group ∈ gs) (orders : List Order) :
    e.segment.weight (points gs orders) =
      ((orders.filter fun o => e.Holds o).map Order.forSale).sum := by
  have hsum := amountAt_points (P := e.segment.Contains) (g := e.group) hgs
    (fun g' p h => group_of_contains h rfl) hg orders
  have hfilter : orders.filter (fun o => e.segment.Contains (position e.group o.sellPrice)) =
      orders.filter fun o => e.Holds o :=
    List.filter_congr fun o _ => decide_eq_decide.mpr (contains_iff_holds rfl)
  rw [hfilter] at hsum
  exact hsum

lemma amountAt_market (hgs : gs.Nodup) (hg : g ∈ gs) (base : ℕ) (orders : List Order) :
    amountAt (InMarket g base) (points gs orders) =
      ((orders.filter fun o => o.sellPrice.baseId = base).map Order.forSale).sum := by
  rw [amountAt_points (g := g) hgs (fun g' p h => group_of_inMarket h) hg orders]
  exact congrArg (fun l => (l.map Order.forSale).sum)
    (List.filter_congr fun o _ => decide_eq_decide.mpr inMarket_position)

lemma points_cons (gs : List ℕ) (o : Order) (orders : List Order) :
    points gs (o :: orders) = (gs.map (point o) : Multiset (Position × ℕ)) + points gs orders := by
  rw [points, ← Multiset.cons_coe, Multiset.cons_bind]
  rfl

lemma points_perm {orders orders' : List Order} (h : orders.Perm orders') :
    points gs orders = points gs orders' := by
  rw [points, points, Multiset.coe_eq_coe.mpr h]

/-- The order with an id, and the others. -/
lemma perm_of_mem (hnodup : (orders.map Order.id).Nodup) (ho : o ∈ orders) :
    orders.Perm (o :: orders.filter (·.id ≠ o.id)) := by
  have hfilter : orders.filter (fun a => decide (a.id ≠ o.id)) = orders.erase o := by
    rw [(List.Nodup.of_map _ hnodup).erase_eq_filter]
    refine List.filter_congr fun a ha => ?_
    rw [Bool.eq_iff_iff, decide_eq_true_eq, bne_iff_ne]
    exact not_congr ⟨List.inj_on_of_nodup_map hnodup ha ho, congrArg Order.id⟩
  rw [hfilter]
  exact List.perm_cons_erase ho

lemma find?_spec {id : ℕ} (h : orders.find? (·.id = id) = some o) : o ∈ orders ∧ o.id = id := by
  have hid := List.find?_some h
  exact ⟨List.mem_of_find?_eq_some h, of_decide_eq_true hid⟩

lemma mem_points {q : Position × ℕ} :
    q ∈ points gs orders ↔ ∃ o ∈ orders, ∃ g ∈ gs, point o g = q := by
  rw [points, Multiset.mem_bind]
  simp

namespace Tracked

variable {T : Tracked} {s s' : State}

/-- **What a run keeps is the partition.** -/
lemma Sound.partitioned (h : T.Sound s) : Partitioned T s where
  one_group g hg o ho := by
    have hq : point o g ∈ points T.groups s.orders := mem_points.mpr ⟨o, ho, g, hg, rfl⟩
    obtain ⟨t, ht, hc⟩ := h.grouped.divides.covered _ hq
    obtain ⟨e, he, rfl⟩ := List.mem_map.mp ht
    have hgroup := (contains_iff.mp hc).1
    refine ⟨e, ⟨he, hgroup, (contains_iff_holds hgroup).mp hc⟩, ?_⟩
    rintro e' ⟨he', hgroup', hholds⟩
    by_contra hne
    have hsymm : Std.Symm fun a b : OrderGroup => a.segment.hi < b.segment.lo ∨
        b.segment.hi < a.segment.lo := ⟨fun _ _ => Or.symm⟩
    have hc' := (contains_iff_holds hgroup').mpr hholds
    have hapart : s.idx.Pairwise fun a b => a.segment.hi < b.segment.lo ∨
        b.segment.hi < a.segment.lo := (List.pairwise_map.mp h.grouped.divides.apart).imp Or.inl
    rcases hapart.forall he' he hne with hlt | hlt
    · exact absurd (hc.1.trans hc'.2) (not_le.mpr hlt)
    · exact absurd (hc'.1.trans hc.2) (not_le.mpr hlt)
  apart := by
    refine (List.pairwise_map.mp h.grouped.divides.apart).imp fun {a b} hlt hmarket => ?_
    obtain ⟨hgroup, -, -⟩ := sameMarket_iff.mp hmarket
    rw [OrderGroup.segment, OrderGroup.segment, hgroup, position_lt_same] at hlt
    exact Price.lt_iff.mpr hlt
  total e he hg := by
    rw [← weight_points T.nodup hg]
    exact h.grouped.divides.total _ (List.mem_map_of_mem he)

lemma Sound.empty (T : Tracked) : T.Sound {} where
  grouped := .empty
  nodup := .nil
  range _ h := by cases h
  warnings := rfl

/-- An order comes into the groups. -/
lemma objectInserted_grouped {idx : List OrderGroup} {orders : List Order}
    (h : Grouped idx (points T.groups orders)) (hrange : o.sellPrice.InRange)
    (hsum : ((orders.filter fun a => a.sellPrice.baseId = o.sellPrice.baseId).map
      Order.forSale).sum + o.forSale < 2 ^ 63) :
    ∃ idx', T.objectInserted o idx = some idx' ∧ Grouped idx' (points T.groups (o :: orders)) := by
  obtain ⟨idx', hinsert, h'⟩ := foldlM_insertInGroup T.nodup h hrange fun g hg => by
    rw [amountAt_market T.nodup hg]
    exact hsum
  exact ⟨idx', hinsert, by rwa [points_cons]⟩

/-- An order leaves the groups. -/
lemma removeOrder_grouped (h : T.Sound s) (ho : o ∈ s.orders) (removeEmpty : Bool)
    (hlast : removeEmpty = true → ∀ e ∈ s.idx, e.Holds o →
      (∃ o' ∈ s.orders, o'.id ≠ o.id ∧ e.Holds o') →
        ∃ o' ∈ s.orders, o'.id ≠ o.id ∧ e.Holds o' ∧ 0 < o'.forSale) :
    ∃ idx', T.removeOrder removeEmpty o s.idx = (idx', 0) ∧
      Grouped idx' (points T.groups (s.orders.filter (·.id ≠ o.id))) := by
  have hgrouped := h.grouped
  rw [points_perm (perm_of_mem h.nodup ho), points_cons] at hgrouped
  refine foldl_removeFromGroup T.nodup hgrouped fun hempty g hg e he hc hex => ?_
  have hgroup := (contains_iff.mp hc).1
  obtain ⟨q, hq, hcq⟩ := hex
  obtain ⟨o', ho', g', hg', rfl⟩ := mem_points.mp hq
  obtain ⟨hmem, hid⟩ := List.mem_filter.mp ho'
  have hholds' : e.Holds o' := by
    have hg'' : g' = g := group_of_contains hcq hgroup
    rw [← contains_iff_holds hgroup, ← hg'']
    exact hcq
  obtain ⟨o₂, hmem₂, hid₂, hholds₂, hpos⟩ := hlast hempty e he ((contains_iff_holds hgroup).mp hc)
    ⟨o', hmem, of_decide_eq_true hid, hholds'⟩
  rw [weight_points T.nodup (hgroup ▸ hg)]
  refine hpos.trans_le (List.single_le_sum (fun _ _ => Nat.zero_le _) _ (List.mem_map_of_mem ?_))
  exact List.mem_filter.mpr ⟨List.mem_filter.mpr ⟨hmem₂, decide_eq_true hid₂⟩, decide_eq_true hholds₂⟩

/-- **The step lemma.** An event that meets the condition is carried out, and keeps the partition. -/
lemma Sound.apply (h : T.Sound s) {ev : Event} (hmeets : s.Meets ev) :
    ∃ s', T.apply ev s = some s' ∧ T.Sound s' := by
  cases ev with
  | insert o =>
      obtain ⟨hrange, hsum⟩ := hmeets
      rw [Tracked.apply]
      by_cases hid : o.id ∈ s.orders.map Order.id
      · exact ⟨s, if_pos hid, h⟩
      obtain ⟨idx', hinsert, h'⟩ := objectInserted_grouped h.grouped hrange hsum
      rw [if_neg hid, hinsert]
      refine ⟨_, rfl, h', ?_, ?_, h.warnings⟩
      · rw [List.map_cons]
        exact List.nodup_cons.mpr ⟨hid, h.nodup⟩
      · exact List.forall_mem_cons.mpr ⟨hrange, h.range⟩
  | remove id =>
      rw [Tracked.apply]
      cases hfind : s.orders.find? (·.id = id) with
      | none => exact ⟨s, rfl, h⟩
      | some o =>
          obtain ⟨ho, rfl⟩ := find?_spec hfind
          obtain ⟨idx', hremove, h'⟩ := removeOrder_grouped h ho true fun _ => hmeets o ho rfl
          refine ⟨_, rfl, ?_, ?_, ?_, ?_⟩
          · dsimp only
            rw [hremove]
            exact h'
          · exact h.nodup.sublist (List.filter_sublist.map _)
          · exact fun a ha => h.range a (List.mem_of_mem_filter ha)
          · dsimp only
            rw [hremove, h.warnings]
            rfl
  | modify id forSale =>
      rw [Tracked.apply]
      cases hfind : s.orders.find? (·.id = id) with
      | none => exact ⟨s, rfl, h⟩
      | some o =>
          obtain ⟨ho, rfl⟩ := find?_spec hfind
          obtain ⟨idx₁, hremove, h₁⟩ := removeOrder_grouped h ho false
            fun hempty => Bool.noConfusion hempty
          have hothers : ((s.orders.filter (·.id ≠ o.id)).filter
              (fun a => a.sellPrice.baseId = o.sellPrice.baseId)).map Order.forSale |>.Sublist
                ((s.orders.filter fun a => a.sellPrice.baseId = o.sellPrice.baseId).map
                  Order.forSale) := (List.filter_sublist.filter _).map _
          have hsum := hmeets o ho rfl
          obtain ⟨idx₂, hinsert, h₂⟩ := objectInserted_grouped (o := { o with forSale }) h₁
            (h.range o ho)
            (lt_of_le_of_lt (Nat.add_le_add_right (hothers.sum_le_sum fun _ _ => Nat.zero_le _) _) hsum)
          dsimp only
          rw [hremove]
          dsimp only
          rw [hinsert]
          refine ⟨_, rfl, h₂, ?_, ?_, ?_⟩
          · rw [List.map_cons]
            refine List.nodup_cons.mpr ⟨?_, h.nodup.sublist (List.filter_sublist.map _)⟩
            intro hid
            obtain ⟨a, ha, heq⟩ := List.mem_map.mp hid
            exact of_decide_eq_true (List.mem_filter.mp ha).2 heq
          · exact List.forall_mem_cons.mpr
              ⟨h.range o ho, fun a ha => h.range a (List.mem_of_mem_filter ha)⟩
          · dsimp only
            rw [h.warnings]

/-- **The run lemma.** -/
lemma Sound.run (h : T.Sound s) {evs : List Event} (hadmissible : T.Admissible evs s) :
    ∃ s', T.run evs s = some s' ∧ T.Sound s' := by
  induction evs generalizing s with
  | nil => exact ⟨s, rfl, h⟩
  | cons ev evs ih =>
      obtain ⟨s₁, happly, h₁⟩ := h.apply hadmissible.1
      obtain ⟨s₂, hrun, h₂⟩ := ih h₁ (hadmissible.2 s₁ happly)
      refine ⟨s₂, ?_, h₂⟩
      rw [Tracked.run, List.foldlM_cons, happly]
      exact hrun

end Tracked

/-- **Order groups partition the order book** in every run whose events meet the condition: every
event is carried out, no group is missed when an order leaves it, and every live order is in one
group. -/
theorem partitioned_run (T : Tracked) (evs : List Event) (h : T.Admissible evs {}) :
    ∃ s, T.run evs {} = some s ∧ s.warnings = 0 ∧ Partitioned T s := by
  obtain ⟨s, hrun, hs⟩ := (Tracked.Sound.empty T).run h
  exact ⟨s, hrun, hs.warnings, hs.partitioned⟩

/-! ### An order with nothing for sale -/

/-- The percentages that are tracked by default. -/
def defaultGroups : Tracked where
  groups := [10, 100]
  sorted := by decide
  pos := by decide

/-- 100 of the asset 0 are sold for 100 of the asset 1. -/
def par : Price where
  baseAmount := 100
  baseId := 0
  quoteAmount := 100
  quoteId := 1
  base_pos := by decide
  quote_pos := by decide
  distinct := by decide

instance : DecidablePred Price.InRange := fun _ => inferInstanceAs (Decidable (_ ∧ _))

instance State.decidableMeets (s : State) : DecidablePred s.Meets
  | .insert _ => inferInstanceAs (Decidable (_ ∧ _))
  | .remove _ => inferInstanceAs (Decidable (∀ o ∈ s.orders, _))
  | .modify _ _ => inferInstanceAs (Decidable (∀ o ∈ s.orders, _))

instance Tracked.decidableAdmissible (T : Tracked) : ∀ evs s, Decidable (T.Admissible evs s)
  | [], _ => isTrue trivial
  | ev :: evs, s =>
      have := T.decidableAdmissible evs
      inferInstanceAs (Decidable (s.Meets ev ∧ ∀ s' ∈ T.apply ev s, T.Admissible evs s'))

/-- A second order joins the group of one per cent, has a group of its own in the other percentage, and
leaves again. -/
def joined : List Event :=
  [.insert ⟨1, par, 5⟩, .insert ⟨2, ⟨1005, 0, 1000, 1, by decide, by decide, by decide⟩, 3⟩, .modify 1 2,
    .remove 2]

/-- In the end the groups have what is left for sale. -/
theorem partitioned_run_one :
    (defaultGroups.run (joined.take 2) {}).map (fun s => s.idx.map OrderGroup.totalForSale) =
        some [3, 5, 8] ∧
      ∃ s, defaultGroups.run joined {} = some s ∧ s.idx.map OrderGroup.totalForSale = [2, 2] ∧
        s.warnings = 0 ∧ Partitioned defaultGroups s := by
  obtain ⟨s, hrun, hwarnings, hs⟩ := partitioned_run defaultGroups joined (by decide +kernel)
  have htotals : (defaultGroups.run joined {}).map (fun s => s.idx.map OrderGroup.totalForSale) =
      some [2, 2] := by decide +kernel
  rw [hrun] at htotals
  exact ⟨by decide +kernel, s, hrun, Option.some.inj htotals, hwarnings, hs⟩

/-- Two orders at one price; there is nothing left for sale in the second when the first is
removed. -/
def emptied : List Event :=
  [.insert ⟨1, par, 5⟩, .insert ⟨2, par, 3⟩, .modify 2 0, .remove 1]

/-- The second order is in no group then, and its own removal is reported as what "should not
happen". -/
theorem not_partitioned :
    (∃ s, defaultGroups.run emptied {} = some s ∧ ¬ Partitioned defaultGroups s) ∧
      (defaultGroups.run (emptied ++ [.remove 2]) {}).map State.warnings = some 2 := by
  refine ⟨⟨⟨[⟨2, par, 0⟩], [], 0⟩, ?_, ?_⟩, by decide +kernel⟩
  · have hstate : (defaultGroups.run emptied {}).map (fun s => (s.orders, s.idx, s.warnings)) =
        some ([⟨2, par, 0⟩], [], 0) := by decide +kernel
    obtain ⟨⟨orders, idx, warnings⟩, hrun, heq⟩ := Option.map_eq_some_iff.mp hstate
    cases heq
    exact hrun
  · intro h
    obtain ⟨e, ⟨he, -⟩, -⟩ := h.one_group 10 List.mem_cons_self ⟨2, par, 0⟩ List.mem_cons_self
    cases he

end ZosCore.GroupedOrders
