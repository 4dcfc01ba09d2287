import ZosCore.Lib.PackedSize
import ZosCore.Member.NameRegistry
import ZosCore.Protocol.SafeInt

/-!
`account.cpp`, `asset_ops.cpp` and `operations.cpp`: fees for the size of an operation.

Four operations pay, besides a fee that does not depend on their size, for each kilobyte that they are
packed in. One of them does not: `account_config_operation::calculate_fee` packs `this`, so what it pays
for are the eight bytes of a pointer. The other sums are taken modulo `2 ^ 64` and read as signed.

What is unpacked has less than `MAX_ARRAY_ALLOC_SIZE` in each array, so the cast of a length to 32 bits
loses nothing and is left out.

* `AccountCreate`, `AccountConfig`, `AssetCreate`, `AssetUpdate`: the operations, with how their fields
  are packed.
* `calculateDataFee`, and `calculateFee` of each operation.
* `Longer`: an operation with a string, a map or a list that has been lengthened.
* `PaysForSize`: what is promised of an operation and of a longer one.
* **`paysForSize_iff`**: it is so iff both are `Counted`: no sum leaves its type, and the size of
  `account_config` makes no difference.
-/

namespace ZosCore.SizeFees

/-! ### What the operations are made of -/

/-- `asset` -/
structure AssetAmount where
  amount : Int64
  assetId : ℕ

instance : PackedSize AssetAmount := .reflect fun a => (a.amount, a.assetId)

/-- `price` -/
structure Price where
  base : AssetAmount
  quote : AssetAmount

instance : PackedSize Price := .reflect fun p => (p.base, p.quote)

/-- `public_key_data`, an array of 33 bytes. -/
structure PublicKey where
  keyData : Vector UInt8 33

instance : PackedSize PublicKey := .fixed PublicKey 33

/-- `address`, a `ripemd160`. -/
structure Address where
  addr : Vector UInt8 20

instance : PackedSize Address := .fixed Address 20

/-- `future_extensions`, a `static_variant` with nothing in its one case. -/
structure Extension where

instance : PackedSize Extension := .reflect fun _ => (0 : ℕ)

/-- `authority` -/
structure Authority where
  weightThreshold : UInt32
  accountAuths : List (ℕ × UInt16)
  keyAuths : List (PublicKey × UInt16)
  addressAuths : List (Address × UInt16)

instance : PackedSize Authority :=
  .reflect fun a => (a.weightThreshold, a.accountAuths, a.keyAuths, a.addressAuths)

/-- `account_options`. A `vote_id_type` has 64 bits. -/
structure AccountOptions where
  memoKey : PublicKey
  authKey : PublicKey
  votingAccount : ℕ
  numWitness : UInt16
  numCommittee : UInt16
  numBudget : UInt16
  votes : List UInt64
  extensions : List Extension

instance : PackedSize AccountOptions :=
  .reflect fun o => (o.memoKey, o.authKey, o.votingAccount, o.numWitness, o.numCommittee, o.numBudget,
    o.votes, o.extensions)

/-- `special_authority` -/
inductive SpecialAuthority where
  | noSpecialAuthority
  | topHolders (asset : ℕ) (numTopHolders : UInt8)

/-- The number of the case, and what is in it. -/
instance : PackedSize SpecialAuthority where
  packSize
    | .noSpecialAuthority => packSize (0 : ℕ)
    | .topHolders asset numTopHolders => packSize (1 : ℕ) + packSize (asset, numTopHolders)
  Lengthens a b := a = b
  refl _ := rfl
  packSize_le h := by rw [h]

/-- `buyback_account_options` -/
structure BuybackAccountOptions where
  assetToBuy : ℕ
  assetToBuyIssuer : ℕ
  markets : List ℕ

instance : PackedSize BuybackAccountOptions :=
  .reflect fun o => (o.assetToBuy, o.assetToBuyIssuer, o.markets)

/-- `asset_options` -/
structure AssetOptions where
  maxSupply : Int64
  marketFeePercent : UInt16
  maxMarketFee : Int64
  issuerPermissions : UInt16
  flags : UInt16
  coreExchangeRate : Price
  whitelistAuthorities : List ℕ
  blacklistAuthorities : List ℕ
  whitelistMarkets : List ℕ
  blacklistMarkets : List ℕ
  description : String
  extensions : List Extension

instance : PackedSize AssetOptions :=
  .reflect fun o => (o.maxSupply, o.marketFeePercent, o.maxMarketFee, o.issuerPermissions, o.flags,
    o.coreExchangeRate, o.whitelistAuthorities, o.blacklistAuthorities, o.whitelistMarkets,
    o.blacklistMarkets, o.description, o.extensions)

/-- `bitasset_options` -/
structure BitassetOptions where
  feedLifetimeSec : UInt32
  minimumFeeds : UInt8
  forceSettlementDelaySec : UInt32
  forceSettlementOffsetPercent : UInt16
  maximumForceSettlementVolume : UInt16
  shortBackingAsset : ℕ
  extensions : List Extension

instance : PackedSize BitassetOptions :=
  .reflect fun o => (o.feedLifetimeSec, o.minimumFeeds, o.forceSettlementDelaySec,
    o.forceSettlementOffsetPercent, o.maximumForceSettlementVolume, o.shortBackingAsset, o.extensions)

/-! ### The operations -/

/-- `account_create_operation` -/
structure AccountCreate where
  fee : AssetAmount
  registrar : ℕ
  referrer : ℕ
  referrerPercent : UInt16
  name : String
  owner : Authority
  active : Authority
  limitactive : Authority
  options : AccountOptions
  ownerSpecialAuthority : Option SpecialAuthority
  activeSpecialAuthority : Option SpecialAuthority
  buybackOptions : Option BuybackAccountOptions
  extensions : List Extension

instance : PackedSize AccountCreate :=
  .reflect fun op => (op.fee, op.registrar, op.referrer, op.referrerPercent, op.name, op.owner,
    op.active, op.limitactive, op.options, op.ownerSpecialAuthority, op.activeSpecialAuthority,
    op.buybackOptions, op.extensions)

/-- `account_create_operation::fee_parameters_type` -/
structure AccountCreateFees where
  basicFee : UInt64
  premiumFee : UInt64
  pricePerKbyte : UInt32
  charFee : UInt64

/-- `account_config_operation` -/
structure AccountConfig where
  fee : AssetAmount
  issuer : ℕ
  config : List (String × String)
  opType : UInt32
  extensions : List Extension

instance : PackedSize AccountConfig :=
  .reflect fun op => (op.fee, op.issuer, op.config, op.opType, op.extensions)

/-- `account_config_operation::fee_parameters_type` -/
structure AccountConfigFees where
  fee : Int64
  pricePerKbyte : UInt32

/-- `asset_create_operation` -/
structure AssetCreate where
  fee : AssetAmount
  issuer : ℕ
  symbol : String
  precision : UInt8
  commonOptions : AssetOptions
  bitassetOpts : Option BitassetOptions
  isPredictionMarket : Bool
  extensions : List Extension

instance : PackedSize AssetCreate :=
  .reflect fun op => (op.fee, op.issuer, op.symbol, op.precision, op.commonOptions, op.bitassetOpts,
    op.isPredictionMarket, op.extensions)

/-- `asset_create_operation::fee_parameters_type` -/
structure AssetCreateFees where
  symbol3 : UInt64
  symbol4 : UInt64
  longSymbol : UInt64
  pricePerKbyte : UInt32
  dotSymbol : UInt64

/-- `asset_update_operation` -/
structure AssetUpdate where
  fee : AssetAmount
  issuer : ℕ
  assetToUpdate : ℕ
  newIssuer : Option ℕ
  newOptions : AssetOptions
  extensions : List Extension

instance : PackedSize AssetUpdate :=
  .reflect fun op => (op.fee, op.issuer, op.assetToUpdate, op.newIssuer, op.newOptions, op.extensions)

/-- `asset_update_operation::fee_parameters_type` -/
structure AssetUpdateFees where
  fee : UInt64
  pricePerKbyte : UInt32

/-! ### Fees -/

/-- What the computation of a fee fails with. -/
inductive FeeError where
  /-- `result <= GRAPHENE_MAX_SHARE_SUPPLY` -/
  | supply
  /-- An amount that has no place in 64 bits. -/
  | number (e : NumberError)
  deriving DecidableEq

/-- `GRAPHENE_MAX_SHARE_SUPPLY` -/
def maxShareSupply : ℕ := 7000000000 * 100000

/-- What `bytes` cost. -/
def dataFee (bytes price : ℕ) : ℕ := bytes * price / 1024

/-- `calculate_data_fee`. The product of two numbers of 64 bits has a place in `fc::uint128`. -/
def calculateDataFee (bytes price : ℕ) : Except FeeError UInt64 :=
  let result := dataFee bytes price
  if result ≤ maxShareSupply then .ok (.ofNat result) else .error .supply

/-- A `uint64_t` as a `share_type`. -/
def share (x : UInt64) : ℤ := x.toInt64.toInt

/-- A fee that does not depend on the size, and what `bytes` cost, as a `share_type`. -/
def addDataFee (base : UInt64) (bytes price : ℕ) : Except FeeError ℤ := do
  let fee ← calculateDataFee bytes price
  return share (base + fee)

/-- The fee of `account_create` for the name. -/
def nameFee (k : AccountCreateFees) (name : String) : UInt64 :=
  if isCheapName name then k.basicFee
  else if name.length ≤ 8 ∧ name.length > 0 then
    k.premiumFee + .ofNat ([0, 8, 7, 6, 5, 4, 3, 2, 1, 0].getD name.length 0) * k.charFee
  else k.premiumFee

/-- `account_create_operation::calculate_fee` -/
def AccountCreate.calculateFee (k : AccountCreateFees) (op : AccountCreate) : Except FeeError ℤ :=
  addDataFee (nameFee k op.name) (packSize op) k.pricePerKbyte.toNat

/-- `sizeof( this )` -/
def pointerSize : ℕ := 8

/-- `account_config_operation::calculate_fee`. It packs a pointer. -/
def AccountConfig.calculateFee (k : AccountConfigFees) (_op : AccountConfig) : Except FeeError ℤ := do
  let fee ← calculateDataFee pointerSize k.pricePerKbyte.toNat
  (Safe.add k.fee.toInt (share fee)).mapError .number

/-- The fee of `asset_create` for the symbol. -/
def symbolFee (k : AssetCreateFees) (symbol : String) : UInt64 :=
  if '.' ∈ symbol.toList then k.dotSymbol
  else if symbol.length = 3 then k.symbol3
  else if symbol.length = 4 then k.symbol4
  else k.longSymbol

/-- `asset_create_operation::calculate_fee` -/
def AssetCreate.calculateFee (k : AssetCreateFees) (op : AssetCreate) : Except FeeError ℤ :=
  addDataFee (symbolFee k op.symbol) (packSize op) k.pricePerKbyte.toNat

/-- `asset_update_operation::calculate_fee` -/
def AssetUpdate.calculateFee (k : AssetUpdateFees) (op : AssetUpdate) : Except FeeError ℤ :=
  addDataFee k.fee (packSize op) k.pricePerKbyte.toNat

/-! ### Data fees -/

lemma dataFee_mono {m n : ℕ} (h : m ≤ n) (p : ℕ) : dataFee m p ≤ dataFee n p :=
  Nat.div_le_div_right (Nat.mul_le_mul_right p h)

/-- Each 1024 bytes cost the price of a kilobyte. -/
lemma dataFee_add (n j p : ℕ) : dataFee (n + 1024 * j) p = dataFee n p + j * p := by
  have h : (n + 1024 * j) * p = n * p + 1024 * (j * p) := by ring
  rw [dataFee, h, Nat.add_mul_div_left _ _ (by norm_num), dataFee]

/-- A pointer is far from the supply bound. -/
lemma dataFee_pointer_le (p : UInt32) : dataFee pointerSize p.toNat ≤ maxShareSupply := by
  have hp := p.toNat_lt
  rw [dataFee, pointerSize, maxShareSupply]
  omega

lemma calculateDataFee_of_le {n p : ℕ} (h : dataFee n p ≤ maxShareSupply) :
    calculateDataFee n p = .ok (.ofNat (dataFee n p)) := if_pos h

lemma calculateDataFee_of_lt {n p : ℕ} (h : maxShareSupply < dataFee n p) :
    calculateDataFee n p = .error .supply := if_neg (not_le.mpr h)

/-- A data fee that is not above the supply has a place in 64 bits. -/
lemma toNat_ofNat_dataFee {n p : ℕ} (h : dataFee n p ≤ maxShareSupply) :
    (UInt64.ofNat (dataFee n p)).toNat = dataFee n p := by
  rw [maxShareSupply] at h
  exact UInt64.toNat_ofNat_of_lt' (by norm_num; omega)

lemma share_lt (x : UInt64) : share x < 2 ^ 63 := x.toInt64.toInt_lt

lemma share_of_lt {x : UInt64} (h : x.toNat < 2 ^ 63) : share x = x.toNat :=
  BitVec.toInt_eq_toNat_of_lt (x := x.toBitVec) (show 2 * x.toNat < 2 ^ 64 by omega)

/-! ### What is added to a fee in 64 bits

`B` is the fee as an unbounded number, of which the code has the remainder. -/

section
variable {base : UInt64} {B n p : ℕ} (hB : base.toNat = B % 2 ^ 64)
include hB

/-- Nothing is lost of a sum that is below `2 ^ 63`. -/
lemma share_add {d : UInt64} (h : B + d.toNat < 2 ^ 63) : share (base + d) = B + d.toNat := by
  have hsum : (base + d).toNat = B + d.toNat := by
    rw [UInt64.toNat_add, hB, Nat.mod_eq_of_lt (by omega), Nat.mod_eq_of_lt (by omega)]
  rw [share_of_lt (hsum.trans_lt h), hsum, Nat.cast_add]

/-- The sum is what the two numbers make, unless that reaches `2 ^ 63`. -/
lemma addDataFee_eq {fee : ℤ} (hok : addDataFee base n p = .ok fee)
    (h : maxShareSupply < dataFee n p ∨ (B : ℤ) + dataFee n p < 2 ^ 63) :
    fee = B + dataFee n p := by
  rcases h with hsupply | hsum
  · rw [addDataFee, calculateDataFee_of_lt hsupply] at hok
    cases hok
  · by_cases hle : dataFee n p ≤ maxShareSupply
    · rw [addDataFee, calculateDataFee_of_le hle] at hok
      have hd := toNat_ofNat_dataFee hle
      have hfee := share_add hB (d := .ofNat (dataFee n p)) (by rw [hd]; omega)
      rw [hd] at hfee
      exact (Except.ok.inj hok).symm.trans hfee
    · rw [addDataFee, calculateDataFee_of_lt (not_le.mp hle)] at hok
      cases hok

/-- The size is paid for iff it is above the supply bound or the sum is below `2 ^ 63`. -/
lemma addDataFee_charged_iff :
    (addDataFee base n p = .error .supply ∨
      ∃ fee, addDataFee base n p = .ok fee ∧ (B : ℤ) + dataFee n p ≤ fee) ↔
      maxShareSupply < dataFee n p ∨ (B : ℤ) + dataFee n p < 2 ^ 63 := by
  constructor
  · intro hcharged
    by_cases hle : dataFee n p ≤ maxShareSupply
    · rw [addDataFee, calculateDataFee_of_le hle] at hcharged
      obtain ⟨fee, hok, hfee⟩ := hcharged.resolve_left nofun
      have hlt := share_lt (base + .ofNat (dataFee n p))
      have heq := Except.ok.inj hok
      exact .inr (hfee.trans_lt (heq ▸ hlt))
    · exact .inl (not_le.mp hle)
  · intro h
    by_cases hle : dataFee n p ≤ maxShareSupply
    · have hok : addDataFee base n p = .ok (share (base + .ofNat (dataFee n p))) := by
        rw [addDataFee, calculateDataFee_of_le hle]
        rfl
      exact .inr ⟨_, hok, (addDataFee_eq hB hok h).ge⟩
    · refine .inl ?_
      rw [addDataFee, calculateDataFee_of_lt (not_le.mp hle)]
      rfl

end

/-! ### What is promised -/

/-- An operation that pays for its size, with the parameters of its fee. -/
inductive SizedOperation where
  | accountCreate (k : AccountCreateFees) (op : AccountCreate)
  | accountConfig (k : AccountConfigFees) (op : AccountConfig)
  | assetCreate (k : AssetCreateFees) (op : AssetCreate)
  | assetUpdate (k : AssetUpdateFees) (op : AssetUpdate)

namespace SizedOperation

/-- `calculate_fee` -/
def calculateFee : SizedOperation → Except FeeError ℤ
  | accountCreate k op => op.calculateFee k
  | accountConfig k op => op.calculateFee k
  | assetCreate k op => op.calculateFee k
  | assetUpdate k op => op.calculateFee k

/-- The packed size of the whole operation. -/
def size : SizedOperation → ℕ
  | accountCreate _ op => packSize op
  | accountConfig _ op => packSize op
  | assetCreate _ op => packSize op
  | assetUpdate _ op => packSize op

/-- `price_per_kbyte` -/
def pricePerKbyte : SizedOperation → ℕ
  | accountCreate k _ => k.pricePerKbyte.toNat
  | accountConfig k _ => k.pricePerKbyte.toNat
  | assetCreate k _ => k.pricePerKbyte.toNat
  | assetUpdate k _ => k.pricePerKbyte.toNat

/-- What a name costs, as an unbounded number: of a name that is not cheap each of the eight characters
that it is short of, and one more, costs `char_fee`. -/
def nameCost (k : AccountCreateFees) (name : String) : ℕ :=
  if isCheapName name then k.basicFee.toNat
  else if name.length ≤ 8 ∧ name.length > 0 then
    k.premiumFee.toNat + (9 - name.length) * k.charFee.toNat
  else k.premiumFee.toNat

/-- The part of the fee that does not depend on the size. -/
def sizeIndependent : SizedOperation → ℤ
  | accountCreate k op => nameCost k op.name
  | accountConfig k _ => k.fee.toInt
  | assetCreate k op => (symbolFee k op.symbol).toNat
  | assetUpdate k _ => k.fee.toNat

/-- A string, a map or a list of the operation has been lengthened, other than the name or the
symbol. -/
inductive Longer : SizedOperation → SizedOperation → Prop
  | accountCreate (k : AccountCreateFees) {op op' : AccountCreate} (h : Lengthens op op')
      (name : op'.name = op.name) : Longer (accountCreate k op) (accountCreate k op')
  | accountConfig (k : AccountConfigFees) {op op' : AccountConfig} (h : Lengthens op op') :
      Longer (accountConfig k op) (accountConfig k op')
  | assetCreate (k : AssetCreateFees) {op op' : AssetCreate} (h : Lengthens op op')
      (symbol : op'.symbol = op.symbol) : Longer (assetCreate k op) (assetCreate k op')
  | assetUpdate (k : AssetUpdateFees) {op op' : AssetUpdate} (h : Lengthens op op') :
      Longer (assetUpdate k op) (assetUpdate k op')

/-- The computation fails its supply bound, or the fee has what the size costs in it. -/
def Charged (c : SizedOperation) : Prop :=
  c.calculateFee = .error .supply ∨
    ∃ fee, c.calculateFee = .ok fee ∧ c.sizeIndependent + dataFee c.size c.pricePerKbyte ≤ fee

/-- What is promised of an operation and of a longer one. -/
structure PaysForSize (c c' : SizedOperation) : Prop where
  charged : c.Charged
  charged' : c'.Charged
  /-- The longer one does not cost less, and more for each 1024 bytes that it is longer. -/
  grows : ∀ fee fee', c.calculateFee = .ok fee → c'.calculateFee = .ok fee' → fee ≤ fee' ∧
    ∀ j : ℕ, c.size + 1024 * j ≤ c'.size → fee + j * c.pricePerKbyte ≤ fee'

/-- The size is above the supply bound, or the sum is below `2 ^ 63`. For `account_config` the sum with
the cost of eight bytes has to be, and the bytes of the operation must not cost more. -/
def Counted (c : SizedOperation) : Prop :=
  match c with
  | accountConfig .. => c.sizeIndependent + dataFee pointerSize c.pricePerKbyte < 2 ^ 63 ∧
      dataFee c.size c.pricePerKbyte ≤ dataFee pointerSize c.pricePerKbyte
  | _ => maxShareSupply < dataFee c.size c.pricePerKbyte ∨
      c.sizeIndependent + dataFee c.size c.pricePerKbyte < 2 ^ 63

/-! ### Each kind -/

/-- The table of `account_create`. -/
lemma charLen_getD {n : ℕ} (hn : n ≤ 8 ∧ n > 0) :
    [0, 8, 7, 6, 5, 4, 3, 2, 1, 0].getD n 0 = 9 - n := by
  have hall : ∀ m < 9, m > 0 → [0, 8, 7, 6, 5, 4, 3, 2, 1, 0].getD m 0 = 9 - m := by decide
  exact hall n (by omega) hn.2

/-- The code has the cost of a name modulo `2 ^ 64`. -/
lemma nameFee_toNat (k : AccountCreateFees) (name : String) :
    (nameFee k name).toNat = nameCost k name % 2 ^ 64 := by
  rw [nameFee, nameCost]
  split
  · exact (Nat.mod_eq_of_lt k.basicFee.toNat_lt).symm
  · split
    next hlen =>
      rw [charLen_getD hlen, UInt64.toNat_add, UInt64.toNat_mul,
        UInt64.toNat_ofNat_of_lt' (by norm_num; omega), Nat.add_mod_mod]
    next => exact (Nat.mod_eq_of_lt k.premiumFee.toNat_lt).symm

/-- The bytes of the amount of the fee are no fewer than those of a pointer. -/
lemma pointerSize_le (op : AccountConfig) : pointerSize ≤ packSize op := by
  have hamount : packSize op.fee.amount = 8 := rfl
  calc pointerSize = packSize op.fee.amount := hamount.symm
    _ ≤ packSize op.fee := Nat.le_add_right _ _
    _ ≤ packSize op := Nat.le_add_right _ _

/-- The fee of `account_config`. -/
lemma accountConfig_calculateFee (k : AccountConfigFees) (op : AccountConfig) :
    op.calculateFee k =
      if k.fee.toInt + dataFee pointerSize k.pricePerKbyte.toNat < 2 ^ 63 then
        .ok (k.fee.toInt + dataFee pointerSize k.pricePerKbyte.toNat)
      else .error (.number .overflow) := by
  have hle := dataFee_pointer_le k.pricePerKbyte
  have hd := toNat_ofNat_dataFee hle
  have hshare : share (.ofNat (dataFee pointerSize k.pricePerKbyte.toNat)) =
      dataFee pointerSize k.pricePerKbyte.toNat := by
    rw [share_of_lt (by rw [hd]; rw [maxShareSupply] at hle; omega), hd]
  have hfee : Share k.fee.toInt := ⟨k.fee.le_toInt, k.fee.toInt_lt⟩
  have hsum := Safe.add_eq (b := dataFee pointerSize k.pricePerKbyte.toNat) hfee
  rw [AccountConfig.calculateFee, calculateDataFee_of_le hle, except_ok_bind, hshare, hsum]
  by_cases h : k.fee.toInt + dataFee pointerSize k.pricePerKbyte.toNat < 2 ^ 63
  · have hfits : Share (k.fee.toInt + dataFee pointerSize k.pricePerKbyte.toNat) :=
      ⟨hfee.1.trans (Int.le_add_of_nonneg_right (Int.natCast_nonneg _)), h⟩
    rw [if_pos hfits, if_pos h]
    rfl
  · rw [if_neg fun hfits => h hfits.2, if_neg h]
    rfl

/-- An operation pays for its size iff it is counted. -/
lemma charged_iff_counted (c : SizedOperation) : c.Charged ↔ c.Counted := by
  cases c with
  | accountCreate k op => exact addDataFee_charged_iff (nameFee_toNat k op.name)
  | accountConfig k op =>
      rw [Charged, Counted, calculateFee, accountConfig_calculateFee]
      constructor
      · rintro (herror | ⟨fee, hok, hfee⟩)
        · split at herror <;> cases herror
        · split at hok
          next hlt =>
            cases hok
            exact ⟨hlt, Int.ofNat_le.mp (Int.add_le_add_iff_left _ |>.mp hfee)⟩
          next => cases hok
      · rintro ⟨hlt, hle⟩
        exact .inr ⟨_, if_pos hlt, Int.add_le_add_left (Int.ofNat_le.mpr hle) _⟩
  | assetCreate k op =>
      exact addDataFee_charged_iff (Nat.mod_eq_of_lt (symbolFee k op.symbol).toNat_lt).symm
  | assetUpdate k op => exact addDataFee_charged_iff (Nat.mod_eq_of_lt k.fee.toNat_lt).symm

/-- The fee of an operation that is counted has what it costs, and nothing else. -/
lemma Counted.fee_eq {c : SizedOperation} (h : c.Counted) {fee : ℤ} (hok : c.calculateFee = .ok fee) :
    fee = c.sizeIndependent + dataFee c.size c.pricePerKbyte := by
  cases c with
  | accountCreate k op => exact addDataFee_eq (nameFee_toNat k op.name) hok h
  | accountConfig k op =>
      obtain ⟨hlt, hle⟩ := h
      have hpaid := (accountConfig_calculateFee k op).trans (if_pos hlt)
      have heq := le_antisymm hle (dataFee_mono (pointerSize_le op) k.pricePerKbyte.toNat)
      rw [heq]
      exact Except.ok.inj (hok.symm.trans hpaid)
  | assetCreate k op =>
      exact addDataFee_eq (Nat.mod_eq_of_lt (symbolFee k op.symbol).toNat_lt).symm hok h
  | assetUpdate k op =>
      exact addDataFee_eq (Nat.mod_eq_of_lt k.fee.toNat_lt).symm hok h

/-! ### Lengthening -/

/-- What does not depend on the size is the same after a lengthening, and no byte is lost. -/
lemma Longer.parts {c c' : SizedOperation} (h : Longer c c') : c.size ≤ c'.size ∧
    c'.pricePerKbyte = c.pricePerKbyte ∧ c'.sizeIndependent = c.sizeIndependent := by
  cases h with
  | accountCreate k h name =>
      exact ⟨PackedSize.packSize_le h, rfl, by rw [sizeIndependent, sizeIndependent, name]⟩
  | accountConfig k h => exact ⟨PackedSize.packSize_le h, rfl, rfl⟩
  | assetCreate k h symbol =>
      exact ⟨PackedSize.packSize_le h, rfl, by rw [sizeIndependent, sizeIndependent, symbol]⟩
  | assetUpdate k h => exact ⟨PackedSize.packSize_le h, rfl, rfl⟩

/-- An operation and a longer one pay for their size iff both are counted. -/
theorem paysForSize_iff {c c' : SizedOperation} (h : Longer c c') :
    PaysForSize c c' ↔ c.Counted ∧ c'.Counted := by
  constructor
  · intro hpays
    exact ⟨(charged_iff_counted c).mp hpays.charged, (charged_iff_counted c').mp hpays.charged'⟩
  · rintro ⟨hc, hc'⟩
    obtain ⟨hsize, hprice, hbase⟩ := h.parts
    refine ⟨(charged_iff_counted c).mpr hc, (charged_iff_counted c').mpr hc', ?_⟩
    intro fee fee' hok hok'
    have hfee := hc.fee_eq hok
    have hfee' := hc'.fee_eq hok'
    rw [hprice, hbase] at hfee'
    refine ⟨?_, fun j hj => ?_⟩
    · have hmono := dataFee_mono hsize c.pricePerKbyte
      omega
    · have hmono := dataFee_mono hj c.pricePerKbyte
      rw [dataFee_add] at hmono
      omega

/-- An asset that gets a description. -/
def described (description : String) : SizedOperation :=
  .assetUpdate { fee := 50000000, pricePerKbyte := 1024 }
    { fee := ⟨0, 0⟩, issuer := 17, assetToUpdate := 3, newIssuer := none
      newOptions :=
        { maxSupply := 1000000, marketFeePercent := 0, maxMarketFee := 0, issuerPermissions := 0
          flags := 0, coreExchangeRate := ⟨⟨1, 0⟩, ⟨1, 3⟩⟩, whitelistAuthorities := []
          blacklistAuthorities := [], whitelistMarkets := [], blacklistMarkets := []
          description, extensions := [] }
      extensions := [] }

lemma longer_described {d d' : String} (h : d.length ≤ d'.length) :
    Longer (described d) (described d') := by
  have hoptions := And.intro h (PackedSize.refl ([] : List Extension))
  refine .assetUpdate _ ⟨PackedSize.refl _, PackedSize.refl _, PackedSize.refl _, PackedSize.refl _,
    ?_, PackedSize.refl _⟩
  exact ⟨PackedSize.refl _, PackedSize.refl _, PackedSize.refl _, PackedSize.refl _,
    PackedSize.refl _, PackedSize.refl _, PackedSize.refl _, PackedSize.refl _, PackedSize.refl _,
    PackedSize.refl _, hoptions⟩

lemma size_described {d : String} (hd : d.length < 128) : (described d).size = 59 + d.length := by
  simp [described, size, packSize, PackedSize.varintSize_of_lt, hd]
  omega

lemma counted_described {d : String} (hd : d.length < 128) : (described d).Counted := by
  refine .inr (?_ : (50000000 : ℤ) + dataFee (described d).size 1024 < 2 ^ 63)
  rw [size_described hd, dataFee]
  omega

/-- Two descriptions, of which one is longer by ten bytes. -/
theorem paysForSize_described : PaysForSize (described "points") (described "points of a shop") :=
  (paysForSize_iff (longer_described (by decide))).mpr
    ⟨counted_described (by decide), counted_described (by decide)⟩

/-- The configuration of an account, with the fee that the code comes with. -/
def configured (config : List (String × String)) : SizedOperation :=
  .accountConfig { fee := 1000, pricePerKbyte := 100 }
    { fee := ⟨0, 0⟩, issuer := 17, config, opType := 0, extensions := [] }

lemma longer_configured (e : String × String) : Longer (configured []) (configured [e]) := by
  refine .accountConfig _ ⟨PackedSize.refl _, PackedSize.refl _, ?_, PackedSize.refl _,
    PackedSize.refl _⟩
  exact .nil

/-- A value is packed in its bytes, and more. -/
lemma size_configured (key value : String) :
    (configured []).size + value.length ≤ (configured [(key, value)]).size := by
  simp [configured, size, packSize, PackedSize.varintSize_of_lt]
  omega

/-- 2000 bytes of configuration cost nothing. -/
theorem not_paysForSize : ¬ ∀ c c' : SizedOperation, Longer c c' → PaysForSize c c' := by
  intro h
  obtain ⟨value, hvalue⟩ : ∃ value : String, value.length = 2000 := ⟨"".pushn 'a' 2000, by simp⟩
  have hsize := size_configured "about" value
  have hgrows := (h _ _ (longer_configured ("about", value))).grows 1000 1000 rfl rfl
  have hkbyte := hgrows.2 1 (by omega)
  revert hkbyte
  decide

end SizedOperation

end ZosCore.SizeFees
