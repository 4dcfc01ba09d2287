import ZosCore.Db.SavedIndex

/-!
The global property object in the file of its index.

* `ChainParameters`, `GlobalPropertyObject`: all fields, with their defaults.
* `FieldPackings.chainParameters`, `FieldPackings.globalPropertyObject`: what is packed of them, the
  fields that `FC_REFLECT` names.
* **`exact_globalPropertyObject_iff`**: the object is read back as it was just when the vesting time of
  the witnesses' pay is the default one, which no field of the file says.
* **`savedIndex_iff`**: what is opened of a saved index, and of the file of one that has lost its end.
-/

namespace ZosCore

open Packing

/-! ### The objects -/

/-- `chain_parameters` -/
structure ChainParameters (Fees Extensions : Type) where
  currentFees : Fees
  blockInterval : UInt8 := 3
  maintenanceInterval : UInt32 := 60 * 60 * 2
  maintenanceSkipSlots : UInt8 := 3
  committeeProposalReviewPeriod : UInt32 := 60 * 60 * 1 * 7 * 24
  maximumTransactionSize : UInt32 := 200 * 1024
  maximumBlockSize : UInt32 := 2 * 1024 * 1024
  maximumTimeUntilExpiration : UInt32 := 60 * 60 * 24
  maximumProposalLifetime : UInt32 := 60 * 60 * 2 * 7 * 24
  maximumAssetWhitelistAuthorities : UInt8 := 10
  maximumAssetFeedPublishers : UInt8 := 10
  maximumWitnessCount : UInt16 := 1001
  maximumCommitteeCount : UInt16 := 1001
  maximumBudgetCount : UInt16 := 1001
  maximumAuthorityMembership : UInt16 := 10
  reservePercentOfFee : UInt16 := 20 * 100
  networkPercentOfFee : UInt16 := 100 * 100
  lifetimeReferrerPercentOfFee : UInt16 := 0
  cashbackVestingPeriodSeconds : UInt32 := 60 * 60 * 24 * 365
  cashbackVestingThreshold : Int64 := 100000 * 100000
  countNonMemberVotes : Bool := true
  allowNonMemberWhitelists : Bool := false
  witnessPayPerBlock : Int64 := 100000 * 10
  /-- It is not among the reflected fields. -/
  witnessPayVestingSeconds : UInt32 := 60 * 60 * 24
  maxWorkerBudgetPerDay : Int64 := 100000 * 5000
  identifyLockVestingSeconds : UInt32 := 60 * 60 * 24
  maxPredicateOpcode : UInt16 := 1
  feeLiquidationThreshold : Int64 := 100000 * 100
  accountsPerFeeScale : UInt16 := 1000
  accountFeeScaleBitshifts : UInt8 := 4
  maxAuthorityDepth : UInt8 := 2
  couponPerMonth : Int64 := 100000 * 10
  couponExpireTime : UInt32 := 60 * 60 * 24 * 30 * 2
  extensions : Extensions

/-- `zos_parameters` -/
structure ZosParameters where
  locktokenPay : Int64 := 100000 * 500

/-- `global_property_object`; the ids of members are their instances. -/
structure GlobalPropertyObject (Fees Extensions : Type) where
  id : UInt64
  parameters : ChainParameters Fees Extensions
  pendingParameters : Option (ChainParameters Fees Extensions) := none
  zosparameters : ZosParameters := {}
  pendingZosparameters : Option ZosParameters := none
  nextAvailableVoteId : UInt64 := 0
  activeCommitteeMembers : List UInt64 := []
  activeBudgetMembers : List UInt64 := []
  activeWitnesses : List UInt64 := []

/-! ### What is packed -/

/-- How the fields are packed that are structures of their own, or lists: each is read back as it
was. -/
structure FieldPackings (Fees Extensions : Type) where
  fees : Packing Fees
  extensions : Packing Extensions
  members : Packing (List UInt64)
  fees_exact : ∀ a, fees.Exact a
  extensions_exact : ∀ a, extensions.Exact a
  members_exact : ∀ a, members.Exact a
  /-- The fee schedule and the extensions of an object that is constructed. -/
  newFees : Fees
  newExtensions : Extensions
  new_length : (fees.pack newFees).length + (extensions.pack newExtensions).length +
    3 * (members.pack []).length < 1024 * 1024

namespace FieldPackings

variable {Fees Extensions : Type} (F : FieldPackings Fees Extensions)

/-- `FC_REFLECT( graphene::chain::chain_parameters, … )` -/
def chainParameters : Packing (ChainParameters Fees Extensions) :=
  (F.fees.prod <| uint8.prod <| uint32.prod <| uint8.prod <| uint32.prod <| uint32.prod <|
    uint32.prod <| uint32.prod <| uint32.prod <| uint8.prod <| uint8.prod <| uint16.prod <|
    uint16.prod <| uint16.prod <| uint16.prod <| uint16.prod <| uint16.prod <| uint16.prod <|
    uint32.prod <| int64.prod <| bool.prod <| bool.prod <| int64.prod <| int64.prod <|
    uint32.prod <| uint16.prod <| int64.prod <| uint16.prod <| uint8.prod <| uint8.prod <|
    int64.prod <| uint32.prod F.extensions).reflect
  (fun p =>
    (p.currentFees, p.blockInterval, p.maintenanceInterval, p.maintenanceSkipSlots,
      p.committeeProposalReviewPeriod, p.maximumTransactionSize, p.maximumBlockSize,
      p.maximumTimeUntilExpiration, p.maximumProposalLifetime, p.maximumAssetWhitelistAuthorities,
      p.maximumAssetFeedPublishers, p.maximumWitnessCount, p.maximumCommitteeCount,
      p.maximumBudgetCount, p.maximumAuthorityMembership, p.reservePercentOfFee,
      p.networkPercentOfFee, p.lifetimeReferrerPercentOfFee, p.cashbackVestingPeriodSeconds,
      p.cashbackVestingThreshold, p.countNonMemberVotes, p.allowNonMemberWhitelists,
      p.witnessPayPerBlock, p.maxWorkerBudgetPerDay, p.identifyLockVestingSeconds,
      p.maxPredicateOpcode, p.feeLiquidationThreshold, p.accountsPerFeeScale,
      p.accountFeeScaleBitshifts, p.maxAuthorityDepth, p.couponPerMonth, p.couponExpireTime,
      p.extensions))
  fun
    | (currentFees, blockInterval, maintenanceInterval, maintenanceSkipSlots,
      committeeProposalReviewPeriod, maximumTransactionSize, maximumBlockSize,
      maximumTimeUntilExpiration, maximumProposalLifetime, maximumAssetWhitelistAuthorities,
      maximumAssetFeedPublishers, maximumWitnessCount, maximumCommitteeCount, maximumBudgetCount,
      maximumAuthorityMembership, reservePercentOfFee, networkPercentOfFee,
      lifetimeReferrerPercentOfFee, cashbackVestingPeriodSeconds, cashbackVestingThreshold,
      countNonMemberVotes, allowNonMemberWhitelists, witnessPayPerBlock, maxWorkerBudgetPerDay,
      identifyLockVestingSeconds, maxPredicateOpcode, feeLiquidationThreshold, accountsPerFeeScale,
      accountFeeScaleBitshifts, maxAuthorityDepth, couponPerMonth, couponExpireTime, extensions) =>
      { currentFees, blockInterval, maintenanceInterval, maintenanceSkipSlots,
        committeeProposalReviewPeriod, maximumTransactionSize, maximumBlockSize,
        maximumTimeUntilExpiration, maximumProposalLifetime, maximumAssetWhitelistAuthorities,
        maximumAssetFeedPublishers, maximumWitnessCount, maximumCommitteeCount, maximumBudgetCount,
        maximumAuthorityMembership, reservePercentOfFee, networkPercentOfFee,
        lifetimeReferrerPercentOfFee, cashbackVestingPeriodSeconds, cashbackVestingThreshold,
        countNonMemberVotes, allowNonMemberWhitelists, witnessPayPerBlock, maxWorkerBudgetPerDay,
        identifyLockVestingSeconds, maxPredicateOpcode, feeLiquidationThreshold,
        accountsPerFeeScale, accountFeeScaleBitshifts, maxAuthorityDepth, couponPerMonth,
        couponExpireTime, extensions }

/-- `FC_REFLECT( graphene::chain::zos_parameters, … )` -/
def zosParameters : Packing ZosParameters :=
  int64.reflect ZosParameters.locktokenPay fun locktokenPay => { locktokenPay }

/-- `FC_REFLECT_DERIVED( graphene::chain::global_property_object, (graphene::db::object), … )` -/
def globalPropertyObject : Packing (GlobalPropertyObject Fees Extensions) :=
  (uint64.prod <| F.chainParameters.prod <| F.chainParameters.optional.prod <| zosParameters.prod <|
    zosParameters.optional.prod <| uint64.prod <| F.members.prod <|
    F.members.prod F.members).reflect
  (fun p =>
    (p.id, p.parameters, p.pendingParameters, p.zosparameters, p.pendingZosparameters,
      p.nextAvailableVoteId, p.activeCommitteeMembers, p.activeBudgetMembers, p.activeWitnesses))
  fun
    | (id, parameters, pendingParameters, zosparameters, pendingZosparameters, nextAvailableVoteId,
        activeCommitteeMembers, activeBudgetMembers, activeWitnesses) =>
      { id, parameters, pendingParameters, zosparameters, pendingZosparameters, nextAvailableVoteId,
        activeCommitteeMembers, activeBudgetMembers, activeWitnesses }

/-- What is lost of the parameters is the vesting time of the witnesses' pay. -/
lemma restored_chainParameters (p : ChainParameters Fees Extensions) :
    F.chainParameters.restored p = { p with witnessPayVestingSeconds := 60 * 60 * 24 } := by
  have hfees := F.fees_exact p.currentFees
  have hextensions := F.extensions_exact p.extensions
  rw [Exact] at hfees hextensions
  rw [chainParameters, restored_reflect]
  simp only [restored_prod, restored_uint8, restored_uint16, restored_uint32, restored_int64,
    restored_bool, hfees, hextensions]

@[simp] lemma restored_zosParameters (p : ZosParameters) : zosParameters.restored p = p := by
  rw [zosParameters, restored_reflect, restored_int64]

lemma restored_globalPropertyObject (g : GlobalPropertyObject Fees Extensions) :
    F.globalPropertyObject.restored g = { g with
      parameters := F.chainParameters.restored g.parameters
      pendingParameters := g.pendingParameters.map F.chainParameters.restored } := by
  have hmembers : ∀ ids, F.members.restored ids = ids := F.members_exact
  rw [globalPropertyObject, restored_reflect]
  simp only [restored_prod, restored_uint64, restored_optional, restored_zosParameters, hmembers]
  cases g.pendingZosparameters with
  | none => rfl
  | some p => rw [Option.map_some, restored_zosParameters]

lemma exact_chainParameters_iff (p : ChainParameters Fees Extensions) :
    F.chainParameters.Exact p ↔ p.witnessPayVestingSeconds = 60 * 60 * 24 := by
  rw [Exact, restored_chainParameters]
  constructor
  · intro h
    rw [← h]
  · intro h
    rw [← h]

/-- The object is read back as it was just when the vesting time of the witnesses' pay, which is not
packed, is the default one in all its parameters. -/
theorem exact_globalPropertyObject_iff (g : GlobalPropertyObject Fees Extensions) :
    F.globalPropertyObject.Exact g ↔
      g.parameters.witnessPayVestingSeconds = 60 * 60 * 24 ∧
        ∀ p ∈ g.pendingParameters, p.witnessPayVestingSeconds = 60 * 60 * 24 := by
  have hpending : (∀ p ∈ g.pendingParameters, p.witnessPayVestingSeconds = 60 * 60 * 24) ↔
      g.pendingParameters.map F.chainParameters.restored = g.pendingParameters := by
    cases g.pendingParameters with
    | none => simp
    | some p =>
        have hexact := F.exact_chainParameters_iff p
        rw [Exact] at hexact
        simpa using hexact.symm
  rw [hpending, ← exact_chainParameters_iff F, Exact, Exact, restored_globalPropertyObject]
  constructor
  · intro h
    exact ⟨congrArg (·.parameters) h, congrArg (·.pendingParameters) h⟩
  · rintro ⟨hparameters, hpending⟩
    rw [hparameters, hpending]

/-! ### The index -/

/-- The object that `new` gives. -/
def newGlobalPropertyObject : GlobalPropertyObject Fees Extensions where
  id := 0
  parameters := { currentFees := F.newFees, extensions := F.newExtensions }

/-- `fc::sha256::hash("1.0")` -/
def objectVersion : List UInt8 :=
  [0xd0, 0xff, 0x59, 0x74, 0xb6, 0xaa, 0x52, 0xcf, 0x56, 0x2b, 0xea, 0x59, 0x21, 0x84, 0x0c, 0x03,
    0x2a, 0x86, 0x0a, 0x91, 0xa3, 0x51, 0x2f, 0x7f, 0xe8, 0xf7, 0x68, 0xf6, 0xbb, 0xe0, 0x05, 0xf6]

/-- `primary_index<simple_index<global_property_object>>`, which has no secondary index. -/
def globalPropertyIndex : IndexType (GlobalPropertyObject Fees Extensions) Unit where
  packing := F.globalPropertyObject
  tmp := F.newGlobalPropertyObject
  idOf g := g.id.toNat
  sameKey _ _ := false
  firstId := (2 : UInt64) <<< 56
  objectVersion := objectVersion
  sindexEmpty := ()
  objectInserted _ _ := ()
  pack_ne g h := by
    have hlength := congrArg List.length h
    rw [globalPropertyObject, pack_reflect, length_pack_prod] at hlength
    simp [uint64] at hlength
  idOf_restored g := by rw [restored_globalPropertyObject]
  tmp_exact := (F.exact_globalPropertyObject_iff _).mpr ⟨rfl, by simp [newGlobalPropertyObject]⟩
  tmp_length := by
    have hnew := F.new_length
    simp [globalPropertyObject, chainParameters, zosParameters, newGlobalPropertyObject, uint8, uint16,
      uint32, uint64, int64, maxArrayAllocSize]
    omega
  objectVersion_length := rfl

end FieldPackings

/-- **What is opened of a saved index.** All of it, if its objects are read back as they were, none of
them is too large to be read, and the secondary indexes are what the insertion of the objects makes
them; a file that has lost its end is opened too, unless no byte of an object was in it. The global
property object is read back without a vesting time of the witnesses' pay. -/
theorem savedIndex_iff {V S Fees Extensions : Type} (T : IndexType V S) (x : T.Content)
    (F : FieldPackings Fees Extensions) (g : GlobalPropertyObject Fees Extensions) :
    (T.RestoredExactly x ↔
      (∀ v ∈ x.objects, T.packing.Exact v ∧ (T.packing.pack v).length < maxArrayAllocSize) ∧
        x.sindex = x.objects.foldl T.objectInserted T.sindexEmpty) ∧
    (T.RejectsBeginnings x ↔ ∀ v ∈ x.objects, 2 ^ 32 ∣ (T.packing.pack v).length) ∧
    (F.globalPropertyIndex.packing.Exact g ↔
      g.parameters.witnessPayVestingSeconds = 60 * 60 * 24 ∧
        ∀ p ∈ g.pendingParameters, p.witnessPayVestingSeconds = 60 * 60 * 24) :=
  ⟨IndexType.openFile_saveFile_iff x, IndexType.rejectsBeginnings_iff x,
    F.exact_globalPropertyObject_iff g⟩

/-! ### Other parameters -/

/-- The fields where there is no fee but the scale, no extension, and no member. -/
def scaleOnly : FieldPackings (List ℕ × UInt32) (List ℕ) where
  fees := varint.list.prod uint32
  extensions := varint.list
  members := (varint.reflect UInt64.toNat UInt64.ofNat).list
  fees_exact a := by
    have hparameters : varint.list.restored a.1 = a.1 := Exact.list fun _ _ => rfl
    change (varint.list.restored a.1, uint32.restored a.2) = a
    rw [hparameters, restored_uint32]
  extensions_exact a := Exact.list fun _ _ => rfl
  members_exact a := Exact.list fun id _ => UInt64.ofNat_toNat
  newFees := ([], 10000)
  newExtensions := []
  new_length := by decide +kernel

/-- The witnesses' pay vests in an hour. -/
def hourlyPay : GlobalPropertyObject (List ℕ × UInt32) (List ℕ) where
  id := (2 : UInt64) <<< 56
  parameters :=
    { currentFees := ([], 10000), witnessPayVestingSeconds := 60 * 60, extensions := [] }

def hourlyPayIndex : scaleOnly.globalPropertyIndex.Content where
  objects := [hourlyPay]
  nextId := ((2 : UInt64) <<< 56) + 1
  sindex := ()
  sorted := List.pairwise_singleton _ _
  unique := List.pairwise_singleton _ _

/-- After it has been saved and opened, the pay vests for a day; and with its last byte missing, the
file is opened without the object. -/
theorem not_restored :
    ¬ scaleOnly.globalPropertyIndex.RestoredExactly hourlyPayIndex ∧
      ¬ scaleOnly.globalPropertyIndex.RejectsBeginnings hourlyPayIndex := by
  constructor
  · intro h
    have hread := ((IndexType.openFile_saveFile_iff _).mp h).1 hourlyPay List.mem_cons_self
    exact absurd ((scaleOnly.exact_globalPropertyObject_iff hourlyPay).mp hread.1).1 (by decide)
  · intro h
    have hsize := (IndexType.rejectsBeginnings_iff _).mp h hourlyPay List.mem_cons_self
    exact absurd hsize (by decide +kernel)

end ZosCore
