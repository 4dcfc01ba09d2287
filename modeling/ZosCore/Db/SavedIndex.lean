import Mathlib.Data.List.Sort
import ZosCore.Lib.Packing

/-!
The file of an index: what is saved of its objects, and what opening it makes of them.

* `IndexType.saveFile`, `IndexType.openFile`: the next id, the version and the packed objects, each
  after its size. The objects are read until something is thrown, at the end of the file or before.
* `RestoredExactly`, `RejectsBeginnings`: what is saved is what is opened, and nothing is opened that
  has lost its end.
* **`openFile_saveFile_iff`**: an index is restored as it was, as long as its objects are, each of
  them may be read, and its secondary indexes are what the insertion of its objects makes them.
* **`rejectsBeginnings_iff`**: only the file of an index without objects is noticed to be too short.
-/

namespace ZosCore

open Packing (varint uint64)

/-! ### Vectors of bytes -/

/-- `MAX_ARRAY_ALLOC_SIZE`: from this size on, a vector is not read. -/
def maxArrayAllocSize : ℕ := 1024 * 1024 * 10

/-- An `unsigned_int`, of 32 bits. -/
def packUnsignedInt (n : ℕ) : List UInt8 := varint.pack (n % 2 ^ 32)

def unpackUnsignedInt (s : List UInt8) : Option (ℕ × List UInt8) :=
  (varint.unpack s).map fun r => (r.1 % 2 ^ 32, r.2)

/-- A vector of bytes, after its size; both are cut to what an `unsigned_int` may say. -/
def packVector (value : List UInt8) : List UInt8 :=
  packUnsignedInt value.length ++ value.take (value.length % 2 ^ 32)

def unpackVector (s : List UInt8) : Option (List UInt8 × List UInt8) :=
  match unpackUnsignedInt s with
  | none => none
  | some (size, s) =>
      if size < maxArrayAllocSize ∧ size ≤ s.length then some (s.take size, s.drop size) else none

lemma packVector_ne (value : List UInt8) : packVector value ≠ [] :=
  List.append_ne_nil_of_left_ne_nil (Packing.varint_pack_ne _) _

lemma unpackUnsignedInt_packUnsignedInt (n : ℕ) (rest : List UInt8) :
    unpackUnsignedInt (packUnsignedInt n ++ rest) = some (n % 2 ^ 32, rest) := by
  rw [unpackUnsignedInt, packUnsignedInt, varint.unpack_pack, Option.map_some]
  simp

/-- A vector is read as far as its size says, if it may be read at all. -/
lemma unpackVector_packVector (value rest : List UInt8) :
    unpackVector (packVector value ++ rest) =
      if value.length % 2 ^ 32 < maxArrayAllocSize then some (value.take (value.length % 2 ^ 32), rest)
      else none := by
  have hlength : (value.take (value.length % 2 ^ 32)).length = value.length % 2 ^ 32 :=
    List.length_take_of_le (Nat.mod_le _ _)
  rw [unpackVector, packVector, List.append_assoc, unpackUnsignedInt_packUnsignedInt]
  dsimp only
  rw [List.take_left' hlength, List.drop_left' hlength, List.length_append, hlength]
  simp

/-- Nothing is read from a part of a vector. -/
lemma unpackVector_cut (value : List UInt8) {p : List UInt8} (h : p <+: packVector value)
    (hne : p ≠ packVector value) : unpackVector p = none := by
  rcases Packing.prefix_append_cases h with ⟨hp, hne⟩ | ⟨q, rfl, hq⟩
  · rw [unpackVector, unpackUnsignedInt, varint.unpack_cut _ p hp hne]
    rfl
  · rw [unpackVector, unpackUnsignedInt_packUnsignedInt]
    refine if_neg fun hread => hne ?_
    have hle : (value.take (value.length % 2 ^ 32)).length ≤ q.length := by
      rw [List.length_take_of_le (Nat.mod_le _ _)]
      exact hread.2
    rw [packVector, hq.eq_of_length_le hle]

/-! ### Files -/

/-- An index: its objects in the order of their ids, the next id, and its secondary indexes. -/
structure Index (V S : Type) where
  objects : List V
  nextId : UInt64
  sindex : S

/-- What an index is of: how its objects are packed and which of them it does not take together, and
how its secondary indexes follow it. -/
structure IndexType (V S : Type) where
  packing : Packing V
  /-- The object that is constructed before it is unpacked. -/
  tmp : V
  idOf : V → ℕ
  /-- The objects share the key of a unique index. -/
  sameKey : V → V → Bool
  firstId : UInt64
  /-- `get_object_version` -/
  objectVersion : List UInt8
  sindexEmpty : S
  objectInserted : S → V → S
  pack_ne : ∀ v, packing.pack v ≠ []
  idOf_restored : ∀ v, idOf (packing.restored v) = idOf v
  tmp_exact : packing.Exact tmp
  tmp_length : (packing.pack tmp).length < maxArrayAllocSize
  objectVersion_length : objectVersion.length = 32

namespace IndexType

variable {V S : Type} (T : IndexType V S)

/-- An object may be inserted that has an id and keys of its own. -/
def Accepts (v : V) (objects : List V) : Prop :=
  ∀ o ∈ objects, T.idOf o ≠ T.idOf v ∧ T.sameKey o v = false

instance (v : V) (objects : List V) : Decidable (T.Accepts v objects) :=
  inferInstanceAs (Decidable (∀ o ∈ objects, T.idOf o ≠ T.idOf v ∧ T.sameKey o v = false))

/-- `insert`, by id -/
def insert (v : V) (x : Index V S) : Option (Index V S) :=
  if T.Accepts v x.objects then
    some { x with
      objects := x.objects.orderedInsert (fun a b => T.idOf a ≤ T.idOf b) v
      sindex := T.objectInserted x.sindex v }
  else none

/-- `fc::raw::unpack<object_type>`; nothing is unpacked from no data, and what is left of the data is
not looked at. -/
def unpackObject (data : List UInt8) : Option V :=
  if data = [] then some T.tmp else (T.packing.unpack data).map Prod.fst

/-- `load` -/
def load (data : List UInt8) (x : Index V S) : Option (Index V S) :=
  match T.unpackObject data with
  | none => none
  | some v => T.insert v x

/-- The loop of `open`; it is left with the first exception. -/
def loadLoop : ℕ → List UInt8 → Index V S → Index V S
  | 0, _, x => x
  | fuel + 1, ds, x =>
      match unpackVector ds with
      | none => x
      | some (tmp, ds) =>
          match T.load tmp x with
          | none => x
          | some x => loadLoop fuel ds x

/-- `open` -/
def openFile (db : Option (List UInt8)) (x : Index V S) : Option (Index V S) :=
  match db with
  | none => some x
  | some ds =>
      match uint64.unpack ds with
      | none => none
      | some (nextId, ds) =>
          if ds.length < 32 then none
          else if ds.take 32 ≠ T.objectVersion then none
          else some (T.loadLoop ds.length (ds.drop 32) { x with nextId })

/-- What is written of an object. -/
def record (v : V) : List UInt8 := packVector (T.packing.pack v)

/-- What is written before the objects. -/
def header (nextId : UInt64) : List UInt8 := uint64.pack nextId ++ T.objectVersion

/-- `save` -/
def saveFile (x : Index V S) : List UInt8 := T.header x.nextId ++ x.objects.flatMap T.record

/-- The index of a node that starts. -/
def fresh : Index V S := ⟨[], T.firstId, T.sindexEmpty⟩

/-- The content of an index: its objects have ids and keys of their own, and they are in the order of
their ids. -/
structure Content extends Index V S where
  sorted : objects.Pairwise fun a b => T.idOf a < T.idOf b
  unique : objects.Pairwise fun a b => T.sameKey a b = false

/-- The content with the first objects only. -/
def Content.take {T : IndexType V S} (x : T.Content) (k : ℕ) : T.Content where
  objects := x.objects.take k
  nextId := x.nextId
  sindex := x.sindex
  sorted := x.sorted.sublist (List.take_sublist k _)
  unique := x.unique.sublist (List.take_sublist k _)

/-- What is opened is what was saved. -/
def RestoredExactly (x : T.Content) : Prop :=
  T.openFile (some (T.saveFile x.toIndex)) T.fresh = some x.toIndex

/-- A file that has lost its end is not opened, unless it is the file of another index with the same
next id. -/
def RejectsBeginnings (x : T.Content) : Prop :=
  ∀ p, p <+: T.saveFile x.toIndex → p ≠ T.saveFile x.toIndex →
    (∀ y : T.Content, y.nextId = x.nextId → p ≠ T.saveFile y.toIndex) →
    T.openFile (some p) T.fresh = none

variable {T} in
lemma Content.eq_of_idOf_eq (x : T.Content) {v w : V} (hv : v ∈ x.objects) (hw : w ∈ x.objects)
    (h : T.idOf v = T.idOf w) : v = w :=
  List.inj_on_of_nodup_map (List.pairwise_map.mpr (x.sorted.imp Nat.ne_of_lt)) hv hw h

/-! ### What is read of a record -/

/-- The object is read back as it was. -/
def Readable (v : V) : Prop :=
  T.packing.Exact v ∧ (T.packing.pack v).length < maxArrayAllocSize

/-- One step of the loop, on the record of an object. -/
def loadRecord (v : V) (x : Index V S) : Option (Index V S) :=
  let size := (T.packing.pack v).length % 2 ^ 32
  if size < maxArrayAllocSize then T.load ((T.packing.pack v).take size) x else none

/-- The loop, on the records of these objects. -/
def loadRecords : List V → Index V S → Index V S
  | [], x => x
  | v :: vs, x =>
      match T.loadRecord v x with
      | none => x
      | some x => loadRecords vs x

variable {T} {x y : Index V S} {v w : V} {vs : List V}

/-- The loop reads the records, and stops where there is no vector. -/
lemma loadLoop_records {fuel : ℕ} (hfuel : vs.length < fuel) {q : List UInt8}
    (hq : unpackVector q = none) :
    T.loadLoop fuel (vs.flatMap T.record ++ q) x = T.loadRecords vs x := by
  induction vs generalizing fuel x with
  | nil =>
      obtain ⟨fuel, rfl⟩ := Nat.exists_eq_add_one_of_ne_zero (show fuel ≠ 0 by omega)
      rw [List.flatMap_nil, List.nil_append, loadLoop, hq]
      rfl
  | cons v vs ih =>
      obtain ⟨fuel, rfl⟩ := Nat.exists_eq_add_one_of_ne_zero (show fuel ≠ 0 by omega)
      rw [List.flatMap_cons, List.append_assoc, loadLoop, record, unpackVector_packVector, loadRecords,
        loadRecord]
      by_cases hsize : (T.packing.pack v).length % 2 ^ 32 < maxArrayAllocSize
      · rw [if_pos hsize, if_pos hsize]
        dsimp only
        cases T.load ((T.packing.pack v).take ((T.packing.pack v).length % 2 ^ 32)) x with
        | none => rfl
        | some y => exact ih (by rw [List.length_cons] at hfuel; omega)
      · rw [if_neg hsize, if_neg hsize]

/-- What is read of a record is the object as it is restored, or an object without content. -/
lemma unpackObject_take {n : ℕ} (h : T.unpackObject ((T.packing.pack v).take n) = some w) :
    w = T.tmp ∨ (w = T.packing.restored v ∧ (T.packing.pack v).length ≤ n) := by
  rw [unpackObject] at h
  split at h
  · exact .inl (Option.some.inj h).symm
  · by_cases hn : (T.packing.pack v).length ≤ n
    · have hread := T.packing.unpack_pack v []
      rw [List.append_nil] at hread
      rw [List.take_of_length_le hn, hread, Option.map_some] at h
      exact .inr ⟨(Option.some.inj h).symm, hn⟩
    · rw [T.packing.unpack_cut v _ (List.take_prefix _ _), Option.map_none] at h
      · cases h
      · intro heq
        have := congrArg List.length heq
        rw [List.length_take] at this
        omega

lemma insert_eq (h : T.insert v x = some y) :
    y = { x with
      objects := x.objects.orderedInsert (fun a b => T.idOf a ≤ T.idOf b) v
      sindex := T.objectInserted x.sindex v } := by
  rw [insert] at h
  split at h
  · exact (Option.some.inj h).symm
  · cases h

lemma mem_of_loadRecord (h : T.loadRecord v x = some y) (hw : w ∈ y.objects) :
    w ∈ x.objects ∨ w = T.tmp ∨
      (w = T.packing.restored v ∧ (T.packing.pack v).length < maxArrayAllocSize) := by
  rw [loadRecord] at h
  split at h
  case isFalse => cases h
  case isTrue hsize =>
    rw [load] at h
    cases hread : T.unpackObject ((T.packing.pack v).take ((T.packing.pack v).length % 2 ^ 32)) with
    | none =>
        rw [hread] at h
        cases h
    | some u =>
        rw [hread] at h
        rw [insert_eq h, List.mem_orderedInsert] at hw
        rcases hw with rfl | hw
        · exact .inr ((unpackObject_take hread).imp_right fun hu => ⟨hu.1, hu.2.trans_lt hsize⟩)
        · exact .inl hw

lemma mem_loadRecords (hw : w ∈ (T.loadRecords vs x).objects) :
    w ∈ x.objects ∨ w = T.tmp ∨
      ∃ v ∈ vs, w = T.packing.restored v ∧ (T.packing.pack v).length < maxArrayAllocSize := by
  induction vs generalizing x with
  | nil => exact .inl hw
  | cons v vs ih =>
      rw [loadRecords] at hw
      cases hload : T.loadRecord v x with
      | none =>
          rw [hload] at hw
          exact .inl hw
      | some y =>
          rw [hload] at hw
          rcases ih hw with hy | htmp | ⟨u, hu, heq⟩
          · rcases mem_of_loadRecord hload hy with hx | htmp | hv
            · exact .inl hx
            · exact .inr (.inl htmp)
            · exact .inr (.inr ⟨v, List.mem_cons_self, hv⟩)
          · exact .inr (.inl htmp)
          · exact .inr (.inr ⟨u, List.mem_cons_of_mem v hu, heq⟩)

/-! ### Objects that are read back -/

lemma tmp_readable : T.Readable T.tmp := ⟨T.tmp_exact, T.tmp_length⟩

lemma orderedInsert_last {objects : List V} (h : ∀ o ∈ objects, T.idOf o < T.idOf v) :
    objects.orderedInsert (fun a b => T.idOf a ≤ T.idOf b) v = objects ++ [v] := by
  induction objects with
  | nil => rfl
  | cons o objects ih =>
      rw [List.orderedInsert, if_neg (by have := h o List.mem_cons_self; omega),
        ih fun o' ho' => h o' (List.mem_cons_of_mem o ho')]
      rfl

/-- A record that may be read gives the object back, as the last one. -/
lemma loadRecord_readable (hv : T.Readable v) (hlast : ∀ o ∈ x.objects, T.idOf o < T.idOf v)
    (hkeys : ∀ o ∈ x.objects, T.sameKey o v = false) :
    T.loadRecord v x =
      some { x with objects := x.objects ++ [v], sindex := T.objectInserted x.sindex v } := by
  have hsize : (T.packing.pack v).length % 2 ^ 32 = (T.packing.pack v).length :=
    Nat.mod_eq_of_lt (hv.2.trans (by decide))
  have hread := T.packing.unpack_pack v []
  rw [List.append_nil, hv.1] at hread
  have haccepts : T.Accepts v x.objects := fun o ho => ⟨(hlast o ho).ne, hkeys o ho⟩
  rw [loadRecord, hsize, if_pos hv.2, List.take_length, load, unpackObject, if_neg (T.pack_ne v), hread]
  change T.insert v x = _
  rw [insert, if_pos haccepts, orderedInsert_last hlast]

/-- Records that may be read give the objects back, and the secondary indexes that follow them. -/
lemma loadRecords_readable (hvs : ∀ v ∈ vs, T.Readable v)
    (hsorted : (x.objects ++ vs).Pairwise fun a b => T.idOf a < T.idOf b)
    (hunique : (x.objects ++ vs).Pairwise fun a b => T.sameKey a b = false) :
    T.loadRecords vs x =
      { x with objects := x.objects ++ vs, sindex := vs.foldl T.objectInserted x.sindex } := by
  induction vs generalizing x with
  | nil =>
      rw [loadRecords, List.append_nil]
      rfl
  | cons v vs ih =>
      have hload := loadRecord_readable (hvs v List.mem_cons_self)
        (fun o ho => (List.pairwise_append.mp hsorted).2.2 o ho v List.mem_cons_self)
        fun o ho => (List.pairwise_append.mp hunique).2.2 o ho v List.mem_cons_self
      rw [loadRecords, hload]
      dsimp only
      rw [ih (fun u hu => hvs u (List.mem_cons_of_mem v hu)) (by simpa using hsorted)
        (by simpa using hunique)]
      simp

/-! ### Whole files -/

lemma openFile_header (nextId : UInt64) (r : List UInt8) :
    T.openFile (some (T.header nextId ++ r)) x =
      some (T.loadLoop (32 + r.length) r { x with nextId }) := by
  rw [openFile, header, List.append_assoc, uint64.unpack_pack, Packing.restored_uint64]
  dsimp only
  rw [List.length_append, T.objectVersion_length, if_neg (by omega),
    List.take_left' T.objectVersion_length, List.drop_left' T.objectVersion_length,
    if_neg (not_not.mpr rfl)]

/-- A file that ends in its header is rejected. -/
lemma openFile_short {nextId : UInt64} {p : List UInt8} (h : p <+: T.header nextId)
    (hne : p ≠ T.header nextId) : T.openFile (some p) x = none := by
  rcases Packing.prefix_append_cases h with ⟨hp, hne⟩ | ⟨q, rfl, hq⟩
  · rw [openFile, uint64.unpack_cut _ p hp hne]
  · rw [openFile, uint64.unpack_pack]
    refine if_pos (Nat.lt_of_not_le fun hle => hne ?_)
    rw [header, hq.eq_of_length_le (T.objectVersion_length.trans_le hle)]

lemma length_le_records (vs : List V) : vs.length ≤ (vs.flatMap T.record).length := by
  induction vs with
  | nil => simp
  | cons v vs ih =>
      have hpos : 0 < (T.record v).length := List.length_pos_iff.mpr (packVector_ne _)
      rw [List.flatMap_cons, List.length_append, List.length_cons]
      omega

lemma openFile_records (nextId : UInt64) (vs : List V) {q : List UInt8}
    (hq : unpackVector q = none) :
    T.openFile (some (T.header nextId ++ (vs.flatMap T.record ++ q))) x =
      some (T.loadRecords vs { x with nextId }) := by
  have hlength : vs.length ≤ (vs.flatMap T.record).length := length_le_records vs
  rw [openFile_header, loadLoop_records (by rw [List.length_append]; omega) hq]

lemma openFile_saveFile (x y : Index V S) :
    T.openFile (some (T.saveFile x)) y =
      some (T.loadRecords x.objects { y with nextId := x.nextId }) := by
  have hend : unpackVector [] = none := rfl
  rw [saveFile, ← List.append_nil (x.objects.flatMap T.record), openFile_records _ _ hend]

/-- An index is restored as it was just when its objects are, all of them may be read, and its
secondary indexes are what the insertion of the objects makes them. -/
theorem openFile_saveFile_iff (x : T.Content) :
    T.RestoredExactly x ↔
      (∀ v ∈ x.objects, T.Readable v) ∧ x.sindex = x.objects.foldl T.objectInserted T.sindexEmpty := by
  have hreadable : (∀ v ∈ x.objects, T.Readable v) →
      T.loadRecords x.objects { T.fresh with nextId := x.nextId } =
        ⟨x.objects, x.nextId, x.objects.foldl T.objectInserted T.sindexEmpty⟩ := by
    intro h
    rw [loadRecords_readable h (by simpa [fresh] using x.sorted) (by simpa [fresh] using x.unique)]
    rfl
  rw [RestoredExactly, openFile_saveFile, Option.some.injEq]
  constructor
  · intro h
    -- an object that is there again has been read as it was, or has no content
    have hall : ∀ v ∈ x.objects, T.Readable v := by
      intro v hv
      have hmem : v ∈ (T.loadRecords x.objects { T.fresh with nextId := x.nextId }).objects := by
        rw [h]
        exact hv
      rcases mem_loadRecords hmem with hnew | rfl | ⟨u, hu, heq, hsize⟩
      · cases hnew
      · exact tmp_readable
      · have hid : T.idOf v = T.idOf u := by rw [heq, T.idOf_restored]
        obtain rfl : v = u := x.eq_of_idOf_eq hv hu hid
        exact ⟨heq.symm, hsize⟩
    refine ⟨hall, ?_⟩
    rw [hreadable hall] at h
    exact (congrArg Index.sindex h).symm
  · rintro ⟨hall, hsindex⟩
    rw [hreadable hall, ← hsindex]

/-! ### Files that have lost their end -/

/-- The record of an object is where another record begins only if it is that record. -/
lemma record_append_inj {s t : List UInt8} (h : T.record v ++ s = T.record w ++ t) :
    T.record v = T.record w ∧ s = t := by
  have hread := congrArg unpackUnsignedInt h
  rw [record, record, packVector, packVector, List.append_assoc, List.append_assoc,
    unpackUnsignedInt_packUnsignedInt, unpackUnsignedInt_packUnsignedInt, Option.some.injEq,
    Prod.mk.injEq] at hread
  obtain ⟨hsize, hrest⟩ := hread
  have hlength : (T.record v).length = (T.record w).length := by
    rw [record, record, packVector, packVector, List.length_append, List.length_append, packUnsignedInt,
      packUnsignedInt, List.length_take_of_le (Nat.mod_le _ _),
      List.length_take_of_le (Nat.mod_le _ _), hsize]
  exact List.append_inj h hlength

/-- A part of a record is not what was saved of other objects. -/
lemma records_append_ne {q : List UInt8} (hq : q <+: T.record v) (hne : q ≠ T.record v)
    (hpos : q ≠ []) (vs ws : List V) : vs.flatMap T.record ++ q ≠ ws.flatMap T.record := by
  induction vs generalizing ws with
  | nil =>
      intro h
      cases ws with
      | nil => exact hpos h
      | cons w ws =>
          obtain ⟨r, hr⟩ := hq
          rw [List.flatMap_nil, List.nil_append, List.flatMap_cons] at h
          have hend : T.record w ++ (ws.flatMap T.record ++ r) = T.record v ++ [] := by
            rw [← List.append_assoc, ← h, hr, List.append_nil]
          have hnil := (List.append_eq_nil_iff.mp (record_append_inj hend).2).2
          rw [hnil, List.append_nil] at hr
          exact hne hr
  | cons u us ih =>
      intro h
      cases ws with
      | nil =>
          rw [List.flatMap_cons, List.append_assoc] at h
          exact packVector_ne _ (List.append_eq_nil_iff.mp h).1
      | cons w ws =>
          rw [List.flatMap_cons, List.flatMap_cons, List.append_assoc] at h
          exact ih ws (record_append_inj h).2

/-- Where the size that is written of every object is zero, the beginnings of the records are the
records of the first objects. -/
lemma records_take (hvs : ∀ v ∈ vs, T.record v = [0]) {q : List UInt8}
    (hq : q <+: vs.flatMap T.record) : q = (vs.take q.length).flatMap T.record := by
  induction vs generalizing q with
  | nil => simpa using hq
  | cons v vs ih =>
      cases q with
      | nil => rfl
      | cons b q =>
          rw [List.flatMap_cons, hvs v List.mem_cons_self, List.singleton_append] at hq
          obtain ⟨rfl, hrest⟩ := List.cons_prefix_cons.mp hq
          rw [List.length_cons, List.take_succ_cons, List.flatMap_cons, hvs v List.mem_cons_self,
            List.singleton_append, ← ih (fun u hu => hvs u (List.mem_cons_of_mem v hu)) hrest]

lemma record_eq_singleton (h : 2 ^ 32 ∣ (T.packing.pack v).length) : T.record v = [0] := by
  have hsize : (T.packing.pack v).length % 2 ^ 32 = 0 := Nat.mod_eq_zero_of_dvd h
  rw [record, packVector, packUnsignedInt, hsize, List.take_zero, List.append_nil]
  change Packing.groupsOfNumber 0 = [0]
  rw [Packing.groupsOfNumber]
  rfl

/-- A part of a record that is neither empty nor all of it. -/
lemma exists_part (h : ¬ 2 ^ 32 ∣ (T.packing.pack v).length) :
    ∃ q, q <+: T.record v ∧ q ≠ T.record v ∧ q ≠ [] := by
  refine ⟨packUnsignedInt (T.packing.pack v).length, List.prefix_append _ _, fun heq => h ?_,
    Packing.varint_pack_ne _⟩
  have hnil : (T.packing.pack v).take ((T.packing.pack v).length % 2 ^ 32) = [] := by
    refine (List.append_right_inj (packUnsignedInt (T.packing.pack v).length)).mp ?_
    rw [List.append_nil]
    exact heq.symm
  have hlength := congrArg List.length hnil
  rw [List.length_take_of_le (Nat.mod_le _ _)] at hlength
  exact Nat.dvd_of_mod_eq_zero hlength

/-- A file that has lost its end is rejected just when nothing of an object can be missing in it: when
no object has been written, or of every object no byte but the size. -/
theorem rejectsBeginnings_iff (x : T.Content) :
    T.RejectsBeginnings x ↔ ∀ v ∈ x.objects, 2 ^ 32 ∣ (T.packing.pack v).length := by
  constructor
  · intro h v hv
    by_contra hsize
    obtain ⟨q, hq, hne, hpos⟩ := exists_part hsize
    obtain ⟨us, ws, hobjects⟩ := List.append_of_mem hv
    have hcut := unpackVector_cut _ hq hne
    obtain ⟨r, hr⟩ := hq
    have hfile : T.saveFile x.toIndex =
        T.header x.nextId ++ (us.flatMap T.record ++ q) ++ (r ++ ws.flatMap T.record) := by
      rw [saveFile, hobjects, List.flatMap_append, List.flatMap_cons, ← hr]
      simp
    have hopen := openFile_records (T := T) (x := T.fresh) x.nextId us hcut
    refine absurd (h _ ?_ ?_ ?_) (by rw [hopen]; exact Option.some_ne_none _)
    · exact ⟨_, hfile.symm⟩
    · intro heq
      rw [hfile] at heq
      have hnil := List.append_eq_nil_iff.mp (List.self_eq_append_right.mp heq)
      rw [hnil.1, List.append_nil] at hr
      exact hne hr
    · intro y hy heq
      rw [saveFile, hy] at heq
      exact records_append_ne ⟨r, hr⟩ hne hpos us y.objects (List.append_cancel_left heq)
  · intro h p hp hne hsaved
    rcases Packing.prefix_append_cases hp with ⟨hp, hne⟩ | ⟨q, rfl, hq⟩
    · exact openFile_short hp hne
    · have htake := records_take (fun v hv => record_eq_singleton (h v hv)) hq
      exact absurd (congrArg (T.header x.nextId ++ ·) htake) (hsaved (x.take q.length) rfl)

end IndexType

end ZosCore
