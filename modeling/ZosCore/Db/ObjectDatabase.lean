import Mathlib.Tactic
import Mathlib.Data.Finmap

/-!
`db/object_id.hpp`, `db/generic_index.hpp` and `db/object_database.hpp`: the
object database, a finite map from object ids to objects with the next free
instance of every index.

An index may carry a unique secondary key besides the id (`by_name` of the
accounts, `by_trx_id` of the transactions, `by_account_asset` of the balances).
It enters as a function `key`, with `none` for an object that is under no such
constraint; `noKey` is an index ordered by id alone.

* `insert` and `create` reject an object whose id or key is taken and change
  nothing, as `multi_index::insert` does.
* `modify` writes the new value and, when its key is taken, rejects the call
  *after erasing the object*, as `multi_index::modify` does (`modifyState` is
  the state it leaves behind).
-/

namespace ZosCore

/-- The `(space, type)` pair of an `object_id_type`: it names an index. -/
structure IndexId where
  space : ℕ
  type : ℕ
  deriving DecidableEq, Repr

/-- `object_id_type`: an index and the instance of the object in it. -/
structure ObjectId where
  index : IndexId
  inst : ℕ
  deriving DecidableEq, Repr

/-- The failed assertions of the object and undo databases. -/
inductive DbError where
  /-- `FC_ASSERT( maybe_found != nullptr )` in `index::get`. -/
  | objectNotFound (id : ObjectId)
  /-- `FC_ASSERT( insert_result.second )` or `FC_ASSERT( ok )`. -/
  | uniqueness
  /-- `FC_ASSERT( !_disabled )`. -/
  | undoDisabled
  /-- `FC_ASSERT( _active_sessions > 0 )`. -/
  | noActiveSession
  /-- `FC_ASSERT( _active_sessions == 0 )`. -/
  | activeSession
  /-- `FC_ASSERT( _stack.size() >= 2 )` or `FC_ASSERT( !_stack.empty() )`. -/
  | stackTooSmall
  deriving DecidableEq, Repr

/-- The objects of every index and the next free instance of each. -/
structure ObjectDatabase (V : Type*) where
  objects : Finmap (fun _ : ObjectId => V)
  nextId : IndexId → ℕ

/-- The secondary key of an index that has none. -/
def noKey {V : Type*} : V → Option Unit := fun _ => none

namespace ObjectDatabase

variable {V κ : Type*} [DecidableEq κ] (key : V → Option κ)

/-- `index::find`. -/
def find (db : ObjectDatabase V) (id : ObjectId) : Option V := db.objects.lookup id

/-- Two databases are the same map with the same next ids. -/
@[ext] lemma ext {a b : ObjectDatabase V} (hf : ∀ id, a.find id = b.find id)
    (hn : ∀ i, a.nextId i = b.nextId i) : a = b := by
  obtain ⟨ao, an⟩ := a
  obtain ⟨bo, bn⟩ := b
  have h1 : ao = bo := Finmap.ext_lookup hf
  have h2 : an = bn := funext hn
  rw [h1, h2]

/-- `index::get`: the lookup that throws. -/
def getObject (db : ObjectDatabase V) (id : ObjectId) : Except DbError V :=
  match db.find id with
  | some v => .ok v
  | none => .error (.objectNotFound id)

/-- The map with `v` under `id`. -/
def set (db : ObjectDatabase V) (id : ObjectId) (v : V) : ObjectDatabase V :=
  { db with objects := db.objects.insert id v }

/-- The map without `id`: `multi_index::erase`. -/
def erase (db : ObjectDatabase V) (id : ObjectId) : ObjectDatabase V :=
  { db with objects := db.objects.erase id }

/-- `primary_index::set_next_id`. -/
def setNextId (db : ObjectDatabase V) (i : IndexId) (n : ℕ) : ObjectDatabase V :=
  { db with nextId := Function.update db.nextId i n }

/-- Another object of the index of `id` holds the secondary key of `v`. -/
def KeyTaken (db : ObjectDatabase V) (id : ObjectId) (v : V) : Prop :=
  ∃ e ∈ db.objects.entries,
    e.1 ≠ id ∧ e.1.index = id.index ∧ (key v).isSome ∧ key e.2 = key v

instance (db : ObjectDatabase V) (id : ObjectId) (v : V) : Decidable (db.KeyTaken key id v) :=
  Multiset.decidableExistsMultiset

/-- `generic_index::insert`. -/
def insert (db : ObjectDatabase V) (id : ObjectId) (v : V) : Except DbError (ObjectDatabase V) :=
  if (db.find id).isSome ∨ db.KeyTaken key id v then .error .uniqueness else .ok (db.set id v)

/-- `generic_index::create`: the object gets the next id of its index. -/
def create (db : ObjectDatabase V) (i : IndexId) (v : V) : Except DbError (ObjectDatabase V) := do
  let db' ← db.insert key ⟨i, db.nextId i⟩ v
  return db'.setNextId i (db.nextId i + 1)

/-- `generic_index::modify` as the caller sees it: a value whose key is taken
is rejected. -/
def modify (db : ObjectDatabase V) (id : ObjectId) (v : V) : Except DbError (ObjectDatabase V) :=
  if db.KeyTaken key id v then .error .uniqueness else .ok (db.set id v)

/-- The map `multi_index::modify` leaves behind: a rejected object is erased,
not put back. -/
def modifyState (db : ObjectDatabase V) (id : ObjectId) (v : V) : ObjectDatabase V :=
  if db.KeyTaken key id v then db.erase id else db.set id v

/-! ### What the operations do to a lookup -/

variable {key} {db : ObjectDatabase V}

@[simp] lemma find_set_self (id : ObjectId) (v : V) : (db.set id v).find id = some v :=
  Finmap.lookup_insert _

lemma find_set (id id' : ObjectId) (v : V) :
    (db.set id v).find id' = if id' = id then some v else db.find id' := by
  split_ifs with h
  · rw [h, find_set_self]
  · exact Finmap.lookup_insert_of_ne _ h

@[simp] lemma nextId_set (id : ObjectId) (v : V) : (db.set id v).nextId = db.nextId := rfl

lemma find_erase (id id' : ObjectId) :
    (db.erase id).find id' = if id' = id then none else db.find id' := by
  split_ifs with h
  · rw [h]; exact Finmap.lookup_erase _ _
  · exact Finmap.lookup_erase_ne h

@[simp] lemma nextId_erase (id : ObjectId) : (db.erase id).nextId = db.nextId := rfl

@[simp] lemma find_setNextId (i : IndexId) (n : ℕ) (id : ObjectId) :
    (db.setNextId i n).find id = db.find id := rfl

lemma nextId_setNextId (i j : IndexId) (n : ℕ) :
    (db.setNextId i n).nextId j = if j = i then n else db.nextId j := by
  simp [setNextId, Function.update_apply]

lemma getObject_eq_ok {id : ObjectId} {v : V} : db.getObject id = .ok v ↔ db.find id = some v := by
  rw [getObject]
  cases db.find id <;> simp

omit [DecidableEq κ] in
/-- The key is taken exactly when some other object of the index holds it. -/
lemma keyTaken_iff {id : ObjectId} {v : V} :
    db.KeyTaken key id v ↔ ∃ id' w, db.find id' = some w ∧ id' ≠ id ∧ id'.index = id.index ∧
      (key v).isSome ∧ key w = key v := by
  constructor
  · rintro ⟨⟨id', w⟩, he, h⟩
    exact ⟨id', w, Finmap.lookup_eq_some_iff.mpr he, h⟩
  · rintro ⟨id', w, hf, h⟩
    exact ⟨⟨id', w⟩, Finmap.lookup_eq_some_iff.mp hf, h⟩

@[simp] lemma not_keyTaken_noKey (id : ObjectId) (v : V) : ¬ db.KeyTaken noKey id v := by
  simp [KeyTaken, noKey]

@[simp] lemma modify_noKey (id : ObjectId) (v : V) :
    db.modify noKey id v = .ok (db.set id v) := by
  simp [modify]

/-- Every object was created by its index: its instance is below the next id. -/
def Fresh (db : ObjectDatabase V) : Prop :=
  ∀ id v, db.find id = some v → id.inst < db.nextId id.index

lemma Fresh.find_next (h : db.Fresh) (i : IndexId) : db.find ⟨i, db.nextId i⟩ = none := by
  cases hf : db.find ⟨i, db.nextId i⟩ with
  | none => rfl
  | some v => exact absurd (h _ _ hf) (lt_irrefl _)

lemma Fresh.set (h : db.Fresh) {id : ObjectId} (hid : id.inst < db.nextId id.index) (v : V) :
    (db.set id v).Fresh := by
  intro id' w hf
  rw [find_set] at hf
  split_ifs at hf with heq
  · rw [heq]; exact hid
  · exact h _ _ hf

lemma Fresh.erase (h : db.Fresh) (id : ObjectId) : (db.erase id).Fresh := by
  intro id' w hf
  rw [find_erase] at hf
  split_ifs at hf
  exact h _ _ hf

/-- A created object uses up the next id of its index. -/
lemma Fresh.create (h : db.Fresh) (i : IndexId) (v : V) :
    ((db.set ⟨i, db.nextId i⟩ v).setNextId i (db.nextId i + 1)).Fresh := by
  intro id w hf
  rw [find_setNextId, find_set] at hf
  rw [nextId_setNextId, nextId_set]
  split_ifs at hf with hid
  · rw [hid, if_pos rfl]
    exact Nat.lt_succ_self _
  · have := h id w hf
    split_ifs with hi
    · rw [hi] at this; omega
    · exact this

end ObjectDatabase

end ZosCore
