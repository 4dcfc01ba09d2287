import ZosCore.Db.UndoDatabase

/-!
`db/undo_database.cpp`: what an undo state records of the objects, how it is
undone and how two of them are merged.

An object's relationship to a state is *new*, *upd*, *del* or *nop*, as the
comment in `undo_database::merge` has it. `Tracks st cur old` says what each of
the four means for a state `st` recorded between the databases `old` and `cur`;
it is the invariant every hook keeps.

* `onCreate`, `onModify`, `onRemove`: the hooks, as functions of the newest
  state; `Tracks.onCreate`, `Tracks.onModify` and `Tracks.onRemove`.
* `restore`: the four loops of `undo` and `pop_commit`, studied in
  `Db/UndoRestore.lean`.
* `combine`: the four loops of `merge`. `Tracks.combine`: it composes two states,
  entry by entry of the 4x4 table.
-/

namespace ZosCore

/-- `undo_state`. The unordered containers are association lists; `HashOrder`
says in which order a loop meets their entries. -/
structure UndoState (V : Type) where
  oldValues : AList (fun _ : ObjectId => V) := ∅
  oldIndexNextIds : AList (fun _ : IndexId => ℕ) := ∅
  newIds : List ObjectId := []
  removed : AList (fun _ : ObjectId => V) := ∅

/-- The order in which a loop over the unordered containers of a state meets
their entries: any rearrangement of each. -/
structure HashOrder (V : Type) where
  arrange : UndoState V → UndoState V
  oldValues_perm : ∀ st, (arrange st).oldValues.entries.Perm st.oldValues.entries
  oldIndexNextIds_perm : ∀ st,
    (arrange st).oldIndexNextIds.entries.Perm st.oldIndexNextIds.entries
  newIds_perm : ∀ st, (arrange st).newIds.Perm st.newIds
  removed_perm : ∀ st, (arrange st).removed.entries.Perm st.removed.entries

/-- Newest entry first. -/
instance {V : Type} : Inhabited (HashOrder V) :=
  ⟨id, fun _ => .rfl, fun _ => .rfl, fun _ => .rfl, fun _ => .rfl⟩

namespace UndoState

variable {V κ : Type} [DecidableEq κ]

/-! ### The hooks -/

/-- `undo_database::on_create` on the newest state. -/
def onCreate (id : ObjectId) (st : UndoState V) : UndoState V :=
  { st with
    oldIndexNextIds :=
      if id.index ∈ st.oldIndexNextIds then st.oldIndexNextIds
      else st.oldIndexNextIds.insert id.index id.inst
    newIds := st.newIds.insert id }

/-- `undo_database::on_modify` on the newest state, `v` being the value before
the change. -/
def onModify (id : ObjectId) (v : V) (st : UndoState V) : UndoState V :=
  if id ∈ st.newIds then st
  else if id ∈ st.oldValues then st
  else { st with oldValues := st.oldValues.insert id v }

/-- `undo_database::on_remove` on the newest state, `v` being the value that is
about to go. -/
def onRemove (id : ObjectId) (v : V) (st : UndoState V) : UndoState V :=
  if id ∈ st.newIds then { st with newIds := st.newIds.filter (· ≠ id) }
  else match st.oldValues.lookup id with
    | some w =>
        { st with removed := st.removed.insert id w, oldValues := st.oldValues.erase id }
    | none =>
        if id ∈ st.removed then st else { st with removed := st.removed.insert id v }

/-! ### Undoing a state -/

variable (key : V → Option κ)

/-- The loop over `old_values`: `modify( get_object( id ), move_from )`. -/
def restoreOldValues : List (Σ _ : ObjectId, V) → ObjectDatabase V →
    Except DbError (ObjectDatabase V)
  | [], db => .ok db
  | e :: l, db => do
      let _ ← db.getObject e.1
      let db ← db.modify key e.1 e.2
      restoreOldValues l db

/-- The loop over `new_ids`: `remove( get_object( id ) )`. -/
def removeNew : List ObjectId → ObjectDatabase V → Except DbError (ObjectDatabase V)
  | [], db => .ok db
  | id :: l, db => do
      let _ ← db.getObject id
      removeNew l (db.erase id)

/-- The loop over `old_index_next_ids`. -/
def restoreNextIds (l : List (Σ _ : IndexId, ℕ)) (db : ObjectDatabase V) : ObjectDatabase V :=
  l.foldl (fun db e => db.setNextId e.1 e.2) db

/-- The loop over `removed`: `insert( std::move(*item.second) )`. -/
def insertRemoved : List (Σ _ : ObjectId, V) → ObjectDatabase V →
    Except DbError (ObjectDatabase V)
  | [], db => .ok db
  | e :: l, db => do
      let db ← db.insert key e.1 e.2
      insertRemoved l db

/-- The body of `undo_database::undo` and of `pop_commit`. -/
def restore (ord : HashOrder V) (st : UndoState V) (db : ObjectDatabase V) :
    Except DbError (ObjectDatabase V) := do
  let st := ord.arrange st
  let db ← restoreOldValues key st.oldValues.entries db
  let db ← removeNew st.newIds db
  insertRemoved key st.removed.entries (restoreNextIds st.oldIndexNextIds.entries db)

/-! ### Merging two states -/

/-- `*+upd` of `merge`. -/
def mergeUpd (prev : UndoState V) (e : Σ _ : ObjectId, V) : UndoState V :=
  if e.1 ∈ prev.newIds then prev
  else if e.1 ∈ prev.oldValues then prev
  else { prev with oldValues := prev.oldValues.insert e.1 e.2 }

/-- `*+new` of `merge`. -/
def mergeNew (prev : UndoState V) (id : ObjectId) : UndoState V :=
  { prev with newIds := prev.newIds.insert id }

/-- The next ids in `merge`. -/
def mergeNextId (prev : UndoState V) (e : Σ _ : IndexId, ℕ) : UndoState V :=
  if e.1 ∈ prev.oldIndexNextIds then prev
  else { prev with oldIndexNextIds := prev.oldIndexNextIds.insert e.1 e.2 }

/-- `*+del` of `merge`. -/
def mergeDel (prev : UndoState V) (e : Σ _ : ObjectId, V) : UndoState V :=
  if e.1 ∈ prev.newIds then { prev with newIds := prev.newIds.filter (· ≠ e.1) }
  else match prev.oldValues.lookup e.1 with
    | some w =>
        { prev with removed := prev.removed.insert e.1 w, oldValues := prev.oldValues.erase e.1 }
    | none => { prev with removed := prev.removed.insert e.1 e.2 }

/-- The four loops of `undo_database::merge`, `prev` taking the entries of
`top`. -/
def combine (prev top : UndoState V) : UndoState V :=
  let prev := top.oldValues.entries.foldl mergeUpd prev
  let prev := top.newIds.foldl mergeNew prev
  let prev := top.oldIndexNextIds.entries.foldl mergeNextId prev
  top.removed.entries.foldl mergeDel prev

/-! ### What a state says about the objects -/

/-- The state `st` was recorded while the database went from `old` to `cur`. An
object that is *new* or *upd* may have been lost since. -/
structure Records (st : UndoState V) (cur old : ObjectDatabase V) : Prop where
  new : ∀ id ∈ st.newIds, old.nextId id.index ≤ id.inst
  upd : ∀ id v, st.oldValues.lookup id = some v → old.find id = some v
  del : ∀ id v, st.removed.lookup id = some v → old.find id = some v ∧ cur.find id = none
  nop : ∀ id, id ∉ st.newIds → st.oldValues.lookup id = none → st.removed.lookup id = none →
    cur.find id = old.find id
  next_upd : ∀ i n, st.oldIndexNextIds.lookup i = some n → old.nextId i = n
  next_nop : ∀ i, st.oldIndexNextIds.lookup i = none → cur.nextId i = old.nextId i
  next_mono : ∀ i, old.nextId i ≤ cur.nextId i
  fresh : old.Fresh
  nodup : st.newIds.Nodup

/-- The objects that are *new* or *upd* are still there. -/
def Present (st : UndoState V) (cur : ObjectDatabase V) : Prop :=
  ∀ id, id ∈ st.newIds ∨ id ∈ st.oldValues → (cur.find id).isSome

/-- The state `st` was recorded while the database went from `old` to `cur`, and
every object it names is where the state says. -/
structure Tracks (st : UndoState V) (cur old : ObjectDatabase V) : Prop
    extends Records st cur old where
  present : Present st cur

namespace Records

variable {st : UndoState V} {cur old : ObjectDatabase V}

/-- A state that has recorded nothing. -/
lemma empty (h : cur.Fresh) : Records {} cur cur where
  new := by simp
  upd := by simp
  del := by simp
  nop := by simp
  next_upd := by simp
  next_nop := by simp
  next_mono := fun _ => le_rfl
  fresh := h
  nodup := by simp

/-- A new object was not there when the state was started. -/
lemma find_new (h : Records st cur old) {id : ObjectId} (hid : id ∈ st.newIds) :
    old.find id = none := by
  cases hf : old.find id with
  | none => rfl
  | some v => exact absurd (h.fresh _ _ hf) (not_lt.mpr (h.new id hid))

/-- `on_create` keeps a record of a created object and of the next id of its
index. -/
lemma onCreate (h : Records st cur old) (i : IndexId) (v : V) :
    Records (onCreate ⟨i, cur.nextId i⟩ st)
      ((cur.set ⟨i, cur.nextId i⟩ v).setNextId i (cur.nextId i + 1)) old := by
  refine ⟨?_, h.upd, ?_, ?_, ?_, ?_, ?_, h.fresh, h.nodup.insert⟩
  · intro id hid
    rcases List.mem_insert_iff.mp hid with rfl | hid
    · exact h.next_mono i
    · exact h.new id hid
  · intro id w hl
    have := h.del id w hl
    rw [ObjectDatabase.find_setNextId, ObjectDatabase.find_set]
    refine ⟨this.1, ?_⟩
    split_ifs with heq
    · -- the id of a removed object is not given out again
      have hlt := h.fresh id w this.1
      have hle := h.next_mono i
      simp only [heq] at hlt
      omega
    · exact this.2
  · intro id hn hu hd
    rw [ObjectDatabase.find_setNextId, ObjectDatabase.find_set]
    have hn' : id ≠ ⟨i, cur.nextId i⟩ ∧ id ∉ st.newIds := by
      constructor
      · rintro rfl; exact hn List.mem_insert_self
      · exact fun hm => hn (List.mem_insert_of_mem hm)
    rw [if_neg hn'.1]
    exact h.nop id hn'.2 hu hd
  · intro j n hl
    simp only [UndoState.onCreate] at hl
    split_ifs at hl with hmem
    · exact h.next_upd j n hl
    · by_cases hj : j = i
      · subst hj
        rw [AList.lookup_insert] at hl
        cases hl
        exact (h.next_nop j (AList.lookup_eq_none.mpr hmem)).symm
      · rw [AList.lookup_insert_ne hj] at hl
        exact h.next_upd j n hl
  · intro j hl
    simp only [UndoState.onCreate] at hl
    rw [ObjectDatabase.nextId_setNextId, ObjectDatabase.nextId_set]
    have hj : j ≠ i := by
      rintro rfl
      split_ifs at hl with hmem
      · exact AList.lookup_eq_none.mp hl hmem
      · rw [AList.lookup_insert] at hl; cases hl
    rw [if_neg hj]
    split_ifs at hl with hmem
    · exact h.next_nop j hl
    · rw [AList.lookup_insert_ne hj] at hl
      exact h.next_nop j hl
  · intro j
    have := h.next_mono j
    rw [ObjectDatabase.nextId_setNextId, ObjectDatabase.nextId_set]
    split_ifs with hj
    · subst hj; omega
    · exact this

/-- An object that is there has not been recorded as removed. -/
lemma removed_eq_none (h : Records st cur old) {id : ObjectId} {v : V}
    (hv : cur.find id = some v) : st.removed.lookup id = none := by
  cases hl : st.removed.lookup id with
  | none => rfl
  | some x => rw [(h.del _ _ hl).2] at hv; cases hv

/-- Recording the present value of an object that is there says nothing new. -/
lemma record_onModify (h : Records st cur old) {id : ObjectId} {v : V}
    (hv : cur.find id = some v) : Records (onModify id v st) cur old := by
  rw [UndoState.onModify]
  split_ifs with hnew hold
  · exact h
  · exact h
  · have hid : old.find id = some v := by
      rw [← h.nop id hnew (AList.lookup_eq_none.mpr hold) (h.removed_eq_none hv), hv]
    refine ⟨h.new, fun id' x hl => ?_, h.del, fun id' hn hu hd => ?_, h.next_upd, h.next_nop,
      h.next_mono, h.fresh, h.nodup⟩
    · by_cases heq : id' = id
      · subst heq
        rw [AList.lookup_insert] at hl
        cases hl
        exact hid
      · rw [AList.lookup_insert_ne heq] at hl
        exact h.upd id' x hl
    · have heq : id' ≠ id := by
        rintro rfl; rw [AList.lookup_insert] at hu; cases hu
      rw [AList.lookup_insert_ne heq] at hu
      exact h.nop id' hn hu hd

/-- After `on_modify` the object is *new* or *upd*. -/
lemma mem_onModify (st : UndoState V) (id : ObjectId) (v : V) :
    id ∈ (UndoState.onModify id v st).newIds ∨ id ∈ (UndoState.onModify id v st).oldValues := by
  rw [UndoState.onModify]
  split_ifs with hnew hold
  · exact .inl hnew
  · exact .inr hold
  · exact .inr ((AList.mem_insert _).mpr (.inl rfl))

/-- What happens to an object that is *new* or *upd*, and to nothing else, is on
record already. -/
lemma change {cur' : ObjectDatabase V} {id : ObjectId} {v : V} (h : Records st cur old)
    (hv : cur.find id = some v) (htr : id ∈ st.newIds ∨ id ∈ st.oldValues)
    (hne : ∀ id', id' ≠ id → cur'.find id' = cur.find id') (hnext : cur'.nextId = cur.nextId) :
    Records st cur' old := by
  refine ⟨h.new, h.upd, fun id' x hl => ?_, fun id' hn hu hd => ?_, h.next_upd,
    by rw [hnext]; exact h.next_nop, by rw [hnext]; exact h.next_mono, h.fresh, h.nodup⟩
  · obtain ⟨ho, hc⟩ := h.del id' x hl
    have heq : id' ≠ id := by rintro rfl; rw [hv] at hc; cases hc
    exact ⟨ho, by rw [hne id' heq, hc]⟩
  · have heq : id' ≠ id := by
      rintro rfl
      rcases htr with hm | hm
      · exact hn hm
      · exact AList.lookup_eq_none.mp hu hm
    rw [hne id' heq]
    exact h.nop id' hn hu hd

/-- `on_modify` keeps the first value of a changed object. -/
lemma onModify (h : Records st cur old) {id : ObjectId} {v : V} (hv : cur.find id = some v)
    (w : V) : Records (onModify id v st) (cur.set id w) old :=
  (h.record_onModify hv).change hv (mem_onModify st id v)
    (fun id' hne => by rw [ObjectDatabase.find_set, if_neg hne]) rfl

/-- It does so too when the change is rejected and the object is lost. -/
lemma onModify_lost (h : Records st cur old) {id : ObjectId} {v : V}
    (hv : cur.find id = some v) : Records (UndoState.onModify id v st) (cur.erase id) old :=
  (h.record_onModify hv).change hv (mem_onModify st id v)
    (fun id' hne => by rw [ObjectDatabase.find_erase, if_neg hne]) rfl

/-- `on_remove` forgets a new object and keeps the first value of an old one. -/
lemma onRemove (h : Records st cur old) {id : ObjectId} {v : V} (hv : cur.find id = some v) :
    Records (onRemove id v st) (cur.erase id) old := by
  have herase : ∀ id', id' ≠ id → (cur.erase id).find id' = cur.find id' := fun id' hne => by
    rw [ObjectDatabase.find_erase, if_neg hne]
  have hself : (cur.erase id).find id = none := by
    rw [ObjectDatabase.find_erase, if_pos rfl]
  have hrem := h.removed_eq_none hv
  rw [UndoState.onRemove]
  by_cases hnew : id ∈ st.newIds
  · -- new: the object was never there for `old`
    rw [if_pos hnew]
    have hold : old.find id = none := h.find_new hnew
    refine ⟨fun id' hm => h.new id' (List.mem_of_mem_filter hm), h.upd, fun id' x hl => ?_,
      fun id' hn hu hd => ?_, h.next_upd, h.next_nop, h.next_mono, h.fresh, h.nodup.filter _⟩
    · have hne : id' ≠ id := by
        rintro rfl; rw [(h.del id' x hl).1] at hold; cases hold
      rw [herase id' hne]
      exact h.del id' x hl
    · by_cases heq : id' = id
      · rw [heq, hself, hold]
      · rw [herase id' heq]
        refine h.nop id' (fun hm => hn ?_) hu hd
        rw [List.mem_filter]
        exact ⟨hm, by simpa using heq⟩
  · rw [if_neg hnew]
    -- upd(was=w) and nop: the entry goes to `removed`
    have hremoved : ∀ w, old.find id = some w → ∀ id' x,
        (st.removed.insert id w).lookup id' = some x →
          old.find id' = some x ∧ (cur.erase id).find id' = none := by
      intro w hw id' x hl
      by_cases heq : id' = id
      · subst heq
        rw [AList.lookup_insert] at hl
        cases hl
        exact ⟨hw, hself⟩
      · rw [AList.lookup_insert_ne heq] at hl
        rw [herase id' heq]
        exact h.del id' x hl
    have hnop : ∀ w id', id' ∉ st.newIds → (id' ≠ id → st.oldValues.lookup id' = none) →
        (st.removed.insert id w).lookup id' = none →
          (cur.erase id).find id' = old.find id' := by
      intro w id' hn hu hd
      have heq : id' ≠ id := by
        rintro rfl; rw [AList.lookup_insert] at hd; cases hd
      rw [AList.lookup_insert_ne heq] at hd
      rw [herase id' heq]
      exact h.nop id' hn (hu heq) hd
    cases hu : st.oldValues.lookup id with
    | some w =>
        refine ⟨h.new, fun id' x hl => ?_, hremoved w (h.upd id w hu), fun id' hn hu' hd => ?_,
          h.next_upd, h.next_nop, h.next_mono, h.fresh, h.nodup⟩
        · have heq : id' ≠ id := by
            rintro rfl; rw [AList.lookup_erase] at hl; cases hl
          rw [AList.lookup_erase_ne heq] at hl
          exact h.upd id' x hl
        · refine hnop w id' hn (fun heq => ?_) hd
          rwa [AList.lookup_erase_ne heq] at hu'
    | none =>
        have hold : old.find id = some v := by rw [← h.nop id hnew hu hrem, hv]
        simp only [if_neg (AList.lookup_eq_none.mp hrem)]
        exact ⟨h.new, h.upd, hremoved v hold, fun id' hn hu' hd => hnop v id' hn (fun _ => hu') hd,
          h.next_upd, h.next_nop, h.next_mono, h.fresh, h.nodup⟩

end Records

namespace Tracks

variable {st : UndoState V} {cur old : ObjectDatabase V}

/-- A state that has recorded nothing. -/
lemma empty (h : cur.Fresh) : Tracks {} cur cur :=
  ⟨.empty h, by intro id hid; simp at hid⟩

/-- `on_create` keeps track of a created object. -/
lemma onCreate (h : Tracks st cur old) (i : IndexId) (v : V) :
    Tracks (onCreate ⟨i, cur.nextId i⟩ st)
      ((cur.set ⟨i, cur.nextId i⟩ v).setNextId i (cur.nextId i + 1)) old := by
  refine ⟨h.toRecords.onCreate i v, fun id hid => ?_⟩
  rw [ObjectDatabase.find_setNextId, ObjectDatabase.find_set]
  split_ifs with heq
  · rfl
  · refine h.present id (hid.imp_left fun hm => ?_)
    exact (List.mem_insert_iff.mp hm).resolve_left heq

/-- `on_modify` keeps track of a changed object. -/
lemma onModify (h : Tracks st cur old) {id : ObjectId} {v : V} (hv : cur.find id = some v)
    (w : V) : Tracks (onModify id v st) (cur.set id w) old := by
  refine ⟨h.toRecords.onModify hv w, fun id' hid => ?_⟩
  rw [ObjectDatabase.find_set]
  split_ifs with heq
  · rfl
  · refine h.present id' ?_
    unfold UndoState.onModify at hid
    split_ifs at hid
    · exact hid
    · exact hid
    · exact hid.imp_right fun hm => ((AList.mem_insert _).mp hm).resolve_left heq

/-- `on_remove` keeps track of a removed object. -/
lemma onRemove (h : Tracks st cur old) {id : ObjectId} {v : V} (hv : cur.find id = some v) :
    Tracks (onRemove id v st) (cur.erase id) old := by
  refine ⟨h.toRecords.onRemove hv, fun id' hid => ?_⟩
  have hboth : id' ≠ id ∧ (id' ∈ st.newIds ∨ id' ∈ st.oldValues) := by
    unfold UndoState.onRemove at hid
    by_cases hnew : id ∈ st.newIds
    · rw [if_pos hnew] at hid
      rcases hid with hm | hm
      · rw [List.mem_filter] at hm
        exact ⟨by simpa using hm.2, .inl hm.1⟩
      · refine ⟨?_, .inr hm⟩
        rintro rfl
        -- an object is not both new and upd
        obtain ⟨w, hw⟩ := Option.isSome_iff_exists.mp (AList.lookup_isSome.mpr hm)
        have := h.upd id' w hw
        rw [h.find_new hnew] at this
        cases this
    · rw [if_neg hnew] at hid
      cases hu : st.oldValues.lookup id with
      | some w =>
          simp only [hu] at hid
          rcases hid with hm | hm
          · exact ⟨by rintro rfl; exact hnew hm, .inl hm⟩
          · exact ⟨(AList.mem_erase.mp hm).1, .inr (AList.mem_erase.mp hm).2⟩
      | none =>
          simp only [hu, if_neg (AList.lookup_eq_none.mp (h.removed_eq_none hv))] at hid
          refine ⟨?_, hid⟩
          rintro rfl
          exact hid.elim hnew (AList.lookup_eq_none.mp hu)
  rw [ObjectDatabase.find_erase, if_neg hboth.1]
  exact h.present id' hboth.2

end Tracks

/-! ### The 4x4 table of `merge` -/

/-- An object's relationship to a state: what the three containers of the state
have for it. -/
@[ext] structure Relationship (V : Type) where
  new : Bool
  upd : Option V
  del : Option V

namespace Relationship

/-- `*+upd(was=v)`. -/
def addUpd (r : Relationship V) (v : V) : Relationship V :=
  if r.new then r else if r.upd.isSome then r else { r with upd := some v }

/-- `*+new`. -/
def addNew (r : Relationship V) : Relationship V := { r with new := true }

/-- `*+del(was=v)`. -/
def addDel (r : Relationship V) (v : V) : Relationship V :=
  if r.new then { r with new := false }
  else match r.upd with
    | some w => { r with del := some w, upd := none }
    | none => { r with del := some v }

/-- One entry of the table: `a` is the relationship to the older state. -/
def compose (a b : Relationship V) : Relationship V :=
  let a := b.upd.elim a a.addUpd
  let a := if b.new then a.addNew else a
  b.del.elim a a.addDel

/-- What a relationship says about an object that was `old` and is `cur`. -/
structure Holds (r : Relationship V) (cur old : Option V) : Prop where
  new : r.new = true → old = none ∧ cur.isSome
  upd : ∀ v, r.upd = some v → old = some v ∧ cur.isSome
  del : ∀ v, r.del = some v → old = some v ∧ cur = none
  nop : r.new = false → r.upd = none → r.del = none → cur = old

/-- The relationship is one of the four. -/
lemma Holds.cases {r : Relationship V} {cur old : Option V} (h : r.Holds cur old) :
    (r = ⟨true, none, none⟩ ∧ old = none ∧ cur.isSome) ∨
    (∃ v, r = ⟨false, some v, none⟩ ∧ old = some v ∧ cur.isSome) ∨
    (∃ v, r = ⟨false, none, some v⟩ ∧ old = some v ∧ cur = none) ∨
    (r = ⟨false, none, none⟩ ∧ cur = old) := by
  obtain ⟨n, u, d⟩ := r
  obtain ⟨hn, hu, hd, hnop⟩ := h
  cases n <;> cases u <;> cases d <;> simp_all

/-- The entries of the table compose what the two states say. Of the entries
marked N/A, only del+new has to be excluded by hand: the others contradict what
the two states say of the object in between. -/
lemma Holds.compose {a b : Relationship V} {cur mid old : Option V} (ha : a.Holds mid old)
    (hb : b.Holds cur mid) (hnew : b.new = true → a.del = none) :
    (a.compose b).Holds cur old := by
  rcases hb.cases with ⟨rfl, hm, hc⟩ | ⟨y, rfl, hm, hc⟩ | ⟨y, rfl, hm, hc⟩ | ⟨rfl, hm⟩ <;>
    rcases ha.cases with ⟨rfl, ho, hm'⟩ | ⟨x, rfl, ho, hm'⟩ | ⟨x, rfl, ho, hm'⟩ | ⟨rfl, hm'⟩ <;>
      first
      | (subst hm; simp at hm'; done)
      | (constructor <;> simp_all [Relationship.compose, addUpd, addNew, addDel])

end Relationship

/-- An object's relationship to the state `st`. -/
def relationship (st : UndoState V) (id : ObjectId) : Relationship V :=
  ⟨decide (id ∈ st.newIds), st.oldValues.lookup id, st.removed.lookup id⟩

lemma relationship_mergeUpd (st : UndoState V) (e : Σ _ : ObjectId, V) (id : ObjectId) :
    (mergeUpd st e).relationship id =
      if id = e.1 then (st.relationship id).addUpd e.2 else st.relationship id := by
  unfold mergeUpd Relationship.addUpd relationship
  by_cases hid : id = e.1
  · subst hid
    by_cases hn : e.1 ∈ st.newIds
    · simp [hn]
    · by_cases ho : e.1 ∈ st.oldValues
      · simp [hn, ho, AList.lookup_isSome.mpr ho]
      · simp [hn, ho, AList.lookup_eq_none.mpr ho]
  · split_ifs <;> simp [AList.lookup_insert_ne hid]

lemma relationship_mergeDel (st : UndoState V) (e : Σ _ : ObjectId, V) (id : ObjectId) :
    (mergeDel st e).relationship id =
      if id = e.1 then (st.relationship id).addDel e.2 else st.relationship id := by
  unfold mergeDel Relationship.addDel relationship
  by_cases hid : id = e.1
  · subst hid
    by_cases hn : e.1 ∈ st.newIds
    · simp [hn]
    · cases ho : st.oldValues.lookup e.1 <;> simp [hn, ho]
  · rw [if_neg hid]
    by_cases hn : e.1 ∈ st.newIds
    · simp [hn, hid]
    · rw [if_neg hn]
      cases ho : st.oldValues.lookup e.1 with
      | none => simp [AList.lookup_insert_ne hid]
      | some w => simp [AList.lookup_insert_ne hid, AList.lookup_erase_ne hid]

lemma relationship_mergeNew (l : List ObjectId) (id : ObjectId) : ∀ st : UndoState V,
    (l.foldl mergeNew st).relationship id =
      if id ∈ l then (st.relationship id).addNew else st.relationship id := by
  induction l with
  | nil => intro st; simp
  | cons a l ih =>
      intro st
      rw [List.foldl_cons, ih]
      by_cases ha : id = a <;> by_cases hl : id ∈ l <;>
        simp [relationship, Relationship.addNew, mergeNew, ha, hl]

/-- The next ids are no part of an object's relationship to a state. -/
lemma relationship_mergeNextId (l : List (Σ _ : IndexId, ℕ)) (id : ObjectId) :
    ∀ st : UndoState V, (l.foldl mergeNextId st).relationship id = st.relationship id := by
  induction l with
  | nil => intro st; rfl
  | cons e l ih =>
      intro st
      rw [List.foldl_cons, ih, mergeNextId]
      split_ifs <;> rfl

/-- `merge` composes the relationships of every object. -/
lemma relationship_combine (a b : UndoState V) (id : ObjectId) :
    (combine a b).relationship id = (a.relationship id).compose (b.relationship id) := by
  have hupd := fun st => foldl_pointwise relationship (fun _ v r => r.addUpd v) mergeUpd
    relationship_mergeUpd b.oldValues.entries st id b.oldValues.nodupKeys
  have hdel := fun st => foldl_pointwise relationship (fun _ v r => r.addDel v) mergeDel
    relationship_mergeDel b.removed.entries st id b.removed.nodupKeys
  rw [combine]
  rw [hdel, relationship_mergeNextId, relationship_mergeNew, hupd]
  simp only [Relationship.compose, relationship, decide_eq_true_eq]
  rfl

/-- An object that is new after the merge was new in one of the two states. -/
lemma mem_newIds_combine {a b : UndoState V} {id : ObjectId} (h : id ∈ (combine a b).newIds) :
    id ∈ a.newIds ∨ id ∈ b.newIds := by
  have hrel : ((combine a b).relationship id).new = true := by simpa [relationship] using h
  by_contra hcon
  obtain ⟨ha, hb⟩ := not_or.mp hcon
  rw [relationship_combine] at hrel
  cases hu : b.oldValues.lookup id <;> cases hd : b.removed.lookup id <;>
    cases hau : a.oldValues.lookup id <;>
      simp [Relationship.compose, Relationship.addUpd, Relationship.addDel, relationship, ha, hb,
        hu, hd, hau] at hrel

/-- `merge` keeps the ids of the new objects distinct. -/
lemma nodup_combine {a : UndoState V} (h : a.newIds.Nodup) (b : UndoState V) :
    (combine a b).newIds.Nodup := by
  have hupd := List.foldlRecOn (motive := fun st : UndoState V => st.newIds.Nodup)
    b.oldValues.entries mergeUpd h fun st hst e _ => by
      rw [mergeUpd]
      split_ifs <;> exact hst
  have hnew := List.foldlRecOn (motive := fun st : UndoState V => st.newIds.Nodup)
    b.newIds mergeNew hupd fun st hst id _ => hst.insert
  have hnext := List.foldlRecOn (motive := fun st : UndoState V => st.newIds.Nodup)
    b.oldIndexNextIds.entries mergeNextId hnew fun st hst e _ => by
      rw [mergeNextId]
      split_ifs <;> exact hst
  exact List.foldlRecOn (motive := fun st : UndoState V => st.newIds.Nodup)
    b.removed.entries mergeDel hnext fun st hst e _ => by
      rw [mergeDel]
      split_ifs
      · exact hst.filter _
      · cases st.oldValues.lookup e.1 <;> exact hst

lemma lookup_mergeNextId (st : UndoState V) (e : Σ _ : IndexId, ℕ) (i : IndexId) :
    (mergeNextId st e).oldIndexNextIds.lookup i =
      if i = e.1 then (st.oldIndexNextIds.lookup i).or (some e.2)
      else st.oldIndexNextIds.lookup i := by
  rw [mergeNextId]
  by_cases hi : i = e.1
  · subst hi
    rw [if_pos rfl]
    by_cases hmem : e.1 ∈ st.oldIndexNextIds
    · obtain ⟨m, hm⟩ := Option.isSome_iff_exists.mp (AList.lookup_isSome.mpr hmem)
      rw [if_pos hmem, hm]; rfl
    · rw [if_neg hmem, AList.lookup_insert, AList.lookup_eq_none.mpr hmem]; rfl
  · rw [if_neg hi]
    split_ifs
    · rfl
    · exact AList.lookup_insert_ne hi

/-- `merge` keeps the older of two next ids. -/
lemma lookup_oldIndexNextIds_combine (a b : UndoState V) (i : IndexId) :
    (combine a b).oldIndexNextIds.lookup i =
      (a.oldIndexNextIds.lookup i).or (b.oldIndexNextIds.lookup i) := by
  have hdel : ∀ (l : List (Σ _ : ObjectId, V)) (st : UndoState V),
      (l.foldl mergeDel st).oldIndexNextIds = st.oldIndexNextIds := by
    intro l st
    refine List.foldlRecOn (motive := fun s : UndoState V =>
      s.oldIndexNextIds = st.oldIndexNextIds) l mergeDel rfl fun s hs e _ => ?_
    rw [mergeDel]
    split_ifs
    · exact hs
    · cases s.oldValues.lookup e.1 <;> exact hs
  have hnew : ∀ (l : List ObjectId) (st : UndoState V),
      (l.foldl mergeNew st).oldIndexNextIds = st.oldIndexNextIds := fun l st =>
    List.foldlRecOn (motive := fun s : UndoState V =>
      s.oldIndexNextIds = st.oldIndexNextIds) l mergeNew rfl fun s hs id _ => hs
  have hupd : ∀ (l : List (Σ _ : ObjectId, V)) (st : UndoState V),
      (l.foldl mergeUpd st).oldIndexNextIds = st.oldIndexNextIds := by
    intro l st
    refine List.foldlRecOn (motive := fun s : UndoState V =>
      s.oldIndexNextIds = st.oldIndexNextIds) l mergeUpd rfl fun s hs e _ => ?_
    rw [mergeUpd]
    split_ifs <;> exact hs
  have hnext := fun st : UndoState V =>
    foldl_pointwise (fun st : UndoState V => st.oldIndexNextIds.lookup)
      (fun _ n (o : Option ℕ) => o.or (some n)) mergeNextId lookup_mergeNextId
      b.oldIndexNextIds.entries st i b.oldIndexNextIds.nodupKeys
  rw [combine]
  rw [hdel]
  refine (hnext _).trans ?_
  rw [hnew, hupd]
  change Option.elim (b.oldIndexNextIds.lookup i) _ _ = _
  cases b.oldIndexNextIds.lookup i <;> simp

namespace Tracks

variable {a b : UndoState V} {cur mid old : ObjectDatabase V}

/-- What a state tracks of one object. -/
lemma holds (h : Tracks a cur old) (id : ObjectId) :
    (a.relationship id).Holds (cur.find id) (old.find id) where
  new hn := by
    have hn : id ∈ a.newIds := by simpa [relationship] using hn
    exact ⟨h.find_new hn, h.present id (.inl hn)⟩
  upd v hv := by
    have hv : a.oldValues.lookup id = some v := hv
    exact ⟨h.upd id v hv, h.present id (.inr (AList.lookup_isSome.mp (by rw [hv]; rfl)))⟩
  del v hv := h.del id v hv
  nop hn hu hd := h.nop id (by simpa [relationship] using hn) hu hd

/-- **`merge` composes.** A state recorded from `old` to `mid` and one recorded
from `mid` to `cur` merge into one recorded from `old` to `cur`. -/
lemma combine (ha : Tracks a mid old) (hb : Tracks b cur mid) :
    Tracks (combine a b) cur old := by
  -- del+new: the id of an object that was there for `old` is not given out again
  have hdelnew : ∀ id, (b.relationship id).new = true → (a.relationship id).del = none := by
    intro id hn
    have hn : id ∈ b.newIds := by simpa [relationship] using hn
    cases hd : a.removed.lookup id with
    | none => exact hd
    | some v =>
        have h1 := ha.fresh id v (ha.del id v hd).1
        have h2 := ha.next_mono id.index
        have h3 := hb.new id hn
        omega
  have hrel : ∀ id,
      ((UndoState.combine a b).relationship id).Holds (cur.find id) (old.find id) := by
    intro id
    rw [relationship_combine]
    exact (ha.holds id).compose (hb.holds id) (hdelnew id)
  refine ⟨⟨fun id hid => ?_, fun id v hv => ((hrel id).upd v hv).1,
    fun id v hv => (hrel id).del v hv,
    fun id hn hu hd => (hrel id).nop (by simpa [relationship] using hn) hu hd, ?_, ?_,
    fun i => (ha.next_mono i).trans (hb.next_mono i), ha.fresh, nodup_combine ha.nodup b⟩, ?_⟩
  · rcases mem_newIds_combine hid with hm | hm
    · exact ha.new id hm
    · exact (ha.next_mono _).trans (hb.new id hm)
  · intro i n hl
    rw [lookup_oldIndexNextIds_combine] at hl
    cases hai : a.oldIndexNextIds.lookup i with
    | some m =>
        rw [hai] at hl
        cases hl
        exact ha.next_upd i _ hai
    | none =>
        rw [hai] at hl
        rw [← ha.next_nop i hai]
        exact hb.next_upd i n hl
  · intro i hl
    rw [lookup_oldIndexNextIds_combine, Option.or_eq_none_iff] at hl
    rw [hb.next_nop i hl.2, ha.next_nop i hl.1]
  · rintro id (hn | hu)
    · exact ((hrel id).new (by simpa [relationship] using hn)).2
    · obtain ⟨v, hv⟩ := Option.isSome_iff_exists.mp (AList.lookup_isSome.mpr hu)
      exact ((hrel id).upd v hv).2

end Tracks

end UndoState

end ZosCore
