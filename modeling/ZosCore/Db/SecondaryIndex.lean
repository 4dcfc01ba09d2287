import ZosCore.Lib.Exec
import ZosCore.Db.FixedKeys

/-!
`db/index.hpp`: `primary_index`, which calls the hooks of its secondary indexes around every
operation.

A secondary index keeps what it likes in a state of its own (`S`) and sees every object
that is inserted, changed or removed, also when `undo` and `pop_commit` put the objects
back: these run through `modify`, `remove` and `insert` of the same index.

* `create`, `remove`, `modify`: the operations with the hooks of the undo database and of
  the secondary index. `beginModify` and `finishModify` are what comes before and after the
  call of the modifier, which may run operations of its own.
* `undo`, `popCommit`: the loops of `Db/UndoState.lean` with the hooks. `restore_fst`: on
  the objects they are these loops.
* `SecondaryIndex.Maintains sec P`: every hook keeps the relation `P` between the objects and
  the state of the index. `Sound`: `P` holds, and the objects can be put back.
-/

namespace ZosCore

open ObjectDatabase

/-- `secondary_index`: its hooks, on a state of its own. -/
structure SecondaryIndex (V S : Type) where
  objectInserted : ObjectId → V → S → S
  objectRemoved : ObjectId → V → S → S
  aboutToModify : V → S → S
  objectModified : ObjectId → V → S → S

/-- `primary_index`, with the undo database and the state of the secondary index. -/
structure PrimaryIndex (V S : Type) extends Store V where
  sindex : S

namespace PrimaryIndex

variable {V S κ : Type} [DecidableEq κ] (key : V → Option κ) (sec : SecondaryIndex V S)
  (ord : HashOrder V)

/-! ### Operations -/

/-- `primary_index::create` -/
def create (i : IndexId) (v : V) : Exec (PrimaryIndex V S) DbError Unit := fun s =>
  match s.objs.create key i v with
  | .error e => (.error e, s)
  | .ok objs =>
      let id : ObjectId := ⟨i, s.objs.nextId i⟩
      (.ok (), { objs, undo := s.undo.record {} (UndoState.onCreate id),
                 sindex := sec.objectInserted id v s.sindex })

/-- `primary_index::remove` of an object that is looked up before. -/
def remove (id : ObjectId) : Exec (PrimaryIndex V S) DbError Unit := fun s =>
  match s.objs.find id with
  | none => (.error (.objectNotFound id), s)
  | some v =>
      (.ok (), { objs := s.objs.erase id, undo := s.undo.record {} (UndoState.onRemove id v),
                 sindex := sec.objectRemoved id v s.sindex })

/-- `primary_index::modify` up to the call of the modifier: `save_undo` and
`about_to_modify`. -/
def beginModify (id : ObjectId) : Exec (PrimaryIndex V S) DbError Unit := fun s =>
  match s.objs.find id with
  | none => (.error (.objectNotFound id), s)
  | some v =>
      (.ok (), { objs := s.objs, undo := s.undo.record {} (UndoState.onModify id v),
                 sindex := sec.aboutToModify v s.sindex })

/-- `primary_index::modify` from there: `f` is what the modifier makes of the object, which
it has a reference to. A rejected object is erased, and `object_modified` not called. -/
def finishModify (id : ObjectId) (f : V → V) : Exec (PrimaryIndex V S) DbError Unit := fun s =>
  match s.objs.find id with
  | none => (.error (.objectNotFound id), s)
  | some v =>
      if s.objs.KeyTaken key id (f v) then
        (.error .uniqueness, { s with objs := s.objs.erase id })
      else
        (.ok (), { s with objs := s.objs.set id (f v),
                          sindex := sec.objectModified id (f v) s.sindex })

/-- `primary_index::modify` with a modifier that calls nothing. -/
def modify (id : ObjectId) (f : V → V) : Exec (PrimaryIndex V S) DbError Unit := do
  beginModify sec id
  finishModify key sec id f

/-! ### Putting the objects back

`undo` and `pop_commit` switch the hooks of the undo database off. -/

/-- The loop over `old_values`: `modify( get_object( id ), move_from )`. -/
def restoreOldValues : List (Σ _ : ObjectId, V) → ObjectDatabase V × S →
    Except DbError (ObjectDatabase V × S)
  | [], p => .ok p
  | e :: l, p => do
      let v ← p.1.getObject e.1
      let objs ← p.1.modify key e.1 e.2
      restoreOldValues l (objs, sec.objectModified e.1 e.2 (sec.aboutToModify v p.2))

/-- The loop over `new_ids`: `remove( get_object( id ) )`. -/
def removeNew : List ObjectId → ObjectDatabase V × S → Except DbError (ObjectDatabase V × S)
  | [], p => .ok p
  | id :: l, p => do
      let v ← p.1.getObject id
      removeNew l (p.1.erase id, sec.objectRemoved id v p.2)

/-- The loop over `removed`: `insert( std::move(*item.second) )`. -/
def insertRemoved : List (Σ _ : ObjectId, V) → ObjectDatabase V × S →
    Except DbError (ObjectDatabase V × S)
  | [], p => .ok p
  | e :: l, p => do
      let objs ← p.1.insert key e.1 e.2
      insertRemoved l (objs, sec.objectInserted e.1 e.2 p.2)

/-- The body of `undo_database::undo` and of `pop_commit`. -/
def restore (st : UndoState V) (p : ObjectDatabase V × S) :
    Except DbError (ObjectDatabase V × S) := do
  let st := ord.arrange st
  let p ← restoreOldValues key sec st.oldValues.entries p
  let p ← removeNew sec st.newIds p
  insertRemoved key sec st.removed.entries
    (UndoState.restoreNextIds st.oldIndexNextIds.entries p.1, p.2)

/-- A call on the undo database that puts the objects back. An assertion that fails leaves
everything as it was; `Sound.restore` says that nothing else fails. -/
def putBack (r : Except DbError ((ObjectDatabase V × S) × UndoDatabase (UndoState V))) :
    Exec (PrimaryIndex V S) DbError Unit := fun s =>
  match r with
  | .error e => (.error e, s)
  | .ok (p, undo) => (.ok (), { objs := p.1, undo, sindex := p.2 })

/-- `undo_database::undo` -/
def undoSession : Exec (PrimaryIndex V S) DbError Unit := fun s =>
  putBack (s.undo.undo (restore key sec ord) (s.objs, s.sindex)) s

/-- `undo_database::pop_commit` -/
def popCommit : Exec (PrimaryIndex V S) DbError Unit := fun s =>
  putBack (s.undo.popCommit (restore key sec ord) (s.objs, s.sindex)) s

/-- A call on the undo database that leaves the objects alone. -/
def onUndo (f : UndoDatabase (UndoState V) → Except DbError (UndoDatabase (UndoState V))) :
    Exec (PrimaryIndex V S) DbError Unit := fun s =>
  match f s.undo with
  | .error e => (.error e, s)
  | .ok undo => (.ok (), { s with undo })

variable {key sec ord}

/-! ### The objects, the secondary index apart -/

lemma toStore_create (i : IndexId) (v : V) (s : PrimaryIndex V S) :
    (create key sec i v s).2.toStore = (s.toStore.apply key (.create i v)).2 := by
  simp only [create, Store.apply]
  cases s.objs.create key i v <;> rfl

lemma toStore_remove (id : ObjectId) (s : PrimaryIndex V S) :
    (remove sec id s).2.toStore = (s.toStore.apply key (.remove id)).2 := by
  simp only [remove, Store.apply]
  cases s.objs.find id <;> rfl

lemma restoreOldValues_fst (l : List (Σ _ : ObjectId, V)) : ∀ p : ObjectDatabase V × S,
    (restoreOldValues key sec l p).map Prod.fst = UndoState.restoreOldValues key l p.1 := by
  induction l with
  | nil =>
      intro p
      rfl
  | cons e l ih =>
      intro p
      simp only [restoreOldValues, UndoState.restoreOldValues]
      cases p.1.getObject e.1 with
      | error err => rfl
      | ok v =>
          cases p.1.modify key e.1 e.2 with
          | error err => rfl
          | ok objs => exact ih _

lemma removeNew_fst (l : List ObjectId) : ∀ p : ObjectDatabase V × S,
    (removeNew sec l p).map Prod.fst = UndoState.removeNew l p.1 := by
  induction l with
  | nil =>
      intro p
      rfl
  | cons id l ih =>
      intro p
      simp only [removeNew, UndoState.removeNew]
      cases p.1.getObject id with
      | error err => rfl
      | ok v => exact ih _

lemma insertRemoved_fst (l : List (Σ _ : ObjectId, V)) : ∀ p : ObjectDatabase V × S,
    (insertRemoved key sec l p).map Prod.fst = UndoState.insertRemoved key l p.1 := by
  induction l with
  | nil =>
      intro p
      rfl
  | cons e l ih =>
      intro p
      simp only [insertRemoved, UndoState.insertRemoved]
      cases p.1.insert key e.1 e.2 with
      | error err => rfl
      | ok objs => exact ih _

/-- A loop that follows another one on a part of the state. -/
lemma map_bind_fst {α β : Type} {x : Except DbError (α × S)} {x' : Except DbError α}
    {f : α × S → Except DbError (β × S)} {f' : α → Except DbError β}
    (hx : x.map Prod.fst = x') (hf : ∀ p, (f p).map Prod.fst = f' p.1) :
    (x >>= f).map Prod.fst = x' >>= f' := by
  subst hx
  cases x with
  | error e => rfl
  | ok p => exact hf p

/-- Putting the objects back is not affected by the secondary index. -/
lemma restore_fst (st : UndoState V) (p : ObjectDatabase V × S) :
    (restore key sec ord st p).map Prod.fst = UndoState.restore key ord st p.1 :=
  map_bind_fst (restoreOldValues_fst _ p) fun p' =>
    map_bind_fst (removeNew_fst _ p') fun _ => insertRemoved_fst _ _

end PrimaryIndex

/-! ### What an index maintains -/

/-- Every hook keeps the relation `P` between the objects, as `find` shows them, and the
state of the index. -/
structure SecondaryIndex.Maintains {V S : Type} (sec : SecondaryIndex V S)
    (P : (ObjectId → Option V) → S → Prop) : Prop where
  inserted : ∀ find find' : ObjectId → Option V, ∀ s id v, P find s → find id = none →
    find' id = some v → (∀ id', id' ≠ id → find' id' = find id') →
    P find' (sec.objectInserted id v s)
  removed : ∀ find find' : ObjectId → Option V, ∀ s id v, P find s → find id = some v →
    find' id = none → (∀ id', id' ≠ id → find' id' = find id') →
    P find' (sec.objectRemoved id v s)
  modified : ∀ find find' : ObjectId → Option V, ∀ s id v w, P find s → find id = some v →
    find' id = some w → (∀ id', id' ≠ id → find' id' = find id') →
    P find' (sec.objectModified id w (sec.aboutToModify v s))
  about : ∀ find s v, P find s → P find (sec.aboutToModify v s)

namespace PrimaryIndex

variable {V S κ : Type} [DecidableEq κ] {key : V → Option κ} {sec : SecondaryIndex V S}
  {ord : HashOrder V} {P : (ObjectId → Option V) → S → Prop}

section Restore

variable (hsec : sec.Maintains P)
include hsec

lemma restoreOldValues_maintains (l : List (Σ _ : ObjectId, V)) :
    ∀ {p p' : ObjectDatabase V × S}, restoreOldValues key sec l p = .ok p' →
      P p.1.find p.2 → P p'.1.find p'.2 := by
  induction l with
  | nil =>
      intro p p' h hP
      cases h
      exact hP
  | cons e l ih =>
      intro p p' h hP
      obtain ⟨v, hv, h⟩ := except_bind_eq_ok.mp h
      obtain ⟨objs, hobjs, h⟩ := except_bind_eq_ok.mp h
      rw [getObject_eq_ok] at hv
      unfold ObjectDatabase.modify at hobjs
      split_ifs at hobjs
      cases hobjs
      refine ih h (hsec.modified _ _ _ _ _ _ hP hv (find_set_self _ _) fun id' hne => ?_)
      rw [find_set, if_neg hne]

lemma removeNew_maintains (l : List ObjectId) :
    ∀ {p p' : ObjectDatabase V × S}, removeNew sec l p = .ok p' →
      P p.1.find p.2 → P p'.1.find p'.2 := by
  induction l with
  | nil =>
      intro p p' h hP
      cases h
      exact hP
  | cons id l ih =>
      intro p p' h hP
      obtain ⟨v, hv, h⟩ := except_bind_eq_ok.mp h
      rw [getObject_eq_ok] at hv
      refine ih h (hsec.removed _ _ _ _ _ hP hv ?_ fun id' hne => ?_)
      · rw [find_erase, if_pos rfl]
      · rw [find_erase, if_neg hne]

lemma insertRemoved_maintains (l : List (Σ _ : ObjectId, V)) :
    ∀ {p p' : ObjectDatabase V × S}, insertRemoved key sec l p = .ok p' →
      P p.1.find p.2 → P p'.1.find p'.2 := by
  induction l with
  | nil =>
      intro p p' h hP
      cases h
      exact hP
  | cons e l ih =>
      intro p p' h hP
      obtain ⟨objs, hobjs, h⟩ := except_bind_eq_ok.mp h
      unfold ObjectDatabase.insert at hobjs
      split_ifs at hobjs with htaken
      cases hobjs
      rw [not_or, Option.not_isSome_iff_eq_none] at htaken
      refine ih h (hsec.inserted _ _ _ _ _ hP htaken.1 (find_set_self _ _) fun id' hne => ?_)
      rw [find_set, if_neg hne]

/-- Putting the objects back runs through the hooks. -/
lemma restore_maintains {st : UndoState V} {p p' : ObjectDatabase V × S}
    (h : restore key sec ord st p = .ok p') (hP : P p.1.find p.2) : P p'.1.find p'.2 := by
  obtain ⟨p₁, h₁, h⟩ := except_bind_eq_ok.mp h
  obtain ⟨p₂, h₂, h⟩ := except_bind_eq_ok.mp h
  have hP₂ := removeNew_maintains hsec _ h₂ (restoreOldValues_maintains hsec _ h₁ hP)
  refine insertRemoved_maintains hsec _ h ?_
  have hfind : (UndoState.restoreNextIds (ord.arrange st).oldIndexNextIds.entries p₂.1).find =
      p₂.1.find := UndoState.find_restoreNextIds _ _
  rw [hfind]
  exact hP₂

end Restore

/-! ### The invariant -/

/-- The index has the relation `P` to the objects, and the objects can be put back. -/
structure Sound (key : V → Option κ) (P : (ObjectId → Option V) → S → Prop)
    (s : PrimaryIndex V S) : Prop where
  tracked : s.toStore.Tracked key
  maintained : P s.objs.find s.sindex

/-- The newest undo state has the old value of the object, if anything is tracked. -/
def Recorded (id : ObjectId) (u : UndoDatabase (UndoState V)) : Prop :=
  u.disabled = false → ∃ d ds, u.stack = d :: ds ∧ (id ∈ d.newIds ∨ id ∈ d.oldValues)

namespace Recorded

variable {id id' : ObjectId} {v : V} {u : UndoDatabase (UndoState V)}

/-- Recording the old value again changes nothing. -/
lemma record_eq (h : Recorded id u) : u.record {} (UndoState.onModify id v) = u := by
  cases hdis : u.disabled with
  | true => simp [UndoDatabase.record, hdis]
  | false =>
      obtain ⟨d, ds, hstack, hmem⟩ := h hdis
      have hsame : UndoState.onModify id v d = d := by
        rw [UndoState.onModify]
        rcases hmem with hnew | hold
        · rw [if_pos hnew]
        · rw [if_pos hold, ite_self]
      obtain ⟨active, disabled, stack, maxSize⟩ := u
      simp only at hdis hstack
      subst hdis hstack
      simp [UndoDatabase.record, hsame]

/-- The hook records it. -/
lemma of_record (id : ObjectId) (v : V) (u : UndoDatabase (UndoState V)) :
    Recorded id (u.record {} (UndoState.onModify id v)) := by
  intro hdis
  rw [UndoDatabase.record_disabled] at hdis
  simp only [UndoDatabase.record, hdis, Bool.false_eq_true, if_false]
  cases u.stack with
  | nil => exact ⟨_, _, rfl, UndoState.Records.mem_onModify {} id v⟩
  | cons d ds => exact ⟨_, _, rfl, UndoState.Records.mem_onModify d id v⟩

/-- What has been recorded stays so while objects are modified. -/
lemma record (h : Recorded id u) (id' : ObjectId) (v : V) :
    Recorded id (u.record {} (UndoState.onModify id' v)) := by
  intro hdis
  rw [UndoDatabase.record_disabled] at hdis
  obtain ⟨d, ds, hstack, hmem⟩ := h hdis
  simp only [UndoDatabase.record, hdis, Bool.false_eq_true, if_false, hstack]
  refine ⟨_, _, rfl, ?_⟩
  rw [UndoState.onModify]
  split_ifs
  · exact hmem
  · exact hmem
  · exact hmem.imp_right fun hold => (AList.mem_insert _).mpr (.inr hold)

end Recorded

section Keeps

open Exec

variable (hsec : sec.Maintains P)
include hsec

/-- An object is created. -/
lemma create_keeps (i : IndexId) (v : V) :
    Keeps (Sound key P) (fun _ => Sound key P) (create key sec i v) := by
  refine keeps_of_snd fun s hs => ⟨?_, ?_⟩
  · rw [toStore_create]
    exact hs.tracked.apply _ trivial
  · simp only [create]
    cases hcreate : s.objs.create key i v with
    | error e => exact hs.maintained
    | ok objs =>
        obtain ⟨hnone, -, rfl⟩ := create_eq_ok.mp hcreate
        refine hsec.inserted _ _ _ _ _ hs.maintained hnone ?_ fun id' hne => ?_
        · rw [find_setNextId, find_set_self]
        · rw [find_setNextId, find_set, if_neg hne]

/-- An object is removed. -/
lemma remove_keeps (id : ObjectId) :
    Keeps (Sound key P) (fun _ => Sound key P) (remove sec id) := by
  refine keeps_of_snd fun s hs => ⟨?_, ?_⟩
  · have happly : (remove sec id s).2.toStore = (s.toStore.apply key (.remove id)).2 :=
      toStore_remove id s
    rw [happly]
    exact hs.tracked.apply _ trivial
  · simp only [remove]
    cases hv : s.objs.find id with
    | none => exact hs.maintained
    | some v =>
        refine hsec.removed _ _ _ _ _ hs.maintained hv ?_ fun id' hne => ?_
        · rw [find_erase, if_pos rfl]
        · rw [find_erase, if_neg hne]

omit [DecidableEq κ] hsec in
lemma beginModify_none {s : PrimaryIndex V S} {id : ObjectId} (h : s.objs.find id = none) :
    beginModify sec id s = (.error (.objectNotFound id), s) := by simp [beginModify, h]

omit [DecidableEq κ] hsec in
lemma beginModify_some {s : PrimaryIndex V S} {id : ObjectId} {v : V}
    (h : s.objs.find id = some v) :
    beginModify sec id s =
      (.ok (), { objs := s.objs, undo := s.undo.record {} (UndoState.onModify id v),
                 sindex := sec.aboutToModify v s.sindex }) := by
  simp [beginModify, h]

omit hsec in
lemma finishModify_none {s : PrimaryIndex V S} {id : ObjectId} {f : V → V}
    (h : s.objs.find id = none) :
    finishModify key sec id f s = (.error (.objectNotFound id), s) := by simp [finishModify, h]

omit hsec in
lemma finishModify_some {s : PrimaryIndex V S} {id : ObjectId} {f : V → V} {v : V}
    (h : s.objs.find id = some v) (hfree : ¬ s.objs.KeyTaken key id (f v)) :
    finishModify key sec id f s =
      (.ok (), { s with objs := s.objs.set id (f v),
                        sindex := sec.objectModified id (f v) s.sindex }) := by
  simp [finishModify, h, hfree]

/-- The object is about to change. -/
lemma beginModify_sound {s : PrimaryIndex V S} (hs : Sound key P s) {id : ObjectId} {v : V}
    (hv : s.objs.find id = some v) :
    Sound key P { objs := s.objs, undo := s.undo.record {} (UndoState.onModify id v),
                  sindex := sec.aboutToModify v s.sindex } := by
  refine ⟨?_, hsec.about _ _ _ hs.maintained⟩
  have hset : s.objs.set id v = s.objs := by
    refine ObjectDatabase.ext (fun id' => ?_) fun i => rfl
    rw [find_set]
    split_ifs with heq
    · rw [heq, hv]
    · rfl
  have htracked := hs.tracked.apply (.modify id v) fun w hw => by rw [hv] at hw; cases hw; rfl
  rw [hs.tracked.apply_modify hv rfl, hset] at htracked
  exact htracked

omit hsec in
/-- The object has changed, and its old value is on record. -/
lemma finishModify_tracked {s : PrimaryIndex V S} (hs : Sound key P s) {id : ObjectId} {v w : V}
    (hv : s.objs.find id = some v) (hkey : key w = key v) (hrec : Recorded id s.undo) :
    Store.Tracked key ⟨s.objs.set id w, s.undo⟩ := by
  have htracked := hs.tracked.apply (.modify id w) fun v' hv' => by
    rw [hv] at hv'
    cases hv'
    exact hkey
  rw [hs.tracked.apply_modify hv hkey, hrec.record_eq] at htracked
  exact htracked

/-- An object is modified, and nothing that was on record is lost. -/
lemma modify_sound {s : PrimaryIndex V S} (hs : Sound key P s) (id : ObjectId) {f : V → V}
    (hf : ∀ v, key (f v) = key v) :
    Sound key P (modify key sec id f s).2 ∧
      ∀ id', Recorded id' s.undo → Recorded id' (modify key sec id f s).2.undo := by
  cases hv : s.objs.find id with
  | none =>
      have hthrows : modify key sec id f s = (.error (.objectNotFound id), s) :=
        bind_error (beginModify_none hv)
      rw [hthrows]
      exact ⟨hs, fun _ h => h⟩
  | some v =>
      have hfree := hs.tracked.unique.not_keyTaken hv (hf v)
      have hreturns : modify key sec id f s =
          (.ok (), { objs := s.objs.set id (f v),
                     undo := s.undo.record {} (UndoState.onModify id v),
                     sindex := sec.objectModified id (f v) (sec.aboutToModify v s.sindex) }) := by
        rw [modify]
        rw [bind_ok (beginModify_some hv)]
        exact finishModify_some hv hfree
      rw [hreturns]
      refine ⟨⟨?_, ?_⟩, fun id' hrec => hrec.record id v⟩
      · have hbegin := beginModify_sound hsec hs hv
        exact finishModify_tracked hbegin hv (hf v) (.of_record id v s.undo)
      · refine hsec.modified _ _ _ _ _ _ hs.maintained hv (find_set_self _ _) fun id' hne => ?_
        rw [find_set, if_neg hne]

/-- The object is about to change: its old value is on record. -/
lemma beginModify_triple (id : ObjectId) :
    Triple (Sound key P) (beginModify sec id)
      (fun _ s => Sound key P s ∧ Recorded id s.undo) fun _ => Sound key P := by
  intro s hs
  cases hv : s.objs.find id with
  | none =>
      rw [beginModify_none hv]
      refine ⟨fun a s' h => (by cases h), fun e s' h => ?_⟩
      cases h
      exact hs
  | some v =>
      rw [beginModify_some hv]
      refine ⟨fun a s' h => ?_, fun e s' h => (by cases h)⟩
      cases h
      exact ⟨beginModify_sound hsec hs hv, .of_record id v s.undo⟩

omit hsec in
/-- The object has changed in a way that the index does not care about, whatever has been
done since its old value went on record. -/
lemma finishModify_triple (id : ObjectId) {f : V → V} (hf : ∀ v, key (f v) = key v)
    (hsame : ∀ find find' : ObjectId → Option V, ∀ s v, P find s → find id = some v →
      find' id = some (f v) → (∀ id', id' ≠ id → find' id' = find id') →
      P find' (sec.objectModified id (f v) s)) :
    Triple (fun s => Sound key P s ∧ Recorded id s.undo) (finishModify key sec id f)
      (fun _ => Sound key P) fun _ => Sound key P := by
  rintro s ⟨hs, hrec⟩
  cases hv : s.objs.find id with
  | none =>
      rw [finishModify_none hv]
      refine ⟨fun a s' h => (by cases h), fun e s' h => ?_⟩
      cases h
      exact hs
  | some v =>
      rw [finishModify_some hv (hs.tracked.unique.not_keyTaken hv (hf v))]
      refine ⟨fun a s' h => ?_, fun e s' h => (by cases h)⟩
      cases h
      refine ⟨finishModify_tracked hs hv (hf v) hrec, ?_⟩
      refine hsame _ _ _ _ hs.maintained hv (find_set_self _ _) fun id' hne => ?_
      rw [find_set, if_neg hne]

/-- Putting the objects back does not throw, and is followed by the index. -/
lemma Sound.restore {s : PrimaryIndex V S} (hs : Sound key P s) (ord : HashOrder V)
    {st : UndoState V} {sts : List (UndoState V)} (hstack : s.undo.stack = st :: sts) :
    ∃ p, PrimaryIndex.restore key sec ord st (s.objs, s.sindex) = .ok p ∧
      ∀ u : UndoDatabase (UndoState V), u.stack = sts → u.disabled = false →
        Sound key P { objs := p.1, undo := u, sindex := p.2 } := by
  obtain ⟨old, hold, htracked⟩ := hs.tracked.restore ord hstack
  have hmap : (PrimaryIndex.restore key sec ord st (s.objs, s.sindex)).map Prod.fst =
      UndoState.restore key ord st s.objs := restore_fst st (s.objs, s.sindex)
  rw [hold] at hmap
  obtain ⟨p, hp, rfl⟩ := except_map_eq_ok.mp hmap
  exact ⟨p, hp, fun u hu hdis => ⟨htracked u hu hdis, restore_maintains hsec hp hs.maintained⟩⟩

/-- A session is undone. -/
lemma undoSession_keeps (ord : HashOrder V) :
    Keeps (Sound key P) (fun _ => Sound key P) (undoSession key sec ord) := by
  refine keeps_of_snd fun s hs => ?_
  rw [undoSession]
  cases hundo : s.undo.undo (PrimaryIndex.restore key sec ord) (s.objs, s.sindex) with
  | error e => exact hs
  | ok r =>
      obtain ⟨p, u⟩ := r
      obtain ⟨st, sts, hdis, hstack, hp, rfl⟩ := UndoDatabase.undo_eq_ok hundo
      obtain ⟨p', hp', hsound⟩ := hs.restore hsec ord hstack
      rw [hp] at hp'
      cases hp'
      exact hsound _ rfl hdis

/-- A committed session is taken back. -/
lemma popCommit_keeps (ord : HashOrder V) :
    Keeps (Sound key P) (fun _ => Sound key P) (popCommit key sec ord) := by
  refine keeps_of_snd fun s hs => ?_
  rw [popCommit]
  cases hpop : s.undo.popCommit (PrimaryIndex.restore key sec ord) (s.objs, s.sindex) with
  | error e => exact hs
  | ok r =>
      obtain ⟨p, u⟩ := r
      obtain ⟨st, sts, -, hstack, hp, rfl⟩ := UndoDatabase.popCommit_eq_ok hpop
      obtain ⟨p', hp', hsound⟩ := hs.restore hsec ord hstack
      rw [hp] at hp'
      cases hp'
      exact hsound _ rfl rfl

omit [DecidableEq κ] hsec in
/-- A call that leaves the objects alone. -/
lemma onUndo_keeps
    {f : UndoDatabase (UndoState V) → Except DbError (UndoDatabase (UndoState V))}
    (hf : ∀ (s : Store V) u, s.Tracked key → f s.undo = .ok u → Store.Tracked key ⟨s.objs, u⟩) :
    Keeps (Sound key P) (fun _ => Sound key P) (onUndo (S := S) f) := by
  refine keeps_of_snd fun s hs => ?_
  rw [onUndo]
  cases hu : f s.undo with
  | error e => exact hs
  | ok u => exact ⟨hf s.toStore u hs.tracked hu, hs.maintained⟩

end Keeps

end PrimaryIndex

end ZosCore
