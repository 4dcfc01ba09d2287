import ZosCore.Lib.Exec
import ZosCore.Db.UndoState

/-!
`undo_database::undo` and `pop_commit` on the objects: when the four loops
complete, and what they give back.

The loop over `old_values` comes first and gives back one object after the
other. It passes through databases that no operation ever made, and in an index
with a unique secondary key one of these may be refused: the old key of an object
may at that moment be held by an object that is yet to be given back, or by a new
object that is yet to be removed. And `get_object` throws for an object that a
refused `modify` has erased.

* `Restorable`: neither happens. It is a condition on the state and the database
  before the call.
* `Records.restore_eq_ok_iff`: the loops complete, with the database the state
  was started from, exactly if the state is restorable.
* `Tracks.restore`: over indexes ordered by id alone they always do.
-/

namespace ZosCore

namespace ObjectDatabase

variable {V κ : Type} [DecidableEq κ] (key : V → Option κ)

/-- The object `id'` is of the index of `id` and holds the secondary key of
`v`. -/
def HoldsKey (db : ObjectDatabase V) (id' id : ObjectId) (v : V) : Prop :=
  id'.index = id.index ∧ (key v).isSome ∧ (db.find id').bind key = key v

instance (db : ObjectDatabase V) (id' id : ObjectId) (v : V) :
    Decidable (db.HoldsKey key id' id v) := inferInstanceAs (Decidable (_ ∧ _ ∧ _))

/-- No two objects of an index have the same secondary key, as the containers
ensure. -/
def UniqueKeys (db : ObjectDatabase V) : Prop :=
  ∀ id v, db.find id = some v → ¬ db.KeyTaken key id v

variable {key} {db : ObjectDatabase V} {id : ObjectId} {v : V}

omit [DecidableEq κ] in
/-- The key is taken when another object holds it. -/
lemma keyTaken_iff_holdsKey :
    db.KeyTaken key id v ↔ ∃ id', id' ≠ id ∧ db.HoldsKey key id' id v := by
  rw [keyTaken_iff]
  constructor
  · rintro ⟨id', w, hf, hne, hi, hk, hw⟩
    exact ⟨id', hne, hi, hk, by rw [hf]; exact hw⟩
  · rintro ⟨id', hne, hi, hk, hb⟩
    cases hf : db.find id' with
    | none =>
        rw [hf] at hb
        rw [← hb] at hk
        cases hk
    | some w =>
        rw [hf] at hb
        exact ⟨id', w, hf, hne, hi, hk, hb⟩

omit [DecidableEq κ] in
/-- Whether an object holds a key depends on that object only. -/
lemma holdsKey_congr {db' : ObjectDatabase V} {id' : ObjectId} (h : db'.find id' = db.find id') :
    db'.HoldsKey key id' id v ↔ db.HoldsKey key id' id v := by
  unfold HoldsKey
  rw [h]

omit [DecidableEq κ] in
/-- In a database with unique keys the key of an object is held by no other. -/
lemma UniqueKeys.not_holdsKey (h : db.UniqueKeys key) (hv : db.find id = some v) {id' : ObjectId}
    (hne : id' ≠ id) : ¬ db.HoldsKey key id' id v :=
  fun hk => h id v hv (keyTaken_iff_holdsKey.mpr ⟨id', hne, hk⟩)

lemma uniqueKeys_noKey : db.UniqueKeys noKey := fun id v _ => not_keyTaken_noKey id v

end ObjectDatabase

namespace UndoState

open ObjectDatabase

variable {V κ : Type} [DecidableEq κ] (key : V → Option κ)

/-- The state can be undone from `cur`: the objects it says are new or changed are
still there, and no object that is yet to be given back or removed holds the old
key of one that is given back before it. -/
structure Restorable (ord : HashOrder V) (st : UndoState V) (cur : ObjectDatabase V) :
    Prop where
  present : Present st cur
  of_new : ∀ e ∈ st.oldValues.entries, ∀ id ∈ st.newIds, ¬ cur.HoldsKey key id e.1 e.2
  of_later : (ord.arrange st).oldValues.entries.Pairwise
    fun e e' => ¬ cur.HoldsKey key e'.1 e.1 e.2

variable {key}

/-! ### The loop over `old_values` -/

section OldValues

variable {old db : ObjectDatabase V} {new : List ObjectId} {e : Σ _ : ObjectId, V}
  {l : List (Σ _ : ObjectId, V)}

/-- The loop over `old_values` has the entries `l` left: an object that is there
is yet to be given back, is new, or is as it was in `old`. -/
structure GivesBack (old : ObjectDatabase V) (new : List ObjectId)
    (l : List (Σ _ : ObjectId, V)) (db : ObjectDatabase V) : Prop where
  nodup : l.NodupKeys
  find_old : ∀ e ∈ l, old.find e.1 = some e.2
  notMem_new : ∀ e ∈ l, e.1 ∉ new
  rest : ∀ id w, db.find id = some w → id ∈ l.keys ∨ id ∈ new ∨ old.find id = some w

/-- Every object of `l` is found, and its old key is held neither by a new object
nor by one that comes later. -/
structure Free (key : V → Option κ) (new : List ObjectId) (l : List (Σ _ : ObjectId, V))
    (db : ObjectDatabase V) : Prop where
  present : ∀ e ∈ l, (db.find e.1).isSome
  of_new : ∀ e ∈ l, ∀ id ∈ new, ¬ db.HoldsKey key id e.1 e.2
  of_later : l.Pairwise fun e e' => ¬ db.HoldsKey key e'.1 e.1 e.2

namespace GivesBack

lemma ne_of_mem_tail (h : GivesBack old new (e :: l) db) : ∀ e' ∈ l, e'.1 ≠ e.1 :=
  fun _ he' heq =>
    List.notMem_keys_of_nodupKeys_cons h.nodup (heq ▸ List.mem_keys_of_mem he')

lemma ne_of_mem_new (h : GivesBack old new (e :: l) db) : ∀ id ∈ new, id ≠ e.1 := by
  rintro id hid rfl
  exact h.notMem_new e List.mem_cons_self hid

/-- One round of the loop. -/
lemma tail (h : GivesBack old new (e :: l) db) : GivesBack old new l (db.set e.1 e.2) := by
  refine ⟨List.nodupKeys_of_nodupKeys_cons h.nodup,
    fun e' he' => h.find_old e' (List.mem_cons_of_mem _ he'),
    fun e' he' => h.notMem_new e' (List.mem_cons_of_mem _ he'), fun id w hf => ?_⟩
  rw [find_set] at hf
  split_ifs at hf with hid
  · cases hf
    exact .inr (.inr (hid ▸ h.find_old e List.mem_cons_self))
  · rcases h.rest id w hf with hk | hk
    · rw [List.keys_cons, List.mem_cons] at hk
      exact .inl (hk.resolve_left hid)
    · exact .inr hk

omit [DecidableEq κ] in
/-- Who may hold the old key of the next object: one that comes later, or a new
one. -/
lemma keyTaken_iff (h : GivesBack old new (e :: l) db) (hold : old.UniqueKeys key) :
    db.KeyTaken key e.1 e.2 ↔
      (∃ e' ∈ l, db.HoldsKey key e'.1 e.1 e.2) ∨ ∃ id ∈ new, db.HoldsKey key id e.1 e.2 := by
  constructor
  · intro htaken
    obtain ⟨id, w, hf, hid, hi, hs, hw⟩ := ObjectDatabase.keyTaken_iff.mp htaken
    have hk : db.HoldsKey key id e.1 e.2 := ⟨hi, hs, by rw [hf]; exact hw⟩
    rcases h.rest id w hf with hmem | hmem | hmem
    · rw [List.keys_cons, List.mem_cons] at hmem
      obtain ⟨e', he', rfl⟩ := List.mem_map.mp (hmem.resolve_left hid)
      exact .inl ⟨e', he', hk⟩
    · exact .inr ⟨id, hmem, hk⟩
    · refine absurd ?_ (hold.not_holdsKey (h.find_old e List.mem_cons_self) hid)
      exact (holdsKey_congr (hf.trans hmem.symm)).mp hk
  · rw [keyTaken_iff_holdsKey]
    rintro (⟨e', he', hk⟩ | ⟨id, hid, hk⟩)
    · exact ⟨e'.1, h.ne_of_mem_tail e' he', hk⟩
    · exact ⟨id, h.ne_of_mem_new id hid, hk⟩

omit [DecidableEq κ] in
/-- The condition on the whole loop is the condition on its first round and on
the rest of the loop from there. -/
lemma free_cons (h : GivesBack old new (e :: l) db) (hold : old.UniqueKeys key) :
    Free key new (e :: l) db ↔ (db.find e.1).isSome ∧ ¬ db.KeyTaken key e.1 e.2 ∧
      Free key new l (db.set e.1 e.2) := by
  have hfind : ∀ id, id ≠ e.1 → (db.set e.1 e.2).find id = db.find id := fun id hid => by
    rw [find_set, if_neg hid]
  have hlater : ∀ e' ∈ l, ∀ e'' : Σ _ : ObjectId, V,
      (db.set e.1 e.2).HoldsKey key e'.1 e''.1 e''.2 ↔ db.HoldsKey key e'.1 e''.1 e''.2 :=
    fun e' he' e'' => holdsKey_congr (hfind _ (h.ne_of_mem_tail e' he'))
  have hnew : ∀ id ∈ new, ∀ e'' : Σ _ : ObjectId, V,
      (db.set e.1 e.2).HoldsKey key id e''.1 e''.2 ↔ db.HoldsKey key id e''.1 e''.2 :=
    fun id hid e'' => holdsKey_congr (hfind _ (h.ne_of_mem_new id hid))
  constructor
  · rintro ⟨hp, hn, hu⟩
    rw [List.pairwise_cons] at hu
    refine ⟨hp e List.mem_cons_self, ?_, fun e' he' => ?_, fun e' he' id hid => ?_, ?_⟩
    · rw [h.keyTaken_iff hold]
      rintro (⟨e', he', hk⟩ | ⟨id, hid, hk⟩)
      · exact hu.1 e' he' hk
      · exact hn e List.mem_cons_self id hid hk
    · rw [hfind _ (h.ne_of_mem_tail e' he')]
      exact hp e' (List.mem_cons_of_mem _ he')
    · rw [hnew id hid]
      exact hn e' (List.mem_cons_of_mem _ he') id hid
    · exact hu.2.imp_of_mem fun _ hb hnot => by rwa [hlater _ hb]
  · rintro ⟨hp, ht, hfree⟩
    rw [h.keyTaken_iff hold, not_or] at ht
    push Not at ht
    refine ⟨fun e' he' => ?_, fun e' he' id hid => ?_, List.pairwise_cons.mpr ⟨ht.1, ?_⟩⟩
    · rcases List.mem_cons.mp he' with rfl | he'
      · exact hp
      · rw [← hfind _ (h.ne_of_mem_tail e' he')]
        exact hfree.present e' he'
    · rcases List.mem_cons.mp he' with rfl | he'
      · exact ht.2 id hid
      · rw [← hnew id hid]
        exact hfree.of_new e' he' id hid
    · exact hfree.of_later.imp_of_mem fun _ hb hnot => by rwa [hlater _ hb] at hnot

end GivesBack

/-- The loop over `old_values` completes exactly if every object is found and
finds its old key free; it then has set every object to its old value. -/
lemma restoreOldValues_eq_ok_iff (hold : old.UniqueKeys key) {db' : ObjectDatabase V} :
    ∀ {db : ObjectDatabase V}, GivesBack old new l db →
      (restoreOldValues key l db = .ok db' ↔
        l.foldl (fun db e => db.set e.1 e.2) db = db' ∧ Free key new l db) := by
  induction l with
  | nil =>
      intro db _
      have hfree : Free key new [] db := ⟨by simp, by simp, List.Pairwise.nil⟩
      simp [restoreOldValues, hfree]
  | cons e l ih =>
      intro db h
      rw [h.free_cons hold, List.foldl_cons, restoreOldValues]
      by_cases hp : (db.find e.1).isSome
      · obtain ⟨v, hv⟩ := Option.isSome_iff_exists.mp hp
        rw [getObject_eq_ok.mpr hv]
        by_cases ht : db.KeyTaken key e.1 e.2
        · simp [ObjectDatabase.modify, ht, bind, Except.bind]
        · simp only [ObjectDatabase.modify, ht, if_false, bind, Except.bind, ih h.tail, hp,
            not_false_eq_true, true_and]
      · have hn : db.find e.1 = none := by simpa using hp
        simp [getObject, hn, bind, Except.bind]

end OldValues

/-! ### The other loops -/

/-- Giving back every entry of a list. -/
lemma find_foldl_set {l : List (Σ _ : ObjectId, V)} (hl : l.NodupKeys) (db : ObjectDatabase V)
    (id : ObjectId) : (l.foldl (fun db e => db.set e.1 e.2) db).find id =
      (l.dlookup id).or (db.find id) := by
  rw [foldl_pointwise find (fun _ v _ => some v) _
    (fun s e k => by rw [find_set]) l db id hl]
  cases l.dlookup id <;> rfl

lemma nextId_foldl_set (l : List (Σ _ : ObjectId, V)) (db : ObjectDatabase V) :
    (l.foldl (fun db e => db.set e.1 e.2) db).nextId = db.nextId :=
  List.foldlRecOn (motive := fun s : ObjectDatabase V => s.nextId = db.nextId) l _ rfl
    fun _ h _ _ => h

lemma find_foldl_erase (l : List ObjectId) (id : ObjectId) : ∀ db : ObjectDatabase V,
    (l.foldl erase db).find id = if id ∈ l then none else db.find id := by
  induction l with
  | nil => intro db; simp
  | cons a l ih =>
      intro db
      rw [List.foldl_cons, ih, find_erase]
      by_cases ha : id = a <;> by_cases hl : id ∈ l <;> simp [ha, hl]

lemma nextId_foldl_erase (l : List ObjectId) (db : ObjectDatabase V) :
    (l.foldl erase db).nextId = db.nextId :=
  List.foldlRecOn (motive := fun s : ObjectDatabase V => s.nextId = db.nextId) l _ rfl
    fun _ h _ _ => h

/-- The loop over `new_ids` completes exactly if every object is found. -/
lemma removeNew_eq_ok_iff {l : List ObjectId} {db' : ObjectDatabase V} (hl : l.Nodup) :
    ∀ {db : ObjectDatabase V}, removeNew l db = .ok db' ↔
      l.foldl erase db = db' ∧ ∀ id ∈ l, (db.find id).isSome := by
  induction l with
  | nil => intro db; simp [removeNew]
  | cons a l ih =>
      intro db
      obtain ⟨ha, hl⟩ := List.nodup_cons.mp hl
      have hrest : (∀ id ∈ l, ((db.erase a).find id).isSome) ↔ ∀ id ∈ l, (db.find id).isSome := by
        refine forall₂_congr fun id hid => ?_
        rw [find_erase, if_neg (by rintro rfl; exact ha hid)]
      cases hf : db.find a with
      | none => simp [removeNew, getObject, hf, bind, Except.bind]
      | some v =>
          simp only [removeNew, getObject, hf, bind, Except.bind, ih hl, hrest, List.foldl_cons,
            List.forall_mem_cons, Option.isSome_some, true_and]

lemma find_restoreNextIds (l : List (Σ _ : IndexId, ℕ)) (db : ObjectDatabase V) :
    (restoreNextIds l db).find = db.find :=
  List.foldlRecOn (motive := fun s : ObjectDatabase V => s.find = db.find) l _ rfl
    fun _ h _ _ => h

lemma nextId_restoreNextIds {l : List (Σ _ : IndexId, ℕ)} (hl : l.NodupKeys)
    (db : ObjectDatabase V) (i : IndexId) :
    (restoreNextIds l db).nextId i = (l.dlookup i).getD (db.nextId i) := by
  rw [restoreNextIds]
  rw [foldl_pointwise ObjectDatabase.nextId (fun _ n _ => n) _
    (fun s e j => by rw [nextId_setNextId]) l db i hl]
  cases l.dlookup i <;> rfl

/-- The loop over `removed` completes if what it makes has unique keys and none of
its objects is there. -/
lemma insertRemoved_eq_ok {l : List (Σ _ : ObjectId, V)} (hl : l.NodupKeys) :
    ∀ {db : ObjectDatabase V}, (∀ e ∈ l, db.find e.1 = none) →
      (l.foldl (fun db e => db.set e.1 e.2) db).UniqueKeys key →
        insertRemoved key l db = .ok (l.foldl (fun db e => db.set e.1 e.2) db) := by
  induction l with
  | nil => intro db _ _; rfl
  | cons e l ih =>
      intro db hnone huniq
      have hkeys := List.notMem_keys_of_nodupKeys_cons hl
      have hl' := List.nodupKeys_of_nodupKeys_cons hl
      have hne : ∀ e' ∈ l, e'.1 ≠ e.1 := fun e' he' heq =>
        hkeys (heq ▸ List.mem_keys_of_mem he')
      have hne' : l.dlookup e.1 = none := List.dlookup_eq_none.mpr hkeys
      -- an object that holds the key now holds it in the end
      have hfree : ¬ db.KeyTaken key e.1 e.2 := by
        rw [ObjectDatabase.keyTaken_iff]
        rintro ⟨id, w, hf, hid, hi, hs, hw⟩
        have hlook : l.dlookup id = none := by
          refine List.dlookup_eq_none.mpr fun hmem => ?_
          obtain ⟨e', he', rfl⟩ := List.mem_map.mp hmem
          rw [hnone e' (List.mem_cons_of_mem _ he')] at hf
          cases hf
        refine huniq e.1 e.2 ?_ (ObjectDatabase.keyTaken_iff.mpr ⟨id, w, ?_, hid, hi, hs, hw⟩)
        · rw [List.foldl_cons, find_foldl_set hl', hne', find_set_self]; rfl
        · rw [List.foldl_cons, find_foldl_set hl', hlook, find_set, if_neg hid, hf]; rfl
      have hhead : db.insert key e.1 e.2 = .ok (db.set e.1 e.2) := by
        rw [ObjectDatabase.insert, if_neg]
        rintro (hs | ht)
        · rw [hnone e List.mem_cons_self] at hs; cases hs
        · exact hfree ht
      rw [insertRemoved, hhead, List.foldl_cons]
      refine ih hl' (fun e' he' => ?_) huniq
      rw [find_set, if_neg (hne e' he')]
      exact hnone e' (List.mem_cons_of_mem _ he')

/-! ### The four loops together -/

/-- What the four loops make when all of them complete. -/
def givenBack (st : UndoState V) (cur : ObjectDatabase V) : ObjectDatabase V :=
  let db := st.oldValues.entries.foldl (fun db e => db.set e.1 e.2) cur
  let db := restoreNextIds st.oldIndexNextIds.entries (st.newIds.foldl erase db)
  st.removed.entries.foldl (fun db e => db.set e.1 e.2) db

namespace Records

variable {st : UndoState V} {cur old : ObjectDatabase V}

/-- The order of a loop over a container does not matter to what a state has on
record. -/
lemma arrange (h : Records st cur old) (ord : HashOrder V) :
    Records (ord.arrange st) cur old := by
  have hnew : ∀ id, id ∈ (ord.arrange st).newIds ↔ id ∈ st.newIds :=
    fun id => (ord.newIds_perm st).mem_iff
  have hupd : ∀ id, (ord.arrange st).oldValues.lookup id = st.oldValues.lookup id :=
    fun id => AList.perm_lookup (ord.oldValues_perm st)
  have hdel : ∀ id, (ord.arrange st).removed.lookup id = st.removed.lookup id :=
    fun id => AList.perm_lookup (ord.removed_perm st)
  have hnext : ∀ i, (ord.arrange st).oldIndexNextIds.lookup i = st.oldIndexNextIds.lookup i :=
    fun i => AList.perm_lookup (ord.oldIndexNextIds_perm st)
  constructor
  · exact fun id hid => h.new id ((hnew id).mp hid)
  · exact fun id v hv => h.upd id v ((hupd id).symm.trans hv)
  · exact fun id v hv => h.del id v ((hdel id).symm.trans hv)
  · intro id hn hu hd
    rw [hnew] at hn
    rw [hupd] at hu
    rw [hdel] at hd
    exact h.nop id hn hu hd
  · exact fun i n hl => h.next_upd i n ((hnext i).symm.trans hl)
  · exact fun i hl => h.next_nop i ((hnext i).symm.trans hl)
  · exact h.next_mono
  · exact h.fresh
  · exact (ord.newIds_perm st).nodup_iff.mpr h.nodup

/-- The loop over `old_values` gives back the database the state was started
from, as far as new and removed objects are left aside. -/
lemma givesBack (h : Records st cur old) : GivesBack old st.newIds st.oldValues.entries cur := by
  have hlook : ∀ e ∈ st.oldValues.entries, old.find e.1 = some e.2 := fun e he =>
    h.upd e.1 e.2 (List.mem_dlookup st.oldValues.nodupKeys he)
  refine ⟨st.oldValues.nodupKeys, hlook, fun e he hn => ?_, fun id w hf => ?_⟩
  · have := hlook e he
    rw [h.find_new hn] at this
    cases this
  · by_cases hn : id ∈ st.newIds
    · exact .inr (.inl hn)
    · by_cases hu : id ∈ st.oldValues
      · exact .inl hu
      · rw [h.nop id hn (AList.lookup_eq_none.mpr hu) (h.removed_eq_none hf)] at hf
        exact .inr (.inr hf)

/-- An object that is new is not one that is given back. -/
lemma lookup_oldValues_of_mem_newIds (h : Records st cur old) {id : ObjectId}
    (hid : id ∈ st.newIds) : st.oldValues.lookup id = none := by
  cases hl : st.oldValues.lookup id with
  | none => rfl
  | some v =>
      have := h.upd id v hl
      rw [h.find_new hid] at this
      cases this

/-- The loops give back what the state was started from. -/
lemma givenBack_eq (h : Records st cur old) : givenBack st cur = old := by
  refine ObjectDatabase.ext (fun id => ?_) (fun i => ?_)
  · rw [givenBack]
    rw [find_foldl_set st.removed.nodupKeys, find_restoreNextIds, find_foldl_erase,
      find_foldl_set st.oldValues.nodupKeys]
    change (st.removed.lookup id).or
      (if id ∈ st.newIds then none else (st.oldValues.lookup id).or (cur.find id)) = _
    cases hd : st.removed.lookup id with
    | some v => exact (h.del id v hd).1.symm
    | none =>
        by_cases hn : id ∈ st.newIds
        · rw [if_pos hn, h.find_new hn]; rfl
        · rw [if_neg hn]
          cases hu : st.oldValues.lookup id with
          | some v => exact (h.upd id v hu).symm
          | none => exact h.nop id hn hu hd
  · rw [givenBack]
    rw [nextId_foldl_set, nextId_restoreNextIds st.oldIndexNextIds.nodupKeys,
      nextId_foldl_erase, nextId_foldl_set]
    change (st.oldIndexNextIds.lookup i).getD (cur.nextId i) = _
    cases hl : st.oldIndexNextIds.lookup i with
    | some n => exact (h.next_upd i n hl).symm
    | none => exact h.next_nop i hl

/-- The loop over `removed` completes once the other loops have. -/
lemma insertRemoved_eq (h : Records st cur old) (hold : old.UniqueKeys key)
    (hp : Present st cur) :
    insertRemoved key st.removed.entries (restoreNextIds st.oldIndexNextIds.entries
      (st.newIds.foldl erase (st.oldValues.entries.foldl (fun db e => db.set e.1 e.2) cur))) =
        .ok old := by
  have hback : givenBack st cur = old := h.givenBack_eq
  rw [insertRemoved_eq_ok st.removed.nodupKeys]
  · exact congrArg Except.ok hback
  · intro e he
    have hdel := (h.del e.1 e.2 (List.mem_dlookup st.removed.nodupKeys he)).2
    have hlook : st.oldValues.lookup e.1 = none := by
      rw [AList.lookup_eq_none]
      intro hmem
      have := hp e.1 (.inr hmem)
      rw [hdel] at this
      cases this
    rw [find_restoreNextIds, find_foldl_erase, find_foldl_set st.oldValues.nodupKeys]
    split_ifs
    · rfl
    · change (st.oldValues.lookup e.1).or (cur.find e.1) = none
      rw [hlook, hdel]; rfl
  · change (givenBack st cur).UniqueKeys key
    rw [hback]
    exact hold

/-- The loops on a state as it is listed. -/
lemma loops_eq_ok_iff (h : Records st cur old) (hold : old.UniqueKeys key)
    {db' : ObjectDatabase V} :
    (do
      let db ← restoreOldValues key st.oldValues.entries cur
      let db ← removeNew st.newIds db
      insertRemoved key st.removed.entries (restoreNextIds st.oldIndexNextIds.entries db)) =
        Except.ok db' ↔
      old = db' ∧ Free key st.newIds st.oldValues.entries cur ∧
        ∀ id ∈ st.newIds, (cur.find id).isSome := by
  have hpres : Free key st.newIds st.oldValues.entries cur →
      (∀ id ∈ st.newIds, (cur.find id).isSome) → Present st cur := by
    rintro hfree hnew id (hid | hid)
    · exact hnew id hid
    · obtain ⟨e, he, rfl⟩ := List.mem_map.mp (show id ∈ st.oldValues.entries.keys from hid)
      exact hfree.present e he
  -- a new object is not one that is given back
  have hnewfind : (∀ id ∈ st.newIds, ((st.oldValues.entries.foldl
      (fun db e => db.set e.1 e.2) cur).find id).isSome) ↔
        ∀ id ∈ st.newIds, (cur.find id).isSome := by
    refine forall₂_congr fun id hid => ?_
    rw [find_foldl_set st.oldValues.nodupKeys]
    change ((st.oldValues.lookup id).or (cur.find id)).isSome ↔ _
    rw [h.lookup_oldValues_of_mem_newIds hid]
    rfl
  rw [except_bind_eq_ok]
  constructor
  · rintro ⟨db₁, h₁, hloop⟩
    obtain ⟨rfl, hfree⟩ := (restoreOldValues_eq_ok_iff hold h.givesBack).mp h₁
    obtain ⟨db₂, h₂, hins⟩ := except_bind_eq_ok.mp hloop
    obtain ⟨rfl, hnew⟩ := (removeNew_eq_ok_iff h.nodup).mp h₂
    have hnew := hnewfind.mp hnew
    have hp := hpres hfree hnew
    rw [h.insertRemoved_eq hold hp] at hins
    cases hins
    exact ⟨rfl, hfree, hnew⟩
  · rintro ⟨rfl, hfree, hnew⟩
    refine ⟨_, (restoreOldValues_eq_ok_iff hold h.givesBack).mpr ⟨rfl, hfree⟩, ?_⟩
    rw [except_bind_eq_ok]
    refine ⟨_, (removeNew_eq_ok_iff h.nodup).mpr ⟨rfl, hnewfind.mpr hnew⟩, ?_⟩
    exact h.insertRemoved_eq hold (hpres hfree hnew)

/-- **When undo works.** The loops of `undo` and `pop_commit` complete exactly if
the state is restorable, and then the database is the one the state was started
from. -/
lemma restore_eq_ok_iff (h : Records st cur old) (hold : old.UniqueKeys key) (ord : HashOrder V)
    {db' : ObjectDatabase V} :
    restore key ord st cur = .ok db' ↔ old = db' ∧ Restorable key ord st cur := by
  have hmem : ∀ e, e ∈ (ord.arrange st).oldValues.entries ↔ e ∈ st.oldValues.entries :=
    fun e => (ord.oldValues_perm st).mem_iff
  have hnew : ∀ id, id ∈ (ord.arrange st).newIds ↔ id ∈ st.newIds :=
    fun id => (ord.newIds_perm st).mem_iff
  refine ((h.arrange ord).loops_eq_ok_iff hold).trans (and_congr_right fun _ => ?_)
  constructor
  · rintro ⟨⟨hp, hn, hl⟩, hnp⟩
    refine ⟨?_, fun e he id hid => hn e ((hmem e).mpr he) id ((hnew id).mpr hid), hl⟩
    rintro id (hid | hid)
    · exact hnp id ((hnew id).mpr hid)
    · obtain ⟨e, he, rfl⟩ := List.mem_map.mp (show id ∈ st.oldValues.entries.keys from hid)
      exact hp e ((hmem e).mpr he)
  · rintro ⟨hp, hn, hl⟩
    refine ⟨⟨fun e he => ?_, fun e he id hid => ?_, hl⟩, fun id hid => ?_⟩
    · exact hp e.1 (.inr (List.mem_keys_of_mem ((hmem e).mp he)))
    · exact hn e ((hmem e).mp he) id ((hnew id).mp hid)
    · exact hp id (.inl ((hnew id).mp hid))

end Records

/-- Over indexes ordered by id alone a state that is in order can be undone. -/
lemma Tracks.restore {st : UndoState V} {cur old : ObjectDatabase V} (h : Tracks st cur old)
    (ord : HashOrder V) : UndoState.restore noKey ord st cur = .ok old := by
  have hno : ∀ id' id (v : V), ¬ cur.HoldsKey noKey id' id v := by
    rintro id' id v ⟨-, hs, -⟩
    cases hs
  rw [h.toRecords.restore_eq_ok_iff uniqueKeys_noKey ord]
  exact ⟨rfl, h.present, fun _ _ _ _ => hno _ _ _, List.pairwise_of_forall fun _ _ => hno _ _ _⟩

end UndoState

end ZosCore
