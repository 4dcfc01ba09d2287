import ZosCore.Db.Sessions

/-!
Indexes whose secondary key no modification changes.

A modification that gives an object a key another object holds is rejected, and undoing
runs through the same modifications. Where every modification leaves the key alone
(`Op.KeepsKey`), as those of the accounts leave `name`, nothing is ever rejected, and
undoing never throws once its assertions are past.

* `KeepsKeys key cur old`: an object of both databases has the same key in both.
* `UndoState.Restores`: a state that tracks the objects between two such databases.
  `Restores.restore`: it can be undone.
* `Store.Tracked`: the undo states lead back through such databases. Every operation and
  every call on the undo database keeps it (`Tracked.apply`, `Tracked.start`,
  `Tracked.merge`, `Tracked.commit`, `Tracked.undo`, `Tracked.popCommit`).
-/

namespace ZosCore

variable {V κ : Type} {key : V → Option κ}

/-! ### Keys that stay -/

namespace ObjectDatabase

variable {db : ObjectDatabase V} {id : ObjectId} {v w : V}

/-- An object that is in both databases has the same secondary key in both. -/
def KeepsKeys (key : V → Option κ) (cur old : ObjectDatabase V) : Prop :=
  ∀ id v w, old.find id = some v → cur.find id = some w → key w = key v

lemma KeepsKeys.refl (db : ObjectDatabase V) : KeepsKeys key db db := by
  intro id v w hv hw
  rw [hv] at hw
  cases hw
  rfl

/-- Whether a key is taken depends on the key only. -/
lemma keyTaken_congr (h : key v = key w) : db.KeyTaken key id v ↔ db.KeyTaken key id w := by
  simp only [KeyTaken, h]

/-- An object whose key is free enters. -/
lemma UniqueKeys.set (h : db.UniqueKeys key) (hfree : ¬ db.KeyTaken key id v) :
    (db.set id v).UniqueKeys key := by
  intro id' w hw htaken
  obtain ⟨id'', u, hu, hne, hindex, hsome, hkey⟩ := keyTaken_iff.mp htaken
  rw [find_set] at hw hu
  by_cases hid' : id' = id
  · subst hid'
    rw [if_pos rfl] at hw
    rw [if_neg hne] at hu
    cases hw
    exact hfree (keyTaken_iff.mpr ⟨id'', u, hu, hne, hindex, hsome, hkey⟩)
  · rw [if_neg hid'] at hw
    by_cases hid'' : id'' = id
    · subst hid''
      rw [if_pos rfl] at hu
      cases hu
      exact hfree (keyTaken_iff.mpr ⟨id', w, hw, hne.symm, hindex.symm, hkey ▸ hsome, hkey.symm⟩)
    · rw [if_neg hid''] at hu
      exact h id' w hw (keyTaken_iff.mpr ⟨id'', u, hu, hne, hindex, hsome, hkey⟩)

lemma UniqueKeys.erase (h : db.UniqueKeys key) (id : ObjectId) :
    (db.erase id).UniqueKeys key := by
  intro id' w hw htaken
  obtain ⟨id'', u, hu, hrest⟩ := keyTaken_iff.mp htaken
  rw [find_erase] at hw hu
  split_ifs at hw hu
  exact h id' w hw (keyTaken_iff.mpr ⟨id'', u, hu, hrest⟩)

/-- An object holds its own key, so that no other does. -/
lemma UniqueKeys.not_keyTaken (h : db.UniqueKeys key) (hv : db.find id = some v)
    (hkey : key w = key v) : ¬ db.KeyTaken key id w :=
  fun htaken => h id v hv ((keyTaken_congr hkey).mp htaken)

/-- What `create` does when it returns. -/
lemma create_eq_ok [DecidableEq κ] {i : IndexId} {db' : ObjectDatabase V} :
    db.create key i v = .ok db' ↔
      db.find ⟨i, db.nextId i⟩ = none ∧ ¬ db.KeyTaken key ⟨i, db.nextId i⟩ v ∧
        (db.set ⟨i, db.nextId i⟩ v).setNextId i (db.nextId i + 1) = db' := by
  rw [create, ObjectDatabase.insert]
  by_cases h : (db.find ⟨i, db.nextId i⟩).isSome ∨ db.KeyTaken key ⟨i, db.nextId i⟩ v
  · rw [if_pos h]
    refine ⟨fun hok => (by cases hok), ?_⟩
    rintro ⟨hnone, hfree, -⟩
    rw [hnone] at h
    exact absurd (h.resolve_left (by simp)) hfree
  · rw [if_neg h]
    rw [not_or, Option.not_isSome_iff_eq_none] at h
    simp [h, bind, Except.bind, pure, Except.pure]

end ObjectDatabase

open ObjectDatabase

/-! ### States that can be undone -/

namespace UndoState

/-- The state tracks the objects from `old` to `cur`, and no key has changed on the way. -/
structure Restores (key : V → Option κ) (st : UndoState V) (cur old : ObjectDatabase V) : Prop
    extends Tracks st cur old where
  keys : KeepsKeys key cur old
  unique : old.UniqueKeys key

namespace Restores

variable {st : UndoState V} {cur old : ObjectDatabase V} {id : ObjectId} {v w : V}

lemma empty (hfresh : cur.Fresh) (hunique : cur.UniqueKeys key) : Restores key {} cur cur :=
  ⟨.empty hfresh, .refl cur, hunique⟩

/-- A created object is not in the old database. -/
lemma onCreate (h : Restores key st cur old) (i : IndexId) (v : V) :
    Restores key (onCreate ⟨i, cur.nextId i⟩ st)
      ((cur.set ⟨i, cur.nextId i⟩ v).setNextId i (cur.nextId i + 1)) old := by
  refine ⟨h.toTracks.onCreate i v, fun id v' w hv' hw => ?_, h.unique⟩
  rw [find_setNextId, find_set] at hw
  split_ifs at hw with hid
  · have hlt := h.fresh id v' hv'
    have hle := h.next_mono i
    rw [hid] at hlt
    have hlt : cur.nextId i < old.nextId i := hlt
    omega
  · exact h.keys id v' w hv' hw

/-- A modification that keeps the key. -/
lemma onModify (h : Restores key st cur old) (hv : cur.find id = some v) (hkey : key w = key v) :
    Restores key (onModify id v st) (cur.set id w) old := by
  refine ⟨h.toTracks.onModify hv w, fun id' v' w' hv' hw' => ?_, h.unique⟩
  rw [find_set] at hw'
  split_ifs at hw' with hid
  · subst hid
    cases hw'
    rw [hkey]
    exact h.keys _ _ _ hv' hv
  · exact h.keys id' v' w' hv' hw'

lemma onRemove (h : Restores key st cur old) (hv : cur.find id = some v) :
    Restores key (onRemove id v st) (cur.erase id) old := by
  refine ⟨h.toTracks.onRemove hv, fun id' v' w' hv' hw' => ?_, h.unique⟩
  rw [find_erase] at hw'
  split_ifs at hw'
  exact h.keys id' v' w' hv' hw'

/-- An object that was there at first and is there in the end was there in between, since no
id is given out twice. -/
lemma find_mid {a b : UndoState V} {mid : ObjectDatabase V} (ha : Restores key a mid old)
    (hb : Restores key b cur mid) (hv : old.find id = some v) (hw : cur.find id = some w) :
    ∃ u, mid.find id = some u := by
  have hnew : id ∉ b.newIds := fun hid => by
    have hlt := ha.fresh id v hv
    have hmono := ha.next_mono id.index
    have hle := hb.new id hid
    omega
  cases hupd : b.oldValues.lookup id with
  | some u => exact ⟨u, hb.upd id u hupd⟩
  | none =>
      cases hdel : b.removed.lookup id with
      | some u => exact ⟨u, (hb.del id u hdel).1⟩
      | none => exact ⟨w, by rw [← hb.nop id hnew hupd hdel, hw]⟩

/-- **`merge` composes**, keys included. -/
lemma combine {a b : UndoState V} {mid : ObjectDatabase V} (ha : Restores key a mid old)
    (hb : Restores key b cur mid) : Restores key (UndoState.combine a b) cur old := by
  refine ⟨ha.toTracks.combine hb.toTracks, fun id v w hv hw => ?_, ha.unique⟩
  obtain ⟨u, hu⟩ := ha.find_mid hb hv hw
  calc key w = key u := hb.keys id u w hu hw
    _ = key v := ha.keys id v u hv hu

/-- An object that is given back has the key that it has now, which no other object holds. -/
lemma not_holdsKey (h : Restores key st cur old) (hcur : cur.UniqueKeys key)
    {e : Σ _ : ObjectId, V} (he : e ∈ st.oldValues.entries) {id : ObjectId} (hne : id ≠ e.1) :
    ¬ cur.HoldsKey key id e.1 e.2 := by
  have hmem : e.1 ∈ st.oldValues := List.mem_keys_of_mem he
  obtain ⟨w, hw⟩ := Option.isSome_iff_exists.mp (h.present e.1 (.inr hmem))
  have hold : old.find e.1 = some e.2 :=
    h.upd e.1 e.2 (List.mem_dlookup st.oldValues.nodupKeys he)
  have hkey : key w = key e.2 := h.keys e.1 e.2 w hold hw
  rintro ⟨hindex, hsome, hholds⟩
  exact hcur.not_holdsKey hw hne ⟨hindex, by rw [hkey]; exact hsome, by rw [hkey]; exact hholds⟩

/-- **Undoing does not throw.** -/
lemma restore [DecidableEq κ] (h : Restores key st cur old) (hcur : cur.UniqueKeys key) (ord : HashOrder V) :
    UndoState.restore key ord st cur = .ok old := by
  rw [h.toRecords.restore_eq_ok_iff h.unique ord]
  refine ⟨rfl, h.present, fun e he id hid => ?_, ?_⟩
  · refine h.not_holdsKey hcur he fun heq => ?_
    have hnone := h.lookup_oldValues_of_mem_newIds (heq ▸ hid)
    have hsome : st.oldValues.lookup e.1 = some e.2 := List.mem_dlookup st.oldValues.nodupKeys he
    rw [hsome] at hnone
    cases hnone
  · have hperm := ord.oldValues_perm st
    have hnodup : (ord.arrange st).oldValues.entries.Pairwise fun e e' => e.1 ≠ e'.1 :=
      List.nodupKeys_iff_pairwise.mp (ord.arrange st).oldValues.nodupKeys
    refine hnodup.imp_of_mem fun he _ hne => ?_
    exact h.not_holdsKey hcur (hperm.mem_iff.mp he) hne.symm

end Restores

end UndoState

/-! ### Stores -/

/-- The operation leaves the key of its object alone. -/
def Op.KeepsKey (key : V → Option κ) (db : ObjectDatabase V) : Op V → Prop
  | .modify id v => ∀ w, db.find id = some w → key v = key w
  | .create .. | .remove _ => True

namespace Store

/-- No two objects of an index have the same key, and the undo states lead back through
databases in which the objects had the keys they have now. Nothing is tracked before
tracking is switched on. -/
structure Tracked (key : V → Option κ) (s : Store V) : Prop where
  fresh : s.objs.Fresh
  unique : s.objs.UniqueKeys key
  linked : ∃ olds, Linked (UndoState.Restores key) s.objs s.undo.stack olds
  idle : s.undo.disabled = true → s.undo.stack = []

namespace Tracked

variable {s : Store V} {objs : ObjectDatabase V}

/-- A change that the newest state takes. -/
lemma record (h : s.Tracked key) {f : UndoState V → UndoState V}
    (hf : ∀ st old, UndoState.Restores key st s.objs old → UndoState.Restores key (f st) objs old)
    (hfresh : objs.Fresh) (hunique : objs.UniqueKeys key) :
    Tracked key ⟨objs, s.undo.record {} f⟩ := by
  obtain ⟨olds, hlinked⟩ := h.linked
  rw [UndoDatabase.record]
  by_cases hdis : s.undo.disabled = true
  · rw [if_pos hdis]
    have hnil := h.idle hdis
    exact ⟨hfresh, hunique, ⟨[], by simp [hnil]⟩, h.idle⟩
  · rw [if_neg hdis]
    cases hstack : s.undo.stack with
    | nil =>
        have hempty := hf {} s.objs (.empty h.fresh h.unique)
        exact ⟨hfresh, hunique, ⟨[s.objs], hempty, trivial⟩, fun h' => absurd h' hdis⟩
    | cons d ds =>
        rw [hstack] at hlinked
        obtain ⟨old, olds', rfl, hd, hrest⟩ := hlinked.exists_cons
        exact ⟨hfresh, hunique, ⟨old :: olds', hf d old hd, hrest⟩, fun h' => absurd h' hdis⟩

/-- A modification that keeps the key is not rejected. -/
lemma apply_modify [DecidableEq κ] (h : s.Tracked key) {id : ObjectId} {v w : V}
    (hw : s.objs.find id = some w) (hkey : key v = key w) :
    s.apply key (.modify id v) =
      (.ok (), ⟨s.objs.set id v, s.undo.record {} (UndoState.onModify id w)⟩) := by
  have hfree := h.unique.not_keyTaken hw hkey
  simp [Store.apply, ObjectDatabase.modifyState, hw, hfree]

/-- Every operation is tracked, whether it returns or throws. -/
lemma apply [DecidableEq κ] (h : s.Tracked key) (o : Op V) (hkeep : o.KeepsKey key s.objs) :
    Tracked key (s.apply key o).2 := by
  cases o with
  | create i v =>
      simp only [Store.apply]
      cases hcreate : s.objs.create key i v with
      | error e => exact h
      | ok objs =>
          obtain ⟨-, hfree, rfl⟩ := create_eq_ok.mp hcreate
          exact h.record (fun st old ht => ht.onCreate i v) (h.fresh.create i v)
            (h.unique.set hfree)
  | modify id v =>
      cases hw : s.objs.find id with
      | none =>
          simp only [Store.apply, hw]
          exact h
      | some w =>
          have hkey : key v = key w := hkeep w hw
          rw [h.apply_modify hw hkey]
          exact h.record (fun st old ht => ht.onModify hw hkey) (h.fresh.set (h.fresh id w hw) v)
            (h.unique.set (h.unique.not_keyTaken hw hkey))
  | remove id =>
      simp only [Store.apply]
      cases hw : s.objs.find id with
      | none => exact h
      | some w =>
          exact h.record (fun st old ht => ht.onRemove hw) (h.fresh.erase id) (h.unique.erase id)

/-- Tracking is switched on. -/
lemma enable (h : s.Tracked key) : Tracked key ⟨s.objs, s.undo.enable⟩ :=
  ⟨h.fresh, h.unique, h.linked, fun hdis => by cases hdis⟩

/-- A session starts, or does not while nothing is tracked. -/
lemma start (h : s.Tracked key) : Tracked key ⟨s.objs, s.undo.startUndoSession {} false⟩ := by
  cases hdis : s.undo.disabled with
  | true =>
      have hsame : s.undo.startUndoSession {} false = s.undo := by
        simp [UndoDatabase.startUndoSession, hdis]
      rw [hsame]
      exact h
  | false =>
      rw [UndoDatabase.startUndoSession_eq_opened (by simp [hdis])]
      obtain ⟨olds, hlinked⟩ := h.linked
      refine ⟨h.fresh, h.unique, ?_, fun h' => by cases h'⟩
      exact ⟨s.objs :: olds.take s.undo.maxSize, .empty h.fresh h.unique, hlinked.take _⟩

/-- Two states become one. -/
lemma merge (h : s.Tracked key) {u : UndoDatabase (UndoState V)}
    (hmerge : s.undo.merge UndoState.combine = .ok u) : Tracked key ⟨s.objs, u⟩ := by
  obtain ⟨olds, hlinked⟩ := h.linked
  have hdis : s.undo.stack ≠ [] → s.undo.disabled = false := fun hne => by
    by_contra hdis
    exact hne (h.idle (by simpa using hdis))
  unfold UndoDatabase.merge at hmerge
  have hactive : s.undo.activeSessions ≠ 0 := fun h0 => by simp [h0] at hmerge
  rw [if_neg hactive] at hmerge
  match hstack : s.undo.stack with
  | [] => rw [hstack] at hmerge; cases hmerge
  | [_] =>
      simp only [hstack] at hmerge
      split_ifs at hmerge
      cases hmerge
      exact ⟨h.fresh, h.unique, ⟨[], trivial⟩, fun _ => rfl⟩
  | d :: e :: ds =>
      rw [hstack] at hlinked
      simp only [hstack] at hmerge
      cases hmerge
      obtain ⟨mid, olds', rfl, hd, hrest⟩ := hlinked.exists_cons
      obtain ⟨old, olds'', rfl, he, hrest'⟩ := hrest.exists_cons
      refine ⟨h.fresh, h.unique, ⟨old :: olds'', he.combine hd, hrest'⟩, fun h' => ?_⟩
      have hfalse := hdis (by simp [hstack])
      exact absurd h' (by simp [hfalse])

/-- A commit leaves the states as they are. -/
lemma commit (h : s.Tracked key) {u : UndoDatabase (UndoState V)}
    (hcommit : s.undo.commit = .ok u) : Tracked key ⟨s.objs, u⟩ := by
  unfold UndoDatabase.commit at hcommit
  split_ifs at hcommit
  cases hcommit
  exact ⟨h.fresh, h.unique, h.linked, h.idle⟩

/-- **Undoing does not throw**: the newest state can be undone, and the rest leads back from
there. -/
lemma restore [DecidableEq κ] (h : s.Tracked key) (ord : HashOrder V) {st : UndoState V}
    {sts : List (UndoState V)} (hstack : s.undo.stack = st :: sts) :
    ∃ old, UndoState.restore key ord st s.objs = .ok old ∧
      ∀ u : UndoDatabase (UndoState V), u.stack = sts → u.disabled = false →
        Tracked key ⟨old, u⟩ := by
  obtain ⟨olds, hlinked⟩ := h.linked
  rw [hstack] at hlinked
  obtain ⟨old, olds', rfl, hd, hrest⟩ := hlinked.exists_cons
  refine ⟨old, hd.restore h.unique ord, fun u hu hdis => ?_⟩
  exact ⟨hd.fresh, hd.unique, ⟨olds', by rw [hu]; exact hrest⟩, fun h' => by simp [hdis] at h'⟩

end Tracked

end Store

end ZosCore
