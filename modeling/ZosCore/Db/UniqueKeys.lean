import ZosCore.Db.Sessions

/-!
One undo session over indexes with a unique secondary key, such as the accounts
`by_name`, the transactions `by_trx_id` or the balances `by_account_asset`.

The operations of a session are applied one after the other, whatever they return:
an operation that throws without effect changes nothing, and a `modify` that is
rejected for its key loses the object. `Store.InSession` says what the undo
database holds meanwhile.

* `undo_eq_ok_iff_restorable`: undoing the session, or committing it and popping
  the commit, returns to the starting objects exactly if the newest undo state is
  restorable when the call is made.
* `not_undo_swap`: the condition is needed; two objects may exchange their keys.
-/

namespace ZosCore

namespace ObjectDatabase

variable {V κ : Type} [DecidableEq κ]

instance (key : V → Option κ) (db : ObjectDatabase V) : Decidable (db.UniqueKeys key) :=
  @decidable_of_iff _ (∀ e ∈ db.objects.entries, ¬ db.KeyTaken key e.1 e.2)
    ⟨fun h id v hf => h ⟨id, v⟩ (Finmap.lookup_eq_some_iff.mp hf),
      fun h e he => h e.1 e.2 (Finmap.lookup_eq_some_iff.mpr he)⟩
    Multiset.decidableForallMultiset

instance (db : ObjectDatabase V) : Decidable db.Fresh :=
  @decidable_of_iff _ (∀ e ∈ db.objects.entries, e.1.inst < db.nextId e.1.index)
    ⟨fun h id v hf => h ⟨id, v⟩ (Finmap.lookup_eq_some_iff.mp hf),
      fun h e he => h e.1 e.2 (Finmap.lookup_eq_some_iff.mpr he)⟩
    Multiset.decidableForallMultiset

end ObjectDatabase

namespace Store

variable {V κ : Type} [DecidableEq κ] (key : V → Option κ) (ord : HashOrder V)

/-- A session is started. -/
def startSession (s : Store V) : Store V := ⟨s.objs, s.undo.startUndoSession {} false⟩

/-- Operations one after the other, whatever each of them returns. -/
def applyAll (s : Store V) : List (Op V) → Store V
  | [] => s
  | o :: ops => (s.apply key o).2.applyAll ops

/-- Every one of the operations returns. -/
def Succeed (s : Store V) : List (Op V) → Prop
  | [] => True
  | o :: ops => (s.apply key o).1 = .ok () ∧ (s.apply key o).2.Succeed ops

/-- The undo state of the newest session. -/
def head (s : Store V) : UndoState V := s.undo.stack.headD {}

/-- A database as the containers keep it, with tracking enabled. -/
structure WellFormed (s : Store V) : Prop where
  fresh : s.objs.Fresh
  unique : s.objs.UniqueKeys key
  enabled : s.undo.disabled = false

/-! ### The undo database during a session -/

/-- In a session that was started from `old` over the undo states `rest`, with `n`
sessions active before it. -/
structure InSession (s : Store V) (old : ObjectDatabase V) (rest : List (UndoState V)) (n : ℕ) :
    Prop where
  enabled : s.undo.disabled = false
  stack_eq : s.undo.stack = s.head :: rest
  active_eq : s.undo.activeSessions = n + 1
  records : s.head.Records s.objs old

variable {key} {s : Store V} {old : ObjectDatabase V} {rest : List (UndoState V)} {n : ℕ}

omit [DecidableEq κ] in
/-- A session that has just been started. -/
lemma WellFormed.inSession (h : s.WellFormed key) :
    s.startSession.InSession s.objs (s.undo.stack.take s.undo.maxSize) s.undo.activeSessions := by
  constructor <;>
    simp [startSession, head, UndoDatabase.startUndoSession, UndoDatabase.trim, h.enabled]
  exact .empty h.fresh

namespace InSession

/-- The newest state takes a record. -/
lemma record (h : s.InSession old rest n) {objs : ObjectDatabase V}
    {f : UndoState V → UndoState V} (hf : UndoState.Records (f s.head) objs old) :
    Store.InSession ⟨objs, s.undo.record {} f⟩ old rest n := by
  have hrec : s.undo.record {} f = { s.undo with stack := f s.head :: rest } := by
    simp [UndoDatabase.record, h.enabled, h.stack_eq]
  constructor
  · rw [hrec]; exact h.enabled
  · rw [hrec]; rfl
  · rw [hrec]; exact h.active_eq
  · rw [hrec]; exact hf

/-- An operation of the session is on record, whether it succeeds or not. -/
lemma apply (h : s.InSession old rest n) (o : Op V) : (s.apply key o).2.InSession old rest n := by
  cases o with
  | create i v =>
      cases hc : s.objs.create key i v with
      | error e => simpa only [Store.apply, hc] using h
      | ok objs =>
          obtain ⟨db, hi, hobjs⟩ := except_bind_eq_ok.mp hc
          have hset : s.objs.set ⟨i, s.objs.nextId i⟩ v = db := by
            unfold ObjectDatabase.insert at hi
            split_ifs at hi
            exact Except.ok.inj hi
          have hnew : (s.objs.set ⟨i, s.objs.nextId i⟩ v).setNextId i (s.objs.nextId i + 1) =
              objs := by
            rw [hset]
            exact Except.ok.inj hobjs
          simp only [Store.apply, hc]
          rw [← hnew]
          exact h.record (h.records.onCreate i v)
  | modify id v =>
      cases hf : s.objs.find id with
      | none => simpa only [Store.apply, hf] using h
      | some w =>
          simp only [Store.apply, hf, ObjectDatabase.modifyState]
          split_ifs
          · exact h.record (h.records.onModify_lost hf)
          · exact h.record (h.records.onModify hf v)
  | remove id =>
      cases hf : s.objs.find id with
      | none => simpa only [Store.apply, hf] using h
      | some w =>
          simp only [Store.apply, hf]
          exact h.record (h.records.onRemove hf)

/-- All operations of the session are on record. -/
lemma applyAll (ops : List (Op V)) : ∀ {s : Store V}, s.InSession old rest n →
    (s.applyAll key ops).InSession old rest n := by
  induction ops with
  | nil => intro s h; exact h
  | cons o ops ih => intro s h; exact ih (h.apply o)

/-- `undo` returns to the start of the session exactly if the newest state is
restorable. -/
lemma undo_iff (h : s.InSession old rest n) (hold : old.UniqueKeys key) :
    (∃ u, s.step key ord .undo = .ok ⟨old, u⟩) ↔ s.head.Restorable key ord s.objs := by
  have hact : s.undo.activeSessions ≠ 0 := by rw [h.active_eq]; exact Nat.succ_ne_zero n
  have hundo : s.step key ord .undo = (UndoState.restore key ord s.head s.objs).map fun objs =>
      ⟨objs, { s.undo with stack := rest, activeSessions := s.undo.activeSessions - 1 }⟩ := by
    simp only [Store.step, UndoDatabase.undo, h.enabled, hact, h.stack_eq, Bool.false_eq_true,
      if_false]
    cases UndoState.restore key ord s.head s.objs <;> rfl
  rw [hundo]
  constructor
  · rintro ⟨u, hu⟩
    obtain ⟨db, hdb, heq⟩ := except_map_eq_ok.mp hu
    exact ((h.records.restore_eq_ok_iff hold ord).mp hdb).2
  · intro hr
    rw [(h.records.restore_eq_ok_iff hold ord).mpr ⟨rfl, hr⟩]
    exact ⟨_, rfl⟩

/-- So does `pop_commit` after the session, the only active one, has been
committed. -/
lemma popCommit_iff (h : s.InSession old rest 0) (hold : old.UniqueKeys key) :
    (∃ s' u, s.step key ord .commit = .ok s' ∧ s'.step key ord .popCommit = .ok ⟨old, u⟩) ↔
      s.head.Restorable key ord s.objs := by
  have hcommit : s.step key ord .commit =
      .ok ⟨s.objs, { s.undo with activeSessions := 0 }⟩ := by
    simp [Store.step, UndoDatabase.commit, h.active_eq, Except.map]
  have hpop : Store.step key ord ⟨s.objs, { s.undo with activeSessions := 0 }⟩ .popCommit =
      (UndoState.restore key ord s.head s.objs).map fun objs =>
        ⟨objs, { s.undo with activeSessions := 0, stack := rest, disabled := false }⟩ := by
    simp only [Store.step, UndoDatabase.popCommit, h.stack_eq, ne_eq, not_true_eq_false,
      if_false]
    cases UndoState.restore key ord s.head s.objs <;> rfl
  constructor
  · rintro ⟨s', u, hs', hu⟩
    rw [hcommit] at hs'
    cases hs'
    rw [hpop] at hu
    obtain ⟨db, hdb, heq⟩ := except_map_eq_ok.mp hu
    exact ((h.records.restore_eq_ok_iff hold ord).mp hdb).2
  · intro hr
    rw [(h.records.restore_eq_ok_iff hold ord).mpr ⟨rfl, hr⟩] at hpop
    exact ⟨_, _, hcommit, hpop⟩

end InSession

/-- **Undo over unique keys.** After any operations of a session, successful or not,
`undo` returns to the starting objects exactly if the newest undo state is restorable:
every object it has recorded as changed or new is still there, and none of the old keys
is held by a new object or by one that is given back later. The same holds of `commit`
and `pop_commit`. -/
theorem undo_eq_ok_iff_restorable (h : s.WellFormed key) (ops : List (Op V)) :
    ((∃ u, (s.startSession.applyAll key ops).step key ord .undo = .ok ⟨s.objs, u⟩) ↔
      (s.startSession.applyAll key ops).head.Restorable key ord
        (s.startSession.applyAll key ops).objs) ∧
    (s.undo.activeSessions = 0 →
      ((∃ s' u, (s.startSession.applyAll key ops).step key ord .commit = .ok s' ∧
          s'.step key ord .popCommit = .ok ⟨s.objs, u⟩) ↔
        (s.startSession.applyAll key ops).head.Restorable key ord
          (s.startSession.applyAll key ops).objs)) := by
  have hin : (s.startSession.applyAll key ops).InSession s.objs _ _ := h.inSession.applyAll ops
  refine ⟨hin.undo_iff ord h.unique, fun h0 => ?_⟩
  rw [h0] at hin
  exact hin.popCommit_iff ord h.unique

/-- Two accounts with the names 1 and 2, and no session. -/
def twoAccounts : Store ℕ :=
  ⟨((⟨∅, fun _ => 2⟩ : ObjectDatabase ℕ).set ⟨⟨1, 2⟩, 0⟩ 1).set ⟨⟨1, 2⟩, 1⟩ 2,
    { disabled := false }⟩

lemma twoAccounts_wellFormed : twoAccounts.WellFormed some := ⟨by decide, by decide, rfl⟩

/-- A session that renames an account and creates another under a name that was
free can be undone. -/
theorem undo_rename :
    (∃ u, (twoAccounts.startSession.applyAll some
        [.modify ⟨⟨1, 2⟩, 0⟩ 3, .create ⟨1, 2⟩ 4]).step some default .undo =
          .ok ⟨twoAccounts.objs, u⟩) := by
  refine ((undo_eq_ok_iff_restorable default twoAccounts_wellFormed _).1).mpr ⟨?_, ?_, ?_⟩
  · rintro id (hid | hid)
    · have hid : id ∈ [(⟨⟨1, 2⟩, 2⟩ : ObjectId)] := hid
      rw [List.mem_singleton.mp hid]; rfl
    · have hid : id ∈ [(⟨⟨1, 2⟩, 0⟩ : ObjectId)] := hid
      rw [List.mem_singleton.mp hid]; rfl
  · decide
  · exact List.pairwise_singleton _ _

/-- Two accounts exchange their names by way of a third. Every step succeeds, and
whichever account `undo` gives back first, its old name is held by the other. -/
theorem not_undo_swap :
    ¬ ∀ (s : Store ℕ) (ops : List (Op ℕ)), s.WellFormed some → s.startSession.Succeed some ops →
      ∃ u, (s.startSession.applyAll some ops).step some default .undo = .ok ⟨s.objs, u⟩ := by
  intro hall
  obtain ⟨u, hu⟩ := hall twoAccounts
    [.modify ⟨⟨1, 2⟩, 0⟩ 3, .modify ⟨⟨1, 2⟩, 1⟩ 1, .modify ⟨⟨1, 2⟩, 0⟩ 2]
    twoAccounts_wellFormed ⟨rfl, rfl, rfl, trivial⟩
  have herr : (twoAccounts.startSession.applyAll some
      [.modify ⟨⟨1, 2⟩, 0⟩ 3, .modify ⟨⟨1, 2⟩, 1⟩ 1, .modify ⟨⟨1, 2⟩, 0⟩ 2]).step some default
        .undo = .error .uniqueness := rfl
  rw [herr] at hu
  cases hu

-- A rejected `modify` has erased the object that `undo` looks for.
example : (twoAccounts.startSession.applyAll some [.modify ⟨⟨1, 2⟩, 0⟩ 2]).step some default .undo =
    .error (.objectNotFound ⟨⟨1, 2⟩, 0⟩) := rfl

end Store

end ZosCore
