import ZosCore.Plugins.HistoryIds

/-!
What the account history plugin keeps up between its entries, the statistics and the operations.

* `Indexed`: an account has one entry for an operation, the statistics of an account with entries
  name the newest one, and the operations that entries refer to have their objects.
* `Adding`, `addAccountHistory_adding`: one operation that is added to the list of one account.
* **`indexed_run`**: `Indexed` holds after any run of blocks, whether or not the plugin throws in
  them and however long the lists get.
-/

namespace ZosCore.AccountHistory

variable {α ρ : Type}

/-! ### The index, the statistics and the operations -/

/-- The entries of an account belong to operations of their own, the statistics of the account name
the newest of them, and their operations have their objects. -/
structure Indexed (db : ObjectDatabase (HistoryObject α ρ)) : Prop where
  fresh : db.Fresh
  unique : ∀ n n' e e', db.find ⟨transactionIndex, n⟩ = some (.transaction e) →
    db.find ⟨transactionIndex, n'⟩ = some (.transaction e') → e.account = e'.account →
      e.operationId = e'.operationId → n = n'
  newest : ∀ n e, db.find ⟨transactionIndex, n⟩ = some (.transaction e) →
    ∃ st e', db.find ⟨statisticsIndex, e.account⟩ = some (.statistics st) ∧
      db.find ⟨transactionIndex, st.mostRecentOp⟩ = some (.transaction e') ∧
      e'.account = e.account ∧ e.operationId ≤ e'.operationId
  operations : ∀ n e, db.find ⟨transactionIndex, n⟩ = some (.transaction e) →
    ∃ h, db.find ⟨operationIndex, e.operationId⟩ = some (.operation h)

namespace Indexed

variable {db : ObjectDatabase (HistoryObject α ρ)} {n p : ℕ} {e e' : AccountTransactionHistory}

/-- The ids of the operations of entries have been given. -/
lemma lt_nextId (h : Indexed db) (he : db.find ⟨transactionIndex, n⟩ = some (.transaction e)) :
    e.operationId < db.nextId operationIndex := by
  obtain ⟨x, hx⟩ := h.operations n e he
  exact h.fresh _ _ hx

/-- An entry that is not the newest of its account goes. -/
lemma eraseEntry (h : Indexed db) {st : HistoryStatistics}
    (he : db.find ⟨transactionIndex, p⟩ = some (.transaction e))
    (hst : db.find ⟨statisticsIndex, e.account⟩ = some (.statistics st))
    (hp : p ≠ st.mostRecentOp) : Indexed (db.erase ⟨transactionIndex, p⟩) := by
  have hne : statisticsIndex ≠ transactionIndex := by decide
  have hne' : operationIndex ≠ transactionIndex := by decide
  have hkeep : ∀ n f, (db.erase ⟨transactionIndex, p⟩).find ⟨transactionIndex, n⟩ =
      some (.transaction f) → db.find ⟨transactionIndex, n⟩ = some (.transaction f) := by
    intro n f hf
    rw [ObjectDatabase.find_erase] at hf
    split_ifs at hf
    exact hf
  refine ⟨h.fresh.erase _, fun n n' f f' hf hf' => h.unique n n' f f' (hkeep n f hf) (hkeep n' f' hf'),
    fun n f hf => ?_, fun n f hf => ?_⟩
  · obtain ⟨st', f', hst', hf', hacc, hle⟩ := h.newest n f (hkeep n f hf)
    refine ⟨st', f', ?_, ?_, hacc, hle⟩
    · rw [ObjectDatabase.find_erase, if_neg (by simp [hne])]
      exact hst'
    · have hother : st'.mostRecentOp ≠ p := by
        rintro rfl
        rw [he] at hf'
        cases hf'
        rw [hacc, hst'] at hst
        cases hst
        exact hp rfl
      rw [ObjectDatabase.find_erase, if_neg (by simpa using hother)]
      exact hf'
  · obtain ⟨x, hx⟩ := h.operations n f (hkeep n f hf)
    exact ⟨x, by rw [ObjectDatabase.find_erase, if_neg (by simp [hne']), hx]⟩

/-- The other counters of an account change. -/
lemma setStatistics (h : Indexed db) {a : ℕ} {st st' : HistoryStatistics}
    (hst : db.find ⟨statisticsIndex, a⟩ = some (.statistics st))
    (hsame : st'.mostRecentOp = st.mostRecentOp) :
    Indexed (db.set ⟨statisticsIndex, a⟩ (.statistics st')) := by
  have hne : transactionIndex ≠ statisticsIndex := by decide
  have hne' : operationIndex ≠ statisticsIndex := by decide
  have hkeep : ∀ n, (db.set ⟨statisticsIndex, a⟩ (.statistics st')).find ⟨transactionIndex, n⟩ =
      db.find ⟨transactionIndex, n⟩ := by
    intro n
    rw [ObjectDatabase.find_set, if_neg (by simp [hne])]
  refine ⟨h.fresh.set (h.fresh _ _ hst) _, fun n n' f f' hf hf' => ?_, fun n f hf => ?_,
    fun n f hf => ?_⟩
  · exact h.unique n n' f f' (by rw [← hkeep, hf]) (by rw [← hkeep, hf'])
  · rw [hkeep] at hf
    obtain ⟨st₁, f', hst₁, hf', hacc, hle⟩ := h.newest n f hf
    by_cases ha : f.account = a
    · rw [ha, hst] at hst₁
      cases hst₁
      refine ⟨st', f', ?_, ?_, hacc, hle⟩
      · rw [ObjectDatabase.find_set, if_pos (by rw [ha])]
      · rw [hkeep, hsame, hf']
    · refine ⟨st₁, f', ?_, by rw [hkeep, hf'], hacc, hle⟩
      rw [ObjectDatabase.find_set, if_neg (by simpa using ha), hst₁]
  · rw [hkeep] at hf
    obtain ⟨x, hx⟩ := h.operations n f hf
    exact ⟨x, by rw [ObjectDatabase.find_set, if_neg (by simp [hne']), hx]⟩

/-- The link of an entry changes. -/
lemma setEntry (h : Indexed db) (he : db.find ⟨transactionIndex, p⟩ = some (.transaction e))
    (hacc : e'.account = e.account) (hop : e'.operationId = e.operationId) :
    Indexed (db.set ⟨transactionIndex, p⟩ (.transaction e')) := by
  have hne : statisticsIndex ≠ transactionIndex := by decide
  have hne' : operationIndex ≠ transactionIndex := by decide
  -- an entry of the new database has one of the old one in its place
  have hold : ∀ n f, (db.set ⟨transactionIndex, p⟩ (.transaction e')).find ⟨transactionIndex, n⟩ =
      some (.transaction f) → ∃ g, db.find ⟨transactionIndex, n⟩ = some (.transaction g) ∧
        g.account = f.account ∧ g.operationId = f.operationId := by
    intro n f hf
    rw [ObjectDatabase.find_set] at hf
    split_ifs at hf with hn
    · obtain rfl : n = p := (ObjectId.mk.inj hn).2
      cases hf
      exact ⟨e, he, hacc.symm, hop.symm⟩
    · exact ⟨f, hf, rfl, rfl⟩
  refine ⟨h.fresh.set (h.fresh _ _ he) _, fun n n' f f' hf hf' hff hoo => ?_, fun n f hf => ?_,
    fun n f hf => ?_⟩
  · obtain ⟨g, hg, hga, hgo⟩ := hold n f hf
    obtain ⟨g', hg', hga', hgo'⟩ := hold n' f' hf'
    exact h.unique n n' g g' hg hg' (by rw [hga, hga', hff]) (by rw [hgo, hgo', hoo])
  · obtain ⟨g, hg, hga, hgo⟩ := hold n f hf
    obtain ⟨st, g', hst, hg', hacc', hle⟩ := h.newest n g hg
    rw [hga] at hst hacc'
    rw [hgo] at hle
    by_cases hp : st.mostRecentOp = p
    · rw [hp, he] at hg'
      cases hg'
      refine ⟨st, e', ?_, ?_, hacc.trans hacc', hop ▸ hle⟩
      · rw [ObjectDatabase.find_set, if_neg (by simp [hne]), hst]
      · rw [ObjectDatabase.find_set, if_pos (by rw [hp])]
    · refine ⟨st, g', ?_, ?_, hacc', hle⟩
      · rw [ObjectDatabase.find_set, if_neg (by simp [hne]), hst]
      · rw [ObjectDatabase.find_set, if_neg (by simpa using hp), hg']
  · obtain ⟨g, hg, -, hgo⟩ := hold n f hf
    obtain ⟨x, hx⟩ := h.operations n g hg
    exact ⟨x, by rw [← hgo, ObjectDatabase.find_set, if_neg (by simp [hne']), hx]⟩

/-- The object of an operation that no entry refers to goes. -/
lemma eraseOperation (h : Indexed db) {k : ℕ} (hk : ¬ Referenced db k) :
    Indexed (db.erase ⟨operationIndex, k⟩) := by
  have hne : transactionIndex ≠ operationIndex := by decide
  have hne' : statisticsIndex ≠ operationIndex := by decide
  have hkeep : ∀ n, (db.erase ⟨operationIndex, k⟩).find ⟨transactionIndex, n⟩ =
      db.find ⟨transactionIndex, n⟩ := by
    intro n
    rw [ObjectDatabase.find_erase, if_neg (by simp [hne])]
  refine ⟨h.fresh.erase _, fun n n' f f' hf hf' => ?_, fun n f hf => ?_, fun n f hf => ?_⟩
  · exact h.unique n n' f f' (by rw [← hkeep, hf]) (by rw [← hkeep, hf'])
  · rw [hkeep] at hf
    obtain ⟨st, f', hst, hf', hacc, hle⟩ := h.newest n f hf
    refine ⟨st, f', ?_, by rw [hkeep, hf'], hacc, hle⟩
    rw [ObjectDatabase.find_erase, if_neg (by simp [hne']), hst]
  · rw [hkeep] at hf
    obtain ⟨x, hx⟩ := h.operations n f hf
    have hop : f.operationId ≠ k := by
      rintro rfl
      exact hk ⟨(n, f), (mem_transactions h.fresh).mpr hf, rfl⟩
    exact ⟨x, by rw [ObjectDatabase.find_erase, if_neg (by simpa using hop), hx]⟩

/-- A new operation object, or a new statistics object. -/
lemma createObject (h : Indexed db) {i : IndexId} (hi : i ≠ transactionIndex)
    (v : HistoryObject α ρ) :
    Indexed ((db.set ⟨i, db.nextId i⟩ v).setNextId i (db.nextId i + 1)) := by
  have hfind : ∀ id w, db.find id = some w →
      ((db.set ⟨i, db.nextId i⟩ v).setNextId i (db.nextId i + 1)).find id = some w := by
    intro id w hw
    rw [ObjectDatabase.find_setNextId, ObjectDatabase.find_set, if_neg]
    · exact hw
    · rintro rfl
      rw [h.fresh.find_next] at hw
      cases hw
  have hkeep : ∀ n, ((db.set ⟨i, db.nextId i⟩ v).setNextId i (db.nextId i + 1)).find
      ⟨transactionIndex, n⟩ = db.find ⟨transactionIndex, n⟩ := by
    intro n
    rw [ObjectDatabase.find_setNextId, ObjectDatabase.find_set, if_neg (by simp [hi.symm])]
  refine ⟨h.fresh.create _ _, fun n n' f f' hf hf' => ?_, fun n f hf => ?_, fun n f hf => ?_⟩
  · exact h.unique n n' f f' (by rw [← hkeep, hf]) (by rw [← hkeep, hf'])
  · rw [hkeep] at hf
    obtain ⟨st, f', hst, hf', hrest⟩ := h.newest n f hf
    exact ⟨st, f', hfind _ _ hst, hfind _ _ hf', hrest⟩
  · rw [hkeep] at hf
    obtain ⟨x, hx⟩ := h.operations n f hf
    exact ⟨x, hfind _ _ hx⟩

/-- An id of an operation is used up without an object. -/
lemma useNextId (h : Indexed db) :
    Indexed (db.setNextId operationIndex (db.nextId operationIndex + 1)) := by
  refine ⟨fun id v hv => ?_, h.unique, h.newest, h.operations⟩
  have hlt := h.fresh id v hv
  rw [ObjectDatabase.nextId_setNextId]
  split_ifs with hi
  · rw [hi] at hlt
    omega
  · exact hlt

/-- A new entry, which the statistics of its account then name. -/
lemma addEntry (h : Indexed db) {st st' : HistoryStatistics} {x : OperationHistory α ρ}
    (hst : db.find ⟨statisticsIndex, e.account⟩ = some (.statistics st))
    (hx : db.find ⟨operationIndex, e.operationId⟩ = some (.operation x))
    (hlast : db.nextId operationIndex = e.operationId + 1) (hclash : ¬ Clash db e)
    (hst' : st'.mostRecentOp = db.nextId transactionIndex) :
    Indexed (((db.set ⟨transactionIndex, db.nextId transactionIndex⟩ (.transaction e)).setNextId
      transactionIndex (db.nextId transactionIndex + 1)).set ⟨statisticsIndex, e.account⟩
        (.statistics st')) := by
  have hne : statisticsIndex ≠ transactionIndex := by decide
  have hne' : operationIndex ≠ transactionIndex := by decide
  have hne'' : operationIndex ≠ statisticsIndex := by decide
  set N := db.nextId transactionIndex with hN
  set db' := ((db.set ⟨transactionIndex, N⟩ (.transaction e)).setNextId transactionIndex
    (N + 1)).set ⟨statisticsIndex, e.account⟩ (.statistics st') with hdb'
  have htrans : ∀ n, db'.find ⟨transactionIndex, n⟩ =
      if n = N then some (.transaction e) else db.find ⟨transactionIndex, n⟩ := by
    intro n
    simp [hdb', ObjectDatabase.find_set, hne.symm]
  have hstats : ∀ a, db'.find ⟨statisticsIndex, a⟩ =
      if a = e.account then some (.statistics st') else db.find ⟨statisticsIndex, a⟩ := by
    intro a
    simp [hdb', ObjectDatabase.find_set, hne]
  have hops : ∀ k, db'.find ⟨operationIndex, k⟩ = db.find ⟨operationIndex, k⟩ := by
    intro k
    simp [hdb', ObjectDatabase.find_set, hne', hne'']
  have hother : ∀ n f, db.find ⟨transactionIndex, n⟩ = some (.transaction f) →
      f.account = e.account → f.operationId ≠ e.operationId := fun n f hf hacc hop =>
    hclash ⟨(n, f), (mem_transactions h.fresh).mpr hf, hacc, .inr hop⟩
  refine ⟨?_, fun n n' f f' hf hf' hacc hop => ?_, fun n f hf => ?_, fun n f hf => ?_⟩
  · refine (h.fresh.create transactionIndex _).set ?_ _
    have hlt := h.fresh _ _ hst
    simpa [ObjectDatabase.nextId_setNextId, hne] using hlt
  · rw [htrans] at hf hf'
    split_ifs at hf hf' with hn hn' hn'
    · rw [hn, hn']
    · cases hf
      exact absurd hop.symm (hother n' f' hf' hacc.symm)
    · cases hf'
      exact absurd hop (hother n f hf hacc)
    · exact h.unique n n' f f' hf hf' hacc hop
  · by_cases hacc : f.account = e.account
    · refine ⟨st', e, by rw [hstats, if_pos hacc], by rw [htrans, if_pos hst'], hacc.symm, ?_⟩
      rw [htrans] at hf
      split_ifs at hf
      · cases hf
        exact le_rfl
      · have hlt := h.lt_nextId hf
        omega
    · rw [htrans] at hf
      split_ifs at hf
      · cases hf
        exact absurd rfl hacc
      · obtain ⟨st₁, f', hst₁, hf', hrest⟩ := h.newest n f hf
        refine ⟨st₁, f', by rw [hstats, if_neg hacc, hst₁], ?_, hrest⟩
        have hold : st₁.mostRecentOp ≠ N := (h.fresh _ _ hf').ne
        rw [htrans, if_neg hold, hf']
  · rw [hops]
    rw [htrans] at hf
    split_ifs at hf
    · cases hf
      exact ⟨x, hx⟩
    · exact h.operations n f hf

end Indexed

/-! ### Runs -/

section Runs

variable {cfg : HistoryConfig α ρ} {s : Store (HistoryObject α ρ)} {cur : ℕ}

/-- The operation `cur`, whose object was created last, is being added to the lists. -/
structure Adding (cur : ℕ) (s : Store (HistoryObject α ρ)) : Prop where
  indexed : Indexed s.objs
  last : s.objs.nextId operationIndex = cur + 1
  current : ∃ h, s.objs.find ⟨operationIndex, cur⟩ = some (.operation h)

/-- An account has just been given the entry `ath` for the operation `cur`. -/
structure Added (cur a ath : ℕ) (st : HistoryStatistics) (s : Store (HistoryObject α ρ)) : Prop
    extends Adding cur s where
  statistics : s.objs.find ⟨statisticsIndex, a⟩ = some (.statistics st)
  names : st.mostRecentOp = ath
  entry : ∃ e, s.objs.find ⟨transactionIndex, ath⟩ = some (.transaction e) ∧ e.account = a ∧
    e.operationId = cur

lemma mem_bySeq {a : ℕ} {x : ℕ × AccountTransactionHistory}
    {db : ObjectDatabase (HistoryObject α ρ)} (hfresh : db.Fresh) (h : x ∈ bySeq db a) :
    db.find ⟨transactionIndex, x.1⟩ = some (.transaction x.2) ∧ x.2.account = a := by
  rw [bySeq, List.mem_insertionSort, List.mem_filter, decide_eq_true_eq] at h
  exact ⟨(mem_transactions hfresh).mp h.1, h.2⟩

/-- An operation object that nothing refers to is removed, but not that of `cur`. -/
lemma removeUnreferenced_adding {opId : ℕ} (hs : Adding cur s) (hne : opId ≠ cur) :
    Adding cur (removeUnreferenced opId s).2 := by
  rw [removeUnreferenced, Exec.bind_ok (Exec.gets_apply _ s)]
  split_ifs with href
  · exact hs
  · cases hfind : s.objs.find ⟨operationIndex, opId⟩ with
    | none => rwa [remove_missing hfind]
    | some w =>
        rw [remove_eq hfind]
        obtain ⟨h, hcur⟩ := hs.current
        refine ⟨hs.indexed.eraseOperation href, hs.last, h, ?_⟩
        rw [removed, ObjectDatabase.find_erase, if_neg (by simpa using hne.symm), hcur]

/-- The oldest entry of the account goes, unless it is the new one. -/
lemma trimHistory_adding {a ath : ℕ} {st : HistoryStatistics} (hs : Added cur a ath st s) :
    Adding cur (trimHistory cfg a ath st s).2 := by
  have hne : statisticsIndex ≠ transactionIndex := by decide
  have hne' : operationIndex ≠ transactionIndex := by decide
  have hne'' : operationIndex ≠ statisticsIndex := by decide
  rw [trimHistory, Exec.bind_ok (Exec.gets_apply _ s)]
  cases hseq : bySeq s.objs a with
  | nil => exact hs.toAdding
  | cons x rest =>
      obtain ⟨p, e⟩ := x
      obtain ⟨hp, hacc⟩ := mem_bySeq hs.indexed.fresh (hseq ▸ List.mem_cons_self : (p, e) ∈ _)
      simp only
      by_cases hath : p = ath
      · rw [if_pos hath]
        exact hs.toAdding
      rw [if_neg hath]
      obtain ⟨f, hf, hfa, hfc⟩ := hs.entry
      obtain ⟨h, hcur⟩ := hs.current
      -- the operation of the entry that goes is another one
      have hop : e.operationId ≠ cur := fun heq =>
        hath (hs.indexed.unique p ath e f hp hf (hacc.trans hfa.symm) (heq.trans hfc.symm))
      have hst : s.objs.find ⟨statisticsIndex, e.account⟩ = some (.statistics st) := by
        rw [hacc, hs.statistics]
      have h₁ : Adding cur (removed s ⟨transactionIndex, p⟩ (.transaction e)) := by
        refine ⟨hs.indexed.eraseEntry hp hst (hs.names ▸ hath), hs.last, h, ?_⟩
        rw [removed, ObjectDatabase.find_erase, if_neg (by simp [hne']), hcur]
      have hst₁ : (removed s ⟨transactionIndex, p⟩ (.transaction e)).objs.find
          ⟨statisticsIndex, a⟩ = some (.statistics st) := by
        rw [removed, ObjectDatabase.find_erase, if_neg (by simp [hne]), hs.statistics]
      rw [Exec.bind_ok (remove_eq hp)]
      set s₁ := removed s ⟨transactionIndex, p⟩ (.transaction e) with hs₁
      set st' : HistoryStatistics := { st with removedOps := (st.removedOps + 1) % 2 ^ 32 } with hst'
      have h₂ : Adding cur (modified s₁ ⟨statisticsIndex, a⟩ (.statistics st) (.statistics st')) := by
        obtain ⟨h', hcur'⟩ := h₁.current
        refine ⟨h₁.indexed.setStatistics hst₁ rfl, h₁.last, h', ?_⟩
        rw [modified, ObjectDatabase.find_set, if_neg (by simp [hne'']), hcur']
      rw [Exec.bind_ok (modify_eq hst₁ (.statistics st'))]
      set s₂ := modified s₁ ⟨statisticsIndex, a⟩ (.statistics st) (.statistics st') with hs₂
      -- the last step, from whatever state the link leaves
      have hend : ∀ t, Adding cur t → Adding cur ((if cfg.partialOperations then
          removeUnreferenced e.operationId else (pure () : HistoryExec α ρ Unit)) t).2 := by
        intro t ht
        split_ifs
        · exact removeUnreferenced_adding ht hop
        · exact ht
      cases rest with
      | nil => exact hend s₂ h₂
      | cons y rest =>
          obtain ⟨q, g⟩ := y
          simp only
          cases hq : s₂.objs.find ⟨transactionIndex, q⟩ with
          | none =>
              rw [Exec.bind_error (modify_missing hq _)]
              exact h₂
          | some w =>
              rw [Exec.bind_ok (modify_eq hq _)]
              refine hend _ ?_
              obtain ⟨hq', -⟩ := mem_bySeq hs.indexed.fresh
                (hseq ▸ List.mem_cons_of_mem _ List.mem_cons_self : (q, g) ∈ _)
              have hqw : s₂.objs.find ⟨transactionIndex, q⟩ = some (.transaction g) := by
                rw [hs₂, modified, ObjectDatabase.find_set, if_neg (by simp [hne.symm]), hs₁, removed,
                  ObjectDatabase.find_erase] at hq ⊢
                split_ifs at hq ⊢
                exact hq'
              obtain ⟨h', hcur'⟩ := h₂.current
              refine ⟨h₂.indexed.setEntry hqw rfl rfl, h₂.last, h', ?_⟩
              rw [modified, ObjectDatabase.find_set, if_neg (by simp [hne']), hcur']

/-- **One account** to whose list the operation is added. -/
lemma addAccountHistory_adding (a opType : ℕ) (hs : Adding cur s) :
    Adding cur (addAccountHistory cfg a cur opType s).2 := by
  have hne : operationIndex ≠ transactionIndex := by decide
  have hne' : operationIndex ≠ statisticsIndex := by decide
  have hne'' : transactionIndex ≠ statisticsIndex := by decide
  by_cases hst : HasStatistics s.objs a
  swap
  · have herr : getStatistics a s =
        (.error (.db (.objectNotFound ⟨statisticsIndex, a⟩)), s) := by
      rw [getStatistics, Exec.bind_ok (Exec.gets_apply _ s)]
      rcases hfind : s.objs.find ⟨statisticsIndex, a⟩ with _ | v
      · rfl
      · cases v with
        | statistics st => exact absurd ⟨st, hfind⟩ hst
        | operation _ => rfl
        | transaction _ => rfl
    rw [addAccountHistory, Exec.bind_error herr]
    exact hs
  obtain ⟨st, hst⟩ := hst
  rw [addAccountHistory, Exec.bind_ok (getStatistics_eq hst)]
  simp only
  set e : AccountTransactionHistory :=
    { account := a, operationId := cur, operationType := opType,
      sequence := (st.totalOps + 1) % 2 ^ 32, next := st.mostRecentOp } with he
  by_cases hclash : Clash s.objs e
  · have herr : createTransaction e s = (.error (.db .uniqueness), s) := by
      rw [createTransaction, Exec.bind_ok (Exec.gets_apply _ s)]
      refine Exec.bind_error ?_
      rw [Exec.check_apply, if_neg (not_not.mpr hclash)]
    rw [Exec.bind_error herr]
    exact hs
  have hcreate : createTransaction e s = (.ok (s.objs.nextId transactionIndex),
      created s transactionIndex (.transaction e)) := by
    rw [createTransaction, Exec.bind_ok (Exec.gets_apply _ s)]
    have hcheck : (Exec.check (¬ Clash s.objs e) (.db .uniqueness) : HistoryExec α ρ Unit) s =
        (.ok (), s) := by rw [Exec.check_apply, if_pos hclash]
    rw [Exec.bind_ok hcheck, createObject_eq hs.indexed.fresh]
  rw [Exec.bind_ok hcreate]
  have hst₁ : (created s transactionIndex (.transaction e)).objs.find ⟨statisticsIndex, a⟩ =
      some (.statistics st) := by
    rw [created, ObjectDatabase.find_setNextId, ObjectDatabase.find_set, if_neg (by simp [hne''.symm]),
      hst]
  set st' : HistoryStatistics :=
    { st with mostRecentOp := s.objs.nextId transactionIndex,
              totalOps := (st.totalOps + 1) % 2 ^ 32 } with hst'
  rw [Exec.bind_ok (modify_eq hst₁ (.statistics st'))]
  set s₂ := modified (created s transactionIndex (.transaction e)) ⟨statisticsIndex, a⟩
    (.statistics st) (.statistics st') with hs₂
  have hadded : Added cur a (s.objs.nextId transactionIndex) st' s₂ := by
    obtain ⟨h, hcur⟩ := hs.current
    refine ⟨⟨?_, ?_, h, ?_⟩, ?_, rfl, e, ?_, rfl, rfl⟩
    · exact hs.indexed.addEntry (e := e) hst hcur hs.last hclash rfl
    · rw [hs₂, modified, ObjectDatabase.nextId_set, created, ObjectDatabase.nextId_setNextId,
        if_neg hne]
      exact hs.last
    · simp [hs₂, modified, created, ObjectDatabase.find_set, hne, hne', hcur]
    · simp [hs₂, modified]
    · simp [hs₂, modified, created, ObjectDatabase.find_set, hne'']
  split_ifs
  · exact trimHistory_adding hadded
  · exact hadded.toAdding

/-- **One operation**, whether or not the plugin throws in it. -/
lemma processOperation_indexed (timestamp : ℕ) (o : Option (OperationHistory α ρ)) :
    Exec.Keeps (fun s => Indexed s.objs) (fun _ s => Indexed s.objs)
      (processOperation cfg timestamp o) := by
  rcases processOperation_cases cfg timestamp o with
    ⟨-, h⟩ | ⟨-, h⟩ | ⟨-, h⟩ | ⟨-, x, rest, h, hrest⟩ <;> rw [h]
  · exact Exec.Keeps.pure _
  · exact Exec.Keeps.update fun s hs => hs.useNextId
  · exact Exec.Triple.raise fun _ h => h
  · refine Exec.Triple.bind (Q := Adding) (fun s hs => ?_) fun oho => ?_
    · have hcreate : createOperation timestamp x s = _ := createObject_eq hs.fresh operationIndex _
      refine ⟨fun oho s' heq => ?_, fun e s' heq => ?_⟩
      · rw [hcreate] at heq
        cases heq
        refine ⟨hs.createObject (by decide) _, ?_, { x with blockTime := timestamp }, ?_⟩
        · rw [created, ObjectDatabase.nextId_setNextId, if_pos rfl]
        · rw [created, ObjectDatabase.find_setNextId, ObjectDatabase.find_set_self]
      · rw [hcreate] at heq
        cases heq
    · have hkeep : Exec.Keeps (Adding oho) (fun _ => Adding oho) (rest oho) := by
        rcases hrest oho with h | h | ⟨accounts, opType, h⟩ <;> rw [h]
        · exact Exec.Keeps.pure _
        · exact Exec.Triple.raise fun _ h => h
        · exact Exec.Keeps.forEach accounts fun a _ => Exec.keeps_of_snd fun s hs =>
            addAccountHistory_adding a opType hs
      exact hkeep.conseq (fun _ h => h) (fun _ _ h => h.indexed) fun _ _ h => h.indexed

lemma createAccounts_indexed (n : ℕ) :
    Exec.Keeps (fun s => Indexed s.objs) (fun _ s => Indexed s.objs)
      (createAccounts (α := α) (ρ := ρ) n) := by
  induction n with
  | zero => exact Exec.Keeps.pure _
  | succ n ih =>
      refine Exec.Keeps.bind (Exec.keeps_of_snd fun s hs => ?_) fun _ => ih
      rw [createObject_eq hs.fresh]
      exact hs.createObject (by decide) _

/-- **One block.** -/
lemma pushBlock_indexed (hs : Indexed s.objs) (b : AppliedBlock α ρ) :
    Indexed (pushBlock cfg s b).objs := by
  have happly : Exec.Keeps (fun s => Indexed s.objs) (fun _ s => Indexed s.objs)
      (applyBlock cfg b) := by
    refine Exec.Keeps.bind (createAccounts_indexed b.newAccounts) fun _ =>
      Exec.keeps_of_snd fun s hs => ?_
    rw [catchIf_pure_snd]
    exact (Exec.Keeps.forEach _ fun o _ => processOperation_indexed b.timestamp o).snd hs
  rw [objs_pushBlock]
  exact happly.snd (s := ⟨s.objs, s.undo.startUndoSession {} false⟩) hs

/-- **Any run of blocks** from a database without a history. -/
theorem indexed_run {n : ℕ} (hs : EmptyHistory n s.objs) (blocks : List (AppliedBlock α ρ)) :
    Indexed (run cfg s blocks).objs := by
  have hempty : Indexed s.objs := by
    have hnone : ∀ k v, s.objs.find ⟨transactionIndex, k⟩ ≠ some v := by
      intro k v hv
      have hlt := hs.fresh _ _ hv
      rw [hs.transactions] at hlt
      exact Nat.not_lt_zero _ hlt
    exact ⟨hs.fresh, fun n n' f f' hf => absurd hf (hnone n _), fun n f hf => absurd hf (hnone n _),
      fun n f hf => absurd hf (hnone n _)⟩
  rw [run]
  clear hs
  induction blocks generalizing s with
  | nil => exact hempty
  | cons b blocks ih => exact ih (pushBlock_indexed hempty b)

end Runs

end ZosCore.AccountHistory
