import ZosCore.Plugins.AccountHistory

/-!
The lists of the account history plugin against the records that have been made.

Each call of `add_account_history` makes one record, so the instance of an entry is the
number of records made before it. What the database holds is then a function of the log `G`
of the records and of the numbers `k a` of entries that have been removed: `stored` is the
list of an account, from its oldest entry to its newest one.

* `numbered G a`: the records of an account with their numbers; `chain` makes the entries
  of a list out of them, each of which points to the one before it.
* `Lists cfg G k current done db`: the database `db` holds what the log says.
* **`addAccountHistory_lists`**: one more record; the entry that is then too many goes.
-/

namespace ZosCore.AccountHistory

variable {α ρ : Type}

/-! ### The log -/

/-- What one call of `add_account_history` records: an account, and the operation with its id. -/
structure Record (α ρ : Type) where
  account : ℕ
  opId : ℕ
  history : OperationHistory α ρ

/-- The records of an account with their numbers, in the order in which they were made. -/
def numbered (G : List (Record α ρ)) (a : ℕ) : List (Record α ρ × ℕ) :=
  G.zipIdx.filter fun x => x.1.account = a

/-- The number of the newest record of an account, or the null id. -/
def newest (G : List (Record α ρ)) (a : ℕ) : ℕ :=
  ((numbered G a).getLast?.map Prod.snd).getD nullId

section Log

variable {G : List (Record α ρ)} {a b : ℕ}

lemma mem_numbered {x : Record α ρ × ℕ} :
    x ∈ numbered G a ↔ G[x.2]? = some x.1 ∧ x.1.account = a := by
  simp [numbered, List.mem_zipIdx_iff_getElem?]

lemma numbered_append (r : Record α ρ) :
    numbered (G ++ [r]) a = numbered G a ++ if r.account = a then [(r, G.length)] else [] := by
  simp only [numbered, List.zipIdx_append, List.filter_append, List.zipIdx_singleton,
    List.filter_cons, List.filter_nil, Nat.zero_add, decide_eq_true_eq]

lemma lt_of_mem_numbered {x : Record α ρ × ℕ} (h : x ∈ numbered G a) : x.2 < G.length := by
  obtain ⟨hx, -⟩ := mem_numbered.mp h
  exact (List.getElem?_eq_some_iff.mp hx).1

lemma numbered_sorted (G : List (Record α ρ)) (a : ℕ) :
    (numbered G a).Pairwise fun x y => x.2 < y.2 := by
  refine List.Pairwise.filter _ ?_
  have h := List.pairwise_lt_range' (s := 0) (n := G.length)
  rw [← List.zipIdx_map_snd] at h
  exact List.pairwise_map.mp h

end Log

/-! ### The list of an account -/

variable (cfg : HistoryConfig α ρ)

/-- The entry that a record makes. -/
def Record.entry (r : Record α ρ) (sequence next : ℕ) : AccountTransactionHistory where
  account := r.account
  operationId := r.opId
  operationType := cfg.which r.history.op
  sequence := sequence
  next := next

/-- A list of entries that count up, each of which points to the one before it. -/
def chain : ℕ → ℕ → List (Record α ρ × ℕ) → List (ℕ × AccountTransactionHistory)
  | _, _, [] => []
  | seq, next, x :: l => (x.2, x.1.entry cfg seq next) :: chain (seq + 1) x.2 l

/-- The list of an account of which the first `k` entries have been removed. -/
def stored (G : List (Record α ρ)) (k a : ℕ) : List (ℕ × AccountTransactionHistory) :=
  chain cfg (k + 1) nullId ((numbered G a).drop k)

section Chain

variable {G : List (Record α ρ)} {k a b n n' seq next : ℕ} {e e' : AccountTransactionHistory}
  {l : List (Record α ρ × ℕ)}

@[simp] lemma chain_nil : chain cfg seq next [] = [] := rfl

@[simp] lemma chain_cons (x : Record α ρ × ℕ) : chain cfg seq next (x :: l) =
    (x.2, x.1.entry cfg seq next) :: chain cfg (seq + 1) x.2 l := rfl

@[simp] lemma map_fst_chain : (chain cfg seq next l).map Prod.fst = l.map Prod.snd := by
  induction l generalizing seq next with
  | nil => rfl
  | cons x l ih => simp [ih]

@[simp] lemma length_chain : (chain cfg seq next l).length = l.length := by
  induction l generalizing seq next with
  | nil => rfl
  | cons x l ih => simp [ih]

/-- The sequence numbers count up. -/
lemma map_sequence_chain :
    (chain cfg seq next l).map (fun x => x.2.sequence) = List.range' seq l.length := by
  induction l generalizing seq next with
  | nil => rfl
  | cons x l ih => simp [ih, Record.entry, List.range'_succ]

/-- A new record comes to the end, and points to the one that was the last. -/
lemma chain_append (x : Record α ρ × ℕ) : chain cfg seq next (l ++ [x]) = chain cfg seq next l ++
    [(x.2, x.1.entry cfg (seq + l.length) ((l.getLast?.map Prod.snd).getD next))] := by
  induction l generalizing seq next with
  | nil => rfl
  | cons y l ih =>
      rw [List.cons_append, chain_cons, ih, chain_cons, List.cons_append]
      congr 2
      rw [List.length_cons, show seq + 1 + l.length = seq + (l.length + 1) by omega]
      cases l with
      | nil => rfl
      | cons z l =>
          rw [List.getLast?_cons_cons]
          cases hlast : (z :: l).getLast? with
          | none => simp at hlast
          | some w => rfl

/-- An entry is that of a record. -/
lemma mem_chain (h : (n, e) ∈ chain cfg seq next l) :
    ∃ r seq' next', (r, n) ∈ l ∧ e = r.entry cfg seq' next' := by
  induction l generalizing seq next with
  | nil => simp at h
  | cons x l ih =>
      rw [chain_cons, List.mem_cons] at h
      rcases h with h | h
      · cases h
        exact ⟨x.1, seq, next, List.mem_cons_self, rfl⟩
      · obtain ⟨r, seq', next', hr, he⟩ := ih h
        exact ⟨r, seq', next', List.mem_cons_of_mem _ hr, he⟩

/-- Each record has an entry. -/
lemma exists_mem_chain {r : Record α ρ} (h : (r, n) ∈ l) :
    ∃ seq' next', (n, r.entry cfg seq' next') ∈ chain cfg seq next l := by
  induction l generalizing seq next with
  | nil => simp at h
  | cons x l ih =>
      rcases List.mem_cons.mp h with rfl | h
      · exact ⟨seq, next, List.mem_cons_self⟩
      · obtain ⟨seq', next', hr⟩ := ih h
        exact ⟨seq', next', List.mem_cons_of_mem _ hr⟩

lemma mem_stored (h : (n, e) ∈ stored cfg G k a) :
    ∃ r seq next, (r, n) ∈ (numbered G a).drop k ∧ r.account = a ∧ e = r.entry cfg seq next := by
  obtain ⟨r, seq, next, hr, he⟩ := mem_chain cfg h
  exact ⟨r, seq, next, hr, (mem_numbered.mp (List.mem_of_mem_drop hr)).2, he⟩

lemma account_of_mem_stored (h : (n, e) ∈ stored cfg G k a) : e.account = a := by
  obtain ⟨r, seq, next, -, hr, rfl⟩ := mem_stored cfg h
  exact hr

/-- The numbers of a list go up. -/
lemma stored_sorted : ((stored cfg G k a).map Prod.fst).Pairwise (· < ·) := by
  rw [stored, map_fst_chain, List.pairwise_map]
  exact ((numbered_sorted G a).sublist (List.drop_sublist k _))

lemma stored_nodup : (stored cfg G k a).Nodup :=
  .of_map _ ((stored_sorted cfg).imp fun h => h.ne)

/-! ### One more record -/

lemma newest_append_self (r : Record α ρ) : newest (G ++ [r]) r.account = G.length := by
  simp [newest, numbered_append]

lemma numbered_append_of_ne {r : Record α ρ} (h : r.account ≠ a) :
    numbered (G ++ [r]) a = numbered G a := by
  simp [numbered_append, h]

lemma newest_append_of_ne {r : Record α ρ} (h : r.account ≠ a) :
    newest (G ++ [r]) a = newest G a := by
  simp [newest, numbered_append_of_ne h]

lemma stored_append_of_ne {r : Record α ρ} (h : r.account ≠ a) :
    stored cfg (G ++ [r]) k a = stored cfg G k a := by
  simp [stored, numbered_append_of_ne h]

/-- The new entry comes to the end of the list, and points to the newest one. -/
lemma stored_append_self (r : Record α ρ) (hk : k ≤ (numbered G r.account).length)
    (hempty : k = (numbered G r.account).length → numbered G r.account = []) :
    stored cfg (G ++ [r]) k r.account = stored cfg G k r.account ++
      [(G.length, r.entry cfg ((numbered G r.account).length + 1) (newest G r.account))] := by
  have hlast : ((((numbered G r.account).drop k).getLast?).map Prod.snd).getD nullId =
      newest G r.account := by
    rcases hk.lt_or_eq with hlt | heq
    · rw [List.getLast?_drop, if_neg (by omega)]
      rfl
    · simp [newest, hempty heq]
  have hseq : k + 1 + ((numbered G r.account).drop k).length =
      (numbered G r.account).length + 1 := by
    rw [List.length_drop]
    omega
  calc stored cfg (G ++ [r]) k r.account
      = chain cfg (k + 1) nullId ((numbered G r.account).drop k ++ [(r, G.length)]) := by
        rw [stored, numbered_append, if_pos rfl, List.drop_append_of_le_length hk]
    _ = _ := by rw [chain_append, hlast, hseq]; rfl

/-! ### One entry less -/

/-- Where the oldest entry of a list is left out, the next one points to nothing. -/
lemma stored_succ {p q : ℕ} {rest : List (ℕ × AccountTransactionHistory)}
    (h : stored cfg G k a = (p, e) :: (q, e') :: rest) :
    stored cfg G (k + 1) a = (q, { e' with next := nullId }) :: rest := by
  have hdrop : (numbered G a).drop (k + 1) = ((numbered G a).drop k).tail := by
    rw [List.tail_drop]
  rw [stored] at h
  rw [stored, hdrop]
  match hl : (numbered G a).drop k with
  | [] => simp [hl] at h
  | [x] => simp [hl] at h
  | x :: y :: l =>
      rw [hl, chain_cons, chain_cons] at h
      obtain ⟨-, htail⟩ := List.cons.inj h
      obtain ⟨hy, hrest⟩ := List.cons.inj htail
      cases hy
      rw [List.tail_cons, chain_cons, hrest]
      rfl

end Chain

/-! ### A database that holds the lists -/

/-- The entries of the database are those of the lists, and the statistics of an account name its
newest entry and count its records. -/
structure Lists (G : List (Record α ρ)) (k : ℕ → ℕ) (db : ObjectDatabase (HistoryObject α ρ)) :
    Prop where
  fresh : db.Fresh
  next : db.nextId transactionIndex = G.length
  entry : ∀ n e, db.find ⟨transactionIndex, n⟩ = some (.transaction e) ↔
    (n, e) ∈ stored cfg G (k e.account) e.account
  stats : ∀ a st, db.find ⟨statisticsIndex, a⟩ = some (.statistics st) →
    st = ⟨newest G a, (numbered G a).length, k a⟩

/-- The account has its statistics. -/
def HasStatistics (db : ObjectDatabase (HistoryObject α ρ)) (a : ℕ) : Prop :=
  ∃ st, db.find ⟨statisticsIndex, a⟩ = some (.statistics st)

namespace Lists

variable {cfg} {G : List (Record α ρ)} {k : ℕ → ℕ} {db : ObjectDatabase (HistoryObject α ρ)}
  {a n : ℕ} {e : AccountTransactionHistory}

lemma mem_transactions (h : Lists cfg G k db) :
    (n, e) ∈ transactions db ↔ (n, e) ∈ stored cfg G (k e.account) e.account :=
  (AccountHistory.mem_transactions h.fresh).trans (h.entry n e)

/-- The index by sequence numbers shows the list of an account as it is. -/
lemma bySeq_eq (h : Lists cfg G k db) (a : ℕ) : bySeq db a = stored cfg G (k a) a := by
  have hperm : ((transactions db).filter fun x => x.2.account = a).Perm (stored cfg G (k a) a) := by
    refine (List.perm_ext_iff_of_nodup ((nodup_transactions db).filter _)
      (stored_nodup cfg)).mpr fun x => ?_
    rw [List.mem_filter, decide_eq_true_eq, h.mem_transactions (n := x.1) (e := x.2)]
    constructor
    · rintro ⟨hx, rfl⟩
      exact hx
    · intro hx
      have hacc := account_of_mem_stored cfg hx
      exact ⟨hacc ▸ hx, hacc⟩
  have hsorted : (stored cfg G (k a) a).Pairwise fun x y => x.2.sequence ≤ y.2.sequence := by
    have hlt := List.pairwise_lt_range' (s := k a + 1) (n := ((numbered G a).drop (k a)).length)
    have hseq : (stored cfg G (k a) a).map (fun x => x.2.sequence) =
        List.range' (k a + 1) ((numbered G a).drop (k a)).length := map_sequence_chain cfg
    rw [← hseq] at hlt
    exact (List.pairwise_map.mp hlt).imp fun h => h.le
  -- two entries of one sequence number are one
  have hinj : ∀ x ∈ stored cfg G (k a) a, ∀ y ∈ stored cfg G (k a) a,
      x.2.sequence = y.2.sequence → x = y := by
    have hnodup : ((stored cfg G (k a) a).map fun x => x.2.sequence).Nodup := by
      rw [stored, map_sequence_chain]
      exact List.nodup_range'
    exact fun x hx y hy hxy => List.inj_on_of_nodup_map hnodup hx hy hxy
  have htotal : Std.Total fun x y : ℕ × AccountTransactionHistory =>
      x.2.sequence ≤ y.2.sequence := ⟨fun x y => le_total _ _⟩
  have htrans : IsTrans (ℕ × AccountTransactionHistory) fun x y =>
      x.2.sequence ≤ y.2.sequence := ⟨fun x y z => le_trans⟩
  have hsort := (List.perm_insertionSort (fun x y : ℕ × AccountTransactionHistory =>
    x.2.sequence ≤ y.2.sequence) _).trans hperm
  refine List.Perm.eq_of_pairwise (fun x y hx hy hle hle' => ?_)
    (List.pairwise_insertionSort _ _) hsorted hsort
  exact hinj x (hsort.mem_iff.mp hx) y hy (le_antisymm hle hle')

/-- An operation is referred to by the entries of the records of it that are not removed. -/
lemma referenced_iff (h : Lists cfg G k db) {opId : ℕ} : Referenced db opId ↔
    ∃ a, ∃ x ∈ (numbered G a).drop (k a), x.1.opId = opId := by
  constructor
  · rintro ⟨⟨n, e⟩, he, rfl⟩
    obtain ⟨r, seq, next, hr, -, heq⟩ := mem_stored cfg (h.mem_transactions.mp he)
    exact ⟨e.account, (r, n), hr, by rw [heq]; rfl⟩
  · rintro ⟨a, ⟨r, n⟩, hr, rfl⟩
    have hacc : r.account = a := (mem_numbered.mp (List.mem_of_mem_drop hr)).2
    obtain ⟨seq, next, he⟩ : ∃ seq next, (n, r.entry cfg seq next) ∈ stored cfg G (k a) a :=
      exists_mem_chain cfg hr
    refine ⟨(n, r.entry cfg seq next), h.mem_transactions.mpr ?_, rfl⟩
    change _ ∈ stored cfg G (k r.account) r.account
    rw [hacc]
    exact he

/-- A record of an operation that the account has no record of, under the number after the last
one, takes no place of another. -/
lemma not_clash (h : Lists cfg G k db) (hk : k a ≤ (numbered G a).length) {r : Record α ρ}
    (hr : ∀ r' ∈ G, r'.opId = r.opId → r'.account ≠ r.account) (hacc : r.account = a)
    (next : ℕ) : ¬ Clash db (r.entry cfg ((numbered G a).length + 1) next) := by
  rintro ⟨⟨n, e⟩, he, heq, hkey⟩
  have hmem := h.mem_transactions.mp he
  have hea : e.account = a := heq.trans hacc
  rcases hkey with hseq | hop
  · have hin := List.mem_map_of_mem (f := fun x => x.2.sequence) hmem
    rw [hea, stored, map_sequence_chain, List.mem_range'_1, List.length_drop] at hin
    have hlast : e.sequence = (numbered G a).length + 1 := hseq
    have hbound : e.sequence < k a + 1 + ((numbered G a).length - k a) := hin.2
    omega
  · obtain ⟨r', seq, next', hr', -, rfl⟩ := mem_stored cfg hmem
    have hG := List.mem_of_getElem? (mem_numbered.mp (List.mem_of_mem_drop hr')).1
    exact hr r' hG hop heq

end Lists

/-! ### One more record, one entry less -/

section Steps

variable (G : List (Record α ρ)) (k : ℕ → ℕ) (db : ObjectDatabase (HistoryObject α ρ))

/-- The entry that the next record makes. -/
def nextEntry (r : Record α ρ) : AccountTransactionHistory :=
  r.entry cfg ((numbered G r.account).length + 1) (newest G r.account)

/-- The database with the entry of one more record. -/
def withRecord (r : Record α ρ) : ObjectDatabase (HistoryObject α ρ) :=
  ((db.set ⟨transactionIndex, G.length⟩ (.transaction (nextEntry cfg G r))).setNextId
      transactionIndex (G.length + 1)).set ⟨statisticsIndex, r.account⟩
    (.statistics ⟨G.length, (numbered G r.account).length + 1, k r.account⟩)

/-- The database without the entry `p`, the oldest of its account, after which `q` comes. -/
def withoutOldest (a p q : ℕ) (e : AccountTransactionHistory) :
    ObjectDatabase (HistoryObject α ρ) :=
  ((db.erase ⟨transactionIndex, p⟩).set ⟨statisticsIndex, a⟩
      (.statistics ⟨newest G a, (numbered G a).length, k a + 1⟩)).set ⟨transactionIndex, q⟩
    (.transaction { e with next := nullId })

variable {cfg G k db} {r : Record α ρ} {a b n p q : ℕ} {e e' : AccountTransactionHistory}

lemma find_withRecord_transaction : (withRecord cfg G k db r).find ⟨transactionIndex, n⟩ =
    if n = G.length then some (.transaction (nextEntry cfg G r))
    else db.find ⟨transactionIndex, n⟩ := by
  have hne : transactionIndex ≠ statisticsIndex := by decide
  simp [withRecord, ObjectDatabase.find_set, hne]

lemma find_withRecord_statistics : (withRecord cfg G k db r).find ⟨statisticsIndex, b⟩ =
    if b = r.account then
      some (.statistics ⟨G.length, (numbered G r.account).length + 1, k r.account⟩)
    else db.find ⟨statisticsIndex, b⟩ := by
  have hne : statisticsIndex ≠ transactionIndex := by decide
  simp [withRecord, ObjectDatabase.find_set, hne]

lemma find_withRecord_operation : (withRecord cfg G k db r).find ⟨operationIndex, n⟩ =
    db.find ⟨operationIndex, n⟩ := by
  have hne : operationIndex ≠ statisticsIndex := by decide
  have hne' : operationIndex ≠ transactionIndex := by decide
  simp [withRecord, ObjectDatabase.find_set, hne, hne']

lemma find_withoutOldest_transaction : (withoutOldest G k db a p q e).find ⟨transactionIndex, n⟩ =
    if n = q then some (.transaction { e with next := nullId })
    else if n = p then none else db.find ⟨transactionIndex, n⟩ := by
  have hne : transactionIndex ≠ statisticsIndex := by decide
  simp [withoutOldest, ObjectDatabase.find_set, ObjectDatabase.find_erase, hne]

lemma find_withoutOldest_statistics : (withoutOldest G k db a p q e).find ⟨statisticsIndex, b⟩ =
    if b = a then some (.statistics ⟨newest G a, (numbered G a).length, k a + 1⟩)
    else db.find ⟨statisticsIndex, b⟩ := by
  have hne : statisticsIndex ≠ transactionIndex := by decide
  simp [withoutOldest, ObjectDatabase.find_set, ObjectDatabase.find_erase, hne]

lemma find_withoutOldest_operation : (withoutOldest G k db a p q e).find ⟨operationIndex, n⟩ =
    db.find ⟨operationIndex, n⟩ := by
  have hne : operationIndex ≠ statisticsIndex := by decide
  have hne' : operationIndex ≠ transactionIndex := by decide
  simp [withoutOldest, ObjectDatabase.find_set, ObjectDatabase.find_erase, hne, hne']

/-- **One more record.** Its entry comes to the end of the list. -/
lemma Lists.withRecord (h : Lists cfg G k db) (hstats : HasStatistics db r.account)
    (hk : k r.account ≤ (numbered G r.account).length)
    (hempty : k r.account = (numbered G r.account).length → numbered G r.account = []) :
    Lists cfg (G ++ [r]) k (withRecord cfg G k db r) := by
  obtain ⟨st, hst⟩ := hstats
  refine ⟨?_, ?_, fun n e => ?_, fun b st' hst' => ?_⟩
  · have hcreate := h.fresh.create transactionIndex (.transaction (nextEntry cfg G r))
    rw [h.next] at hcreate
    refine hcreate.set ?_ _
    have hlt := h.fresh _ _ hst
    simpa [ObjectDatabase.nextId_setNextId, show statisticsIndex ≠ transactionIndex by decide]
      using hlt
  · rw [AccountHistory.withRecord, ObjectDatabase.nextId_set, ObjectDatabase.nextId_setNextId,
      if_pos rfl, List.length_append, List.length_singleton]
  · rw [find_withRecord_transaction]
    have hfree : db.find ⟨transactionIndex, G.length⟩ = none := by
      rw [← h.next]
      exact h.fresh.find_next transactionIndex
    by_cases hacc : r.account = e.account
    · rw [← hacc, stored_append_self cfg r hk hempty, List.mem_append, List.mem_singleton, hacc,
        ← h.entry n e]
      split_ifs with hn
      · simp [hn, hfree, nextEntry, hacc, eq_comm]
      · simp [hn]
    · rw [stored_append_of_ne cfg hacc, ← h.entry n e]
      split_ifs with hn
      · rw [hn, hfree]
        simp only [Option.some.injEq, HistoryObject.transaction.injEq, reduceCtorEq, iff_false]
        rintro rfl
        exact hacc rfl
      · rfl
  · rw [find_withRecord_statistics] at hst'
    split_ifs at hst' with hb
    · cases hst'
      rw [hb, newest_append_self, numbered_append, if_pos rfl, List.length_append,
        List.length_singleton]
    · rw [h.stats b st' hst', newest_append_of_ne (Ne.symm hb), numbered_append_of_ne (Ne.symm hb)]

/-- **One entry less.** The oldest entry of a list goes, and the next one becomes its end. -/
lemma Lists.withoutOldest (h : Lists cfg G k db) (hstats : HasStatistics db a)
    {rest : List (ℕ × AccountTransactionHistory)}
    (hstored : stored cfg G (k a) a = (p, e) :: (q, e') :: rest) :
    Lists cfg G (Function.update k a (k a + 1)) (withoutOldest G k db a p q e') := by
  obtain ⟨st, hst⟩ := hstats
  have hmemp : (p, e) ∈ stored cfg G (k a) a := by simp [hstored]
  have hp : db.find ⟨transactionIndex, p⟩ = some (.transaction e) :=
    (h.entry p e).mpr (account_of_mem_stored cfg hmemp ▸ hmemp)
  have hmemq : (q, e') ∈ stored cfg G (k a) a := by simp [hstored]
  have hq : db.find ⟨transactionIndex, q⟩ = some (.transaction e') :=
    (h.entry q e').mpr (account_of_mem_stored cfg hmemq ▸ hmemq)
  have htail := stored_succ cfg hstored
  have hsorted := stored_sorted cfg (G := G) (k := k a) (a := a)
  rw [hstored, List.map_cons, List.map_cons, List.pairwise_cons, List.pairwise_cons] at hsorted
  have hprest : ∀ x ∈ rest, x.1 ≠ p := fun x hx =>
    (hsorted.1 x.1 (List.mem_cons_of_mem _ (List.mem_map_of_mem hx))).ne'
  have hqrest : ∀ x ∈ rest, x.1 ≠ q := fun x hx =>
    (hsorted.2.1 x.1 (List.mem_map_of_mem hx)).ne'
  refine ⟨?_, ?_, fun n f => ?_, fun b st' hst' => ?_⟩
  · refine ((h.fresh.erase _).set ?_ _).set ?_ _
    · exact h.fresh _ _ hst
    · exact h.fresh _ _ hq
  · exact h.next
  · rw [find_withoutOldest_transaction]
    by_cases hacc : f.account = a
    · rw [hacc, Function.update_self, htail, List.mem_cons, Prod.mk.injEq]
      have hold := h.entry n f
      rw [hacc, hstored, List.mem_cons, List.mem_cons, Prod.mk.injEq, Prod.mk.injEq] at hold
      split_ifs with hnq hnp
      · subst hnq
        have hnot : (n, f) ∉ rest := fun hf => hqrest _ hf rfl
        simp [hnot, eq_comm]
      · subst hnp
        have hnot : (n, f) ∉ rest := fun hf => hprest _ hf rfl
        simp [hnot, hnq]
      · simpa [hnq, hnp] using hold
    · rw [Function.update_of_ne hacc, ← h.entry n f]
      split_ifs with hnq hnp
      · subst hnq
        rw [hq]
        simp only [Option.some.injEq, HistoryObject.transaction.injEq]
        constructor
        · rintro rfl
          exact absurd (account_of_mem_stored cfg hmemq) hacc
        · rintro rfl
          exact absurd (account_of_mem_stored cfg hmemq) hacc
      · subst hnp
        rw [hp]
        simp only [Option.some.injEq, HistoryObject.transaction.injEq, false_iff]
        rintro rfl
        exact absurd (account_of_mem_stored cfg hmemp) hacc
      · rfl
  · rw [find_withoutOldest_statistics] at hst'
    split_ifs at hst' with hb
    · cases hst'
      rw [hb, Function.update_self]
    · rw [h.stats b st' hst', Function.update_of_ne hb]

end Steps

/-! ### The operations that the lists refer to -/

/-- How many of the records of an account have been removed. -/
def surplus (G : List (Record α ρ)) (a : ℕ) : ℕ := (numbered G a).length - cfg.maxOpsPerAccount

/-- The records whose entries are there. -/
def kept (G : List (Record α ρ)) (k a : ℕ) : List (Record α ρ × ℕ) := (numbered G a).drop k

/-- The operations that the lists refer to have their objects. With `partial_operations` no other
operation has, apart from the one that is being processed. -/
structure Objects (G : List (Record α ρ)) (k : ℕ → ℕ) (current : Option ℕ)
    (db : ObjectDatabase (HistoryObject α ρ)) : Prop where
  present : ∀ a, ∀ x ∈ kept G (k a) a,
    db.find ⟨operationIndex, x.1.opId⟩ = some (.operation x.1.history)
  only : cfg.partialOperations = true → ∀ n v, db.find ⟨operationIndex, n⟩ = some v →
    current = some n ∨ ∃ a, ∃ x ∈ kept G (k a) a, x.1.opId = n
  below : ∀ r ∈ G, r.opId < db.nextId operationIndex

section Operations

variable {cfg} {G : List (Record α ρ)} {k : ℕ → ℕ} {current : Option ℕ}
  {s : Store (HistoryObject α ρ)} {a p q : ℕ} {e e' : AccountTransactionHistory}

/-- What the end of `add_account_history` does before it looks at the operation. -/
lemma trimHistory_eq (h : Lists cfg G k s.objs) (hstats : HasStatistics s.objs a)
    {rest : List (ℕ × AccountTransactionHistory)}
    (hstored : stored cfg G (k a) a = (p, e) :: (q, e') :: rest) {ath : ℕ} (hp : p ≠ ath)
    (hk : k a + 1 < 2 ^ 32) :
    ∃ u, trimHistory cfg a ath ⟨newest G a, (numbered G a).length, k a⟩ s =
      (if cfg.partialOperations then removeUnreferenced e.operationId else pure ())
        ⟨withoutOldest G k s.objs a p q e', u⟩ := by
  obtain ⟨st, hst⟩ := hstats
  have hmemp : (p, e) ∈ stored cfg G (k a) a := by simp [hstored]
  have hmemq : (q, e') ∈ stored cfg G (k a) a := by simp [hstored]
  have hfp : s.objs.find ⟨transactionIndex, p⟩ = some (.transaction e) :=
    (h.entry p e).mpr (account_of_mem_stored cfg hmemp ▸ hmemp)
  have hfq : s.objs.find ⟨transactionIndex, q⟩ = some (.transaction e') :=
    (h.entry q e').mpr (account_of_mem_stored cfg hmemq ▸ hmemq)
  have hsorted := stored_sorted cfg (G := G) (k := k a) (a := a)
  rw [hstored, List.map_cons, List.map_cons, List.pairwise_cons, List.pairwise_cons] at hsorted
  have hpq : p ≠ q := (hsorted.1 q List.mem_cons_self).ne
  have hne : transactionIndex ≠ statisticsIndex := by decide
  -- the three calls, one after the other
  have hs₁ := remove_eq hfp
  set s₁ := removed s ⟨transactionIndex, p⟩ (.transaction e)
  have hst₁ : s₁.objs.find ⟨statisticsIndex, a⟩ = some (.statistics st) := by
    simpa [s₁, removed, ObjectDatabase.find_erase, hne.symm] using hst
  have hs₂ := modify_eq hst₁
    (.statistics ⟨newest G a, (numbered G a).length, (k a + 1) % 2 ^ 32⟩)
  set s₂ := modified s₁ ⟨statisticsIndex, a⟩ (.statistics st)
    (.statistics ⟨newest G a, (numbered G a).length, (k a + 1) % 2 ^ 32⟩)
  have hfq₂ : s₂.objs.find ⟨transactionIndex, q⟩ = some (.transaction e') := by
    simpa [s₂, s₁, modified, removed, ObjectDatabase.find_set, ObjectDatabase.find_erase, hne,
      hpq.symm] using hfq
  have hs₃ := modify_eq hfq₂ (.transaction { e' with next := nullId })
  refine ⟨(modified s₂ ⟨transactionIndex, q⟩ (.transaction e')
    (.transaction { e' with next := nullId })).undo, ?_⟩
  rw [trimHistory, Exec.bind_ok (Exec.gets_apply _ s), h.bySeq_eq, hstored]
  simp only [if_neg hp]
  rw [Exec.bind_ok hs₁, Exec.bind_ok hs₂, Exec.bind_ok hs₃]
  simp only [modified, s₂, s₁, removed, Nat.mod_eq_of_lt hk, withoutOldest]

/-- What `add_account_history` does before it looks whether there are too many entries. -/
lemma addAccountHistory_eq (h : Lists cfg G k s.objs) {r : Record α ρ}
    (hstats : HasStatistics s.objs r.account) (hk : k r.account ≤ (numbered G r.account).length)
    (hnew : ∀ r' ∈ G, r'.opId = r.opId → r'.account ≠ r.account)
    (hcount : (numbered G r.account).length + 1 < 2 ^ 32) :
    ∃ u, addAccountHistory cfg r.account r.opId (cfg.which r.history.op) s =
      (if cfg.maxOpsPerAccount < (numbered G r.account).length + 1 - k r.account then
        trimHistory cfg r.account G.length
          ⟨G.length, (numbered G r.account).length + 1, k r.account⟩
      else pure ()) ⟨withRecord cfg G k s.objs r, u⟩ := by
  obtain ⟨st, hst⟩ := hstats
  obtain rfl := h.stats _ _ hst
  have hclash : ¬ Clash s.objs (nextEntry cfg G r) :=
    h.not_clash hk hnew rfl (newest G r.account)
  have hs₁ := createObject_eq h.fresh transactionIndex (.transaction (nextEntry cfg G r))
  rw [h.next] at hs₁
  have hcreate : createTransaction (nextEntry cfg G r) s =
      (.ok G.length, created s transactionIndex (.transaction (nextEntry cfg G r))) := by
    rw [createTransaction, Exec.bind_ok (Exec.gets_apply _ s)]
    have hcheck : (Exec.check (¬ Clash s.objs (nextEntry cfg G r)) (.db .uniqueness) :
        HistoryExec α ρ Unit) s = (.ok (), s) := by
      rw [Exec.check_apply, if_pos hclash]
    rw [Exec.bind_ok hcheck, hs₁]
  set s₁ := created s transactionIndex (.transaction (nextEntry cfg G r))
  have hne : statisticsIndex ≠ transactionIndex := by decide
  have hst₁ : s₁.objs.find ⟨statisticsIndex, r.account⟩ =
      some (.statistics ⟨newest G r.account, (numbered G r.account).length, k r.account⟩) := by
    simpa [s₁, created, ObjectDatabase.find_set, hne] using hst
  have hs₂ := modify_eq hst₁
    (.statistics ⟨G.length, (numbered G r.account).length + 1, k r.account⟩)
  have hdiff : ((numbered G r.account).length + 1 + 2 ^ 32 - k r.account) % 2 ^ 32 =
      (numbered G r.account).length + 1 - k r.account := by omega
  set s₂ := modified s₁ ⟨statisticsIndex, r.account⟩
    (.statistics ⟨newest G r.account, (numbered G r.account).length, k r.account⟩)
    (.statistics ⟨G.length, (numbered G r.account).length + 1, k r.account⟩)
  have hobjs : s₂.objs = withRecord cfg G k s.objs r := by
    simp only [s₂, modified, s₁, created, withRecord, h.next]
  refine ⟨s₂.undo, ?_⟩
  rw [addAccountHistory, Exec.bind_ok (getStatistics_eq hst)]
  simp only [Nat.mod_eq_of_lt hcount]
  change (createTransaction (nextEntry cfg G r) >>= _) s = _
  rw [Exec.bind_ok hcreate, Exec.bind_ok hs₂, hdiff, ← hobjs]

lemma mem_kept_append {r : Record α ρ} {j : ℕ} {x : Record α ρ × ℕ}
    (h : x ∈ kept (G ++ [r]) j a) : x ∈ kept G j a ∨ x.1 = r := by
  rw [kept, numbered_append, List.drop_append, List.mem_append] at h
  refine h.imp_right fun hx => ?_
  have hx := List.mem_of_mem_drop hx
  split_ifs at hx
  · rw [List.mem_singleton.mp hx]
  · simp at hx

lemma kept_subset_append {r : Record α ρ} {j : ℕ} : kept G j a ⊆ kept (G ++ [r]) j a := by
  intro x hx
  rw [kept, numbered_append, List.drop_append]
  exact List.mem_append_left _ hx

/-- The operation that is being processed has its object already. -/
lemma Objects.withRecord {db : ObjectDatabase (HistoryObject α ρ)} {r : Record α ρ}
    (h : Objects cfg G k current db)
    (hr : db.find ⟨operationIndex, r.opId⟩ = some (.operation r.history))
    (hbelow : r.opId < db.nextId operationIndex) :
    Objects cfg (G ++ [r]) k current (withRecord cfg G k db r) := by
  have hne : operationIndex ≠ transactionIndex := by decide
  refine ⟨fun a x hx => ?_, fun hpart n v hv => ?_, fun r' hr' => ?_⟩
  · rw [find_withRecord_operation]
    rcases mem_kept_append hx with hx | rfl
    · exact h.present a x hx
    · exact hr
  · rw [find_withRecord_operation] at hv
    refine (h.only hpart n v hv).imp_right fun ⟨a, x, hx, hn⟩ => ?_
    exact ⟨a, x, kept_subset_append hx, hn⟩
  · have hnext : (AccountHistory.withRecord cfg G k db r).nextId operationIndex =
        db.nextId operationIndex := by
      rw [AccountHistory.withRecord, ObjectDatabase.nextId_set, ObjectDatabase.nextId_setNextId,
        if_neg hne, ObjectDatabase.nextId_set]
    rw [hnext]
    rcases List.mem_append.mp hr' with hr' | hr'
    · exact h.below r' hr'
    · rw [List.mem_singleton.mp hr']
      exact hbelow

/-- The lists are not concerned by the removal of an operation. -/
lemma Lists.eraseOperation {db : ObjectDatabase (HistoryObject α ρ)} (h : Lists cfg G k db)
    (o : ℕ) : Lists cfg G k (db.erase ⟨operationIndex, o⟩) := by
  have hne : transactionIndex ≠ operationIndex := by decide
  have hne' : statisticsIndex ≠ operationIndex := by decide
  refine ⟨h.fresh.erase _, h.next, fun n e => ?_, fun a st hst => ?_⟩
  · rw [ObjectDatabase.find_erase, if_neg (by simp [hne])]
    exact h.entry n e
  · rw [ObjectDatabase.find_erase, if_neg (by simp [hne'])] at hst
    exact h.stats a st hst

/-- What is left of the lists when the entry of the operation `o` has gone, until it is seen to
that the operation goes too where no other list has it. -/
structure Objects.Except (cfg : HistoryConfig α ρ) (G : List (Record α ρ)) (k : ℕ → ℕ)
    (current : Option ℕ) (o : ℕ) (db : ObjectDatabase (HistoryObject α ρ)) : Prop where
  present : ∀ a, ∀ x ∈ kept G (k a) a,
    db.find ⟨operationIndex, x.1.opId⟩ = some (.operation x.1.history)
  only : cfg.partialOperations = true → ∀ n v, db.find ⟨operationIndex, n⟩ = some v →
    current = some n ∨ (∃ a, ∃ x ∈ kept G (k a) a, x.1.opId = n) ∨ n = o
  below : ∀ r ∈ G, r.opId < db.nextId operationIndex

/-- The operation goes if no list refers to it. -/
lemma removeUnreferenced_eq {o : ℕ} (hl : Lists cfg G k s.objs)
    (h : Objects.Except cfg G k current o s.objs) {v : HistoryObject α ρ}
    (ho : s.objs.find ⟨operationIndex, o⟩ = some v) :
    ∃ s', (if cfg.partialOperations then removeUnreferenced o else pure ()) s = (.ok (), s') ∧
      Lists cfg G k s'.objs ∧ Objects cfg G k current s'.objs ∧
      (s'.objs = s.objs ∨ s'.objs = s.objs.erase ⟨operationIndex, o⟩) := by
  cases hpart : cfg.partialOperations with
  | false =>
      refine ⟨s, rfl, hl, ⟨h.present, fun hp => ?_, h.below⟩, .inl rfl⟩
      rw [hpart] at hp
      cases hp
  | true =>
      simp only [if_true]
      rw [removeUnreferenced, Exec.bind_ok (Exec.gets_apply _ s)]
      by_cases href : Referenced s.objs o
      · rw [if_pos href]
        refine ⟨s, rfl, hl, ⟨h.present, fun hp n v hv => ?_, h.below⟩, .inl rfl⟩
        refine (h.only hp n v hv).imp_right fun hn => ?_
        rcases hn with hn | rfl
        · exact hn
        · exact hl.referenced_iff.mp href
      · rw [if_neg href]
        refine ⟨_, remove_eq ho, hl.eraseOperation o, ⟨fun a x hx => ?_, fun hp n v hv => ?_,
          h.below⟩, .inr rfl⟩
        · have hxo : x.1.opId ≠ o := by
            rintro rfl
            exact href (hl.referenced_iff.mpr ⟨a, x, hx, rfl⟩)
          rw [removed, ObjectDatabase.find_erase, if_neg (by simp [hxo])]
          exact h.present a x hx
        · rw [removed, ObjectDatabase.find_erase] at hv
          split_ifs at hv with hno
          refine (h.only hp n v hv).imp_right fun hn => hn.resolve_right ?_
          rintro rfl
          exact hno rfl

/-- The oldest entry of a list is that of the first of its records. -/
lemma kept_of_stored {j : ℕ} {l : List (ℕ × AccountTransactionHistory)}
    (h : stored cfg G j a = (p, e) :: l) :
    ∃ r, kept G j a = (r, p) :: kept G (j + 1) a ∧ r.opId = e.operationId ∧ r.account = a := by
  have htail : kept G (j + 1) a = (kept G j a).tail := by rw [kept, kept, List.tail_drop]
  change chain cfg (j + 1) nullId (kept G j a) = _ at h
  cases hkept : kept G j a with
  | nil => simp [hkept] at h
  | cons x rest =>
      rw [hkept, chain_cons] at h
      obtain ⟨hx, -⟩ := List.cons.inj h
      obtain ⟨rfl, rfl⟩ := Prod.mk.inj hx
      have hmem : x ∈ kept G j a := by simp [hkept]
      refine ⟨x.1, ?_, rfl, (mem_numbered.mp (List.mem_of_mem_drop hmem)).2⟩
      rw [htail, hkept, List.tail_cons]

lemma Objects.withoutOldest {db : ObjectDatabase (HistoryObject α ρ)}
    (h : Objects cfg G k current db) {l : List (ℕ × AccountTransactionHistory)}
    (hstored : stored cfg G (k a) a = (p, e) :: l) :
    Objects.Except cfg G (Function.update k a (k a + 1)) current e.operationId
      (withoutOldest G k db a p q e') := by
  obtain ⟨r, hkept, hop, -⟩ := kept_of_stored hstored
  refine ⟨fun b x hx => ?_, fun hp n v hv => ?_, h.below⟩
  · rw [find_withoutOldest_operation]
    refine h.present b x ?_
    by_cases hb : b = a
    · subst hb
      rw [Function.update_self] at hx
      rw [hkept]
      exact List.mem_cons_of_mem _ hx
    · rwa [Function.update_of_ne hb] at hx
  · rw [find_withoutOldest_operation] at hv
    refine (h.only hp n v hv).imp_right fun ⟨b, x, hx, hn⟩ => ?_
    by_cases hb : b = a
    · subst hb
      rw [hkept, List.mem_cons] at hx
      rcases hx with rfl | hx
      · exact .inr (hn.symm.trans hop)
      · exact .inl ⟨b, x, by rwa [Function.update_self], hn⟩
    · exact .inl ⟨b, x, by rwa [Function.update_of_ne hb], hn⟩

/-- **The end of `add_account_history`**, where an account has two entries or more. The oldest of
them is not that of `ath`, and only its operation may go with it. -/
lemma trimHistory_spec (hl : Lists cfg G k s.objs) (hob : Objects cfg G k current s.objs)
    (hstats : HasStatistics s.objs a) (htwo : k a + 1 < (numbered G a).length) {ath : ℕ}
    (hath : ∀ x ∈ numbered G a, x.2 ≤ ath) (hlength : (numbered G a).length < 2 ^ 32) :
    ∃ s', trimHistory cfg a ath ⟨newest G a, (numbered G a).length, k a⟩ s = (.ok (), s') ∧
      Lists cfg G (Function.update k a (k a + 1)) s'.objs ∧
      Objects cfg G (Function.update k a (k a + 1)) current s'.objs ∧
      (∀ b, HasStatistics s.objs b → HasStatistics s'.objs b) ∧
      (∀ i, s'.objs.nextId i = s.objs.nextId i) ∧
      ∃ x ∈ numbered G a, x.2 < ath ∧ ∀ n, n ≠ x.1.opId →
        s'.objs.find ⟨operationIndex, n⟩ = s.objs.find ⟨operationIndex, n⟩ := by
  have hlen : (stored cfg G (k a) a).length = (numbered G a).length - k a := by
    rw [stored, length_chain, List.length_drop]
  obtain ⟨⟨p, e⟩, ⟨q, e'⟩, rest, hstored⟩ :
      ∃ x y rest, stored cfg G (k a) a = x :: y :: rest := by
    match hst : stored cfg G (k a) a with
    | [] => rw [hst, List.length_nil] at hlen; omega
    | [_] => rw [hst, List.length_singleton] at hlen; omega
    | x :: y :: rest => exact ⟨x, y, rest, rfl⟩
  have hsorted := stored_sorted cfg (G := G) (k := k a) (a := a)
  rw [hstored, List.map_cons, List.map_cons, List.pairwise_cons] at hsorted
  have hpq : p < q := hsorted.1 q List.mem_cons_self
  obtain ⟨r', seq, next, hmemq, -⟩ : ∃ r seq next, (r, q) ∈ (numbered G a).drop (k a) ∧
      r.account = a ∧ e' = r.entry cfg seq next := mem_stored cfg (by simp [hstored])
  have hqath : q ≤ ath := hath (r', q) (List.mem_of_mem_drop hmemq)
  obtain ⟨r₀, hkept, hop, -⟩ := kept_of_stored hstored
  have hmem : (r₀, p) ∈ kept G (k a) a := by simp [hkept]
  have hne : p ≠ ath := by omega
  obtain ⟨u, htrim⟩ := trimHistory_eq hl hstats hstored hne (by omega)
  have hl' := hl.withoutOldest hstats hstored
  have hob' : Objects.Except cfg G (Function.update k a (k a + 1)) current e.operationId
      (withoutOldest G k s.objs a p q e') := hob.withoutOldest hstored
  have ho : (withoutOldest G k s.objs a p q e').find ⟨operationIndex, e.operationId⟩ =
      some (.operation r₀.history) := by
    rw [find_withoutOldest_operation, ← hop]
    exact hob.present _ _ hmem
  obtain ⟨s', hrun, hlists, hobjects, hs'⟩ :=
    removeUnreferenced_eq (s := ⟨withoutOldest G k s.objs a p q e', u⟩) hl' hob' ho
  have hne' : statisticsIndex ≠ operationIndex := by decide
  refine ⟨s', htrim.trans hrun, hlists, hobjects, ?_, ?_, (r₀, p), List.mem_of_mem_drop hmem,
    by omega, ?_⟩
  · rintro b ⟨st, hst⟩
    have hfind : s'.objs.find ⟨statisticsIndex, b⟩ =
        (withoutOldest G k s.objs a p q e').find ⟨statisticsIndex, b⟩ := by
      rcases hs' with hs' | hs'
      · rw [hs']
      · rw [hs', ObjectDatabase.find_erase, if_neg (by simp [hne'])]
    rw [HasStatistics, hfind, find_withoutOldest_statistics]
    split_ifs
    · exact ⟨_, rfl⟩
    · exact ⟨st, hst⟩
  · intro i
    rcases hs' with hs' | hs' <;> rw [hs'] <;> rfl
  · intro n hn
    have hfind : s'.objs.find ⟨operationIndex, n⟩ =
        (withoutOldest G k s.objs a p q e').find ⟨operationIndex, n⟩ := by
      rcases hs' with hs' | hs'
      · rw [hs']
      · rw [hs', ObjectDatabase.find_erase, if_neg (by simpa [← hop] using hn)]
    rw [hfind, find_withoutOldest_operation]

/-- The database holds what the log says, each account having as many entries as it may. -/
structure Described (cfg : HistoryConfig α ρ) (G : List (Record α ρ)) (current : Option ℕ)
    (db : ObjectDatabase (HistoryObject α ρ)) : Prop where
  lists : Lists cfg G (surplus cfg G) db
  objects : Objects cfg G (surplus cfg G) current db

/-- **One call of `add_account_history`.** The operation `r.opId` is being processed, and the
account has no record of it yet. -/
theorem addAccountHistory_described (hm : 0 < cfg.maxOpsPerAccount) {r : Record α ρ}
    (h : Described cfg G (some r.opId) s.objs) (hstats : HasStatistics s.objs r.account)
    (hr : s.objs.find ⟨operationIndex, r.opId⟩ = some (.operation r.history))
    (hnew : ∀ r' ∈ G, r'.opId = r.opId → r'.account ≠ r.account)
    (hcount : (numbered G r.account).length + 1 < 2 ^ 32) :
    ∃ s', addAccountHistory cfg r.account r.opId (cfg.which r.history.op) s = (.ok (), s') ∧
      Described cfg (G ++ [r]) (some r.opId) s'.objs ∧
      s'.objs.find ⟨operationIndex, r.opId⟩ = some (.operation r.history) ∧
      (∀ b, HasStatistics s.objs b → HasStatistics s'.objs b) ∧
      ∀ i, i ≠ transactionIndex → s'.objs.nextId i = s.objs.nextId i := by
  have hk : surplus cfg G r.account ≤ (numbered G r.account).length := Nat.sub_le _ _
  have hempty : surplus cfg G r.account = (numbered G r.account).length →
      numbered G r.account = [] := by
    intro heq
    rw [surplus] at heq
    exact List.eq_nil_of_length_eq_zero (by omega)
  obtain ⟨u, hadd⟩ := addAccountHistory_eq h.lists hstats hk hnew hcount
  have hlists := h.lists.withRecord hstats hk hempty
  have hobjects := h.objects.withRecord hr (h.lists.fresh _ _ hr)
  have hlength : (numbered (G ++ [r]) r.account).length = (numbered G r.account).length + 1 := by
    simp [numbered_append]
  have hothers : ∀ b, b ≠ r.account → surplus cfg (G ++ [r]) b = surplus cfg G b := by
    intro b hb
    rw [surplus, numbered_append_of_ne (Ne.symm hb), surplus]
  have hhas : ∀ b, HasStatistics s.objs b →
      HasStatistics (withRecord cfg G (surplus cfg G) s.objs r) b := by
    rintro b ⟨st, hst⟩
    rw [HasStatistics, find_withRecord_statistics]
    split_ifs
    · exact ⟨_, rfl⟩
    · exact ⟨st, hst⟩
  have hnext : ∀ i, i ≠ transactionIndex →
      (withRecord cfg G (surplus cfg G) s.objs r).nextId i = s.objs.nextId i := by
    intro i hi
    rw [withRecord, ObjectDatabase.nextId_set, ObjectDatabase.nextId_setNextId, if_neg hi,
      ObjectDatabase.nextId_set]
  rw [hadd]
  split_ifs with hmany
  · have hath : ∀ x ∈ numbered (G ++ [r]) r.account, x.2 ≤ G.length := by
      intro x hx
      have := lt_of_mem_numbered hx
      rw [List.length_append, List.length_singleton] at this
      omega
    obtain ⟨s', htrim, hl, hob, hhas', hnext', x, hx, hlt, hfind⟩ :=
      trimHistory_spec (s := ⟨withRecord cfg G (surplus cfg G) s.objs r, u⟩) hlists hobjects
        (hhas _ hstats) (by omega) hath (by omega)
    rw [newest_append_self, hlength] at htrim
    have hsurplus : Function.update (surplus cfg G) r.account (surplus cfg G r.account + 1) =
        surplus cfg (G ++ [r]) := by
      funext b
      by_cases hb : b = r.account
      · rw [hb, Function.update_self, surplus, surplus, hlength]
        rw [surplus] at hmany
        omega
      · rw [Function.update_of_ne hb, hothers b hb]
    rw [hsurplus] at hl hob
    -- the operation that is being processed is not the one that goes
    have hcur : r.opId ≠ x.1.opId := by
      intro heq
      obtain ⟨hin, hacc⟩ := mem_numbered.mp hx
      rw [List.getElem?_append_left hlt] at hin
      exact hnew x.1 (List.mem_of_getElem? hin) heq.symm hacc
    refine ⟨s', htrim, ⟨hl, hob⟩, ?_, fun b hb => hhas' b (hhas b hb), fun i hi => ?_⟩
    · rw [hfind _ hcur, find_withRecord_operation]
      exact hr
    · rw [hnext' i, hnext i hi]
  · have hsurplus : surplus cfg (G ++ [r]) = surplus cfg G := by
      funext b
      by_cases hb : b = r.account
      · rw [hb, surplus, hlength, surplus]
        rw [surplus] at hmany
        omega
      · exact hothers b hb
    refine ⟨_, rfl, ⟨?_, ?_⟩, ?_, hhas, hnext⟩
    · rw [hsurplus]
      exact hlists
    · rw [hsurplus]
      exact hobjects
    · rw [find_withRecord_operation]
      exact hr

end Operations

end ZosCore.AccountHistory
