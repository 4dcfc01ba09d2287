import ZosCore.Plugins.HistoryLists

/-!
The account history lists over runs of blocks.

What a block records follows from the block and the configuration alone: `recordedOps` lists
the accounts and the operations in the order in which they come. The lists that the plugin
keeps are compared with it.

* `updateAccountHistories_described`, `run_described`: after any run of blocks whose
  operations concern accounts that exist, the database holds what the log of the run says.
* `Exact`: the list of an account is exact: its entries have the sequence numbers after
  `removed_ops` up to `total_ops`, they are the last of the recorded operations, and the links
  lead from the newest one to the oldest one and no further.
* **`history_exact_iff`**: a list is exact exactly if the entry with the null id, the very first one
  of the index, does not stand in it.
-/

namespace ZosCore.AccountHistory

variable {α ρ : Type} (cfg : HistoryConfig α ρ)

/-! ### What is recorded -/

/-- The accounts to whose lists an applied operation is added, with the operation. -/
def recordedOf (timestamp : ℕ) : Option (OperationHistory α ρ) → List (ℕ × OperationHistory α ρ)
  | none => []
  | some h =>
      if Unrecorded cfg h then []
      else match impacted cfg h with
        | none => []
        | some accounts =>
            (recordingAccounts cfg accounts).map fun a => (a, { h with blockTime := timestamp })

/-- What a block records. -/
def recordedIn (b : AppliedBlock α ρ) : List (ℕ × OperationHistory α ρ) :=
  b.appliedOperations.flatMap (recordedOf cfg b.timestamp)

/-- What a run of blocks records. -/
def recordedOps (blocks : List (AppliedBlock α ρ)) : List (ℕ × OperationHistory α ρ) :=
  blocks.flatMap (recordedIn cfg)

/-- The recorded operations that concern an account. -/
def recordedFor (l : List (ℕ × OperationHistory α ρ)) (a : ℕ) : List (OperationHistory α ρ) :=
  (l.filter fun x => x.1 = a).map Prod.snd

/-- What evaluation sees to, where there are `n` accounts: an operation concerns accounts that
exist, and the result of the creation of an account is its id. -/
def Evaluated (n : ℕ) (o : Option (OperationHistory α ρ)) : Prop :=
  ∀ h, o = some h → ∃ accounts, impacted cfg h = some accounts ∧ ∀ a ∈ accounts, a < n

/-- All applied operations of a run have been evaluated, the first block starting with `n`
accounts. -/
def EvaluatedRun : ℕ → List (AppliedBlock α ρ) → Prop
  | _, [] => True
  | n, b :: bs => (∀ o ∈ b.appliedOperations, Evaluated cfg (n + b.newAccounts) o) ∧
      EvaluatedRun (n + b.newAccounts) bs

section Recorded

variable {cfg} {G : List (Record α ρ)} {s : Store (HistoryObject α ρ)}

lemma nodup_flatSet (l : List ℕ) : (flatSet l).Nodup :=
  (List.perm_insertionSort _ _).nodup_iff.mpr (List.nodup_dedup l)

lemma nodup_impacted {h : OperationHistory α ρ} {accounts : List ℕ}
    (hi : impacted cfg h = some accounts) : accounts.Nodup := by
  unfold impacted at hi
  simp only at hi
  split_ifs at hi
  · obtain ⟨a, -, rfl⟩ := Option.map_eq_some_iff.mp hi
    exact nodup_flatSet _
  · cases hi
    exact nodup_flatSet _

lemma nodup_recordingAccounts {accounts : List ℕ} (h : accounts.Nodup) :
    (recordingAccounts cfg accounts).Nodup := by
  rw [recordingAccounts]
  split_ifs
  · exact h
  · exact (cfg.trackedAccounts_sorted.imp fun h => h.ne).filter _

lemma mem_of_mem_recordingAccounts {accounts : List ℕ} {a : ℕ}
    (h : a ∈ recordingAccounts cfg accounts) : a ∈ accounts := by
  unfold recordingAccounts at h
  split_ifs at h
  · exact h
  · simpa using (List.mem_filter.mp h).2

/-- The accounts and the operations of the log. -/
def logged (G : List (Record α ρ)) : List (ℕ × OperationHistory α ρ) :=
  G.map fun r => (r.account, r.history)

/-- The records of an account are the recorded operations that concern it. -/
lemma recordedFor_logged (a : ℕ) :
    recordedFor (logged G) a = (numbered G a).map fun x => x.1.history := by
  induction G using List.reverseRecOn with
  | nil => rfl
  | append_singleton G r ih =>
      have hlog : logged (G ++ [r]) = logged G ++ [(r.account, r.history)] := by simp [logged]
      rw [hlog, recordedFor, List.filter_append, List.map_append, numbered_append, List.map_append,
        ← ih]
      by_cases hacc : r.account = a <;> simp [recordedFor, hacc]

lemma length_recordedFor_logged (a : ℕ) :
    (recordedFor (logged G) a).length = (numbered G a).length := by
  rw [recordedFor_logged, List.length_map]

lemma recordedFor_append (l l' : List (ℕ × OperationHistory α ρ)) (a : ℕ) :
    recordedFor (l ++ l') a = recordedFor l a ++ recordedFor l' a := by
  simp [recordedFor]

end Recorded

/-! ### The loop over the accounts -/

section Operations

variable {cfg} {G : List (Record α ρ)} {s : Store (HistoryObject α ρ)}

/-- An operation comes to the lists of all accounts that it concerns. -/
lemma addToLists_described (hm : 0 < cfg.maxOpsPerAccount) {cur : ℕ} {h : OperationHistory α ρ}
    {accounts : List ℕ} (hnodup : accounts.Nodup)
    (hd : Described cfg G (some cur) s.objs)
    (hstats : ∀ a ∈ accounts, HasStatistics s.objs a)
    (hcur : s.objs.find ⟨operationIndex, cur⟩ = some (.operation h))
    (hnew : ∀ r ∈ G, r.opId = cur → r.account ∉ accounts)
    (hcount : ∀ a ∈ accounts, (numbered G a).length + 1 < 2 ^ 32) :
    ∃ s', addToLists cfg accounts cur (cfg.which h.op) s = (.ok (), s') ∧
      Described cfg (G ++ accounts.map fun a => ⟨a, cur, h⟩) (some cur) s'.objs ∧
      (∀ b, HasStatistics s.objs b → HasStatistics s'.objs b) ∧
      ∀ i, i ≠ transactionIndex → s'.objs.nextId i = s.objs.nextId i := by
  induction accounts generalizing G s with
  | nil =>
      refine ⟨s, rfl, ?_, fun b hb => hb, fun i _ => rfl⟩
      rwa [List.map_nil, List.append_nil]
  | cons a accounts ih =>
      obtain ⟨hnot, hnodup⟩ := List.nodup_cons.mp hnodup
      obtain ⟨s₁, hadd, hd₁, hcur₁, hmono, hnext⟩ :=
        addAccountHistory_described (r := ⟨a, cur, h⟩) hm hd (hstats a List.mem_cons_self) hcur
          (fun r hr heq hacc => hnew r hr heq (by simp [hacc]))
          (hcount a List.mem_cons_self)
      have hnew₁ : ∀ r ∈ G ++ [⟨a, cur, h⟩], r.opId = cur → r.account ∉ accounts := by
        intro r hr heq hin
        rcases List.mem_append.mp hr with hr | hr
        · exact hnew r hr heq (List.mem_cons_of_mem _ hin)
        · rw [List.mem_singleton.mp hr] at hin
          exact hnot hin
      have hcount₁ : ∀ b ∈ accounts,
          (numbered (G ++ [(⟨a, cur, h⟩ : Record α ρ)]) b).length + 1 < 2 ^ 32 := by
        intro b hb
        have hne : a ≠ b := fun heq => hnot (heq ▸ hb)
        rw [numbered_append_of_ne hne]
        exact hcount b (List.mem_cons_of_mem _ hb)
      obtain ⟨s₂, hrest, hd₂, hmono₂, hnext₂⟩ := ih hnodup hd₁
        (fun b hb => hmono b (hstats b (List.mem_cons_of_mem _ hb))) hcur₁ hnew₁ hcount₁
      refine ⟨s₂, ?_, ?_, fun b hb => hmono₂ b (hmono b hb), fun i hi => ?_⟩
      · exact (Exec.bind_ok hadd).trans hrest
      · rw [List.map_cons, List.append_cons]
        exact hd₂
      · rw [hnext₂ i hi, hnext i hi]

/-! ### One operation -/

/-- An operation that a list has just been given needs not be looked after any more. -/
lemma Described.release (hm : 0 < cfg.maxOpsPerAccount) {r : Record α ρ}
    {db : ObjectDatabase (HistoryObject α ρ)} (h : Described cfg (G ++ [r]) (some r.opId) db) :
    Described cfg (G ++ [r]) none db := by
  refine ⟨h.lists, h.objects.present, fun hp n v hv => .inr ?_, h.objects.below⟩
  rcases h.objects.only hp n v hv with hn | hn
  · cases hn
    refine ⟨r.account, (r, G.length), ?_, rfl⟩
    rw [kept, surplus, numbered_append, if_pos rfl, List.drop_append_of_le_length]
    · exact List.mem_append_right _ List.mem_cons_self
    · rw [List.length_append, List.length_singleton]
      omega
  · exact hn

lemma Described.release_of_not_partial {db : ObjectDatabase (HistoryObject α ρ)} {c : Option ℕ}
    (h : Described cfg G c db) (hp : cfg.partialOperations = false) : Described cfg G none db := by
  refine ⟨h.lists, h.objects.present, fun hp' => ?_, h.objects.below⟩
  rw [hp] at hp'
  cases hp'

/-- An id that is used up without an object. -/
lemma Described.useNextId (h : Described cfg G none s.objs) :
    Described cfg G none
      (s.objs.setNextId operationIndex (s.objs.nextId operationIndex + 1)) := by
  have hne : transactionIndex ≠ operationIndex := by decide
  refine ⟨⟨fun id v hv => ?_, ?_, h.lists.entry, h.lists.stats⟩, h.objects.present, h.objects.only,
    fun r hr => ?_⟩
  · have hlt := h.lists.fresh id v hv
    rw [ObjectDatabase.nextId_setNextId]
    split_ifs with hi
    · rw [hi] at hlt
      omega
    · exact hlt
  · rw [ObjectDatabase.nextId_setNextId, if_neg hne]
    exact h.lists.next
  · have hlt := h.objects.below r hr
    rw [ObjectDatabase.nextId_setNextId, if_pos rfl]
    omega

/-- The object of an operation that is about to be recorded. -/
lemma Described.createOperation (h : Described cfg G none s.objs) (x : OperationHistory α ρ) :
    Described cfg G (some (s.objs.nextId operationIndex))
      (created s operationIndex (.operation x)).objs := by
  have hne : transactionIndex ≠ operationIndex := by decide
  have hne' : statisticsIndex ≠ operationIndex := by decide
  refine ⟨⟨h.lists.fresh.create _ _, ?_, fun n e => ?_, fun a st hst => ?_⟩, fun a y hy => ?_,
    fun hp n v hv => ?_, fun r hr => ?_⟩
  · rw [created, ObjectDatabase.nextId_setNextId, if_neg hne]
    exact h.lists.next
  · rw [created, ObjectDatabase.find_setNextId, ObjectDatabase.find_set, if_neg (by simp [hne])]
    exact h.lists.entry n e
  · rw [created, ObjectDatabase.find_setNextId, ObjectDatabase.find_set,
      if_neg (by simp [hne'])] at hst
    exact h.lists.stats a st hst
  · have hold := h.objects.present a y hy
    have hlt : y.1.opId < s.objs.nextId operationIndex := h.lists.fresh _ _ hold
    rw [created, ObjectDatabase.find_setNextId, ObjectDatabase.find_set, if_neg (by simp; omega)]
    exact hold
  · rw [created, ObjectDatabase.find_setNextId, ObjectDatabase.find_set] at hv
    split_ifs at hv with hn
    · exact .inl (by rw [(ObjectId.mk.inj hn).2])
    · exact (h.objects.only hp n v hv).imp_left fun hc => by cases hc
  · have hlt := h.objects.below r hr
    rw [created, ObjectDatabase.nextId_setNextId, if_pos rfl]
    omega

/-- The accounts with the instances below `n` are there, and no others. -/
structure HasAccounts (n : ℕ) (db : ObjectDatabase (HistoryObject α ρ)) : Prop where
  has : ∀ a < n, HasStatistics db a
  next : db.nextId statisticsIndex = n

/-- **One operation.** The records that it makes are those that its accounts call for. -/
theorem processOperation_described (hm : 0 < cfg.maxOpsPerAccount) {n : ℕ} {timestamp : ℕ}
    {o : Option (OperationHistory α ρ)} (hd : Described cfg G none s.objs)
    (ha : HasAccounts n s.objs) (ho : Evaluated cfg n o)
    (hcount : ∀ a, (recordedFor (logged G ++ recordedOf cfg timestamp o) a).length < 2 ^ 32) :
    ∃ s' G', processOperation cfg timestamp o s = (.ok (), s') ∧ Described cfg G' none s'.objs ∧
      logged G' = logged G ++ recordedOf cfg timestamp o ∧ HasAccounts n s'.objs := by
  cases o with
  | none => exact ⟨s, G, rfl, hd, by simp [recordedOf], ha⟩
  | some h =>
      obtain ⟨accounts, himpacted, hexist⟩ := ho h rfl
      by_cases hun : Unrecorded cfg h
      · refine ⟨s, G, ?_, hd, by simp [recordedOf, hun], ha⟩
        rw [processOperation, if_pos hun]
        rfl
      have hrec : recordedOf cfg timestamp (some h) = (recordingAccounts cfg accounts).map
          fun a => (a, { h with blockTime := timestamp }) := by
        rw [recordedOf, if_neg hun, himpacted]
      have hnodup : (recordingAccounts cfg accounts).Nodup :=
        nodup_recordingAccounts (nodup_impacted himpacted)
      have hnonzero : ¬ (cfg.maxOpsPerAccount = 0 ∧ cfg.partialOperations = true) := by omega
      have hrun : processOperation cfg timestamp (some h) =
          if cfg.partialOperations = true ∧ recordingAccounts cfg accounts = [] then useNextId
          else createOperation timestamp h >>= fun oho =>
            addToLists cfg (recordingAccounts cfg accounts) oho (cfg.which h.op) := by
        rw [processOperation, if_neg hun, if_neg hnonzero, himpacted]
        cases hp : cfg.partialOperations with
        | true => simp
        | false => simp [hm.ne']
      rw [hrun]
      split_ifs with hnone
      · refine ⟨_, G, rfl, hd.useNextId, by simp [hrec, hnone.2], ⟨ha.has, ?_⟩⟩
        have hne : statisticsIndex ≠ operationIndex := by decide
        rw [ObjectDatabase.nextId_setNextId, if_neg hne]
        exact ha.next
      · set h' : OperationHistory α ρ := { h with blockTime := timestamp } with hh'
        set cur := s.objs.nextId operationIndex with hcur
        have hcreate : createOperation timestamp h s =
            (.ok cur, created s operationIndex (.operation h')) := createObject_eq hd.lists.fresh _ _
        have hne : statisticsIndex ≠ operationIndex := by decide
        have hfind : ∀ a, (created s operationIndex (.operation h')).objs.find ⟨statisticsIndex, a⟩ =
            s.objs.find ⟨statisticsIndex, a⟩ := by
          intro a
          rw [created, ObjectDatabase.find_setNextId, ObjectDatabase.find_set, if_neg (by simp [hne])]
        have hlt : ∀ a ∈ recordingAccounts cfg accounts, a < n :=
          fun a ha' => hexist a (mem_of_mem_recordingAccounts ha')
        have hone : ∀ a ∈ recordingAccounts cfg accounts, (numbered G a).length + 1 < 2 ^ 32 := by
          intro a ha'
          have htotal := hcount a
          have hpos : 0 < (recordedFor (recordedOf cfg timestamp (some h)) a).length := by
            refine List.length_pos_of_mem (a := h') (List.mem_map.mpr ⟨(a, h'), ?_, rfl⟩)
            rw [hrec, List.mem_filter]
            exact ⟨List.mem_map_of_mem ha', by simp⟩
          rw [recordedFor_append, List.length_append, length_recordedFor_logged] at htotal
          omega
        obtain ⟨s', hadd, hd', hmono, hnext⟩ :=
          addToLists_described (s := created s operationIndex (.operation h')) (h := h') hm hnodup
            (hd.createOperation h')
            (fun a ha' => by rw [HasStatistics, hfind]; exact ha.has a (hlt a ha'))
            (by rw [created, ObjectDatabase.find_setNextId, ObjectDatabase.find_set_self])
            (fun r hr heq => absurd heq (hd.objects.below r hr).ne) hone
        refine ⟨s', G ++ (recordingAccounts cfg accounts).map fun a => ⟨a, cur, h'⟩,
          (Exec.bind_ok hcreate).trans hadd, ?_, ?_, fun a ha' => ?_, ?_⟩
        · cases hp : cfg.partialOperations with
          | false => exact hd'.release_of_not_partial hp
          | true =>
              have hsome : recordingAccounts cfg accounts ≠ [] := fun he => hnone ⟨hp, he⟩
              obtain ⟨init, last, hlast⟩ := List.eq_nil_or_concat _ |>.resolve_left hsome
              rw [hlast, List.concat_eq_append, List.map_append, List.map_singleton,
                ← List.append_assoc] at hd' ⊢
              exact hd'.release hm
        · rw [hrec, logged, List.map_append, List.map_map]
          rfl
        · refine hmono a ?_
          rw [HasStatistics, hfind]
          exact ha.has a ha'
        · rw [hnext _ (by decide), created, ObjectDatabase.nextId_setNextId, if_neg hne]
          exact ha.next

/-! ### Blocks -/

/-- The accounts of what is recorded are among the first `n`. -/
def Below (n : ℕ) (l : List (ℕ × OperationHistory α ρ)) : Prop := ∀ x ∈ l, x.1 < n

lemma below_recordedOf {n timestamp : ℕ} {o : Option (OperationHistory α ρ)}
    (ho : Evaluated cfg n o) : Below n (recordedOf cfg timestamp o) := by
  intro x hx
  cases o with
  | none => simp [recordedOf] at hx
  | some h =>
      obtain ⟨accounts, himpacted, hexist⟩ := ho h rfl
      rw [recordedOf, himpacted] at hx
      split_ifs at hx
      · simp at hx
      · obtain ⟨a, ha, rfl⟩ := List.mem_map.mp hx
        exact hexist a (mem_of_mem_recordingAccounts ha)

/-- **The operations of a block.** -/
lemma updateAccountHistories_described (hm : 0 < cfg.maxOpsPerAccount) {n : ℕ} {timestamp : ℕ}
    {ops : List (Option (OperationHistory α ρ))} (hd : Described cfg G none s.objs)
    (ha : HasAccounts n s.objs) (hops : ∀ o ∈ ops, Evaluated cfg n o)
    (hcount : ∀ a, (recordedFor (logged G ++ ops.flatMap (recordedOf cfg timestamp)) a).length <
      2 ^ 32) :
    ∃ s' G', Exec.forEach (processOperation cfg timestamp) ops s = (.ok (), s') ∧
      Described cfg G' none s'.objs ∧
      logged G' = logged G ++ ops.flatMap (recordedOf cfg timestamp) ∧ HasAccounts n s'.objs := by
  induction ops generalizing G s with
  | nil => exact ⟨s, G, rfl, hd, by simp, ha⟩
  | cons o ops ih =>
      have hfirst : ∀ a, (recordedFor (logged G ++ recordedOf cfg timestamp o) a).length < 2 ^ 32 := by
        intro a
        refine lt_of_le_of_lt ?_ (hcount a)
        rw [List.flatMap_cons, ← List.append_assoc, recordedFor_append _ (ops.flatMap _),
          List.length_append]
        omega
      obtain ⟨s₁, G₁, hrun, hd₁, hlog, ha₁⟩ :=
        processOperation_described hm hd ha (hops o List.mem_cons_self) hfirst
      obtain ⟨s₂, G₂, hrest, hd₂, hlog₂, ha₂⟩ :=
        ih hd₁ ha₁ (fun o' ho' => hops o' (List.mem_cons_of_mem _ ho')) fun a => by
          rw [hlog, List.append_assoc, ← List.flatMap_cons]
          exact hcount a
      refine ⟨s₂, G₂, (Exec.bind_ok hrun).trans hrest, hd₂, ?_, ha₂⟩
      rw [hlog₂, hlog, List.append_assoc, List.flatMap_cons]

/-- A new account has no records. -/
lemma createAccounts_described {n : ℕ} (k : ℕ) (hd : Described cfg G none s.objs)
    (ha : HasAccounts n s.objs) (hbelow : Below n (logged G)) :
    ∃ s', createAccounts k s = (.ok (), s') ∧ Described cfg G none s'.objs ∧
      HasAccounts (n + k) s'.objs := by
  induction k generalizing n s with
  | zero => exact ⟨s, rfl, hd, ha⟩
  | succ k ih =>
      have hne : transactionIndex ≠ statisticsIndex := by decide
      have hne' : operationIndex ≠ statisticsIndex := by decide
      have hnone : numbered G n = [] := by
        refine List.eq_nil_iff_forall_not_mem.mpr fun x hx => ?_
        obtain ⟨hx, hacc⟩ := mem_numbered.mp hx
        have hlt := hbelow (x.1.account, x.1.history)
          (List.mem_map_of_mem (List.mem_of_getElem? hx))
        omega
      have hcreate := createObject_eq hd.lists.fresh statisticsIndex (.statistics {})
      set s₁ := created s statisticsIndex (.statistics {}) with hs₁
      have hfind : ∀ id, s₁.objs.find id =
          if id = ⟨statisticsIndex, n⟩ then some (.statistics {}) else s.objs.find id := by
        intro id
        rw [hs₁, created, ObjectDatabase.find_setNextId, ObjectDatabase.find_set, ha.next]
      have hother : ∀ i m, i ≠ statisticsIndex → s₁.objs.find ⟨i, m⟩ = s.objs.find ⟨i, m⟩ := by
        intro i m hi
        rw [hfind, if_neg (by simp [hi])]
      have hnext : ∀ i, i ≠ statisticsIndex → s₁.objs.nextId i = s.objs.nextId i := by
        intro i hi
        rw [hs₁, created, ObjectDatabase.nextId_setNextId, if_neg hi, ObjectDatabase.nextId_set]
      have hd₁ : Described cfg G none s₁.objs := by
        refine ⟨⟨hd.lists.fresh.create _ _, ?_, fun m e => ?_, fun a st hst => ?_⟩, fun a x hx => ?_,
          fun hp m v hv => ?_, fun r hr => ?_⟩
        · rw [hnext _ hne]
          exact hd.lists.next
        · rw [hother _ _ hne]
          exact hd.lists.entry m e
        · rw [hfind] at hst
          split_ifs at hst with heq
          · obtain rfl : a = n := (ObjectId.mk.inj heq).2
            cases hst
            simp [newest, surplus, hnone, nullId]
          · exact hd.lists.stats a st hst
        · rw [hother _ _ hne']
          exact hd.objects.present a x hx
        · rw [hother _ _ hne'] at hv
          exact hd.objects.only hp m v hv
        · rw [hnext _ hne']
          exact hd.objects.below r hr
      have ha₁ : HasAccounts (n + 1) s₁.objs := by
        refine ⟨fun a hlt => ?_, ?_⟩
        · rw [HasStatistics, hfind]
          split_ifs with heq
          · exact ⟨_, rfl⟩
          · refine ha.has a ?_
            have hne : a ≠ n := fun h => heq (by rw [h])
            omega
        · rw [hs₁, created, ObjectDatabase.nextId_setNextId, if_pos rfl, ha.next]
      obtain ⟨s', hrest, hd', ha'⟩ := ih hd₁ ha₁ fun x hx => (hbelow x hx).trans (Nat.lt_succ_self n)
      refine ⟨s', (Exec.bind_ok hcreate).trans hrest, hd', ?_⟩
      rwa [show n + 1 + k = n + (k + 1) by omega] at ha'

/-- **One block.** -/
lemma pushBlock_described (hm : 0 < cfg.maxOpsPerAccount) {n : ℕ} {b : AppliedBlock α ρ}
    (hd : Described cfg G none s.objs) (ha : HasAccounts n s.objs) (hbelow : Below n (logged G))
    (hops : ∀ o ∈ b.appliedOperations, Evaluated cfg (n + b.newAccounts) o)
    (hcount : ∀ a, (recordedFor (logged G ++ recordedIn cfg b) a).length < 2 ^ 32) :
    ∃ G', Described cfg G' none (pushBlock cfg s b).objs ∧
      logged G' = logged G ++ recordedIn cfg b ∧
      HasAccounts (n + b.newAccounts) (pushBlock cfg s b).objs ∧
      Below (n + b.newAccounts) (logged G') := by
  obtain ⟨s₁, hcreate, hd₁, ha₁⟩ :=
    createAccounts_described (s := ⟨s.objs, s.undo.startUndoSession {} false⟩) b.newAccounts hd ha
      hbelow
  obtain ⟨s₂, G', hrun, hd₂, hlog, ha₂⟩ := updateAccountHistories_described hm hd₁ ha₁ hops hcount
  have happly : applyBlock cfg b ⟨s.objs, s.undo.startUndoSession {} false⟩ = (.ok (), s₂) :=
    (Exec.bind_ok hcreate).trans (Exec.catchIf_ok hrun)
  have hobjs : (pushBlock cfg s b).objs = s₂.objs := by
    simp only [pushBlock, happly]
    split <;> rfl
  rw [hobjs]
  refine ⟨G', hd₂, hlog, ha₂, fun x hx => ?_⟩
  rw [hlog, List.mem_append] at hx
  rcases hx with hx | hx
  · exact Nat.lt_add_right _ (hbelow x hx)
  · obtain ⟨o, ho, hx⟩ := List.mem_flatMap.mp hx
    exact below_recordedOf (hops o ho) x hx

end Operations

/-! ### Runs -/

/-- The blocks of a run, one after the other. -/
def run (s : Store (HistoryObject α ρ)) (blocks : List (AppliedBlock α ρ)) :
    Store (HistoryObject α ρ) :=
  blocks.foldl (pushBlock cfg) s

/-- A database with `n` accounts in which no history has been made. -/
structure EmptyHistory (n : ℕ) (db : ObjectDatabase (HistoryObject α ρ)) : Prop where
  fresh : db.Fresh
  accounts : ∀ a < n, db.find ⟨statisticsIndex, a⟩ = some (.statistics {})
  next : db.nextId statisticsIndex = n
  transactions : db.nextId transactionIndex = 0
  operations : ∀ k, db.find ⟨operationIndex, k⟩ = none

section Run

variable {cfg} {G : List (Record α ρ)} {s : Store (HistoryObject α ρ)}
  {db : ObjectDatabase (HistoryObject α ρ)} {n : ℕ}

lemma EmptyHistory.described (h : EmptyHistory n db) : Described cfg [] none db := by
  have hnone : ∀ k v, db.find ⟨transactionIndex, k⟩ ≠ some v := by
    intro k v hv
    have hlt := h.fresh _ _ hv
    rw [h.transactions] at hlt
    exact Nat.not_lt_zero _ hlt
  refine ⟨⟨h.fresh, h.transactions, fun k e => ?_, fun a st hst => ?_⟩, fun a x hx => ?_,
    fun _ k v hv => ?_, fun r hr => by simp at hr⟩
  · exact iff_of_false (hnone k _) (by simp [stored, numbered])
  · have hlt : a < n := by
      rw [← h.next]
      exact h.fresh _ _ hst
    rw [h.accounts a hlt] at hst
    cases hst
    simp [newest, surplus, numbered, nullId]
  · simp [kept, numbered] at hx
  · rw [h.operations] at hv
    cases hv

lemma EmptyHistory.hasAccounts (h : EmptyHistory n db) : HasAccounts n db :=
  ⟨fun a ha => ⟨_, h.accounts a ha⟩, h.next⟩

lemma run_described_from (hm : 0 < cfg.maxOpsPerAccount) {blocks : List (AppliedBlock α ρ)}
    (hd : Described cfg G none s.objs) (ha : HasAccounts n s.objs) (hbelow : Below n (logged G))
    (hev : EvaluatedRun cfg n blocks)
    (hcount : ∀ a, (recordedFor (logged G ++ recordedOps cfg blocks) a).length < 2 ^ 32) :
    ∃ n' G', Described cfg G' none (run cfg s blocks).objs ∧
      logged G' = logged G ++ recordedOps cfg blocks ∧ HasAccounts n' (run cfg s blocks).objs ∧
      Below n' (logged G') := by
  induction blocks generalizing G s n with
  | nil => exact ⟨n, G, hd, by simp [recordedOps], ha, hbelow⟩
  | cons b blocks ih =>
      have hsplit : recordedOps cfg (b :: blocks) = recordedIn cfg b ++ recordedOps cfg blocks := by
        simp [recordedOps]
      have hfirst : ∀ a, (recordedFor (logged G ++ recordedIn cfg b) a).length < 2 ^ 32 := by
        intro a
        refine lt_of_le_of_lt ?_ (hcount a)
        rw [hsplit, ← List.append_assoc, recordedFor_append _ (recordedOps cfg blocks),
          List.length_append]
        omega
      obtain ⟨G₁, hd₁, hlog, ha₁, hbelow₁⟩ := pushBlock_described hm hd ha hbelow hev.1 hfirst
      obtain ⟨n', G', hd', hlog', ha', hbelow'⟩ := ih hd₁ ha₁ hbelow₁ hev.2 fun a => by
        rw [hlog, List.append_assoc, ← hsplit]
        exact hcount a
      exact ⟨n', G', hd', by rw [hlog', hlog, List.append_assoc, hsplit], ha', hbelow'⟩

/-- **After any run of blocks** the database holds what the log of the run says. -/
theorem run_described (hm : 0 < cfg.maxOpsPerAccount) {blocks : List (AppliedBlock α ρ)}
    (hs : EmptyHistory n s.objs) (hev : EvaluatedRun cfg n blocks)
    (hcount : ∀ a, (recordedFor (recordedOps cfg blocks) a).length < 2 ^ 32) :
    ∃ n' G, Described cfg G none (run cfg s blocks).objs ∧ logged G = recordedOps cfg blocks ∧
      HasAccounts n' (run cfg s blocks).objs ∧ Below n' (logged G) := by
  simpa [logged] using run_described_from (G := []) hm hs.described hs.hasAccounts
    (by simp [Below, logged]) hev (by simpa [logged] using hcount)

end Run

/-! ### Exact lists -/

/-- Following `next` from `id` visits the given entries, and then stops at the null id. -/
def Visits (db : ObjectDatabase (HistoryObject α ρ)) : ℕ → List ℕ → Prop
  | id, [] => id = nullId
  | id, n :: l => id ≠ nullId ∧ id = n ∧
      ∃ e, db.find ⟨transactionIndex, n⟩ = some (.transaction e) ∧ Visits db e.next l

/-- The list of an account is exact, the recorded operations that concern it being `recorded`. -/
structure Exact (db : ObjectDatabase (HistoryObject α ρ)) (a : ℕ)
    (recorded : List (OperationHistory α ρ)) (st : HistoryStatistics) : Prop where
  /-- The sequence numbers are `removed_ops + 1` to `total_ops`. -/
  sequences : (bySeq db a).map (fun x => x.2.sequence) =
    List.range' (st.removedOps + 1) (st.totalOps - st.removedOps)
  bounded : (bySeq db a).length ≤ cfg.maxOpsPerAccount
  /-- The links lead from the newest entry to the oldest one. -/
  visits : Visits db st.mostRecentOp ((bySeq db a).map Prod.fst).reverse
  /-- The entries are those of the last recorded operations. -/
  last : (bySeq db a).map (fun x => (db.find ⟨operationIndex, x.2.operationId⟩, x.2.operationType)) =
    (recorded.drop (recorded.length - cfg.maxOpsPerAccount)).map fun h =>
      (some (.operation h), cfg.which h.op)

/-- An account whose history is kept. -/
def Tracked (a : ℕ) : Prop := cfg.trackedAccounts = [] ∨ a ∈ cfg.trackedAccounts

/-- The lists of all tracked accounts are exact, and with `partial_operations` the operations that
have an object are those that some entry refers to. -/
structure HistoryExact (recorded : List (ℕ × OperationHistory α ρ))
    (db : ObjectDatabase (HistoryObject α ρ)) : Prop where
  lists : ∀ a st, Tracked cfg a → db.find ⟨statisticsIndex, a⟩ = some (.statistics st) →
    Exact cfg db a (recordedFor recorded a) st
  operations : cfg.partialOperations = true → ∀ k, (∃ v, db.find ⟨operationIndex, k⟩ = some v) ↔
    ∃ n e, db.find ⟨transactionIndex, n⟩ = some (.transaction e) ∧ e.operationId = k

section Exactness

variable {cfg} {G : List (Record α ρ)} {s : Store (HistoryObject α ρ)}
  {db : ObjectDatabase (HistoryObject α ρ)} {a n : ℕ} {st : HistoryStatistics}

/-- A walk along the links meets no entry with the null id. -/
lemma Visits.ne_null {id : ℕ} {l : List ℕ} (h : Visits db id l) : ∀ n ∈ l, n ≠ nullId := by
  induction l generalizing id with
  | nil => simp
  | cons m l ih =>
      obtain ⟨hne, rfl, e, -, hrest⟩ := h
      intro n hn
      rcases List.mem_cons.mp hn with rfl | hn
      · exact hne
      · exact ih hrest n hn

/-- The links of a list lead through it from its end, if none of its entries has the null id. -/
lemma visits_chain {seq : ℕ} {l : List (Record α ρ × ℕ)}
    (hfind : ∀ x ∈ chain cfg seq nullId l,
      db.find ⟨transactionIndex, x.1⟩ = some (.transaction x.2))
    (hne : ∀ x ∈ l, x.2 ≠ nullId) :
    Visits db ((l.getLast?.map Prod.snd).getD nullId) (l.map Prod.snd).reverse := by
  induction l using List.reverseRecOn with
  | nil => rfl
  | append_singleton l x ih =>
      rw [chain_append] at hfind
      have hx := hfind _ (List.mem_append_right _ List.mem_cons_self)
      rw [List.map_append, List.reverse_append, List.getLast?_append]
      refine ⟨hne x (by simp), rfl, _, hx, ih (fun y hy => ?_) fun y hy => ?_⟩
      · exact hfind y (List.mem_append_left _ hy)
      · exact hne y (List.mem_append_left _ hy)

/-- The entries of a list, with their operations. -/
lemma map_operations_chain {seq next : ℕ} {l : List (Record α ρ × ℕ)}
    (hfind : ∀ x ∈ l, db.find ⟨operationIndex, x.1.opId⟩ = some (.operation x.1.history)) :
    (chain cfg seq next l).map
        (fun x => (db.find ⟨operationIndex, x.2.operationId⟩, x.2.operationType)) =
      l.map fun x => (some (.operation x.1.history), cfg.which x.1.history.op) := by
  induction l generalizing seq next with
  | nil => rfl
  | cons x l ih =>
      rw [chain_cons, List.map_cons, List.map_cons, ih fun y hy => hfind y (List.mem_cons_of_mem _ hy)]
      congr 2
      exact hfind x List.mem_cons_self

/-- **A list is exact exactly if no entry of it has the null id.** -/
lemma Described.exact_iff (hm : 0 < cfg.maxOpsPerAccount) (hd : Described cfg G none db)
    (hst : db.find ⟨statisticsIndex, a⟩ = some (.statistics st)) :
    Exact cfg db a (recordedFor (logged G) a) st ↔
      ∀ x ∈ kept G (surplus cfg G a) a, x.2 ≠ nullId := by
  obtain rfl := hd.lists.stats a st hst
  have hseq := hd.lists.bySeq_eq a
  have hids : (bySeq db a).map Prod.fst = (kept G (surplus cfg G a) a).map Prod.snd := by
    rw [hseq, stored, map_fst_chain, kept]
  constructor
  · intro h x hx
    refine h.visits.ne_null x.2 ?_
    rw [List.mem_reverse, hids]
    exact List.mem_map_of_mem hx
  · intro hne
    have hlast : (((kept G (surplus cfg G a) a).getLast?).map Prod.snd).getD nullId = newest G a := by
      rw [kept, List.getLast?_drop]
      split_ifs with hle
      · have hnil : numbered G a = [] := by
          rw [surplus] at hle
          exact List.eq_nil_of_length_eq_zero (by omega)
        simp [newest, hnil]
      · rfl
    refine ⟨?_, ?_, ?_, ?_⟩
    · rw [hseq, stored, map_sequence_chain, List.length_drop]
    · rw [hseq, stored, length_chain, List.length_drop, surplus]
      omega
    · have hfound : ∀ x ∈ stored cfg G (surplus cfg G a) a,
          db.find ⟨transactionIndex, x.1⟩ = some (.transaction x.2) := by
        intro x hx
        refine (hd.lists.entry x.1 x.2).mpr ?_
        rw [account_of_mem_stored cfg hx]
        exact hx
      rw [hids, ← hlast]
      exact visits_chain hfound hne
    · have hops : ∀ x ∈ (numbered G a).drop (surplus cfg G a),
          db.find ⟨operationIndex, x.1.opId⟩ = some (.operation x.1.history) :=
        hd.objects.present a
      rw [hseq, stored, map_operations_chain hops, recordedFor_logged, List.length_map,
        ← List.map_drop, List.map_map]
      rfl

/-- The entry with the null id is the first of all. -/
lemma exists_null_iff : (∃ x ∈ kept G (surplus cfg G a) a, x.2 = nullId) ↔
    (∃ x ∈ (logged G).head?, x.1 = a) ∧
      (recordedFor (logged G) a).length ≤ cfg.maxOpsPerAccount := by
  rw [length_recordedFor_logged]
  constructor
  · rintro ⟨x, hx, h0⟩
    have hmem := List.mem_of_mem_drop hx
    obtain ⟨hG, hacc⟩ := mem_numbered.mp hmem
    rw [h0, nullId, ← List.head?_eq_getElem?] at hG
    refine ⟨⟨(x.1.account, x.1.history), by simp [logged, hG], hacc⟩, ?_⟩
    -- nothing comes before the entry
    by_contra hmany
    have hsorted := numbered_sorted G a
    rw [kept, surplus] at hx
    cases hnum : numbered G a with
    | nil => simp [hnum] at hmem
    | cons y l =>
        rw [hnum, List.pairwise_cons] at hsorted
        rw [hnum] at hx hmany
        obtain ⟨k, hk⟩ : ∃ k, (y :: l).length - cfg.maxOpsPerAccount = k + 1 :=
          Nat.exists_eq_succ_of_ne_zero (by omega)
        rw [hk, List.drop_succ_cons] at hx
        have hlt := hsorted.1 x (List.mem_of_mem_drop hx)
        rw [h0, nullId] at hlt
        exact Nat.not_lt_zero _ hlt
  · rintro ⟨⟨x, hx, hacc⟩, hfew⟩
    cases G with
    | nil => simp [logged] at hx
    | cons r G =>
        obtain rfl : (r.account, r.history) = x := by simpa [logged] using hx
        refine ⟨(r, 0), ?_, rfl⟩
        rw [kept, surplus, Nat.sub_eq_zero_of_le hfew, List.drop_zero]
        exact mem_numbered.mpr ⟨rfl, hacc⟩

/-- With `partial_operations` the operations that the lists refer to are all that there are. -/
lemma Described.operations_iff (hd : Described cfg G none db)
    (hp : cfg.partialOperations = true) (k : ℕ) :
    (∃ v, db.find ⟨operationIndex, k⟩ = some v) ↔
      ∃ n e, db.find ⟨transactionIndex, n⟩ = some (.transaction e) ∧ e.operationId = k := by
  have href : Referenced db k ↔
      ∃ n e, db.find ⟨transactionIndex, n⟩ = some (.transaction e) ∧ e.operationId = k := by
    simp only [Referenced, Prod.exists, mem_transactions hd.lists.fresh]
  rw [← href, hd.lists.referenced_iff]
  constructor
  · rintro ⟨v, hv⟩
    exact (hd.objects.only hp k v hv).resolve_left (by simp)
  · rintro ⟨a, x, hx, rfl⟩
    exact ⟨_, hd.objects.present a x hx⟩

/-- Only the histories of tracked accounts are kept. -/
lemma tracked_of_mem_recordedOps {blocks : List (AppliedBlock α ρ)}
    {x : ℕ × OperationHistory α ρ} (h : x ∈ recordedOps cfg blocks) : Tracked cfg x.1 := by
  obtain ⟨b, -, hx⟩ := List.mem_flatMap.mp h
  obtain ⟨o, -, hx⟩ := List.mem_flatMap.mp hx
  cases o with
  | none => simp [recordedOf] at hx
  | some h =>
      simp only [recordedOf] at hx
      split_ifs at hx
      · simp at hx
      · split at hx
        · simp at hx
        · obtain ⟨a, ha, rfl⟩ := List.mem_map.mp hx
          rw [recordingAccounts] at ha
          split_ifs at ha with hall
          · exact .inl hall
          · exact .inr (List.mem_filter.mp ha).1

end Exactness

/-- **When the histories are exact.** Over every run of blocks from an empty history, no account
being recorded `2 ^ 32` times, the lists of all tracked accounts are exact and no operation is
kept without need, if and only if nothing has been recorded yet or the account that was recorded
first has been recorded more than `max_ops_per_account` times. -/
theorem history_exact_iff (hm : 0 < cfg.maxOpsPerAccount) {n : ℕ}
    {s : Store (HistoryObject α ρ)} (hs : EmptyHistory n s.objs) {blocks : List (AppliedBlock α ρ)}
    (hev : EvaluatedRun cfg n blocks)
    (hcount : ∀ a, (recordedFor (recordedOps cfg blocks) a).length < 2 ^ 32) :
    HistoryExact cfg (recordedOps cfg blocks) (run cfg s blocks).objs ↔
      ∀ x ∈ (recordedOps cfg blocks).head?,
        cfg.maxOpsPerAccount < (recordedFor (recordedOps cfg blocks) x.1).length := by
  obtain ⟨n', G, hd, hlog, ha, hbelow⟩ := run_described hm hs hev hcount
  rw [← hlog]
  constructor
  · intro h x hx
    by_contra hfew
    have hmem : x ∈ logged G := List.mem_of_mem_head? hx
    obtain ⟨st, hst⟩ := ha.has x.1 (hbelow x hmem)
    have htracked : Tracked cfg x.1 := tracked_of_mem_recordedOps (hlog ▸ hmem)
    obtain ⟨y, hy, h0⟩ := exists_null_iff.mpr ⟨⟨x, hx, rfl⟩, not_lt.mp hfew⟩
    exact (hd.exact_iff hm hst).mp (h.lists x.1 st htracked hst) y hy h0
  · intro hfirst
    refine ⟨fun a st _ hst => (hd.exact_iff hm hst).mpr fun y hy h0 => ?_, hd.operations_iff⟩
    obtain ⟨⟨x, hx, rfl⟩, hfew⟩ := exists_null_iff.mp ⟨y, hy, h0⟩
    exact absurd (hfirst x hx) (not_lt.mpr hfew)

/-- A database with one account and no history. -/
def oneAccount : Store (HistoryObject ℕ Unit) where
  objs :=
    { objects := (∅ : Finmap fun _ : ObjectId => HistoryObject ℕ Unit).insert ⟨statisticsIndex, 0⟩
        (.statistics {})
      nextId := fun i => if i = statisticsIndex then 1 else 0 }
  undo := { disabled := false }

lemma emptyHistory_oneAccount : EmptyHistory 1 oneAccount.objs := by
  have hfind : ∀ id, oneAccount.objs.find id =
      if id = ⟨statisticsIndex, 0⟩ then some (.statistics {}) else none := by
    intro id
    split_ifs with h
    · rw [h]
      exact Finmap.lookup_insert _
    · rw [oneAccount, ObjectDatabase.find, Finmap.lookup_insert_of_ne _ h, Finmap.lookup_empty]
  refine ⟨fun id v hv => ?_, fun a ha => ?_, rfl, rfl, fun k => ?_⟩
  · rw [hfind] at hv
    split_ifs at hv with h
    rw [h]
    decide
  · rw [hfind, if_pos (by rw [Nat.lt_one_iff.mp ha])]
  · rw [hfind, if_neg (by simp [operationIndex, statisticsIndex])]

/-- Operations that are given by their tags and concern the account 0, of which the last `m` are
kept. -/
def tagConfig (m : ℕ) (h : m < 2 ^ 32) (part : Bool) : HistoryConfig ℕ Unit where
  maxOpsPerAccount := m
  maxOps_lt := h
  partialOperations := part
  trackedAccounts := []
  trackedAccounts_sorted := .nil
  trackedOperations := []
  which := id
  resultObject := fun _ => none
  requiredAuthorities := fun _ => [0]
  otherAuthorities := fun _ => []
  impactedAccounts := fun _ => []

/-- A block of transfers. -/
def transfers (k : ℕ) : AppliedBlock ℕ Unit :=
  ⟨9, 0, (List.range k).map fun i => some { op := 0, result := (), opInTrx := i }⟩

lemma evaluatedRun_transfers {m : ℕ} (h : m < 2 ^ 32) (part : Bool) (k : ℕ) :
    EvaluatedRun (tagConfig m h part) 1 [transfers k] := by
  refine ⟨fun o ho x hx => ?_, trivial⟩
  obtain ⟨i, -, rfl⟩ := List.mem_map.mp ho
  obtain rfl := Option.some.inj hx
  have hflat : flatSet [0] = [0] := by decide
  exact ⟨[0], congrArg some hflat, by simp [transfers]⟩

lemma length_recordedFor_le (l : List (ℕ × OperationHistory α ρ)) (a : ℕ) :
    (recordedFor l a).length ≤ l.length := by
  rw [recordedFor, List.length_map]
  exact List.length_filter_le _ _

/-- Two transfers, of whose entries one is kept. -/
theorem history_exact_twoTransfers :
    HistoryExact (tagConfig 1 (by decide) true)
      (recordedOps (tagConfig 1 (by decide) true) [transfers 2])
      (run (tagConfig 1 (by decide) true) oneAccount [transfers 2]).objs :=
  (history_exact_iff (tagConfig 1 (by decide) true) (by decide) emptyHistory_oneAccount
    (evaluatedRun_transfers (by decide) true 2)
    fun a => (length_recordedFor_le _ a).trans_lt (by decide)).mpr (by decide)

/-- The very first operation makes an entry with the null id: the statistics of its account read
as if there were none. -/
theorem not_historyExact : ¬ ∀ (cfg : HistoryConfig ℕ Unit) (n : ℕ) (s : Store (HistoryObject ℕ Unit))
    (blocks : List (AppliedBlock ℕ Unit)), 0 < cfg.maxOpsPerAccount → EmptyHistory n s.objs →
      EvaluatedRun cfg n blocks →
      (∀ a, (recordedFor (recordedOps cfg blocks) a).length < 2 ^ 32) →
      HistoryExact cfg (recordedOps cfg blocks) (run cfg s blocks).objs := by
  intro hall
  have h := hall (tagConfig 10 (by decide) false) 1 oneAccount [transfers 1] (by decide)
    emptyHistory_oneAccount (evaluatedRun_transfers (by decide) false 1)
    fun a => (length_recordedFor_le _ a).trans_lt (by decide)
  have hst : (run (tagConfig 10 (by decide) false) oneAccount [transfers 1]).objs.find
      ⟨statisticsIndex, 0⟩ = some (.statistics ⟨0, 1, 0⟩) := by decide +kernel
  have hids : (bySeq (run (tagConfig 10 (by decide) false) oneAccount [transfers 1]).objs 0).map
      Prod.fst = [0] := by decide +kernel
  have hvisits := (h.lists 0 _ (.inl rfl) hst).visits
  rw [hids] at hvisits
  exact hvisits.1 rfl

end ZosCore.AccountHistory
