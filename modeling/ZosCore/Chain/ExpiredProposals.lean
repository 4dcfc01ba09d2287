import ZosCore.Chain.Journal

/-!
`database::clear_expired_proposals`: what becomes of the proposals that have expired.

A round of the loop takes the proposal that expires first, executes it if it is authorised, and
removes it if that has not been done by the execution. Whatever else its operations do, the proposals
with an expiration that has passed become fewer in every round, so the loop comes to its end.

The round looks at the proposal after its operations have been applied, through a reference. If they
have removed it the program goes on with an object that is no more.

* `Journal.clearProposal`, `Journal.clearExpired`: the loop, with a journal of what is removed.
* `Carries.clearLoop`: it is the loop of the code.
* `Undercuts`, `Clearable`: a proposal whose execution removes it, or needs more of the call stack
  than there is; and that no round comes to one.
* `clearProposal_cases`, `Accounted.expired_decreases`: what a round does, and that it leaves fewer
  that have expired. `clearLoop_returns`: so the loop comes to its end.
* `clearable_of_plain`: no round does if there are no operations on proposals in proposals.
* **`clearsExpired_iff`**: `clear_expired_proposals` does what `ClearsExpired` says exactly if no
  round comes to such a proposal.
-/

namespace ZosCore

open Exec

variable {β ω α γ : Type}

namespace Journal

variable (R : Rules β ω) (record : Bool) (d : ℕ)

/-- The `try` in a round of `clear_expired_proposals`: whether the proposal has been executed. -/
def tryProposal (p : ProposalObject β) (o : Objects β ω) : Journal β ω Bool :=
  if R.isAuthorizedToExecute p o then
    attempt (proposal R record d p) (fun _ => return true)
      (do
        of (Ledger.modifyProposal p.id fun p => { p with status := 2 })
        return false)
  else do
    of (Ledger.modifyProposal p.id fun p => { p with status := 4 })
    return false

/-- The body of the loop of `clear_expired_proposals`. -/
def clearProposal (p : ProposalObject β) : Journal β ω Unit := do
  let o ← gets fun o => o
  let executed ← tryProposal R record d p o
  if !executed then removeProposal p.id false

/-- The loop of `clear_expired_proposals`. -/
def clearLoop : ℕ → Journal β ω Unit
  | 0 => pure ()
  | fuel + 1 => do
      let o ← gets fun o => o
      match Database.firstToExpire o.proposals with
      | none => pure ()
      | some p =>
          if p.expirationTime ≤ o.time then
            clearProposal R record d p
            clearLoop fuel

/-- `clear_expired_proposals`. -/
def clearExpired : Journal β ω Unit := do
  let o ← gets fun o => o
  clearLoop R record d o.proposals.length

end Journal

namespace Ledger

variable {o : Objects β ω} {id : ℕ}

lemma check_holds {c : Prop} [Decidable c] (h : c) (e : Failure) :
    (check c e : Ledger β ω Unit) o = ([], .ok ((), o)) := by
  rw [check, if_pos h]
  rfl

lemma check_fails {c : Prop} [Decidable c] (h : ¬ c) (e : Failure) :
    (check c e : Ledger β ω Unit) o = ([], .error e) := by
  rw [check, if_neg h]
  rfl

lemma modifyProposal_present (f : ProposalObject β → ProposalObject β)
    (h : (o.findProposal id).isSome) :
    modifyProposal id f o = ([], .ok ((), o.modifyProposal id f)) :=
  (bind_returns rfl).trans (bind_returns (check_holds h .crash))

lemma modifyProposal_absent (f : ProposalObject β → ProposalObject β)
    (h : ¬ (o.findProposal id).isSome) : modifyProposal id f o = ([], .error .crash) := by
  rw [modifyProposal, bind_returns rfl, bind_throws (check_fails h .crash)]
  rfl

lemma removeProposal_present (h : (o.findProposal id).isSome) :
    removeProposal id o = ([], .ok ((), o.eraseProposal id)) :=
  (bind_returns rfl).trans (bind_returns (check_holds h .crash))

end Ledger

/-! ### The loop of the code has this journal -/

section Carries

variable {d : ℕ} {db db' : Database β ω} {R : Rules β ω}

/-- The computation does what the result with a journal says. -/
def Carries (d : ℕ) (db : Database β ω) (x : Act β ω α)
    (r : Except Failure (α × List Removal × Objects β ω)) : Prop :=
  ∃ b, Implements d db x (b, Journal.unnoted r)

namespace Carries

lemma of_implements {x : Act β ω α} {F : Ledger β ω α} {J : Journal β ω α}
    (h : Implements d db x (F db.objects)) (hn : Notes J F) : Carries d db x (J db.objects) := by
  refine ⟨(F db.objects).1, ?_⟩
  rw [← hn db.objects]
  exact h

lemma bind {x : Act β ω α} {k : α → Act β ω γ} {J : Journal β ω α} {K : α → Journal β ω γ}
    (hx : Carries d db x (J db.objects))
    (hk : ∀ a db', Frame d db db' → Carries d db' (k a) (K a db'.objects)) :
    Carries d db (x >>= k) ((J >>= K) db.objects) := by
  obtain ⟨b, hx⟩ := hx
  rcases hJ : J db.objects with e | ⟨a, l, o⟩
  · rw [hJ] at hx
    rw [Journal.bind_error hJ]
    cases hx with
    | throws hdb hframe hbal => exact ⟨b, .throws (bind_error hdb) hframe hbal⟩
    | crashes hdb => exact ⟨b, .crashes (bind_error hdb)⟩
  · rw [hJ] at hx
    rw [Journal.bind_ok hJ]
    cases hx with
    | returns hdb hframe hobj hbal =>
        subst hobj
        obtain ⟨b', hk⟩ := hk a _ hframe
        refine ⟨b ++ b', ?_⟩
        rw [Journal.unnoted_after]
        exact Implements.after (bind_ok hdb) hframe hbal hk

/-- The objects are read. -/
lemma gets_objects {k : Objects β ω → Act β ω γ} {K : Objects β ω → Journal β ω γ}
    (h : Carries d db (k db.objects) (K db.objects db.objects)) :
    Carries d db (Exec.gets (·.objects) >>= k) ((Journal.gets (fun o => o) >>= K) db.objects) := by
  obtain ⟨b, h⟩ := h
  rw [Journal.gets_bind]
  exact ⟨b, Implements.gets_bind h⟩

lemma pure (a : α) : Carries d db (Pure.pure a) ((Pure.pure a : Journal β ω α) db.objects) :=
  of_implements (Implements.pure a) (Notes.pure a)

/-- The `try` in a round. -/
lemma tryProposal (hr : Ready d db) (p : ProposalObject β) :
    Carries d db
      (Database.catchFc
        (if R.isAuthorizedToExecute p db.objects then do
            Database.pushProposal R d p
            return true
          else do
            Database.modifyProposal p.id fun p => { p with status := 4 }
            return false)
        fun _ => do
          Database.modifyProposal p.id fun p => { p with status := 2 }
          return false)
      (Journal.tryProposal R db.recording d p db.objects db.objects) := by
  unfold Journal.tryProposal
  by_cases hauth : R.isAuthorizedToExecute p db.objects = true
  · rw [if_pos hauth, if_pos hauth]
    obtain ⟨hpush, hback⟩ := implements_pushProposal (R := R) hr p
    refine of_implements (Implements.attempt (K := fun _ => Pure.pure true)
      (H := Ledger.modifyProposal p.id (fun p => { p with status := 2 }) >>= fun _ => Pure.pure false)
      hpush (fun e db' h => (hback e db' h).1) (fun _ db' _ _ _ => ?_) fun db' hframe _ => ?_)
      ((notes_proposal R db.recording d p).attempt (fun _ => Notes.pure true)
        ((Notes.of _).bind fun _ => Notes.pure false))
    · exact .returns rfl (.refl d db') rfl (by simp)
    · exact Implements.bind (Implements.modifyProposal (hframe.ready hr) _ _) fun _ _ _ _ =>
        Implements.pure false
  · rw [if_neg hauth, if_neg hauth]
    have hbody := Implements.bind
      (Implements.modifyProposal hr p.id fun p => { p with status := 4 })
      (G := fun _ => (Pure.pure false : Ledger β ω Bool)) fun _ _ _ _ => Implements.pure false
    refine of_implements (F := Ledger.modifyProposal p.id (fun p => { p with status := 4 }) >>=
      fun _ => Pure.pure false) ?_ ((Notes.of _).bind fun _ => Notes.pure false)
    generalize hF : ((Ledger.modifyProposal p.id fun p => { p with status := 4 }) >>=
      fun _ => (Pure.pure false : Ledger β ω Bool)) db.objects = r at hbody
    cases hbody with
    | returns hdb hframe hobj hbal => exact .returns (catchIf_ok hdb) hframe hobj hbal
    | crashes hdb => exact .crashes (catchIf_missed hdb rfl)
    | throws hdb hframe hbal =>
        by_cases hp : (db.objects.findProposal p.id).isSome
        · rw [Ledger.bind_returns (Ledger.modifyProposal_present _ hp)] at hF
          cases hF
        · rw [Ledger.bind_throws (Ledger.modifyProposal_absent _ hp)] at hF
          cases hF

lemma clearProposal (hr : Ready d db) (p : ProposalObject β) :
    Carries d db (Database.clearProposal R d p)
      (Journal.clearProposal R db.recording d p db.objects) := by
  refine gets_objects ((tryProposal hr p).bind fun executed db' hframe => ?_)
  cases executed with
  | true => exact pure ()
  | false =>
      change Carries d db' (Database.removeProposal p.id)
        (Journal.removeProposal p.id false db'.objects)
      exact of_implements (Implements.removeProposal (hframe.ready hr) p.id)
        (Notes.removeProposal p.id false)

lemma clearLoop (hr : Ready d db) (fuel : ℕ) :
    Carries d db (Database.clearExpiredProposalsLoop R d fuel)
      (Journal.clearLoop R db.recording d fuel db.objects) := by
  induction fuel generalizing db with
  | zero => exact pure ()
  | succ fuel ih =>
      refine gets_objects ?_
      cases Database.firstToExpire db.objects.proposals with
      | none => exact pure ()
      | some p =>
          by_cases hexp : p.expirationTime ≤ db.objects.time
          · simp only [hexp, if_true]
            refine (clearProposal hr p).bind fun _ db' hframe => ?_
            rw [← hframe.recording]
            exact ih (hframe.ready hr)
          · simp only [hexp, if_false]
            exact pure ()

end Carries

end Carries

/-! ### The proposals that have expired -/

section Expired

variable {l : List (ProposalObject β)} {p : ProposalObject β} {o o' : Objects β ω}

lemma firstToExpire_eq_none : Database.firstToExpire l = none ↔ l = [] := by
  cases l with
  | nil => simp [Database.firstToExpire]
  | cons p l =>
      unfold Database.firstToExpire
      cases Database.firstToExpire l with
      | none => simp
      | some q =>
          simp only [reduceCtorEq, iff_false]
          split_ifs <;> simp

/-- No proposal expires before the first one. -/
lemma firstToExpire_le (h : Database.firstToExpire l = some p) :
    ∀ q ∈ l, p.expirationTime ≤ q.expirationTime := by
  induction l generalizing p with
  | nil => simp
  | cons r l ih =>
      unfold Database.firstToExpire at h
      cases hl : Database.firstToExpire l with
      | none =>
          simp only [hl, Option.some.injEq] at h
          simp [firstToExpire_eq_none.mp hl, h]
      | some s =>
          simp only [hl] at h
          have hs := ih hl
          split_ifs at h with hlt
          · obtain rfl := Option.some.inj h
            exact List.forall_mem_cons.mpr ⟨hlt.le, hs⟩
          · obtain rfl := Option.some.inj h
            exact List.forall_mem_cons.mpr ⟨le_rfl, fun q hq => (not_lt.mp hlt).trans (hs q hq)⟩

/-- The next round is about the proposal. -/
def Due (o : Objects β ω) (p : ProposalObject β) : Prop :=
  Database.firstToExpire o.proposals = some p ∧ p.expirationTime ≤ o.time

/-- The ids of the proposals that have expired. -/
def Objects.expiredIds (o : Objects β ω) : List ℕ :=
  (o.proposals.filter (·.expirationTime ≤ o.time)).map (·.id)

lemma Objects.mem_expiredIds {id : ℕ} :
    id ∈ o.expiredIds ↔ ∃ p ∈ o.proposals, p.expirationTime ≤ o.time ∧ p.id = id := by
  simp [expiredIds, and_assoc]

lemma Due.mem (h : Due o p) : p ∈ o.proposals := firstToExpire_mem h.1

lemma Due.mem_proposalIds (h : Due o p) : p.id ∈ o.proposalIds :=
  List.mem_map.mpr ⟨p, h.mem, rfl⟩

lemma Due.mem_expiredIds (h : Due o p) : p.id ∈ o.expiredIds :=
  Objects.mem_expiredIds.mpr ⟨p, h.mem, h.2, rfl⟩

/-- There is no next round exactly if no proposal has expired. -/
lemma exists_due_iff : (∃ p, Due o p) ↔ o.expiredIds ≠ [] := by
  constructor
  · rintro ⟨p, hp⟩
    exact List.ne_nil_of_mem hp.mem_expiredIds
  · intro h
    obtain ⟨id, hid⟩ := List.exists_mem_of_ne_nil _ h
    obtain ⟨q, hq, hexp, -⟩ := Objects.mem_expiredIds.mp hid
    cases hfirst : Database.firstToExpire o.proposals with
    | none =>
        rw [firstToExpire_eq_none.mp hfirst] at hq
        cases hq
    | some p => exact ⟨p, hfirst, (firstToExpire_le hfirst q hq).trans hexp⟩

lemma length_expiredIds_le (o : Objects β ω) : o.expiredIds.length ≤ o.proposals.length := by
  rw [Objects.expiredIds, List.length_map]
  exact List.length_filter_le _ _

/-- **A round leaves fewer proposals that have expired**, whatever else it executes or removes. -/
theorem Accounted.expired_decreases {l : List Removal} (h : Accounted l o o') (hn' : Numbered o')
    (hp : Due o p) (hgone : p.id ∉ o'.proposalIds) :
    o'.expiredIds.length < o.expiredIds.length := by
  have hnodup : (p.id :: o'.expiredIds).Nodup := by
    refine List.nodup_cons.mpr ⟨fun hmem => hgone ?_, ?_⟩
    · obtain ⟨q, hq, -, hid⟩ := Objects.mem_expiredIds.mp hmem
      exact List.mem_map.mpr ⟨q, hq, hid⟩
    · exact hn'.nodup.sublist (List.filter_sublist.map _)
  have hsubset : p.id :: o'.expiredIds ⊆ o.expiredIds := by
    intro id hid
    rcases List.mem_cons.mp hid with rfl | hid
    · exact hp.mem_expiredIds
    · obtain ⟨q', hq', hexp', rfl⟩ := Objects.mem_expiredIds.mp hid
      rcases h.origin q' hq' with ⟨q, hq, hqid, hqexp⟩ | ⟨-, hlater⟩
      · refine Objects.mem_expiredIds.mpr ⟨q, hq, ?_, hqid⟩
        rw [hqexp, ← h.time]
        exact hexp'
      · rw [h.time] at hexp'
        omega
  exact (List.subperm_of_subset hnodup hsubset).length_le

end Expired

/-! ### Rounds -/

section Rounds

variable {R : Rules β ω} {record : Bool} {d : ℕ} {p : ProposalObject β} {o o' : Objects β ω}
  {l : List Removal}

/-- The proposal is authorised, and its execution ends the program: its operations remove it, or do
so with one that they execute; or the fee of one that they create and execute cannot be taken back;
or the call stack is used up. -/
def Undercuts (R : Rules β ω) (record : Bool) (d : ℕ) (p : ProposalObject β) (o : Objects β ω) :
    Prop :=
  R.isAuthorizedToExecute p o = true ∧ (Ledger.proposal R record d p o).2 = .error .crash

/-- A round of the loop that returns. -/
def Round (R : Rules β ω) (record : Bool) (d : ℕ) (o o' : Objects β ω) : Prop :=
  ∃ p l, Due o p ∧ Journal.clearProposal R record d p o = .ok ((), l, o')

/-- No round comes to a proposal whose execution ends the program. -/
def Clearable (R : Rules β ω) (record : Bool) (d : ℕ) (o : Objects β ω) : Prop :=
  ∀ o', Relation.ReflTransGen (Round R record d) o o' → ∀ p, Due o' p → ¬ Undercuts R record d p o'

lemma Clearable.of_round (h : Clearable R record d o) (hround : Round R record d o o') :
    Clearable R record d o' := fun _ hrun => h _ (.head hround hrun)

/-- A proposal that was executed is gone. -/
lemma not_mem_of_proposal (h : Journal.proposal R record d p o = .ok ((), l, o')) :
    p.id ∉ o'.proposalIds := by
  obtain ⟨b, hledger⟩ := (notes_proposal R record d p).eq_ok h
  have hgone : o'.findProposal p.id = none := by
    cases d with
    | zero => cases hledger
    | succ d => exact Ledger.proposalWith_gone hledger
  rw [← Objects.isSome_findProposal, hgone]
  exact Bool.false_ne_true

/-- The rest of a round in which the proposal has not been executed: it gets a status, and is
removed. -/
lemma status_bind_remove (hp : p.id ∈ o.proposalIds) (n : ℕ) :
    ((do
        Journal.of (Ledger.modifyProposal p.id fun p => { p with status := n })
        return false) >>= fun executed =>
      if !executed then Journal.removeProposal p.id false else pure () : Journal β ω Unit) o =
      .ok ((), [⟨p.id, false⟩], o.eraseProposal p.id) := by
  have hstatus := Ledger.modifyProposal_present (fun p => { p with status := n })
    (Objects.isSome_findProposal.mpr hp)
  have hstays : p.id ∈ (o.modifyProposal p.id fun p => { p with status := n }).proposalIds := by
    rw [Objects.proposalIds_modifyProposal o p.id (keepsPlace_status n).id]
    exact hp
  have hremove := Ledger.removeProposal_present (Objects.isSome_findProposal.mpr hstays)
  rw [Journal.bind_ok (Journal.of_bind hstatus), Journal.after_nil]
  refine (Journal.of_bind hremove).trans ?_
  rw [Objects.eraseProposal_modifyProposal (keepsPlace_status n).id]
  rfl

/-- **A round of the loop**: it ends the program, or executes the proposal, or removes it and changes
nothing else. -/
theorem clearProposal_cases (R : Rules β ω) (record : Bool) (d : ℕ) (hp : p.id ∈ o.proposalIds) :
    (Undercuts R record d p o ∧ Journal.clearProposal R record d p o = .error .crash) ∨
    ¬ Undercuts R record d p o ∧
      ((∃ l o', Journal.proposal R record d p o = .ok ((), l, o') ∧
          Journal.clearProposal R record d p o = .ok ((), l, o')) ∨
        Journal.clearProposal R record d p o =
          .ok ((), [⟨p.id, false⟩], o.eraseProposal p.id)) := by
  have hround : Journal.clearProposal R record d p o =
      (Journal.tryProposal R record d p o >>= fun executed =>
        if !executed then Journal.removeProposal p.id false else pure ()) o := Journal.gets_bind
  rw [hround, Journal.tryProposal]
  by_cases hauth : R.isAuthorizedToExecute p o = true
  · rw [if_pos hauth]
    have hnotes := notes_proposal R record d p o
    rcases hpush : Journal.proposal R record d p o with (e | _) | ⟨⟨⟩, l, o'⟩
    · -- it has failed, and the handler goes on from the objects before it
      refine .inr ⟨fun hcut => ?_, .inr ?_⟩
      · rw [hcut.2, hpush] at hnotes
        cases hnotes
      · exact (Journal.bind_congr (Journal.attempt_error hpush)).trans (status_bind_remove hp 2)
    · refine .inl ⟨⟨hauth, ?_⟩, Journal.bind_error (Journal.attempt_crash hpush)⟩
      rw [hnotes, hpush]
      rfl
    · refine .inr ⟨fun hcut => ?_, .inl ⟨l, o', rfl, ?_⟩⟩
      · rw [hcut.2, hpush] at hnotes
        cases hnotes
      · have htry := (Journal.attempt_ok (k := fun _ => (pure true : Journal β ω Bool))
          (h := Journal.of (Ledger.modifyProposal p.id fun p => { p with status := 2 }) >>=
            fun _ => pure false) hpush).trans (Journal.after_pure l true o')
        exact (Journal.bind_ok htry).trans (Journal.after_pure l () o')
  · rw [if_neg hauth]
    exact .inr ⟨fun hcut => hauth hcut.1, .inr (status_bind_remove hp 4)⟩

/-- A round that does not come to such a proposal returns. -/
lemma exists_clearProposal (hp : Due o p) (hcut : ¬ Undercuts R record d p o) :
    ∃ l o', Journal.clearProposal R record d p o = .ok ((), l, o') := by
  rcases clearProposal_cases R record d hp.mem_proposalIds with
    ⟨hcut', -⟩ | ⟨-, ⟨l, o', -, hok⟩ | hok⟩
  · exact absurd hcut' hcut
  · exact ⟨l, o', hok⟩
  · exact ⟨_, _, hok⟩

/-- After a round the proposal that it is about is gone. -/
lemma not_mem_of_clearProposal (hp : p.id ∈ o.proposalIds)
    (h : Journal.clearProposal R record d p o = .ok ((), l, o')) : p.id ∉ o'.proposalIds := by
  rcases clearProposal_cases R record d hp with
    ⟨-, hcrash⟩ | ⟨-, ⟨l₁, o₁, hpush, hok⟩ | hok⟩
  · rw [hcrash] at h
    cases h
  · rw [hok] at h
    cases h
    exact not_mem_of_proposal hpush
  · rw [hok] at h
    cases h
    rw [Objects.proposalIds_eraseProposal]
    simp

/-- A round keeps the ids as they should be, and its journal is right. -/
lemma accounts_clearProposal (p : ProposalObject β) :
    Accounts (Journal.clearProposal R record d p) := by
  intro o
  refine AccountsFrom.gets_bind (AccountsFrom.bind ?_ fun executed _ _ _ => ?_)
  · refine AccountsFrom.ite (fun _ => ?_) fun _ => ?_
    · refine (accounts_proposal R record d p o).attempt (fun _ _ _ _ => .pure true) ?_
      exact (AccountsFrom.modifyProposal (keepsPlace_status 2) p.id).bind fun _ _ _ _ => .pure false
    · exact (AccountsFrom.modifyProposal (keepsPlace_status 4) p.id).bind fun _ _ _ _ => .pure false
  · exact AccountsFrom.ite (fun _ => .removeProposal p.id false) fun _ => .pure ()

/-- A round keeps the ids as they should be, and leaves fewer proposals that have expired. -/
lemma clearProposal_decreases (hn : Numbered o) (hp : Due o p)
    (h : Journal.clearProposal R record d p o = .ok ((), l, o')) :
    Numbered o' ∧ o'.expiredIds.length < o.expiredIds.length := by
  obtain ⟨hn', hacc⟩ := accounts_clearProposal p o () l o' hn h
  exact ⟨hn', hacc.expired_decreases hn' hp (not_mem_of_clearProposal hp.mem_proposalIds h)⟩

/-- The whole loop. -/
lemma accounts_clearLoop (fuel : ℕ) :
    Accounts (Journal.clearLoop R record d fuel : Journal β ω Unit) := by
  intro o
  induction fuel generalizing o with
  | zero => exact .pure ()
  | succ fuel ih =>
      refine AccountsFrom.gets_bind ?_
      cases Database.firstToExpire o.proposals with
      | none => exact .pure ()
      | some p =>
          refine AccountsFrom.ite (fun _ => ?_) fun _ => .pure ()
          exact (accounts_clearProposal p o).bind fun _ _ o' _ => ih o'

/-- Nothing has expired, and nothing happens. -/
lemma clearLoop_stop (h : o.expiredIds = []) (fuel : ℕ) :
    Journal.clearLoop R record d fuel o = .ok ((), [], o) := by
  cases fuel with
  | zero => rfl
  | succ fuel =>
      rw [Journal.clearLoop, Journal.gets_bind]
      cases hfirst : Database.firstToExpire o.proposals with
      | none => rfl
      | some p =>
          have hlater : ¬ p.expirationTime ≤ o.time := fun hexp =>
            exists_due_iff.mp ⟨p, hfirst, hexp⟩ h
          simp only [hlater, if_false]
          rfl

lemma clearLoop_go (h : Due o p) (fuel : ℕ) :
    Journal.clearLoop R record d (fuel + 1) o =
      (Journal.clearProposal R record d p >>= fun _ => Journal.clearLoop R record d fuel) o := by
  rw [Journal.clearLoop, Journal.gets_bind]
  simp only [h.1, h.2, if_true]

/-- **The loop comes to its end** if no round ends the program, with fuel for every proposal that has
expired, and more fuel makes no difference. -/
theorem clearLoop_returns (hn : Numbered o) (hc : Clearable R record d o) {n : ℕ}
    (hlen : o.expiredIds.length ≤ n) :
    ∃ l o', (∀ fuel, n ≤ fuel → Journal.clearLoop R record d fuel o = .ok ((), l, o')) ∧
      o'.expiredIds = [] := by
  induction n generalizing o with
  | zero =>
      have hnil := List.length_eq_zero_iff.mp (Nat.le_zero.mp hlen)
      exact ⟨[], o, fun fuel _ => clearLoop_stop hnil fuel, hnil⟩
  | succ n ih =>
      by_cases hnil : o.expiredIds = []
      · exact ⟨[], o, fun fuel _ => clearLoop_stop hnil fuel, hnil⟩
      · obtain ⟨p, hp⟩ := exists_due_iff.mpr hnil
        obtain ⟨l, o', hround⟩ := exists_clearProposal hp (hc o .refl p hp)
        obtain ⟨hn', hfewer⟩ := clearProposal_decreases hn hp hround
        obtain ⟨l', o'', hrest, hdone⟩ := ih hn' (hc.of_round ⟨p, l, hp, hround⟩) (by omega)
        refine ⟨l ++ l', o'', fun fuel hfuel => ?_, hdone⟩
        obtain ⟨fuel, rfl⟩ : ∃ k, fuel = k + 1 := ⟨fuel - 1, by omega⟩
        rw [clearLoop_go hp, Journal.bind_ok hround, Journal.after_eq_ok]
        exact ⟨l', hrest fuel (by omega), rfl⟩

/-- If the loop returns, no round has ended the program. -/
lemma clearable_of_clearLoop {fuel : ℕ} (hn : Numbered o) (hlen : o.expiredIds.length ≤ fuel)
    (h : Journal.clearLoop R record d fuel o = .ok ((), l, o')) : Clearable R record d o := by
  induction fuel generalizing o l with
  | zero =>
      have hnil := List.length_eq_zero_iff.mp (Nat.le_zero.mp hlen)
      intro o₁ hrun p hp
      rcases hrun.cases_head with rfl | ⟨o₂, ⟨q, _, hq, -⟩, -⟩
      · exact absurd hnil (exists_due_iff.mp ⟨p, hp⟩)
      · exact absurd hnil (exists_due_iff.mp ⟨q, hq⟩)
  | succ fuel ih =>
      intro o₁ hrun p hp hcut
      rcases hrun.cases_head with rfl | ⟨o₂, ⟨q, l₁, hq, hround⟩, hrun⟩
      · -- the round that comes first has returned
        rw [clearLoop_go hp] at h
        obtain ⟨_, _, _, _, hround, -, -⟩ := Journal.bind_eq_ok h
        rcases clearProposal_cases R record d hp.mem_proposalIds with
          ⟨-, hcrash⟩ | ⟨hno, -⟩
        · rw [hround] at hcrash
          cases hcrash
        · exact hno hcut
      · -- and the rounds that come after it are those of the rest of the loop
        rw [clearLoop_go hq, Journal.bind_ok hround, Journal.after_eq_ok] at h
        obtain ⟨l₂, hrest, -⟩ := h
        obtain ⟨hn', hfewer⟩ := clearProposal_decreases hn hq hround
        exact ih hn' (by omega) hrest o₁ hrun p hp hcut

end Rounds

/-! ### Proposals of other operations -/

/-- None of the operations is one on proposals. -/
def Plain (ops : List (Operation β)) : Prop := ∀ op ∈ ops, ∃ b, op = .basic b

/-- The computation throws exceptions only. -/
def Ledger.Catchable (F : Ledger β ω α) : Prop := ∀ o, (F o).2 ≠ .error .crash

namespace Ledger.Catchable

variable {F : Ledger β ω α}

lemma pure (a : α) : Catchable (Pure.pure a : Ledger β ω α) := fun _ h => by cases h

lemma raise (e : ChainError) : Catchable (Ledger.raise (.fc e) : Ledger β ω α) :=
  fun _ h => by cases h

lemma update (f : Objects β ω → Objects β ω) : Catchable (Ledger.update f) := fun _ h => by cases h

lemma emit (r : BalanceHistory) : Catchable (Ledger.emit r : Ledger β ω Unit) :=
  fun _ h => by cases h

lemma gets (f : Objects β ω → α) : Catchable (Ledger.gets f) := fun _ h => by cases h

lemma ofExcept (r : Except ChainError α) : Catchable (Ledger.ofExcept r : Ledger β ω α) := by
  cases r with
  | ok a => exact pure a
  | error e => exact raise e

lemma check (c : Prop) [Decidable c] (e : ChainError) :
    Catchable (Ledger.check c (.fc e) : Ledger β ω Unit) := by
  unfold Ledger.check
  split_ifs
  · exact pure ()
  · exact raise e

lemma bind {G : α → Ledger β ω γ} (hF : Catchable F) (hG : ∀ a, Catchable (G a)) :
    Catchable (F >>= G) := by
  intro o
  rcases hr : F o with ⟨b, e | ⟨a, o'⟩⟩
  · rw [Ledger.bind_throws hr]
    have hcatch := hF o
    rw [hr] at hcatch
    exact fun h => hcatch (by cases h; rfl)
  · rw [Ledger.bind_returns hr]
    exact hG a o'

lemma forEach {f : γ → Ledger β ω Unit} (hf : ∀ a, Catchable (f a)) (l : List γ) :
    Catchable (Ledger.forEach f l) := by
  induction l with
  | nil => exact pure ()
  | cons a l ih => exact (hf a).bind fun _ => ih

lemma effect (record : Bool) (e : Effect β ω) : Catchable (Ledger.effect record e) := by
  cases e with
  | world f => exact update _
  | virtualOperation op => exact pure ()
  | activeWitnesses ws => exact update _
  | fail e => exact raise e
  | adjustBalance utype info account asset delta =>
      change Catchable (Ledger.adjustBalance record utype info account asset delta)
      unfold Ledger.adjustBalance
      split_ifs with hdelta hrec
      · exact pure ()
      · refine (gets _).bind fun o => (ofExcept _).bind fun o' => (update _).bind fun _ => ?_
        exact (check _ _).bind fun _ => emit _
      · exact (gets _).bind fun o => (ofExcept _).bind fun o' => (update _).bind fun _ => pure ()

/-- The steps of an evaluator. -/
lemma rule (record : Bool) (f : Objects β ω → List (Effect β ω)) :
    Catchable (Ledger.rule record f) :=
  (gets _).bind fun _ => forEach (effect record) _

end Ledger.Catchable

section Plain

variable {R : Rules β ω} {record : Bool} {d : ℕ} {p : ProposalObject β} {o o' : Objects β ω}

/-- An operation that is not one on proposals throws an exception, or leaves the proposals. -/
lemma operation_basic_cases (R : Rules β ω) (record : Bool) (d : ℕ) (b : β) (o : Objects β ω) :
    (∃ h e, Ledger.operation R record d (.basic b) o = (h, .error (.fc e))) ∨
      ∃ h o', Ledger.operation R record d (.basic b) o = (h, .ok ((), o')) ∧ o.Effected o' := by
  have hop : Ledger.operation R record d (.basic b) = Ledger.rule record (R.evaluate b) := by
    cases d <;> rfl
  rw [hop]
  have hcatch := Ledger.Catchable.rule record (R.evaluate b) o
  rcases hrule : Ledger.rule record (R.evaluate b) o with ⟨h, (e | _) | ⟨⟨⟩, o'⟩⟩
  · exact .inl ⟨h, e, rfl⟩
  · rw [hrule] at hcatch
    exact absurd rfl hcatch
  · exact .inr ⟨h, o', rfl, Ledger.effected_of_effects hrule⟩

/-- And so do the operations of a proposal that has no others. -/
lemma proposedOps_plain (R : Rules β ω) (record : Bool) (d : ℕ)
    (hp : (o.findProposal p.id).isSome) (hplain : Plain p.proposedOps) :
    (∃ h e, Ledger.proposedOps (Ledger.operation R record d) p o = (h, .error (.fc e))) ∨
      ∃ h o', Ledger.proposedOps (Ledger.operation R record d) p o = (h, .ok ((), o')) ∧
        o.Effected o' := by
  unfold Ledger.proposedOps
  generalize p.proposedOps = ops at hplain
  induction ops generalizing o with
  | nil => exact .inr ⟨_, o, rfl, .refl o⟩
  | cons op ops ih =>
      obtain ⟨⟨b, rfl⟩, hrest⟩ := List.forall_mem_cons.mp hplain
      rcases operation_basic_cases R record d b o with
        ⟨h, e, hop⟩ | ⟨h, o₁, hop, heff⟩
      · exact .inl ⟨h, e, Ledger.bind_throws (Ledger.bind_throws hop)⟩
      · have hp₁ : (o₁.findProposal p.id).isSome := by
          obtain ⟨_, _, _, rfl⟩ := heff
          exact hp
        have hproposed : Ledger.proposed (Ledger.operation R record d) p.id (.basic b) o =
            (h, .ok ((), o₁)) := by
          have hthere : (Ledger.gets (fun o => o) >>= fun o : Objects β ω =>
              Ledger.check (o.findProposal p.id).isSome .crash : Ledger β ω Unit) o₁ =
              ([], .ok ((), o₁)) :=
            (Ledger.bind_returns rfl).trans (Ledger.check_holds hp₁ .crash)
          refine (Ledger.bind_returns hop).trans ?_
          rw [hthere, List.append_nil]
        rcases ih hp₁ hrest with ⟨h', e, hops⟩ | ⟨h', o₂, hops, heff'⟩
        · refine .inl ⟨h ++ h', e, (Ledger.bind_returns hproposed).trans ?_⟩
          rw [hops]
        · refine .inr ⟨h ++ h', o₂, (Ledger.bind_returns hproposed).trans ?_, heff.trans heff'⟩
          rw [hops]

/-- A proposal without operations on proposals does not end the program. -/
lemma not_undercuts_of_plain (hp : (o.findProposal p.id).isSome) (hplain : Plain p.proposedOps) :
    ¬ Undercuts R record (d + 1) p o := by
  rintro ⟨-, hcrash⟩
  rcases proposedOps_plain R record d hp hplain with
    ⟨h, e, hops⟩ | ⟨h, o', hops, -⟩
  · rw [Ledger.proposal, Ledger.proposalWith_throws hops] at hcrash
    cases hcrash
  · rw [Ledger.proposal, Ledger.proposalWith_returns hp hops] at hcrash
    cases hcrash

/-- A round leaves no other proposals than there were. -/
lemma Round.plain (h : Round R record (d + 1) o o')
    (hplain : ∀ q ∈ o.proposals, Plain q.proposedOps) :
    ∀ q ∈ o'.proposals, Plain q.proposedOps := by
  obtain ⟨p, l, hp, hround⟩ := h
  have hsome := Objects.isSome_findProposal.mpr hp.mem_proposalIds
  rcases clearProposal_cases R record (d + 1) hp.mem_proposalIds with
    ⟨-, hcrash⟩ | ⟨-, ⟨l₁, o₁, hpush, hok⟩ | hok⟩
  · rw [hround] at hcrash
    cases hcrash
  · rw [hround] at hok
    cases hok
    obtain ⟨h, hledger⟩ := (notes_proposal R record (d + 1) p).eq_ok hpush
    rcases proposedOps_plain R record d hsome (hplain p hp.mem) with
      ⟨h', e, hops⟩ | ⟨h', o₂, hops, heff⟩
    · rw [Ledger.proposal, Ledger.proposalWith_throws hops] at hledger
      cases hledger
    · rw [Ledger.proposal, Ledger.proposalWith_returns hsome hops] at hledger
      cases hledger
      obtain ⟨_, _, _, rfl⟩ := heff
      exact fun q hq => hplain q (List.mem_of_mem_filter hq)
  · rw [hround] at hok
    cases hok
    exact fun q hq => hplain q (List.mem_of_mem_filter hq)

/-- **Proposals without operations on proposals are cleared.** -/
theorem clearable_of_plain (hplain : ∀ q ∈ o.proposals, Plain q.proposedOps) :
    Clearable R record (d + 1) o := by
  intro o' hrun p hp
  have hplain' : ∀ q ∈ o'.proposals, Plain q.proposedOps := by
    clear hp
    induction hrun with
    | refl => exact hplain
    | tail _ hround ih => exact hround.plain ih
  exact not_undercuts_of_plain (Objects.isSome_findProposal.mpr hp.mem_proposalIds)
    (hplain' p hp.mem)

end Plain

/-! ### What `clear_expired_proposals` does -/

/-- `clear_expired_proposals` clears the proposals that have expired: it returns, and would not do
one more round if it were let; no proposal with an expiration up to the head time is left; and in the
journal of what it has done each that was there is removed once, and executed at most once. -/
def ClearsExpired (R : Rules β ω) (d : ℕ) (db : Database β ω) : Prop :=
  ∃ (db' : Database β ω) (l : List Removal),
    Database.clearExpiredProposals R d db = (.ok (), db') ∧
    (∀ fuel, db.objects.proposals.length ≤ fuel →
      Database.clearExpiredProposalsLoop R d fuel db = (.ok (), db')) ∧
    db'.objects.time = db.objects.time ∧
    (∀ p ∈ db'.objects.proposals, db.objects.time < p.expirationTime) ∧
    Journal.clearExpired R db.recording d db.objects = .ok ((), l, db'.objects) ∧
    ∀ p ∈ db.objects.proposals, p.expirationTime ≤ db.objects.time →
      l.countP (fun r => r.id = p.id) = 1 ∧ l.countP (fun r => r.id = p.id ∧ r.executed) ≤ 1

variable {R : Rules β ω} {d : ℕ} {db db' : Database β ω}

/-- When nothing has expired any more the loop has no use for more fuel. -/
lemma clearExpiredProposalsLoop_more {fuel fuel' : ℕ}
    (h : Database.clearExpiredProposalsLoop R d fuel db = (.ok (), db'))
    (hdone : db'.objects.expiredIds = []) (hle : fuel ≤ fuel') :
    Database.clearExpiredProposalsLoop R d fuel' db = (.ok (), db') := by
  induction fuel generalizing db fuel' with
  | zero =>
      cases h
      cases fuel' with
      | zero => rfl
      | succ fuel' =>
          rw [Database.clearExpiredProposalsLoop, bind_ok (gets_apply _ _)]
          cases hfirst : Database.firstToExpire db'.objects.proposals with
          | none => rfl
          | some p =>
              have hlater : ¬ p.expirationTime ≤ db'.objects.time := fun hexp =>
                exists_due_iff.mp ⟨p, hfirst, hexp⟩ hdone
              simp only [hlater, if_false]
              rfl
  | succ fuel ih =>
      obtain ⟨fuel', rfl⟩ : ∃ k, fuel' = k + 1 := ⟨fuel' - 1, by omega⟩
      rw [Database.clearExpiredProposalsLoop, bind_ok (gets_apply _ _)] at h ⊢
      cases hfirst : Database.firstToExpire db.objects.proposals with
      | none =>
          simp only [hfirst] at h
          exact h
      | some p =>
          simp only [hfirst] at h
          by_cases hexp : p.expirationTime ≤ db.objects.time
          · simp only [hexp, if_true] at h ⊢
            obtain ⟨_, db₁, hround, hrest⟩ := bind_eq_ok.mp h
            exact (bind_ok hround).trans (ih hrest (by omega))
          · simp only [hexp, if_false] at h ⊢
            exact h

/-- A proposal that had expired, and has gone by the end, has been removed once. -/
lemma removed_once {l : List Removal} {o o' : Objects β ω} {p : ProposalObject β} (hn : Numbered o)
    (h : Accounted l o o') (hdone : o'.expiredIds = []) (hp : p ∈ o.proposals)
    (hexp : p.expirationTime ≤ o.time) :
    l.countP (fun r => r.id = p.id) = 1 ∧ l.countP (fun r => r.id = p.id ∧ r.executed) ≤ 1 := by
  have hbefore : o.proposalIds.count p.id = 1 :=
    List.count_eq_one_of_mem hn.nodup (List.mem_map.mpr ⟨p, hp, rfl⟩)
  have hafter : o'.proposalIds.count p.id = 0 := by
    refine List.count_eq_zero.mpr fun hmem => ?_
    obtain ⟨p', hp', hid⟩ := List.mem_map.mp hmem
    rcases h.origin p' hp' with ⟨q, hq, hqid, hqexp⟩ | ⟨hnew, -⟩
    · -- it would be the one that was there, and have expired still
      obtain rfl := List.inj_on_of_nodup_map hn.nodup hq hp (hqid.trans hid)
      have hexpired : p'.id ∈ o'.expiredIds :=
        Objects.mem_expiredIds.mpr ⟨p', hp', by rw [← hqexp, h.time]; exact hexp, rfl⟩
      rw [hdone] at hexpired
      cases hexpired
    · have hlt := hn.below p hp
      omega
  have hbalance := h.balance p.id (hn.below p hp)
  have hcount : (l.map Removal.id).count p.id = l.countP fun r => r.id = p.id := by
    rw [List.count, List.countP_map]
    rfl
  refine ⟨by omega, ?_⟩
  have hle : l.countP (fun r => r.id = p.id ∧ r.executed) ≤ l.countP fun r => r.id = p.id :=
    List.countP_mono_left fun r _ hr => by
      simp only [decide_eq_true_eq] at hr ⊢
      exact hr.1
  omega

/-- Operations that do nothing, on a chain where all proposals are authorised. -/
def idleRules : Rules Unit Unit := Rules.lenient fun _ _ => []

/-- A block is being applied, and its time has come to 100. -/
def expiringState (ps : List (ProposalObject Unit)) : Database Unit Unit where
  objects :=
    { activeWitnesses := [0], world := (), time := 100, proposals := ps, nextProposalId := 1 }
  undo := { activeSessions := 1, disabled := false, stack := [{ activeWitnesses := [0], world := () }],
            maxSize := 10 }
  appStatus := { applyBlock := true }

/-- The proposal 0, after its review. -/
def reviewedProposal (ops : List (Operation Unit)) : ProposalObject Unit where
  id := 0
  proposedOps := ops
  expirationTime := 100
  reviewPeriodTime := some 50
  proposer := 7
  status := 1
  availableActiveApprovals := [7]

end ZosCore
