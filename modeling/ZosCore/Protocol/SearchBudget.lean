import ZosCore.Lib.Agenda
import ZosCore.Protocol.AccountGraph

/-!
The budget of the search for circles.

`verify_account_auth` counts a budget down that all its calls share. The call that brings it to zero
looks at nothing, but the next one counts on from there, and the counter wraps around: from then on
the search is as good as unbounded.

* `AccountDb.visit`: a call, with a log of all calls and of what they find the budget to be.
  `AccountDb.verifyAccountAuth_eq_search`: the calls together are `verify_account_auth`.
* `AccountDb.StaysInBudget`: the search comes to an end, and looks at nothing after the budget is
  used up.
* `AccountDb.agenda`: the authorities that wait, in a search without a budget.
* **`AccountDb.staysInBudget_iff`**: the search stays in its budget exactly if at the last call that
  this allows no other authority waits.
-/

namespace ZosCore

open Agenda

namespace AccountDb

variable {κ α ν : Type} (db : AccountDb κ α ν)

/-! ### A call -/

/-- The authorities that are searched below an authority: those of its accounts, up to one that is
not there. -/
def below (a : Authority κ α) : List (Authority κ α) :=
  (a.accounts.takeWhile fun b => (db.accounts.lookup b).isSome).flatMap db.authoritiesOf

/-- What a call does that looks at the authority. -/
def lookAt (id : ℕ) (a : Authority κ α) : List (Authority κ α) × Ending UpdateError :=
  if id ∈ a.accounts then ([], .found)
  else (db.below a,
    if ∀ b ∈ a.accounts, (db.accounts.lookup b).isSome then .goesOn else .fails .notFound)

/-- The calls, each with the budget that it finds. -/
abbrev Calls (κ α : Type) := List (ℕ × Authority κ α)

/-- A call of `verify_account_auth` up to its loops. The state is the budget and the log of the
calls. -/
def visit (id : ℕ) (s : ℕ × Calls κ α) (a : Authority κ α) :
    (ℕ × Calls κ α) × List (Authority κ α) × Ending UpdateError :=
  ((countDown s.1, s.2 ++ [(countDown s.1, a)]),
    if countDown s.1 ≤ 0 then ([], .goesOn) else db.lookAt id a)

/-- A computation on the budget does what one with a log does. -/
def Forgets (m : Exec ℕ UpdateError Bool) (m' : Exec (ℕ × Calls κ α) UpdateError Bool) : Prop :=
  ∀ dep log, m dep = ((m' (dep, log)).1, (m' (dep, log)).2.1)

variable {db} {id n : ℕ} {a : Authority κ α}

lemma forgets_any {f : Authority κ α → Exec ℕ UpdateError Bool}
    {g : Authority κ α → Exec (ℕ × Calls κ α) UpdateError Bool} (h : ∀ a, Forgets (f a) (g a))
    (l : List (Authority κ α)) : Forgets (Exec.any f l) (Exec.any g l) := by
  intro dep log
  induction l generalizing dep log with
  | nil => rfl
  | cons a l ih =>
      rw [Exec.any, Exec.any, Exec.bind_apply, Exec.bind_apply, h a dep log]
      rcases g a (dep, log) with ⟨_ | _ | _, dep', log'⟩
      · rfl
      · exact ih dep' log'
      · rfl

/-- The two loops of a call are one loop over the authorities below. -/
lemma any_accounts {f : Authority κ α → Exec ℕ UpdateError Bool} {l : List ℕ} :
    Exec.any (fun b => do
        let account ← db.getAccount b
        Exec.any f account.authorities) l =
      (Exec.any f ((l.takeWhile fun b => (db.accounts.lookup b).isSome).flatMap db.authoritiesOf) >>=
        fun found => if found = true then pure true else
          if ∀ b ∈ l, (db.accounts.lookup b).isSome then pure false else Exec.raise .notFound) := by
  induction l with
  | nil => rfl
  | cons b l ih =>
      funext dep
      rw [Exec.any, ih]
      cases hb : db.accounts.lookup b with
      | none =>
          have hnone : ¬ ∀ c ∈ b :: l, (db.accounts.lookup c).isSome := by simp [hb]
          rw [List.takeWhile_cons_of_neg (by simp [hb]), if_neg hnone]
          simp [Exec.bind_apply, getAccount, hb, Exec.any]
      | some acnt =>
          have hauth : db.authoritiesOf b = acnt.authorities := by rw [authoritiesOf, hb]; rfl
          have hall : (∀ c ∈ b :: l, (db.accounts.lookup c).isSome) ↔
              ∀ c ∈ l, (db.accounts.lookup c).isSome := by simp [hb]
          rw [List.takeWhile_cons_of_pos (by simp [hb]), List.flatMap_cons, hauth,
            getAccount_bind hb, Exec.bind_apply, Exec.bind_apply, any_append]
          rcases Exec.any f acnt.authorities dep with ⟨_ | _ | _, dep'⟩
          · rfl
          · simp only [hall]
            rfl
          · rfl

/-- **The calls are the search.** -/
theorem verifyAccountAuth_eq_search (id n : ℕ) (a : Authority κ α) :
    Forgets (db.verifyAccountAuth id n a) (search (db.visit id) .stack n a) := by
  induction n generalizing a with
  | zero => exact fun dep log => rfl
  | succ n ih =>
      intro dep log
      rw [verifyAccountAuth, Exec.bind_ok (Exec.update_apply _ _), Exec.bind_ok (Exec.gets_apply _ _)]
      by_cases hdep : countDown dep ≤ 0
      · have hvisit : db.visit id (dep, log) a =
            ((countDown dep, log ++ [(countDown dep, a)]), [], .goesOn) := by
          rw [visit, if_pos hdep]
        rw [if_pos hdep, search_of_visit hvisit]
        rfl
      · rw [if_neg hdep]
        by_cases hid : id ∈ a.accounts
        · have hvisit : db.visit id (dep, log) a =
              ((countDown dep, log ++ [(countDown dep, a)]), [], .found) := by
            rw [visit, if_neg hdep, lookAt, if_pos hid]
          rw [if_pos hid, search_of_visit hvisit]
          rfl
        · rw [if_neg hid, any_accounts]
          have hvisit : db.visit id (dep, log) a =
              ((countDown dep, log ++ [(countDown dep, a)]), db.below a,
                if ∀ b ∈ a.accounts, (db.accounts.lookup b).isSome then .goesOn
                else .fails .notFound) := by
            rw [visit, if_neg hdep, lookAt, if_neg hid]
          rw [search_of_visit hvisit, Exec.bind_apply, Exec.bind_apply, ← below,
            forgets_any ih (db.below a) (countDown dep) (log ++ [(countDown dep, a)])]
          rcases Exec.any (search (db.visit id) .stack n) (db.below a)
            (countDown dep, log ++ [(countDown dep, a)]) with ⟨_ | _ | _, dep', log'⟩
          · rfl
          · simp only [Bool.false_eq_true, if_false]
            split_ifs
            · rfl
            · rfl
          · rfl

/-! ### The budget -/

variable (db) in
/-- The calls that `verify_account_auth` makes, with a stack for `n` of them and the budget `dep`. -/
def calls (id n : ℕ) (a : Authority κ α) (dep : ℕ) : Calls κ α :=
  (search (db.visit id) .stack n a (dep, [])).2.2

/-- No more authorities are looked at than the budget allows, and none after it is used up. -/
structure BudgetKept (dep : ℕ) (l : Calls κ α) : Prop where
  looked : (l.filter fun c => 0 < c.1).length ≤ dep
  after : l.Pairwise fun c c' => c.1 = 0 → c'.1 = 0

variable (db) in
/-- The search comes to an end, and keeps to the budget. -/
def StaysInBudget (id dep : ℕ) (a : Authority κ α) : Prop :=
  ∃ n, (db.verifyAccountAuth id n a dep).1 ≠ .error .stack ∧ BudgetKept dep (db.calls id n a dep)

variable (db) in
/-- The authorities that wait after the first one has been looked at, in a search without a
budget. -/
def agenda (id : ℕ) : List (Authority κ α) → List (Authority κ α)
  | [] => []
  | a :: rest => (db.lookAt id a).1 ++ (db.lookAt id a).2.rest rest

variable {dep j k m : ℕ} {log : Calls κ α} {b : Authority κ α} {l : List (Authority κ α)}
  {s s' : ℕ × Calls κ α}

/-- A call that finds a budget. -/
lemma step_of_pos (h : 0 < countDown dep) (l : List (Authority κ α)) :
    agendaStep (db.visit id) ((dep, log), b :: l) =
      ((countDown dep, log ++ [(countDown dep, b)]), db.agenda id (b :: l)) := by
  rw [agendaStep, visit, if_neg h.not_ge]
  rfl

lemma countDown_of_pos (h : 0 < dep) (hdep : dep < 2 ^ 32) : countDown dep = dep - 1 := by
  simp only [countDown]
  omega

/-- The call that brings the budget to zero. -/
lemma step_of_one (l : List (Authority κ α)) :
    agendaStep (db.visit id) ((1, log), b :: l) = ((0, log ++ [(0, b)]), l) := by
  have hdown : countDown 1 = 0 := by simp [countDown]
  rw [agendaStep, visit, hdown, if_pos le_rfl]
  rfl

/-- A call is logged. -/
lemma prefix_step (id : ℕ) (c : (ℕ × Calls κ α) × List (Authority κ α)) :
    c.1.2 <+: (agendaStep (db.visit id) c).1.2 := by
  obtain ⟨⟨dep, log⟩, l⟩ := c
  cases l with
  | nil => exact List.prefix_rfl
  | cons b l =>
      have hvisit : (db.visit id (dep, log) b).1 = (countDown dep, log ++ [(countDown dep, b)]) := by
        rw [visit]
      rw [agendaStep]
      rcases hb : db.visit id (dep, log) b with ⟨s', below, ending⟩
      rw [hb] at hvisit
      obtain rfl : s' = _ := hvisit
      exact List.prefix_append log [(countDown dep, b)]

lemma prefix_iterate (id k : ℕ) (c : (ℕ × Calls κ α) × List (Authority κ α)) :
    c.1.2 <+: ((agendaStep (db.visit id))^[k] c).1.2 := by
  induction k with
  | zero => exact List.prefix_rfl
  | succ k ih =>
      rw [Function.iterate_succ_apply']
      exact ih.trans (prefix_step id _)

/-- What the calls find the budget to be as long as it lasts. -/
def Counted (dep m : ℕ) (s : ℕ × Calls κ α) : Prop :=
  s.1 = dep - m ∧ s.2.map Prod.fst = (List.range m).map fun i => dep - (i + 1)

lemma Counted.append (h : Counted dep m s) (b : Authority κ α) :
    Counted dep (m + 1) (s.1 - 1, s.2 ++ [(s.1 - 1, b)]) := by
  refine ⟨by rw [h.1]; omega, ?_⟩
  rw [List.map_append, h.2, List.range_succ, List.map_append, h.1]
  simp [Nat.sub_sub]

/-- The calls that the budget lasts for keep to it. -/
lemma Counted.budgetKept (h : Counted dep m s) (hm : m ≤ dep) : BudgetKept dep s.2 := by
  refine ⟨?_, ?_⟩
  · have hlength : s.2.length = m := by
      have := congrArg List.length h.2
      simpa using this
    exact (List.length_filter_le _ _).trans (hlength.le.trans hm)
  · have hpairs : (s.2.map Prod.fst).Pairwise fun x y => x = 0 → y = 0 := by
      rw [h.2, List.pairwise_map]
      refine List.pairwise_lt_range.imp_of_mem fun {i i'} _ hi' hlt hzero => ?_
      have := List.mem_range.mp hi'
      omega
    exact List.pairwise_map.mp hpairs

variable (db) in
/-- Within the budget the search is one without a budget. -/
lemma iterate_of_lt (hdep : dep < 2 ^ 32) (id : ℕ) (a : Authority κ α) (hj : j < dep) :
    ∃ m s, (agendaStep (db.visit id))^[j] ((dep, []), [a]) = (s, (db.agenda id)^[j] [a]) ∧
      m ≤ j ∧ Counted dep m s ∧ ((db.agenda id)^[j] [a] ≠ [] → m = j) := by
  induction j with
  | zero => exact ⟨0, (dep, []), rfl, le_rfl, ⟨rfl, rfl⟩, fun _ => rfl⟩
  | succ j ih =>
      obtain ⟨m, s, hs, hm, hcount, hlast⟩ := ih (by omega)
      rw [Function.iterate_succ_apply', Function.iterate_succ_apply', hs]
      cases hl : (db.agenda id)^[j] [a] with
      | nil => exact ⟨m, s, rfl, by omega, hcount, fun h => absurd rfl h⟩
      | cons b l =>
          have hmj : m = j := hlast (by rw [hl]; exact List.cons_ne_nil b l)
          subst hmj
          have hs1 : s.1 = dep - m := hcount.1
          refine ⟨m + 1, (s.1 - 1, s.2 ++ [(s.1 - 1, b)]), ?_, le_rfl, hcount.append b,
            fun _ => rfl⟩
          have hdown : countDown s.1 = s.1 - 1 := countDown_of_pos (by omega) (by omega)
          have hstep : agendaStep (db.visit id) ((s.1, s.2), b :: l) = _ :=
            step_of_pos (by omega) l
          rwa [hdown] at hstep

/-- The log of a search that has come to an end is that of the agenda. -/
lemma calls_of_agenda {n : ℕ} (hn : (db.verifyAccountAuth id n a dep).1 ≠ .error .stack) :
    ∃ k s, (agendaStep (db.visit id))^[k] ((dep, []), [a]) = (s, []) ∧
      s.2 = db.calls id n a dep := by
  rw [verifyAccountAuth_eq_search id n a dep []] at hn
  have hsearch : search (db.visit id) .stack n a (dep, []) = (_, _) := rfl
  obtain ⟨k, hk⟩ := agenda_of_search hsearch hn
  exact ⟨k, _, hk, rfl⟩

/-- If another authority waits then the search goes on after the budget is used up. -/
theorem agenda_length_le (h1 : 1 ≤ dep) (hdep : dep < 2 ^ 32) (h : db.StaysInBudget id dep a) :
    ((db.agenda id)^[dep - 1] [a]).length ≤ 1 := by
  obtain ⟨n, hn, hkept⟩ := h
  obtain ⟨k, s', hk, hcalls⟩ := calls_of_agenda hn
  rw [← hcalls] at hkept
  have hlt : dep - 1 < dep := by omega
  obtain ⟨m, s, hs, hm, hcount, hlast⟩ := iterate_of_lt db hdep id a hlt
  rcases hl : (db.agenda id)^[dep - 1] [a] with _ | ⟨b, _ | ⟨b', l⟩⟩
  · simp
  · simp
  · exfalso
    rw [hl] at hs hlast
    obtain rfl : m = dep - 1 := hlast (List.cons_ne_nil b _)
    obtain ⟨budget, log⟩ := s
    obtain rfl : budget = 1 := hcount.1.trans (by omega)
    -- the two calls after these
    have hd : 0 < countDown 0 := by simp [countDown]
    have hl' : agendaStep (db.visit id) ((0, log ++ [(0, b)]), b' :: l) = _ := step_of_pos hd l
    generalize countDown 0 = d at hd hl'
    generalize db.agenda id (b' :: l) = l' at hl'
    have htwo : (agendaStep (db.visit id))^[dep + 1] ((dep, []), [a]) =
        ((d, log ++ [(0, b)] ++ [(d, b')]), l') := by
      have hsucc : dep + 1 = dep - 1 + 1 + 1 := by omega
      rw [hsucc, Function.iterate_succ_apply', Function.iterate_succ_apply', hs, step_of_one, hl']
    have hlater := iterate_of_le hk (Nat.le_add_left k (dep + 1))
    rw [add_comm, Function.iterate_add_apply, htwo] at hlater
    have hinit : log ++ [(0, b)] ++ [(d, b')] <+:
        ((agendaStep (db.visit id))^[k] ((d, log ++ [(0, b)] ++ [(d, b')]), l')).1.2 :=
      prefix_iterate id k ((d, log ++ [(0, b)] ++ [(d, b')]), l')
    rw [hlater] at hinit
    have hpair := hkept.after.sublist hinit.sublist
    rw [List.pairwise_append] at hpair
    have hused := hpair.2.2 (0, b) (by simp) (d, b') (by simp) rfl
    exact absurd hused hd.ne'

/-- If no other authority waits then the budget lasts. -/
theorem staysInBudget_of_length_le (h1 : 1 ≤ dep) (hdep : dep < 2 ^ 32)
    (h : ((db.agenda id)^[dep - 1] [a]).length ≤ 1) : db.StaysInBudget id dep a := by
  have hlt : dep - 1 < dep := by omega
  obtain ⟨m, s, hs, hm, hcount, hlast⟩ := iterate_of_lt db hdep id a hlt
  have hdone : ∃ m s, (agendaStep (db.visit id))^[dep] ((dep, []), [a]) = (s, []) ∧ m ≤ dep ∧
      Counted dep m s := by
    have hsucc : dep = dep - 1 + 1 := by omega
    rcases hl : (db.agenda id)^[dep - 1] [a] with _ | ⟨b, _ | ⟨b', l⟩⟩
    · rw [hl] at hs
      exact ⟨m, s, iterate_of_le hs (by omega), by omega, hcount⟩
    · rw [hl] at hs hlast
      obtain rfl : m = dep - 1 := hlast (List.cons_ne_nil b _)
      obtain ⟨budget, log⟩ := s
      obtain rfl : budget = 1 := hcount.1.trans (by omega)
      have hcount' := hcount.append b
      refine ⟨dep - 1 + 1, (0, log ++ [(0, b)]), ?_, by omega, hcount'⟩
      nth_rewrite 1 [hsucc]
      rw [Function.iterate_succ_apply', hs, step_of_one]
    · rw [hl] at h
      simp at h
  obtain ⟨m, s, hs, hm, hcount⟩ := hdone
  have hends : ∃ n, (search (db.visit id) .stack n a (dep, [])).1 ≠ .error .stack := by
    refine (search_terminates_iff fun s a => ?_).mpr ⟨dep, s, hs⟩
    simp only [visit, lookAt]
    split_ifs <;> simp
  obtain ⟨n, hn⟩ := hends
  rw [← show (db.verifyAccountAuth id n a dep).1 = _ from
    congrArg Prod.fst (verifyAccountAuth_eq_search id n a dep [])] at hn
  obtain ⟨k, s', hk, hcalls⟩ := calls_of_agenda hn
  refine ⟨n, hn, ?_⟩
  rw [← hcalls, iterate_unique hk hs]
  exact hcount.budgetKept hm

/-- **The search for circles and its budget.** -/
theorem staysInBudget_iff (db : AccountDb κ α ν) (id : ℕ) (a : Authority κ α) (dep : ℕ)
    (h1 : 1 ≤ dep) (hdep : dep < 2 ^ 32) :
    db.StaysInBudget id dep a ↔ ((db.agenda id)^[dep - 1] [a]).length ≤ 1 :=
  ⟨agenda_length_le h1 hdep, staysInBudget_of_length_le h1 hdep⟩

end AccountDb

/-- Account 5 names itself in its owner and in its active authority. -/
def circleDb : AccountDb ℕ ℕ Unit where
  accounts := (∅ : AList fun _ => AccountObject ℕ ℕ Unit).insert 5
    { owner := { weightThreshold := 1, accountAuths := [(5, 1)] }
      active := { weightThreshold := 1, accountAuths := [(5, 1)] }, options := () }
  maximumAuthorityMembership := 10
  hasAsset _ := true
  verifyAccountVotes _ := true

/-- Of the three authorities of account 5 in `twoAccountsDb` the budget of 4 reaches the last one. -/
theorem staysInBudget_iff_four :
    (twoAccountsDb 10).StaysInBudget 9 4 { weightThreshold := 1, accountAuths := [(5, 1)] } :=
  (AccountDb.staysInBudget_iff (twoAccountsDb 10) 9 { weightThreshold := 1, accountAuths := [(5, 1)] }
    4 (by decide) (by decide)).mpr (by decide +kernel)

/-- The search through a circle does not stay in its budget. -/
theorem not_staysInBudget : ¬ ∀ (db : AccountDb ℕ ℕ Unit) (id : ℕ) (a : Authority ℕ ℕ) (dep : ℕ),
    1 ≤ dep → dep < 2 ^ 32 → db.StaysInBudget id dep a := by
  intro h
  have hlength := AccountDb.agenda_length_le (by decide) (by decide)
    (h circleDb 9 { weightThreshold := 1, accountAuths := [(5, 1)] } 11 (by decide) (by decide))
  revert hlength
  decide +kernel

end ZosCore
