import Mathlib.Data.Nat.Log
import Mathlib.Tactic
import ZosCore.Lib.Exec

/-!
Loops that run their body first, and walks up to a last number that pass over half of what is left.

* `doWhile`: `do … while`. `doWhile_mono`: more fuel changes nothing. `doWhile_ne_ok`: a loop that
  always goes on never returns.
* `halvings`: the numbers that such a walk visits. `length_halvings`: there are
  `log₂ n + 1` of them. `halvings_pairwise`, `getLast?_halvings`: they go up to the last number.
* **`doWhile_visits`**: a loop that halves what is left visits them.
-/

namespace ZosCore

/-! ### Loops that run their body first -/

section DoWhile

variable {σ ε : Type} {body : σ → Except ε σ} {again : σ → Bool}

/-- `do … while`. The fuel bounds the rounds, and without it there is no result. -/
def doWhile (body : σ → Except ε σ) (again : σ → Bool) : ℕ → σ → Option (Except ε σ)
  | 0, _ => none
  | fuel + 1, s =>
      match body s with
      | .error e => some (.error e)
      | .ok s' => if again s' then doWhile body again fuel s' else some (.ok s')

/-- More fuel changes nothing. -/
lemma doWhile_mono {fuel fuel' : ℕ} {s : σ} {r : Except ε σ}
    (h : doWhile body again fuel s = some r) (hle : fuel ≤ fuel') :
    doWhile body again fuel' s = some r := by
  induction fuel generalizing s fuel' with
  | zero => simp [doWhile] at h
  | succ fuel ih =>
      obtain ⟨fuel', rfl⟩ : ∃ n, fuel' = n + 1 := ⟨fuel' - 1, by omega⟩
      rw [doWhile] at h ⊢
      cases hbody : body s with
      | error e => simpa only [hbody] using h
      | ok s' =>
          simp only [hbody] at h ⊢
          split_ifs at h ⊢
          · exact ih h (by omega)
          · exact h

/-- A loop that always goes on does not return. -/
lemma doWhile_ne_ok (h : ∀ s s', body s = .ok s' → again s' = true) (fuel : ℕ) (s s' : σ) :
    doWhile body again fuel s ≠ some (.ok s') := by
  induction fuel generalizing s with
  | zero => simp [doWhile]
  | succ fuel ih =>
      rw [doWhile]
      cases hbody : body s with
      | error e => simp
      | ok s'' => simpa only [h s s'' hbody, if_true] using ih s''

end DoWhile

/-! ### Walks that halve what is left -/

section Halvings

/-- The numbers that are visited on the way to `last`, if `n` numbers are left: the first of them,
and those of the upper half of the others. -/
def halvings (last : ℕ) : ℕ → List ℕ
  | 0 => []
  | n + 1 => (last - n) :: halvings last ((n + 1) / 2)

variable {last n p : ℕ}

@[simp] lemma halvings_zero : halvings last 0 = [] := by rw [halvings]

lemma halvings_succ : halvings last (n + 1) = (last - n) :: halvings last ((n + 1) / 2) := by
  rw [halvings]

/-- What is visited is among the numbers that are left. -/
lemma mem_halvings (h : p ∈ halvings last n) : last + 1 - n ≤ p ∧ p ≤ last := by
  induction n using Nat.strong_induction_on with
  | _ n ih =>
      cases n with
      | zero => simp at h
      | succ n =>
          rw [halvings_succ] at h
          rcases List.mem_cons.mp h with rfl | h
          · omega
          · have := ih ((n + 1) / 2) (by omega) h
            omega

/-- A walk goes up. -/
lemma halvings_pairwise (hn : n ≤ last + 1) : (halvings last n).Pairwise (· < ·) := by
  induction n using Nat.strong_induction_on with
  | _ n ih =>
      cases n with
      | zero => simp
      | succ n =>
          rw [halvings_succ]
          refine List.pairwise_cons.mpr ⟨fun p hp => ?_, ih ((n + 1) / 2) (by omega) (by omega)⟩
          have := mem_halvings hp
          omega

lemma head?_halvings (hn : 0 < n) : (halvings last n).head? = some (last + 1 - n) := by
  obtain ⟨n, rfl⟩ : ∃ m, n = m + 1 := ⟨n - 1, by omega⟩
  rw [halvings_succ, List.head?_cons]
  exact congrArg some (by omega)

/-- A walk ends at the last number. -/
lemma getLast?_halvings (hn : 0 < n) : (halvings last n).getLast? = some last := by
  induction n using Nat.strong_induction_on with
  | _ n ih =>
      obtain ⟨n, rfl⟩ : ∃ m, n = m + 1 := ⟨n - 1, by omega⟩
      rw [halvings_succ, List.getLast?_cons]
      cases n with
      | zero => simp
      | succ n => rw [ih ((n + 1 + 1) / 2) (by omega) (by omega), Option.getD_some]

/-- Each step halves what is left. -/
lemma length_halvings (hn : 0 < n) : (halvings last n).length = Nat.log2 n + 1 := by
  induction n using Nat.strong_induction_on with
  | _ n ih =>
      obtain ⟨n, rfl⟩ : ∃ m, n = m + 1 := ⟨n - 1, by omega⟩
      rw [halvings_succ, List.length_cons]
      cases n with
      | zero => simp [Nat.log2_def]
      | succ n =>
          rw [ih ((n + 1 + 1) / 2) (by omega) (by omega)]
          conv_rhs => rw [Nat.log2_def, if_pos (by omega)]

end Halvings

/-! ### What a loop collects -/

section Visits

variable {ε α : Type} {visit : ℕ → Except ε (List α)} {next : ℕ → ℕ} {last high low : ℕ}

/-- What the visits give, one after the other. -/
def visitAll (visit : ℕ → Except ε (List α)) : List ℕ → Except ε (List α)
  | [] => .ok []
  | p :: ps => do
      let l ← visit p
      let r ← visitAll visit ps
      return l ++ r

/-- A round of a loop that visits a number, and goes on at the next one. -/
def visitRound (visit : ℕ → Except ε (List α)) (next : ℕ → ℕ) (s : ℕ × List α) :
    Except ε (ℕ × List α) := do
  let l ← visit s.1
  return (next s.1, s.2 ++ l)

/-- Visits that all give something. -/
lemma visitAll_eq_ok {g : ℕ → List α} {ps : List ℕ} (h : ∀ p ∈ ps, visit p = .ok (g p)) :
    visitAll visit ps = .ok (ps.flatMap g) := by
  induction ps with
  | nil => rfl
  | cons p ps ih =>
      obtain ⟨hp, hps⟩ := List.forall_mem_cons.mp h
      rw [visitAll, hp, ih hps]
      rfl

/-- If all is visited, then each visit gives a part of what is found. -/
lemma exists_of_visitAll {ps : List ℕ} {found : List α} (h : visitAll visit ps = .ok found) :
    ∀ p ∈ ps, ∃ l, visit p = .ok l ∧ ∀ a ∈ l, a ∈ found := by
  induction ps generalizing found with
  | nil => simp
  | cons p ps ih =>
      obtain ⟨l, hl, h⟩ := except_bind_eq_ok.mp h
      obtain ⟨r, hr, h⟩ := except_bind_eq_ok.mp h
      cases h
      refine List.forall_mem_cons.mpr ⟨⟨l, hl, fun a => List.mem_append_left r⟩, fun q hq => ?_⟩
      obtain ⟨l', hl', hmem⟩ := ih hr q hq
      exact ⟨l', hl', fun a ha => List.mem_append_right l (hmem a ha)⟩

/-- What is found stays. -/
lemma mem_of_doWhile {again : ℕ × List α → Bool} {fuel low' : ℕ} {found found' : List α}
    (h : doWhile (visitRound visit next) again fuel (low, found) = some (.ok (low', found')))
    {a : α} (ha : a ∈ found) : a ∈ found' := by
  induction fuel generalizing low found with
  | zero => simp [doWhile] at h
  | succ fuel ih =>
      unfold doWhile at h
      cases hvisit : visit low with
      | error e => simp [visitRound, hvisit, bind, Except.bind] at h
      | ok l =>
          simp only [visitRound, hvisit, bind, Except.bind, pure, Except.pure] at h
          split_ifs at h
          · exact ih h (List.mem_append_left l ha)
          · simp only [Option.some.injEq, Except.ok.injEq, Prod.mk.injEq] at h
            exact h.2 ▸ List.mem_append_left l ha

/-- **A loop that goes on past half of what is left visits the halvings**, up to the number `high`
at which it stops. -/
theorem doWhile_visits (visit : ℕ → Except ε (List α)) (hhigh : high ≤ last)
    (hnext : ∀ p, 0 < p → p ≤ last → next p = p + (last - p + 2) / 2) (fuel : ℕ) (hpos : 0 < low)
    (hlow : low ≤ high) (hfuel : last - low < fuel) (found : List α) :
    ∃ low', doWhile (visitRound visit next) (fun s => s.1 ≤ high) fuel (low, found) =
      some ((visitAll visit ((halvings last (last + 1 - low)).filter (· ≤ high))).map
        fun l => (low', found ++ l)) := by
  induction fuel generalizing low found with
  | zero => omega
  | succ fuel ih =>
      obtain ⟨n, hn⟩ : ∃ n, last + 1 - low = n + 1 := ⟨last - low, by omega⟩
      have hfirst : last - n = low := by omega
      rw [hn, halvings_succ, hfirst, List.filter_cons_of_pos (by simpa using hlow), visitAll, doWhile,
        visitRound]
      cases hvisit : visit low with
      | error e => exact ⟨low, rfl⟩
      | ok l =>
          have hstep := hnext low hpos (by omega)
          have hleft : last + 1 - next low = (n + 1) / 2 := by omega
          by_cases hagain : next low ≤ high
          · obtain ⟨low', hrun⟩ := ih (by omega) hagain (by omega) (found ++ l)
            refine ⟨low', ?_⟩
            rw [hleft] at hrun
            simp only [bind, Except.bind, pure, Except.pure, hagain, decide_true, if_true, hrun]
            cases visitAll visit ((halvings last ((n + 1) / 2)).filter (· ≤ high)) with
            | error e => rfl
            | ok r => simp [Except.map]
          · -- what is left is above the number at which the loop stops
            have hrest : (halvings last ((n + 1) / 2)).filter (· ≤ high) = [] := by
              refine List.filter_eq_nil_iff.mpr fun p hp => ?_
              have := mem_halvings hp
              simp only [decide_eq_true_eq, not_le]
              omega
            refine ⟨next low, ?_⟩
            simp [bind, Except.bind, pure, Except.pure, Except.map, hagain, hrest, visitAll]

end Visits

end ZosCore
