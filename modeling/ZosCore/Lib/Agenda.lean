import Mathlib.Logic.Function.Iterate
import ZosCore.Lib.Walk

/-!
Depth-first searches that carry a state, as recursions and with an agenda.

A visit changes the state and opens a list of nodes below; after these the search goes on, or it
ends. The recursion needs as much of the stack as the paths are long. The agenda is the list of
the nodes that are still to be visited, and a step visits the first one.

* `Ending`, `search`: the recursion, which fails with a given exception if the stack is used up.
* `agendaStep`: the same search with an agenda.
* **`search_terminates_iff`**: with enough of a stack the recursion comes to an end exactly if the
  agenda runs out. `agenda_of_search`: then the two leave the same state.
-/

namespace ZosCore

namespace Agenda

variable {σ ε α : Type}

/-- What becomes of a search when nothing has been found below a node. -/
inductive Ending (ε : Type) where
  | goesOn
  | found
  | fails (e : ε)

/-- What an ending returns. -/
def Ending.result : Ending ε → Except ε Bool
  | .goesOn => .ok false
  | .found => .ok true
  | .fails e => .error e

/-- What follows in the agenda. -/
def Ending.rest : Ending ε → List α → List α
  | .goesOn, l => l
  | _, _ => []

variable (visit : σ → α → σ × List α × Ending ε) (stack : ε)

/-- The recursion, to a depth. -/
def search : ℕ → α → Exec σ ε Bool
  | 0, _ => Exec.raise stack
  | n + 1, a => fun s =>
      let (s', below, ending) := visit s a
      (do
        if ← Exec.any (search n) below then return true
        Exec.ofExcept ending.result) s'

/-- The first node of the agenda is visited, and those below it come before the rest. -/
def agendaStep : σ × List α → σ × List α
  | (s, []) => (s, [])
  | (s, a :: rest) =>
      let (s', below, ending) := visit s a
      (s', below ++ ending.rest rest)

variable {visit stack} {a : α} {l l' rest : List α} {s s' s'' : σ} {n k : ℕ} {r : Except ε Bool}

lemma iterate_nil (k : ℕ) (s : σ) : (agendaStep visit)^[k] (s, []) = (s, []) :=
  Function.iterate_fixed rfl k

/-- An agenda that has run out stays as it is. -/
lemma iterate_of_le (h : (agendaStep visit)^[k] (s, l) = (s', [])) (hk : k ≤ n) :
    (agendaStep visit)^[n] (s, l) = (s', []) := by
  obtain ⟨m, rfl⟩ := Nat.exists_eq_add_of_le' hk
  rw [Function.iterate_add_apply, h, iterate_nil]

/-- An agenda runs out in one state. -/
lemma iterate_unique {k' : ℕ} (h : (agendaStep visit)^[k] (s, l) = (s', []))
    (h' : (agendaStep visit)^[k'] (s, l) = (s'', [])) : s' = s'' := by
  have hle := iterate_of_le h (le_max_left k k')
  rw [iterate_of_le h' (le_max_right k k')] at hle
  exact (congrArg Prod.fst hle).symm

lemma search_of_visit {below : List α} {ending : Ending ε} (h : visit s a = (s', below, ending)) :
    search visit stack (n + 1) a s =
      (Exec.any (search visit stack n) below >>= fun found =>
        if found = true then pure true else Exec.ofExcept ending.result) s' := by
  simp only [search, h]

/-! ### From the recursion to the agenda -/

/-- What is left of an agenda after a search with this result. -/
def afterwards : Except ε Bool → List α → List α
  | .ok false, rest => rest
  | _, _ => []

lemma afterwards_result (ending : Ending ε) (rest : List α) :
    afterwards ending.result rest = ending.rest rest := by
  cases ending <;> rfl

/-- A search that comes to an end takes its node off the agenda, and its result says what becomes of
the rest. -/
def TakesOff (visit : σ → α → σ × List α × Ending ε) (stack : ε) (m : Exec σ ε Bool)
    (l : List α) : Prop :=
  ∀ s s' r rest, m s = (r, s') → r ≠ .error stack →
    ∃ k, (agendaStep visit)^[k] (s, l ++ rest) = (s', afterwards r rest)

lemma takesOff_any {f : α → Exec σ ε Bool} (h : ∀ a, TakesOff visit stack (f a) [a]) (l : List α) :
    TakesOff visit stack (Exec.any f l) l := by
  intro s s' r rest hl hr
  induction l generalizing s with
  | nil =>
      cases hl
      exact ⟨0, rfl⟩
  | cons a l ih =>
      rw [Exec.any, Exec.bind_apply] at hl
      rcases ha : f a s with ⟨r₁, s₁⟩
      rw [ha] at hl
      rcases r₁ with e | _ | _
      · cases hl
        exact h a s s' _ (l ++ rest) ha hr
      · obtain ⟨k, hk⟩ := h a s s₁ _ (l ++ rest) ha (by simp)
        obtain ⟨k', hk'⟩ := ih s₁ hl
        refine ⟨k' + k, ?_⟩
        rw [Function.iterate_add_apply, List.cons_append]
        exact (congrArg _ hk).trans hk'
      · cases hl
        exact h a s s' _ (l ++ rest) ha (by simp)

theorem takesOff_search (n : ℕ) (a : α) : TakesOff visit stack (search visit stack n a) [a] := by
  induction n generalizing a with
  | zero =>
      intro s s' r rest h hr
      exact absurd (congrArg Prod.fst h).symm hr
  | succ n ih =>
      intro s s' r rest h hr
      rcases hvisit : visit s a with ⟨s₁, below, ending⟩
      have hstep : agendaStep visit (s, [a] ++ rest) = (s₁, below ++ ending.rest rest) := by
        rw [List.singleton_append, agendaStep, hvisit]
      have hbelow := takesOff_any ih below s₁
      rw [search_of_visit hvisit, Exec.bind_apply] at h
      rcases hany : Exec.any (search visit stack n) below s₁ with ⟨r₂, s₂⟩
      rw [hany] at h
      rcases r₂ with e | _ | _
      · cases h
        obtain ⟨k, hk⟩ := hbelow s' _ (ending.rest rest) hany hr
        exact ⟨k + 1, by rw [Function.iterate_succ_apply, hstep, hk]; rfl⟩
      · cases h
        obtain ⟨k, hk⟩ := hbelow s' _ (ending.rest rest) hany (by simp)
        refine ⟨k + 1, ?_⟩
        rw [Function.iterate_succ_apply, hstep, hk, afterwards_result]
        rfl
      · cases h
        obtain ⟨k, hk⟩ := hbelow s' _ (ending.rest rest) hany (by simp)
        exact ⟨k + 1, by rw [Function.iterate_succ_apply, hstep, hk]; rfl⟩

/-- **From the recursion to the agenda.** Where the search comes to an end the agenda runs out, in the
same state. -/
theorem agenda_of_search (h : search visit stack n a s = (r, s')) (hr : r ≠ .error stack) :
    ∃ k, (agendaStep visit)^[k] (s, [a]) = (s', []) := by
  obtain ⟨k, hk⟩ := takesOff_search n a s s' r [] h hr
  refine ⟨k, hk.trans ?_⟩
  rcases r with e | _ | _ <;> rfl

/-! ### From the agenda to the recursion -/

/-- A loop with a result other than `stack` has the same one if each of its computations keeps its
own. -/
lemma any_congr {f g : α → Exec σ ε Bool}
    (hfg : ∀ a s, (f a s).1 ≠ .error stack → g a s = f a s)
    (h : (Exec.any f l s).1 ≠ .error stack) : Exec.any g l s = Exec.any f l s := by
  induction l generalizing s with
  | nil => rfl
  | cons a l ih =>
      rw [Exec.any, Exec.bind_apply] at h ⊢
      rw [Exec.any, Exec.bind_apply]
      have ha : g a s = f a s := by
        refine hfg a s fun hstack => h ?_
        rcases hfa : f a s with ⟨r₁, s₁⟩
        rw [hfa] at hstack
        rw [show r₁ = .error stack from hstack]
      rw [ha]
      rcases hfa : f a s with ⟨r₁, s₁⟩
      rw [hfa] at h
      rcases r₁ with e | _ | _
      · rfl
      · exact ih h
      · rfl

/-- More of the stack does not matter where it was enough. -/
lemma search_succ (h : (search visit stack n a s).1 ≠ .error stack) :
    search visit stack (n + 1) a s = search visit stack n a s := by
  induction n generalizing a s with
  | zero => exact absurd rfl h
  | succ n ih =>
      rcases hvisit : visit s a with ⟨s₁, below, ending⟩
      rw [search_of_visit hvisit, Exec.bind_apply] at h
      rw [search_of_visit hvisit, search_of_visit hvisit, Exec.bind_apply, Exec.bind_apply]
      have hbelow : (Exec.any (search visit stack n) below s₁).1 ≠ .error stack := by
        intro hstack
        refine h ?_
        rcases hany : Exec.any (search visit stack n) below s₁ with ⟨r₂, s₂⟩
        rw [hany] at hstack
        rw [show r₂ = .error stack from hstack]
      rw [any_congr (fun a s ha => ih ha) hbelow]

/-- The loop over two lists. -/
lemma any_append {f : α → Exec σ ε Bool} :
    Exec.any f (l ++ l') s =
      match Exec.any f l s with
      | (.ok false, s') => Exec.any f l' s'
      | (r, s') => (r, s') := by
  induction l generalizing s with
  | nil => rfl
  | cons a l ih =>
      rw [List.cons_append, Exec.any, Exec.any, Exec.bind_apply, Exec.bind_apply]
      rcases f a s with ⟨_ | _ | _, s₁⟩
      · rfl
      · exact ih
      · rfl

/-- **From the agenda to the recursion.** Where the agenda runs out the recursion comes to an end, with
as much of the stack as there were steps. -/
theorem any_search_of_agenda (hstack : ∀ s a, (visit s a).2.2 ≠ .fails stack)
    (h : (agendaStep visit)^[k] (s, l) = (s', [])) (hk : k ≤ n) :
    (Exec.any (search visit stack n) l s).1 ≠ .error stack := by
  induction k generalizing n l s with
  | zero =>
      obtain rfl : l = [] := congrArg Prod.snd h
      simp [Exec.any]
  | succ k ih =>
      obtain ⟨n, rfl⟩ : ∃ m, n = m + 1 := ⟨n - 1, by omega⟩
      cases l with
      | nil => simp [Exec.any]
      | cons a rest =>
          rcases hvisit : visit s a with ⟨s₁, below, ending⟩
          have hending : ending ≠ .fails stack := by
            have := hstack s a
            rwa [hvisit] at this
          rw [Function.iterate_succ_apply, agendaStep, hvisit] at h
          have hbelow := ih h (Nat.le_of_succ_le_succ hk)
          rw [any_append] at hbelow
          rw [Exec.any, Exec.bind_apply, search_of_visit hvisit, Exec.bind_apply]
          rcases hany : Exec.any (search visit stack n) below s₁ with ⟨r₂, s₂⟩
          rw [hany] at hbelow
          rcases r₂ with e | _ | _
          · exact hbelow
          · cases ending with
            | goesOn =>
                -- the rest, with one more of the stack
                have hrest : (Exec.any (search visit stack n) rest s₂).1 ≠ .error stack := hbelow
                have hmore := any_congr (fun a s ha => search_succ ha) hrest
                simp only [Ending.result, Exec.ofExcept_apply, if_false, Bool.false_eq_true]
                rw [hmore]
                exact hrest
            | found => simp [Ending.result]
            | fails e => simpa [Ending.result] using hending
          · simp

/-- **Searches that come to an end.** -/
theorem search_terminates_iff (hstack : ∀ s a, (visit s a).2.2 ≠ .fails stack) :
    (∃ n, (search visit stack n a s).1 ≠ .error stack) ↔
      ∃ k s', (agendaStep visit)^[k] (s, [a]) = (s', []) := by
  constructor
  · rintro ⟨n, hn⟩
    have hsearch : search visit stack n a s =
        ((search visit stack n a s).1, (search visit stack n a s).2) := rfl
    obtain ⟨k, hk⟩ := agenda_of_search hsearch hn
    exact ⟨k, _, hk⟩
  · rintro ⟨k, s', hk⟩
    refine ⟨k, fun hstop => any_search_of_agenda hstack hk le_rfl ?_⟩
    rw [Exec.any, Exec.bind_apply]
    rcases hsearch : search visit stack k a s with ⟨r₁, s₁⟩
    rw [hsearch] at hstop
    rw [show r₁ = .error stack from hstop]

end Agenda

end ZosCore
