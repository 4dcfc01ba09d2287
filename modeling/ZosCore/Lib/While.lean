import Mathlib.Tactic

/-!
Loops that test before each round, and that may go on for ever.

* `whileDo`: `while`. The fuel bounds the rounds, and without it there is no result.
* `whileDo_mono`: more fuel changes nothing.
* **`exists_whileDo`**: a loop with an invariant and a measure that goes down returns.
* `whileDo_eq_none`: a loop whose test stays true does not.
-/

namespace ZosCore

variable {σ : Type} {again : σ → Bool} {body body' : σ → Option σ} {s r : σ}

/-- `while`. A round may fail to return itself. -/
def whileDo (again : σ → Bool) (body : σ → Option σ) : ℕ → σ → Option σ
  | 0, _ => none
  | fuel + 1, s => if again s then body s >>= whileDo again body fuel else some s

lemma whileDo_stop {fuel : ℕ} (h : again s = false) : whileDo again body (fuel + 1) s = some s := by
  rw [whileDo, h]
  rfl

lemma whileDo_go {fuel : ℕ} {s' : σ} (h : again s = true) (hbody : body s = some s') :
    whileDo again body (fuel + 1) s = whileDo again body fuel s' := by
  rw [whileDo, h, if_pos rfl, hbody]
  rfl

/-- More fuel changes nothing, for the loop and for loops within its rounds. -/
lemma whileDo_mono (hbody : ∀ s s', body s = some s' → body' s = some s') {fuel fuel' : ℕ}
    (h : whileDo again body fuel s = some r) (hle : fuel ≤ fuel') :
    whileDo again body' fuel' s = some r := by
  induction fuel generalizing s fuel' with
  | zero => simp [whileDo] at h
  | succ fuel ih =>
      obtain ⟨fuel', rfl⟩ : ∃ n, fuel' = n + 1 := ⟨fuel' - 1, by omega⟩
      rw [whileDo] at h ⊢
      split_ifs at h ⊢ with hs
      · obtain ⟨s', hs', h⟩ := Option.bind_eq_some_iff.mp h
        exact Option.bind_eq_some_iff.mpr ⟨s', hbody s s' hs', ih h (by omega)⟩
      · exact h

/-- **Loops that return.** If each round keeps the invariant and makes the measure smaller, then
the loop returns, with the invariant, when its test has become false. -/
theorem exists_whileDo {I : σ → Prop} {m : σ → ℕ}
    (hbody : ∀ s, I s → again s = true → ∃ s', body s = some s' ∧ I s' ∧ m s' < m s) (hs : I s)
    {fuel : ℕ} (hfuel : m s < fuel) :
    ∃ r, whileDo again body fuel s = some r ∧ I r ∧ again r = false := by
  induction fuel generalizing s with
  | zero => omega
  | succ fuel ih =>
      cases hagain : again s with
      | false => exact ⟨s, whileDo_stop hagain, hs, hagain⟩
      | true =>
          obtain ⟨s', hs', hI, hm⟩ := hbody s hs hagain
          obtain ⟨r, hr, hIr, hstop⟩ := ih hI (by omega)
          exact ⟨r, (whileDo_go hagain hs').trans hr, hIr, hstop⟩

/-- A loop does not return if its test stays true. -/
lemma whileDo_eq_none {I : σ → Prop} (hagain : ∀ s, I s → again s = true)
    (hbody : ∀ s s', I s → body s = some s' → I s') (hs : I s) (fuel : ℕ) :
    whileDo again body fuel s = none := by
  induction fuel generalizing s with
  | zero => rfl
  | succ fuel ih =>
      rw [whileDo, hagain s hs, if_pos rfl]
      exact Option.bind_eq_none_iff.mpr fun s' hs' => ih (hbody s s' hs hs')

end ZosCore
