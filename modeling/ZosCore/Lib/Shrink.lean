import ZosCore.Lib.Exec

/-!
Making a list smaller by trying to do without one element after the other.

`shrink f l result` asks for each element of `l` in turn whether `result` will do without it, and
if so leaves it out. A question may also fail, which ends the loop.

* `Shrinks f r l result`: the runs of the loop that leave `r`.
* `Shrinks.sublist`, `Shrinks.will_do`: what is left is a part of the list, and will do if the
  list will.
* `Shrinks.refused`: each element that is left was needed when it was its turn.
* `shrink_error`, `shrink_congr`: an error of the loop is one of a question.
-/

namespace ZosCore

variable {κ ε : Type} [DecidableEq κ]

/-- Leaves out each element of a list in turn, if `f` says of the rest that it will do. -/
def shrink (f : List κ → Except ε Bool) : List κ → List κ → Except ε (List κ)
  | [], result => pure result
  | k :: l, result => do
      if ← f (result.erase k) then shrink f l (result.erase k) else shrink f l result

/-- The runs of the loop that leave `r`. -/
inductive Shrinks (f : List κ → Except ε Bool) (r : List κ) : List κ → List κ → Prop
  | done : Shrinks f r [] r
  | leaveOut {k : κ} {l result : List κ} (will_do : f (result.erase k) = .ok true)
      (rest : Shrinks f r l (result.erase k)) : Shrinks f r (k :: l) result
  | keep {k : κ} {l result : List κ} (needed : f (result.erase k) = .ok false)
      (rest : Shrinks f r l result) : Shrinks f r (k :: l) result

variable {f f' : List κ → Except ε Bool} {k : κ} {l result r : List κ}

/-! ### One step of the loop -/

lemma shrink_cons_true (h : f (result.erase k) = .ok true) :
    shrink f (k :: l) result = shrink f l (result.erase k) := by
  rw [shrink, h]
  rfl

lemma shrink_cons_false (h : f (result.erase k) = .ok false) :
    shrink f (k :: l) result = shrink f l result := by
  rw [shrink, h]
  rfl

lemma shrink_cons_error {e : ε} (h : f (result.erase k) = .error e) :
    shrink f (k :: l) result = .error e := by
  rw [shrink, h]
  rfl

/-- A loop that returns is a run. -/
lemma shrinks_of_eq_ok (h : shrink f l result = .ok r) : Shrinks f r l result := by
  induction l generalizing result with
  | nil =>
      cases h
      exact .done
  | cons k l ih =>
      cases hf : f (result.erase k) with
      | error e =>
          rw [shrink_cons_error hf] at h
          cases h
      | ok b =>
          cases b with
          | true =>
              rw [shrink_cons_true hf] at h
              exact .leaveOut hf (ih h)
          | false =>
              rw [shrink_cons_false hf] at h
              exact .keep hf (ih h)

/-! ### What is left -/

namespace Shrinks

lemma sublist (h : Shrinks f r l result) : r.Sublist result := by
  induction h with
  | done => exact List.Sublist.refl _
  | leaveOut _ _ ih => exact ih.trans List.erase_sublist
  | keep _ _ ih => exact ih

/-- If the list will do then so does what is left. -/
lemma will_do (h : Shrinks f r l result) (hresult : f result = .ok true) : f r = .ok true := by
  induction h with
  | done => exact hresult
  | leaveOut hdo _ ih => exact ih hdo
  | keep _ _ ih => exact ih hresult

/-- An element that is left was needed, when it was its turn, by a list that has all that is
left. -/
lemma refused (h : Shrinks f r l result) (hnodup : result.Nodup) (hk : k ∈ l) (hkr : k ∈ r) :
    ∃ t, r.Sublist t ∧ t.Sublist result ∧ f (t.erase k) = .ok false := by
  induction h with
  | done => exact absurd hk List.not_mem_nil
  | @leaveOut j l result hdo rest ih =>
      have hjr : j ∉ r := fun hj => hnodup.not_mem_erase (rest.sublist.subset hj)
      have hkl : k ∈ l := (List.mem_cons.mp hk).resolve_left fun hkj => hjr (hkj ▸ hkr)
      obtain ⟨t, hrt, htr, ht⟩ := ih (hnodup.erase j) hkl
      exact ⟨t, hrt, htr.trans List.erase_sublist, ht⟩
  | @keep j l result hneeded rest ih =>
      rcases List.mem_cons.mp hk with rfl | hkl
      · exact ⟨result, rest.sublist, List.Sublist.refl _, hneeded⟩
      · exact ih hnodup hkl

end Shrinks

/-! ### Errors -/

/-- The loop fails where a question does. -/
lemma shrink_error {e : ε} (h : shrink f l result = .error e) :
    ∃ t, t.Sublist result ∧ f t = .error e := by
  induction l generalizing result with
  | nil => cases h
  | cons k l ih =>
      cases hf : f (result.erase k) with
      | error e' =>
          rw [shrink_cons_error hf] at h
          cases h
          exact ⟨result.erase k, List.erase_sublist, hf⟩
      | ok b =>
          cases b with
          | true =>
              rw [shrink_cons_true hf] at h
              obtain ⟨t, ht, hft⟩ := ih h
              exact ⟨t, ht.trans List.erase_sublist, hft⟩
          | false =>
              rw [shrink_cons_false hf] at h
              exact ih h

/-- If the questions agree unless they give up with `e`, then so do the loops. -/
lemma shrink_congr {e : ε} (hf : ∀ t, f t ≠ .error e → f' t = f t)
    (h : shrink f l result ≠ .error e) : shrink f' l result = shrink f l result := by
  induction l generalizing result with
  | nil => rfl
  | cons k l ih =>
      have hk : f' (result.erase k) = f (result.erase k) :=
        hf _ fun he => h (shrink_cons_error he)
      cases hfk : f (result.erase k) with
      | error e' => rw [shrink_cons_error hfk, shrink_cons_error (hk.trans hfk)]
      | ok b =>
          cases b with
          | true =>
              rw [shrink_cons_true hfk] at h
              rw [shrink_cons_true hfk, shrink_cons_true (hk.trans hfk)]
              exact ih h
          | false =>
              rw [shrink_cons_false hfk] at h
              rw [shrink_cons_false hfk, shrink_cons_false (hk.trans hfk)]
              exact ih h

end ZosCore
