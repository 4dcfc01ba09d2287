import Mathlib.Tactic
import Mathlib.Data.List.Sigma

/-!
Stacks of undo records, and loops over keyed lists.

A component that can be rolled back keeps a stack of records, each of which
takes the present state back to an earlier one.

* `Linked R cur ds ss`: the records `ds`, newest first, lead from the present
  state `cur` back through the states `ss`; `R d cur s` says that the record
  `d` takes `cur` back to `s`. `Linked.take` keeps the newest records only.
* `foldl_pointwise`: a loop over a list of keyed entries whose body touches one
  key only acts at every key as the body does for the entry of that key.
-/

namespace ZosCore

/-! ### Records that lead back through earlier states -/

section Linked

variable {δ σ : Type*} {R : δ → σ → σ → Prop}

/-- The records `ds`, newest first, lead from `cur` back through the states
`ss`. -/
def Linked (R : δ → σ → σ → Prop) : σ → List δ → List σ → Prop
  | _, [], [] => True
  | cur, d :: ds, s :: ss => R d cur s ∧ Linked R s ds ss
  | _, [], _ :: _ => False
  | _, _ :: _, [] => False

@[simp] lemma linked_nil_nil (cur : σ) : Linked R cur [] [] := trivial

@[simp] lemma linked_cons_cons {cur s : σ} {d : δ} {ds : List δ} {ss : List σ} :
    Linked R cur (d :: ds) (s :: ss) ↔ R d cur s ∧ Linked R s ds ss := Iff.rfl

lemma Linked.length_eq : ∀ {cur : σ} {ds : List δ} {ss : List σ},
    Linked R cur ds ss → ds.length = ss.length
  | _, [], [], _ => rfl
  | _, _ :: _, _ :: _, h => by simp [h.2.length_eq]

/-- Dropping the oldest records keeps the rest linked. -/
lemma Linked.take : ∀ {cur : σ} {ds : List δ} {ss : List σ} (n : ℕ),
    Linked R cur ds ss → Linked R cur (ds.take n) (ss.take n)
  | _, _, _, 0, _ => by simp
  | _, [], [], _ + 1, _ => by simp
  | _, _ :: _, _ :: _, n + 1, h => ⟨h.1, h.2.take n⟩

/-- A record stack that is not empty leads back to some state. -/
lemma Linked.exists_cons {cur : σ} {d : δ} {ds : List δ} {ss : List σ}
    (h : Linked R cur (d :: ds) ss) : ∃ s ss', ss = s :: ss' ∧ R d cur s ∧ Linked R s ds ss' := by
  cases ss with
  | nil => exact absurd h (by simp [Linked])
  | cons s ss' => exact ⟨s, ss', rfl, h.1, h.2⟩

end Linked

/-! ### Loops whose body touches one key -/

section Pointwise

variable {S K V W : Type*} [DecidableEq K]

/-- If the body of a loop over keyed entries changes what `view` shows at the
entry's own key only, the loop changes every key as its own entry does. -/
lemma foldl_pointwise (view : S → K → W) (g : K → V → W → W)
    (step : S → (Σ _ : K, V) → S)
    (hstep : ∀ s e k, view (step s e) k = if k = e.1 then g e.1 e.2 (view s k) else view s k) :
    ∀ (l : List (Σ _ : K, V)) (s : S) (k : K), l.NodupKeys →
      view (l.foldl step s) k = (l.dlookup k).elim (view s k) (fun v => g k v (view s k)) := by
  intro l
  induction l with
  | nil => intro s k _; simp
  | cons e l ih =>
      obtain ⟨k', v⟩ := e
      intro s k hl
      rw [List.foldl_cons, ih _ _ (List.nodupKeys_of_nodupKeys_cons hl), hstep]
      by_cases hk : k = k'
      · subst hk
        have hnot : List.dlookup k l = none :=
          List.dlookup_eq_none.mpr (List.notMem_keys_of_nodupKeys_cons hl)
        simp [hnot]
      · simp [hk, List.dlookup_cons_ne l ⟨k', v⟩ hk]

end Pointwise

end ZosCore
