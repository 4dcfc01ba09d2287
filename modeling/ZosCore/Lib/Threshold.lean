import Mathlib.Order.FixedPoints
import Mathlib.Order.CompletePartialOrder
import ZosCore.Lib.Exec

/-!
Weighted thresholds: a list of voters with weights, a set of voters that are in
favour, and a threshold that their weights have to reach.

* `weightIn X l`: the weight of the voters of `l` that are in `X`.
* `weigh threshold counts l total`: the loop that goes through the voters, asks for each
  one whether it counts, and stops as soon as the threshold is reached.
* `Triple.weigh`: if only voters in `G` count, and all in `M` do, then the loop finds a
  weight between that of `M` and that of `G`.
-/

namespace ZosCore

/-! ### The weight of a set of voters -/

section WeightIn

open Classical in
/-- The weight of the voters that are in `X`. -/
noncomputable def weightIn {ι : Type} (X : Set ι) : List (ι × ℕ) → ℕ
  | [] => 0
  | v :: l => (if v.1 ∈ X then v.2 else 0) + weightIn X l

variable {ι : Type} {X Y : Set ι} {v : ι × ℕ} {l : List (ι × ℕ)}

@[simp] lemma weightIn_nil : weightIn X ([] : List (ι × ℕ)) = 0 := rfl

lemma weightIn_cons_mem (h : v.1 ∈ X) : weightIn X (v :: l) = v.2 + weightIn X l := by
  rw [weightIn, if_pos h]

lemma weightIn_cons_not_mem (h : v.1 ∉ X) : weightIn X (v :: l) = weightIn X l := by
  rw [weightIn, if_neg h, Nat.zero_add]

lemma weightIn_le_cons : weightIn X l ≤ weightIn X (v :: l) := by
  rw [weightIn]
  omega

lemma weightIn_append (X : Set ι) (l l' : List (ι × ℕ)) :
    weightIn X (l ++ l') = weightIn X l + weightIn X l' := by
  induction l with
  | nil => simp
  | cons v l ih => rw [List.cons_append, weightIn, weightIn, ih, Nat.add_assoc]

/-- More voters weigh more. -/
lemma weightIn_mono (h : X ⊆ Y) (l : List (ι × ℕ)) : weightIn X l ≤ weightIn Y l := by
  induction l with
  | nil => exact le_rfl
  | cons v l ih =>
      by_cases hX : v.1 ∈ X
      · rw [weightIn_cons_mem hX, weightIn_cons_mem (h hX)]
        omega
      · rw [weightIn_cons_not_mem hX]
        exact ih.trans weightIn_le_cons

end WeightIn

/-! ### The loop -/

namespace Exec

variable {σ ε ι : Type}

/-- Adds the weights of the voters that count, and stops when the threshold is reached. It
returns whether it was, and the weight. -/
def weigh (threshold : ℕ) (counts : ι → Exec σ ε Bool) :
    List (ι × ℕ) → ℕ → Exec σ ε (Bool × ℕ)
  | [], total => pure (false, total)
  | (i, w) :: l, total => do
      if ← counts i then
        if threshold ≤ total + w then pure (true, total + w)
        else weigh threshold counts l (total + w)
      else weigh threshold counts l total

/-- Two lists of voters, one after the other. -/
lemma weigh_append (threshold : ℕ) (counts : ι → Exec σ ε Bool) (l l' : List (ι × ℕ)) (total : ℕ) :
    weigh threshold counts (l ++ l') total =
      weigh threshold counts l total >>= fun r =>
        if r.1 then pure r else weigh threshold counts l' r.2 := by
  induction l generalizing total with
  | nil => rfl
  | cons v l ih =>
      obtain ⟨i, w⟩ := v
      rw [List.cons_append, weigh, weigh, bind_assoc]
      congr 1
      funext b
      cases b with
      | true =>
          rw [if_pos rfl, if_pos rfl]
          split_ifs with ht
          · rfl
          · exact ih (total + w)
      | false => exact ih total

/-- What the loop has found, if those who count lie between `M` and `G`. It stops early
exactly if somebody counts and the threshold is reached. -/
structure Weighed (threshold : ℕ) (M G : Set ι) (l : List (ι × ℕ)) (total : ℕ)
    (r : Bool × ℕ) : Prop where
  reached : r.1 = true → threshold ≤ r.2
  somebody : r.1 = true → ∃ v ∈ l, v.1 ∈ G
  upper : r.2 ≤ total + weightIn G l
  lower : r.1 = false → total + weightIn M l ≤ r.2
  below : r.1 = false → total < threshold → r.2 < threshold
  nobody : r.1 = false → threshold ≤ total → ∀ v ∈ l, v.1 ∉ M

/-- The loop keeps what the question keeps, and finds a weight between the bounds. -/
lemma Triple.weigh {I : σ → Prop} {E : ε → σ → Prop} {M G : Set ι} {threshold : ℕ}
    {counts : ι → Exec σ ε Bool} {l : List (ι × ℕ)}
    (h : ∀ v ∈ l, Triple I (counts v.1)
      (fun b s => I s ∧ (b = true → v.1 ∈ G) ∧ (v.1 ∈ M → b = true)) E) (total : ℕ) :
    Triple I (Exec.weigh threshold counts l total)
      (fun r s => I s ∧ Weighed threshold M G l total r) E := by
  induction l generalizing total with
  | nil =>
      refine Triple.pure fun s hs => ⟨hs, ?_, ?_, ?_, ?_, ?_, ?_⟩
      all_goals simp
  | cons v l ih =>
      obtain ⟨i, w⟩ := v
      have hrest : ∀ total, Triple I (Exec.weigh threshold counts l total)
          (fun r s => I s ∧ Weighed threshold M G l total r) E :=
        ih fun v hv => h v (List.mem_cons_of_mem _ hv)
      refine Triple.bind (h (i, w) List.mem_cons_self) fun b => ?_
      cases b with
      | true =>
          rw [if_pos rfl]
          intro s hb
          obtain ⟨hI, hG, -⟩ := hb
          have hiG : i ∈ G := hG rfl
          have hup : total + w + weightIn G l = total + weightIn G ((i, w) :: l) := by
            rw [weightIn_cons_mem (v := (i, w)) hiG]
            omega
          have hlow : total + weightIn M ((i, w) :: l) ≤ total + w + weightIn M l := by
            rw [weightIn]
            split_ifs <;> omega
          refine Triple.ite (fun ht => ?_) (fun _ => ?_) s hI
          · refine Triple.pure fun s hs => ⟨hs, fun _ => ht,
              fun _ => ⟨(i, w), List.mem_cons_self, hiG⟩, ?_, by simp, by simp, by simp⟩
            show total + w ≤ _
            omega
          · refine (hrest (total + w)).conseq (fun _ hs => hs) (fun r s hr => ?_) fun _ _ he => he
            refine ⟨hr.1, hr.2.reached, fun _ => ⟨(i, w), List.mem_cons_self, hiG⟩,
              hr.2.upper.trans hup.le, fun hf => hlow.trans (hr.2.lower hf),
              fun hf _ => hr.2.below hf (by omega), fun _ hle => absurd hle (by omega)⟩
      | false =>
          rw [if_neg (by decide)]
          intro s hb
          obtain ⟨hI, -, hM⟩ := hb
          have hiM : i ∉ M := fun hi => by simpa using hM hi
          have hlow : weightIn M ((i, w) :: l) = weightIn M l := weightIn_cons_not_mem hiM
          refine (hrest total).conseq (fun _ hs => hs) (fun r s hr => ?_) (fun _ _ he => he) s hI
          refine ⟨hr.1, hr.2.reached, fun ht => ?_, ?_, fun hf => ?_, hr.2.below, fun hf hle v hv => ?_⟩
          · obtain ⟨v, hv, hvG⟩ := hr.2.somebody ht
            exact ⟨v, List.mem_cons_of_mem _ hv, hvG⟩
          · exact hr.2.upper.trans (Nat.add_le_add_left weightIn_le_cons total)
          · rw [hlow]
            exact hr.2.lower hf
          · rcases List.mem_cons.mp hv with rfl | hv
            · exact hiM
            · exact hr.2.nobody hf hle v hv

end Exec

end ZosCore
