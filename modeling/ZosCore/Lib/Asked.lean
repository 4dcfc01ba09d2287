import ZosCore.Lib.Threshold

/-!
Which voters a weighted threshold asks, and computations that give up.

The loop `weigh` stops at the threshold, so that it asks a voter only if those before it do not
reach it. The more voters count, the fewer are asked.

* `Asked threshold X l total i`: the loop comes to `i`, if exactly the voters in `X` count.
* `Triple.weighAsked`, `Triple.forEachKnown`: a loop whose steps each find something out, a bound
  that grows along the way.
* `Exec.Cautious e x y`: `x` does what `y` does, unless it gives up with `e`.
-/

namespace ZosCore

/-! ### The voters that are asked -/

section Asked

variable {ι : Type} {threshold : ℕ} {X Y : Set ι}

/-- The loop comes to the voter `i`, if exactly the voters in `X` count. -/
def Asked (threshold : ℕ) (X : Set ι) : List (ι × ℕ) → ℕ → ι → Prop
  | [], _, _ => False
  | v :: l, total, i =>
      i = v.1 ∨ (v.1 ∈ X ∧ total + v.2 < threshold ∧ Asked threshold X l (total + v.2) i) ∨
        (v.1 ∉ X ∧ Asked threshold X l total i)

/-- If more voters count then fewer are asked. -/
lemma Asked.anti (hXY : X ⊆ Y) {l : List (ι × ℕ)} {t t' : ℕ} (ht : t ≤ t') {i : ι}
    (h : Asked threshold Y l t' i) : Asked threshold X l t i := by
  induction l generalizing t t' with
  | nil => exact h
  | cons v l ih =>
      rcases h with hi | ⟨-, hlt, hl⟩ | ⟨hvY, hl⟩
      · exact .inl hi
      · by_cases hvX : v.1 ∈ X
        · exact .inr (.inl ⟨hvX, by omega, ih (by omega) hl⟩)
        · exact .inr (.inr ⟨hvX, ih (by omega) hl⟩)
      · exact .inr (.inr ⟨fun hvX => hvY (hXY hvX), ih ht hl⟩)

/-- Voters under other names. -/
lemma weightIn_map {κ : Type} (f : κ → ι) (X : Set ι) (l : List (κ × ℕ)) :
    weightIn X (l.map (Prod.map f id)) = weightIn {k | f k ∈ X} l := by
  induction l with
  | nil => rfl
  | cons v l ih =>
      rw [List.map_cons, weightIn, weightIn, ih]
      rfl

end Asked

namespace Exec

variable {σ ε ι : Type}

lemma weigh_map {κ : Type} (threshold : ℕ) (counts : ι → Exec σ ε Bool) (f : κ → ι)
    (l : List (κ × ℕ)) (total : ℕ) :
    weigh threshold counts (l.map (Prod.map f id)) total =
      weigh threshold (fun k => counts (f k)) l total := by
  induction l generalizing total with
  | nil => rfl
  | cons v l ih =>
      obtain ⟨k, w⟩ := v
      rw [List.map_cons, Prod.map_apply, weigh, weigh]
      simp only [ih, id_eq]

/-! ### What a loop finds out -/

section Known

variable {G : Type} [Preorder G] {I : G → σ → Prop} {E : ε → σ → Prop} {C : ι → G → Prop}

/-- The loop asks the voters that it comes to, of each of which it finds out `C`, and decides
whether those who count reach the threshold. -/
lemma Triple.weighAsked {X : Set ι} {threshold : ℕ} {counts : ι → Exec σ ε Bool}
    (hC : ∀ i, Monotone (C i)) {l : List (ι × ℕ)} {total : ℕ}
    (h : ∀ i, Asked threshold X l total i → ∀ g, Triple (I g) (counts i)
      (fun b s => ∃ g', g ≤ g' ∧ I g' s ∧ C i g' ∧ (b = true ↔ i ∈ X)) E) (g : G) :
    Triple (I g) (Exec.weigh threshold counts l total)
      (fun r s => ∃ g', g ≤ g' ∧ I g' s ∧ (∀ i, Asked threshold X l total i → C i g') ∧
        ((r.1 = true ∨ threshold ≤ r.2) ↔ threshold ≤ total + weightIn X l)) E := by
  induction l generalizing total g with
  | nil =>
      refine Triple.pure fun s hs => ⟨g, le_rfl, hs, fun i hi => hi.elim, ?_⟩
      simp
  | cons v l ih =>
      obtain ⟨i, w⟩ := v
      refine Triple.bind (h i (.inl rfl) g) fun b => Triple.of_exists fun g₁ => ?_
      refine Triple.of_and fun hg₁ => Triple.of_and_right fun ⟨hCi, hb⟩ => ?_
      cases b with
      | true =>
          have hi : i ∈ X := hb.mp rfl
          have hw : weightIn X ((i, w) :: l) = w + weightIn X l := weightIn_cons_mem hi
          rw [if_pos rfl]
          refine Triple.ite (fun ht => ?_) fun ht => ?_
          · -- the threshold is reached, and nobody else is asked
            refine Triple.pure fun s hs => ⟨g₁, hg₁, hs, fun j hj => ?_, ?_⟩
            · rcases hj with rfl | ⟨-, hlt, -⟩ | ⟨hnot, -⟩
              · exact hCi
              · exact absurd ht (not_le.mpr hlt)
              · exact absurd hi hnot
            · rw [hw]
              refine ⟨fun _ => by omega, fun _ => .inl rfl⟩
          · refine (ih (fun j hj => h j (.inr (.inl ⟨hi, by omega, hj⟩))) g₁).conseq
              (fun _ hs => hs) (fun r s => ?_) fun _ _ he => he
            rintro ⟨g₂, hg₂, hs, hall, hr⟩
            refine ⟨g₂, hg₁.trans hg₂, hs, fun j hj => ?_, ?_⟩
            · rcases hj with rfl | ⟨-, -, hj⟩ | ⟨hnot, -⟩
              · exact hC _ hg₂ hCi
              · exact hall j hj
              · exact absurd hi hnot
            · rw [hr, hw, Nat.add_assoc]
      | false =>
          have hi : i ∉ X := fun hi => by simpa using hb.mpr hi
          have hw : weightIn X ((i, w) :: l) = weightIn X l := weightIn_cons_not_mem hi
          rw [if_neg (by decide)]
          refine (ih (fun j hj => h j (.inr (.inr ⟨hi, hj⟩))) g₁).conseq
            (fun _ hs => hs) (fun r s => ?_) fun _ _ he => he
          rintro ⟨g₂, hg₂, hs, hall, hr⟩
          refine ⟨g₂, hg₁.trans hg₂, hs, fun j hj => ?_, ?_⟩
          · rcases hj with rfl | ⟨hin, -⟩ | ⟨-, hj⟩
            · exact hC _ hg₂ hCi
            · exact absurd hin hi
            · exact hall j hj
          · rw [hr, hw]

/-- A loop that finds out `C` of one element after the other. -/
lemma Triple.forEachKnown {f : ι → Exec σ ε Unit} (hC : ∀ i, Monotone (C i)) (l : List ι)
    (h : ∀ i ∈ l, ∀ g, Triple (I g) (f i) (fun _ s => ∃ g', g ≤ g' ∧ I g' s ∧ C i g') E) (g : G) :
    Triple (I g) (Exec.forEach f l) (fun _ s => ∃ g', g ≤ g' ∧ I g' s ∧ ∀ i ∈ l, C i g') E := by
  induction l generalizing g with
  | nil => exact Triple.pure fun s hs => ⟨g, le_rfl, hs, by simp⟩
  | cons i l ih =>
      rw [forEach_cons]
      refine Triple.bind (h i List.mem_cons_self g) fun _ => Triple.of_exists fun g₁ => ?_
      refine Triple.of_and fun hg₁ => Triple.of_and_right fun hCi => ?_
      refine (ih (fun j hj => h j (List.mem_cons_of_mem _ hj)) g₁).conseq (fun _ hs => hs)
        (fun _ s => ?_) fun _ _ he => he
      rintro ⟨g₂, hg₂, hs, hall⟩
      refine ⟨g₂, hg₁.trans hg₂, hs, fun j hj => ?_⟩
      rcases List.mem_cons.mp hj with rfl | hj
      · exact hC _ hg₂ hCi
      · exact hall j hj

end Known

/-! ### Computations that give up -/

section Cautious

variable {α β : Type} {e : ε}

/-- `x` does what `y` does, unless it gives up with `e`. -/
def Cautious (e : ε) (x y : Exec σ ε α) : Prop := ∀ s, (x s).1 ≠ .error e → y s = x s

namespace Cautious

lemma refl (x : Exec σ ε α) : Cautious e x x := fun _ _ => rfl

/-- What gives up at once. -/
lemma raise (y : Exec σ ε α) : Cautious e (Exec.raise e) y := fun _ h => absurd rfl h

lemma bind {x y : Exec σ ε α} {f g : α → Exec σ ε β} (hxy : Cautious e x y)
    (hfg : ∀ a, Cautious e (f a) (g a)) : Cautious e (x >>= f) (y >>= g) := by
  intro s h
  have hx : (x s).1 ≠ .error e := by
    intro hx
    have hstop : (x >>= f) s = (.error e, (x s).2) := bind_error (Prod.ext hx rfl)
    exact h (by rw [hstop])
  rw [bind_apply] at h ⊢
  rw [bind_apply, hxy s hx]
  cases hxs : x s with
  | mk r s' =>
      rw [hxs] at h
      cases r with
      | error e' => rfl
      | ok a => exact hfg a s' h

lemma ite {c : Prop} [Decidable c] {x y x' y' : Exec σ ε α} (hx : Cautious e x y)
    (hy : Cautious e x' y') : Cautious e (if c then x else x') (if c then y else y') := by
  split_ifs
  · exact hx
  · exact hy

lemma forEach {f g : ι → Exec σ ε Unit} (h : ∀ i, Cautious e (f i) (g i)) (l : List ι) :
    Cautious e (Exec.forEach f l) (Exec.forEach g l) := by
  induction l with
  | nil => exact refl _
  | cons i l ih => exact bind (h i) fun _ => ih

lemma weigh {f g : ι → Exec σ ε Bool} (h : ∀ i, Cautious e (f i) (g i)) (threshold : ℕ)
    (l : List (ι × ℕ)) (total : ℕ) :
    Cautious e (Exec.weigh threshold f l total) (Exec.weigh threshold g l total) := by
  induction l generalizing total with
  | nil => exact refl _
  | cons v l ih =>
      obtain ⟨i, w⟩ := v
      refine bind (h i) fun b => ite ?_ (ih total)
      exact ite (refl _) (ih (total + w))

end Cautious

end Cautious

end Exec

end ZosCore
