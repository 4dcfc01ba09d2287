import Mathlib.Data.List.Basic

/-!
Runs of a system that handles one event after the other.

* `Always`: what holds in every state of a run; `Each`: what every event of it meets in
  the state in which it comes.
* **`always_iff`**: if an event keeps the invariant exactly where it meets a condition,
  then the invariant holds in all states of a run exactly where all of its events do.
  `always_iff_of_breaks` is for an invariant that is stronger than what it is to show.
-/

namespace ZosCore

namespace Runs

variable {σ ε : Type} {step : σ → ε → σ}

/-- Every state of the run satisfies `P`. -/
def Always (step : σ → ε → σ) (P : σ → Prop) : σ → List ε → Prop
  | s, [] => P s
  | s, e :: es => P s ∧ Always step P (step s e) es

/-- Every event of the run meets `C` in the state in which it comes. -/
def Each (step : σ → ε → σ) (C : σ → ε → Prop) : σ → List ε → Prop
  | _, [] => True
  | s, e :: es => C s e ∧ Each step C (step s e) es

variable {P W : σ → Prop} {C D : σ → ε → Prop} {s : σ} {es : List ε}

lemma Always.first (h : Always step P s es) : P s := by
  cases es with
  | nil => exact h
  | cons e es => exact h.1

/-- What is true of all states is true of the states that the beginnings of the run lead to. -/
lemma always_iff_foldl : Always step P s es ↔ ∀ pre, pre <+: es → P (pre.foldl step s) := by
  induction es generalizing s with
  | nil => simp [Always]
  | cons e es ih =>
      refine ⟨fun h pre hpre => ?_, fun h => ⟨h [] List.nil_prefix, ih.mpr fun pre hpre => ?_⟩⟩
      · cases pre with
        | nil => exact h.1
        | cons e' pre =>
            obtain ⟨rfl, hrest⟩ := List.cons_prefix_cons.mp hpre
            exact ih.mp h.2 pre hrest
      · exact h (e :: pre) (List.cons_prefix_cons.mpr ⟨rfl, hpre⟩)

lemma Always.imp {Q : σ → Prop} (hPQ : ∀ s, P s → Q s) (h : Always step P s es) :
    Always step Q s es :=
  always_iff_foldl.mpr fun pre hpre => hPQ _ (always_iff_foldl.mp h pre hpre)

/-- **Invariants under a condition.** An invariant that every event keeps where it meets the
condition holds in all states of a run whose events do. -/
theorem always_of_each (hstep : ∀ s e, P s → C s e → P (step s e)) (hs : P s)
    (h : Each step C s es) : Always step P s es := by
  induction es generalizing s with
  | nil => exact hs
  | cons e es ih => exact ⟨hs, ih (hstep s e hs h.1) h.2⟩

/-- An invariant that every event keeps holds in all states of a run. -/
lemma always_of_step (hstep : ∀ s e, P s → P (step s e)) (hs : P s) : Always step P s es := by
  induction es generalizing s with
  | nil => exact hs
  | cons e es ih => exact ⟨hs, ih (hstep s e hs)⟩

/-- **Invariants and conditions.** Where `W` is kept, and an event leaves `P` and meets `D` exactly if
it meets `C`, this is so of the whole run. -/
theorem always_and_each_iff (hW : ∀ s e, W s → W (step s e))
    (hstep : ∀ s e, W s → P s → (P (step s e) ∧ D s e ↔ C s e)) (hs : W s) (hP : P s) :
    Always step P s es ∧ Each step D s es ↔ Each step C s es := by
  induction es generalizing s with
  | nil => simpa [Always, Each] using hP
  | cons e es ih =>
      simp only [Always, Each]
      constructor
      · rintro ⟨⟨-, halways⟩, hd, hrest⟩
        have hfirst := halways.first
        exact ⟨(hstep s e hs hP).mp ⟨hfirst, hd⟩, (ih (hW s e hs) hfirst).mp ⟨halways, hrest⟩⟩
      · rintro ⟨hc, hrest⟩
        obtain ⟨hfirst, hd⟩ := (hstep s e hs hP).mpr hc
        obtain ⟨halways, heach⟩ := (ih (hW s e hs) hfirst).mpr hrest
        exact ⟨⟨hP, halways⟩, hd, heach⟩

/-- **Invariants and conditions**, without what the events are to meet besides. -/
theorem always_iff (hW : ∀ s e, W s → W (step s e))
    (hstep : ∀ s e, W s → P s → (P (step s e) ↔ C s e)) (hs : W s) (hP : P s) :
    Always step P s es ↔ Each step C s es := by
  have hiff : Always step P s es ∧ Each step (fun _ _ => True) s es ↔ Each step C s es :=
    always_and_each_iff hW (fun s e hw hp => (and_iff_left trivial).trans (hstep s e hw hp)) hs hP
  have htrue : Each step (fun _ _ => True) s es := by
    clear hiff hs hP
    induction es generalizing s with
    | nil => trivial
    | cons e es ih => exact ⟨trivial, ih⟩
  exact (and_iff_left htrue).symm.trans hiff

/-- **Invariants that break.** Where an event keeps `T` if it meets the condition, and otherwise leads
out of `P`, the states of a run satisfy `P` exactly as long as its events meet the condition. -/
theorem always_iff_of_breaks {T : σ → Prop} (hP : ∀ s, T s → P s)
    (hstep : ∀ s e, T s → C s e → T (step s e)) (hbreak : ∀ s e, T s → ¬ C s e → ¬ P (step s e))
    (hs : T s) : Always step P s es ↔ Each step C s es := by
  induction es generalizing s with
  | nil => simpa [Always, Each] using hP s hs
  | cons e es ih =>
      constructor
      · rintro ⟨-, hrest⟩
        have hc : C s e := not_not.mp fun hc => hbreak s e hs hc hrest.first
        exact ⟨hc, (ih (hstep s e hs hc)).mp hrest⟩
      · rintro ⟨hc, hrest⟩
        exact ⟨hP s hs, (ih (hstep s e hs hc)).mpr hrest⟩

end Runs

end ZosCore
