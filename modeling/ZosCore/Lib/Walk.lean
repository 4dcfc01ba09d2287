import Mathlib.Data.Finset.Card
import Mathlib.Logic.Relation
import ZosCore.Lib.Exec

/-!
Relations without circles, and walks in depth-first order that pass over some of their visits.

* `Acyclic`: no point leads back to itself. `acyclic_iff_of_replaced`: what may be put in the
  place of the edges out of one point. `Acyclic.within`: the length of the paths.
* `Exec.any`: the loop that asks for each element, and stops at the first `true`.
* `kept`: what a walk looks at, if it passes over some of its visits with all that is below.
* `Walks`: a computation finds nothing exactly if there is nothing to find in what is kept.
  `Walks.any` and `Walks.visit` build up a walk.
-/

namespace ZosCore

/-! ### Relations without circles -/

section Acyclic

open Relation

variable {ι : Type} {r r' : ι → ι → Prop} {p : ι}

/-- No point leads back to itself. -/
def Acyclic (r : ι → ι → Prop) : Prop := ∀ a, ¬ TransGen r a a

/-- A path to `p` needs no edge out of `p`. -/
lemma leads_of_avoids (h : ∀ a c, a ≠ p → r a c → r' a c) {b : ι} (hb : ReflTransGen r b p) :
    ReflTransGen r' b p := by
  induction hb using ReflTransGen.head_induction_on with
  | refl => exact .refl
  | @head a c hac _ ih =>
      by_cases ha : a = p
      · rw [ha]
      · exact .head (h a c ha hac) ih

/-- A path of `r'` is one of `r`, or it has come by a new edge out of `p`. -/
lemma path_of_replaced (hother : ∀ a c, a ≠ p → (r' a c ↔ r a c)) {a b : ι} (h : TransGen r' a b) :
    TransGen r a b ∨ ReflTransGen r' a p ∧ ∃ c, r' p c ∧ ReflTransGen r c b := by
  induction h with
  | @single b hab =>
      by_cases ha : a = p
      · subst ha
        exact .inr ⟨.refl, b, hab, .refl⟩
      · exact .inl (.single ((hother a b ha).mp hab))
  | @tail b c hab hbc ih =>
      by_cases hb : b = p
      · subst hb
        exact .inr ⟨hab.to_reflTransGen, c, hbc, .refl⟩
      · have hbc := (hother b c hb).mp hbc
        rcases ih with hab | ⟨hap, d, hd, hdb⟩
        · exact .inl (hab.tail hbc)
        · exact .inr ⟨hap, d, hd, hdb.tail hbc⟩

/-- If the edges out of `p` are replaced in a relation without circles, then there is again no
circle exactly if no new edge leads to a point from which `p` was reached. -/
theorem acyclic_iff_of_replaced (hr : Acyclic r) (hother : ∀ a c, a ≠ p → (r' a c ↔ r a c)) :
    Acyclic r' ↔ ∀ b, r' p b → ¬ ReflTransGen r b p := by
  refine ⟨fun h b hpb hbp => ?_, fun h a haa => ?_⟩
  · exact h p (.head' hpb (leads_of_avoids (fun a c ha => (hother a c ha).mpr) hbp))
  · rcases path_of_replaced hother haa with haa | ⟨hap, b, hpb, hba⟩
    · exact hr a haa
    · exact h b hpb (hba.trans (leads_of_avoids (fun a c ha => (hother a c ha).mp) hap))

/-- A relation that goes down has no circles. -/
lemma acyclic_of_lt {r : ℕ → ℕ → Prop} (h : ∀ a b, r a b → b < a) : Acyclic r := by
  intro a haa
  have hlt : ∀ b, TransGen r a b → b < a := by
    intro b hab
    induction hab with
    | single hab => exact h a _ hab
    | tail _ hbc ih => exact (h _ _ hbc).trans ih
  exact absurd (hlt a haa) (lt_irrefl a)

/-- Every path from `a` has at most `n` points. -/
def Within (r : ι → ι → Prop) : ℕ → ι → Prop
  | 0, _ => False
  | n + 1, a => ∀ b, r a b → Within r n b

/-- Without circles the paths are no longer than there are points that lead on. -/
lemma Acyclic.within [DecidableEq ι] (hr : Acyclic r) {n : ℕ} {S : Finset ι} {a : ι}
    (hn : S.card < n) (hS : ∀ b c, ReflTransGen r a b → r b c → b ∈ S) : Within r n a := by
  induction n generalizing S a with
  | zero => exact absurd hn (Nat.not_lt_zero _)
  | succ n ih =>
      intro b hab
      have ha : a ∈ S := hS a b .refl hab
      have hcard : (S.erase a).card < n := by
        have := Finset.card_erase_lt_of_mem ha
        omega
      refine ih hcard fun c d hbc hcd => Finset.mem_erase.mpr ⟨?_, hS c d (.head hab hbc) hcd⟩
      rintro rfl
      exact hr c (.head' hab hbc)

end Acyclic

/-! ### A loop that stops at the first `true` -/

namespace Exec

variable {σ ε ι : Type}

/-- Asks for each element, and stops at the first `true`. -/
def any (f : ι → Exec σ ε Bool) : List ι → Exec σ ε Bool
  | [] => pure false
  | a :: l => do
      if ← f a then return true
      any f l

variable {f : ι → Exec σ ε Bool} {a : ι} {l : List ι} {s s' : σ}

lemma any_cons_eq_false : any f (a :: l) s = (.ok false, s') ↔
    ∃ s₁, f a s = (.ok false, s₁) ∧ any f l s₁ = (.ok false, s') := by
  rw [any, bind_apply]
  rcases f a s with ⟨_ | _ | _, s₁⟩
  · simp
  · simp
  · simp

/-- If the loop finds nothing then no element has answered otherwise. -/
lemma eq_false_of_any (h : any f l s = (.ok false, s')) {c : ι} (hc : c ∈ l) :
    ∃ s₁ s₂, f c s₁ = (.ok false, s₂) := by
  induction l generalizing s with
  | nil => simp at hc
  | cons a l ih =>
      obtain ⟨s₁, ha, hl⟩ := any_cons_eq_false.mp h
      rcases List.mem_cons.mp hc with rfl | hc
      · exact ⟨s, s₁, ha⟩
      · exact ih hl hc

end Exec

/-! ### Walks that pass over some of their visits -/

section Walks

variable {σ ε ι κ : Type} (next : σ → σ) (passes : σ → Prop) [DecidablePred passes]

/-- What a walk looks at. The list is in depth-first order, each entry with the number of those
below it. At each visit the walk takes the counter one further; where this `passes`, it leaves
out the entry with all below it, here those that are still `left`. -/
def kept : σ → ℕ → List (ι × ℕ) → List ι
  | _, _, [] => []
  | s, left + 1, _ :: l => kept s left l
  | s, 0, (a, below) :: l =>
      if passes (next s) then kept (next s) below l else a :: kept (next s) 0 l

/-- All that the walk looks at is harmless. -/
def Clear (harmless : ι → Prop) (s : σ) (l : List (ι × ℕ)) : Prop :=
  ∀ a ∈ kept next passes s 0 l, harmless a

/-- The computation finds nothing exactly if all that a walk through `l` looks at is harmless,
and it leaves the counter where that walk does. -/
def Walks (harmless : ι → Prop) (m : Exec σ ε Bool) (l : List (ι × ℕ)) : Prop :=
  ∀ s rest, Clear next passes harmless s (l ++ rest) ↔
    ∃ s', m s = (.ok false, s') ∧ Clear next passes harmless s' rest

variable {next passes} {harmless : ι → Prop} {s : σ} {l rest : List (ι × ℕ)}

/-- What is left out is left out. -/
lemma kept_left : kept next passes s l.length (l ++ rest) = kept next passes s 0 rest := by
  induction l with
  | nil => rfl
  | cons a l ih => exact ih

/-- A loop over walks is a walk through one after the other. -/
lemma Walks.any {f : κ → Exec σ ε Bool} {g : κ → List (ι × ℕ)} {cs : List κ}
    (h : ∀ c ∈ cs, Walks next passes harmless (f c) (g c)) :
    Walks next passes harmless (Exec.any f cs) (cs.flatMap g) := by
  induction cs with
  | nil =>
      intro s rest
      simp [Exec.any]
  | cons c cs ih =>
      intro s rest
      have hcs := ih fun c hc => h c (List.mem_cons_of_mem _ hc)
      rw [List.flatMap_cons, List.append_assoc, h c List.mem_cons_self]
      constructor
      · rintro ⟨s₁, hc, hclear⟩
        obtain ⟨s', hany, hrest⟩ := (hcs s₁ rest).mp hclear
        exact ⟨s', Exec.any_cons_eq_false.mpr ⟨s₁, hc, hany⟩, hrest⟩
      · rintro ⟨s', hany, hrest⟩
        obtain ⟨s₁, hc, hany⟩ := Exec.any_cons_eq_false.mp hany
        exact ⟨s₁, hc, (hcs s₁ rest).mpr ⟨s', hany, hrest⟩⟩

/-- A visit: it is passed over, or it finds something unless `a` is harmless, and then goes
below. -/
lemma Walks.visit {m below : Exec σ ε Bool} {a : ι}
    (hpass : ∀ s, passes (next s) → m s = (.ok false, next s))
    (hbelow : ∀ s, ¬ passes (next s) → harmless a → m s = below (next s))
    (hfound : ∀ s s', ¬ passes (next s) → ¬ harmless a → m s ≠ (.ok false, s'))
    (hl : harmless a → Walks next passes harmless below l) :
    Walks next passes harmless m ((a, l.length) :: l) := by
  intro s rest
  rw [List.cons_append, Clear, kept]
  by_cases hp : passes (next s)
  · rw [if_pos hp, kept_left, hpass s hp]
    simp [Clear]
  · rw [if_neg hp]
    by_cases ha : harmless a
    · rw [hbelow s hp ha, ← hl ha (next s) rest]
      simp [Clear, ha]
    · constructor
      · intro h
        exact absurd (h a List.mem_cons_self) ha
      · rintro ⟨s', hm, -⟩
        exact absurd hm (hfound s s' hp ha)

end Walks

end ZosCore
