import Mathlib.Data.List.Sort
import Mathlib.Order.Interval.Set.OrdConnected

/-!
The element in the middle of a list in order, and the intervals that a majority lies in.

* `NthElement`: an algorithm that puts an element at its place in the order, as `std::nth_element` does;
  `sortNth` is one.
* `Resists`: the value lies in every interval in which more than half of the list lies.
* `resists_iff`: no more than half of the list lies below it, and no more than half above it.
* `resists_iff_le`: for a value that is exceeded by half of the list at most, the value in the middle
  decides.
* `NthElement.exists_middle`: what is on the two sides of the element in the middle.
-/

namespace ZosCore

variable {β γ : Type} [LinearOrder γ]

/-! ### Majorities -/

/-- The value `x` lies in every interval in which the values of more than half of the list lie. -/
def Resists (l : List β) (f : β → γ) (x : γ) : Prop :=
  ∀ s : Set γ, s.OrdConnected → ∀ l' : List β, l'.Sublist l → l.length < 2 * l'.length →
    (∀ b ∈ l', f b ∈ s) → x ∈ s

variable {l : List β} {f : β → γ} {x : γ}

/-- What is counted and what is not. -/
lemma countP_add_of_not {p q : β → Bool} (l : List β) (h : ∀ b, q b = !p b) :
    l.countP p + l.countP q = l.length := by
  rw [List.length_eq_countP_add_countP p]
  exact congrArg (l.countP p + ·) (List.countP_congr fun b _ => by rw [h b]; simp)

/-- Among more than half there is one that is not among a half. -/
lemma exists_mem_not_of_majority {l' : List β} (hsub : l'.Sublist l)
    (hmajority : l.length < 2 * l'.length) {p : β → Bool} (hp : 2 * l.countP p ≤ l.length) :
    ∃ b ∈ l', p b = false := by
  by_contra hall
  simp only [not_exists, not_and, Bool.not_eq_false] at hall
  have hcount : l'.countP p = l'.length := List.countP_eq_length.mpr hall
  have hle := hsub.countP_le (p := p)
  omega

/-- **Majorities.** A value resists the minorities exactly if no more than half lies on either side. -/
theorem resists_iff :
    Resists l f x ↔ 2 * l.countP (f · < x) ≤ l.length ∧ 2 * l.countP (x < f ·) ≤ l.length := by
  constructor
  · intro h
    constructor
    · by_contra hlt
      have hmem := h (Set.Iio x) Set.ordConnected_Iio (l.filter (f · < x)) List.filter_sublist
        (by rw [← List.countP_eq_length_filter]; omega) fun b hb => by
          simpa using (List.mem_filter.mp hb).2
      exact lt_irrefl x hmem
    · by_contra hlt
      have hmem := h (Set.Ioi x) Set.ordConnected_Ioi (l.filter (x < f ·)) List.filter_sublist
        (by rw [← List.countP_eq_length_filter]; omega) fun b hb => by
          simpa using (List.mem_filter.mp hb).2
      exact lt_irrefl x hmem
  · rintro ⟨hbelow, habove⟩ s hs l' hsub hmajority hl'
    obtain ⟨a, ha, hax⟩ := exists_mem_not_of_majority hsub hmajority habove
    obtain ⟨b, hb, hbx⟩ := exists_mem_not_of_majority hsub hmajority hbelow
    exact hs.out (hl' a ha) (hl' b hb) ⟨by simpa using hax, by simpa using hbx⟩

/-- Only what is below and above counts. -/
lemma resists_congr {δ : Type} [LinearOrder δ] {g : β → δ} {y : δ}
    (hlt : ∀ b ∈ l, f b < x ↔ g b < y) (hgt : ∀ b ∈ l, x < f b ↔ y < g b) :
    Resists l f x ↔ Resists l g y := by
  have hbelow : l.countP (f · < x) = l.countP (g · < y) :=
    List.countP_congr fun b hb => by simpa using hlt b hb
  have habove : l.countP (x < f ·) = l.countP (y < g ·) :=
    List.countP_congr fun b hb => by simpa using hgt b hb
  rw [resists_iff, resists_iff, hbelow, habove]

/-- What has no more than half of the list below it, and less than half above, resists the minorities. -/
lemma resists_of_middle (hbelow : l.countP (f · < x) ≤ l.length / 2)
    (habove : l.countP (x < f ·) ≤ l.length - (l.length / 2 + 1)) : Resists l f x :=
  resists_iff.mpr ⟨by omega, by omega⟩

/-! ### Places -/

/-- What is before a place is not above it, and what is after it is not below. -/
structure Placed (l : List β) (f : β → γ) (i : ℕ) (b : β) : Prop where
  at_place : l[i]? = some b
  before : ∀ a ∈ l.take i, f a ≤ f b
  after : ∀ a ∈ l.drop i, f b ≤ f a

namespace Placed

variable {i : ℕ} {b : β}

lemma countP_lt_le (h : Placed l f i b) : l.countP (f · < f b) ≤ i := by
  have hafter : (l.drop i).countP (f · < f b) = 0 :=
    List.countP_eq_zero.mpr fun a ha => by simpa using h.after a ha
  calc l.countP (f · < f b)
      = (l.take i).countP (f · < f b) + (l.drop i).countP (f · < f b) := by
        rw [← List.countP_append, List.take_append_drop]
    _ ≤ (l.take i).length := by
        rw [hafter]
        exact List.countP_le_length
    _ ≤ i := List.length_take_le i l

lemma countP_gt_le (h : Placed l f i b) : l.countP (f b < f ·) ≤ l.length - (i + 1) := by
  obtain ⟨hi, hb⟩ := List.getElem?_eq_some_iff.mp h.at_place
  have hbefore : (l.take (i + 1)).countP (f b < f ·) = 0 := by
    refine List.countP_eq_zero.mpr fun a ha => ?_
    rw [List.take_add_one, h.at_place, List.mem_append] at ha
    rcases ha with ha | ha
    · simpa using h.before a ha
    · obtain rfl : a = b := by simpa using ha
      simp
  calc l.countP (f b < f ·)
      = (l.take (i + 1)).countP (f b < f ·) + (l.drop (i + 1)).countP (f b < f ·) := by
        rw [← List.countP_append, List.take_append_drop]
    _ ≤ (l.drop (i + 1)).length := by
        rw [hbefore, Nat.zero_add]
        exact List.countP_le_length
    _ = l.length - (i + 1) := List.length_drop

end Placed

/-- The elements of a list in order are at their places. -/
lemma placed_of_pairwise (h : l.Pairwise fun a b => f a ≤ f b) {i : ℕ} (hi : i < l.length) :
    Placed l f i l[i] where
  at_place := List.getElem?_eq_getElem hi
  before a ha := by
    rw [← List.take_append_drop i l, List.pairwise_append] at h
    exact h.2.2 a ha l[i] (by rw [List.drop_eq_getElem_cons hi]; exact List.mem_cons_self)
  after a ha := by
    have hdrop := h.sublist (List.drop_sublist i l)
    rw [List.drop_eq_getElem_cons hi] at hdrop ha
    rcases List.mem_cons.mp ha with rfl | ha
    · exact le_rfl
    · exact List.rel_of_pairwise_cons hdrop ha

/-- A value that half of the list at most exceeds resists the minorities exactly if it is no more than the
value in the middle. -/
theorem resists_iff_le {y : γ} (hbelow : l.countP (f · < y) ≤ l.length / 2)
    (habove : l.countP (y < f ·) < l.length - l.length / 2)
    (hx : 2 * l.countP (x < f ·) ≤ l.length) : Resists l f x ↔ x ≤ y := by
  have hnot : l.countP (y < f ·) + l.countP (f · ≤ y) = l.length :=
    countP_add_of_not l fun b => by simp [← not_lt]
  rw [resists_iff]
  constructor
  · rintro ⟨hlt, -⟩
    by_contra hyx
    have hmono : l.countP (f · ≤ y) ≤ l.countP (f · < x) :=
      List.countP_mono_left fun b _ hb => by simpa using (of_decide_eq_true hb).trans_lt (not_le.mp hyx)
    omega
  · intro hxy
    have hmono : l.countP (f · < x) ≤ l.countP (f · < y) :=
      List.countP_mono_left fun b _ hb => by simpa using (of_decide_eq_true hb).trans_le hxy
    exact ⟨by omega, hx⟩

/-! ### `nth_element` -/

/-- An algorithm that permutes a list, so that the element at a place is at its place in the order that
`less` gives. -/
structure NthElement (β : Type) where
  permute : (β → β → Bool) → ℕ → List β → List β
  perm : ∀ less i l, (permute less i l).Perm l
  placed : ∀ {γ : Type} [LinearOrder γ] (f : β → γ) (less : β → β → Bool) (i : ℕ) (l : List β),
    (∀ a b, less a b = true ↔ f a < f b) → ∀ b, (permute less i l)[i]? = some b →
      Placed (permute less i l) f i b

namespace NthElement

variable (N : NthElement β)

/-- **The middle.** In whatever order the list has been, there is an element in the middle, with no more than
half of the list below it, and less than half above. -/
lemma exists_middle (less : β → β → Bool) {l' : List β} (hperm : l'.Perm l) (hne : l ≠ [])
    (hless : ∀ a b, less a b = true ↔ f a < f b) :
    ∃ b ∈ l, (N.permute less (l.length / 2) l')[l.length / 2]? = some b ∧
      l.countP (f · < f b) ≤ l.length / 2 ∧ l.countP (f b < f ·) ≤ l.length - (l.length / 2 + 1) := by
  have hpos := List.length_pos_iff.mpr hne
  have hpermuted := (N.perm less (l.length / 2) l').trans hperm
  have hmiddle : l.length / 2 < (N.permute less (l.length / 2) l').length := by
    rw [hpermuted.length_eq]
    omega
  have hplaced := N.placed f less (l.length / 2) l' hless _ (List.getElem?_eq_getElem hmiddle)
  have hbelow := hplaced.countP_lt_le
  have habove := hplaced.countP_gt_le
  rw [hpermuted.countP_eq] at hbelow habove
  rw [hpermuted.length_eq] at habove
  exact ⟨_, hpermuted.mem_iff.mp (List.getElem_mem hmiddle), List.getElem?_eq_getElem hmiddle, hbelow,
    habove⟩

end NthElement

/-- All of the list is sorted. -/
def sortNth (β : Type) : NthElement β where
  permute less _ l := l.insertionSort fun a b => ¬ less b a
  perm less _ l := List.perm_insertionSort _ l
  placed f less i l hless b hb := by
    have htotal : Std.Total fun a b => ¬ less b a = true :=
      ⟨fun a b => by simpa only [hless, not_lt] using le_total (f a) (f b)⟩
    have htrans : IsTrans β fun a b => ¬ less b a = true :=
      ⟨fun a b c => by simpa only [hless, not_lt] using le_trans⟩
    have hsorted := List.pairwise_insertionSort (fun a b => ¬ less b a = true) l
    obtain ⟨hi, rfl⟩ := List.getElem?_eq_some_iff.mp hb
    exact placed_of_pairwise (hsorted.imp fun {a b} h => by simpa only [hless, not_lt] using h) hi

end ZosCore
