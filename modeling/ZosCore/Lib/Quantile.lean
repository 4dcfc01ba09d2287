import Mathlib.Data.List.Sort
import Mathlib.Order.Bounds.Basic

/-!
The element at a place of a sorted list, as a mark that so many reach.

* `isGreatest_getElem`: the element at the place `i` of a sorted list is the greatest one that all
  but `i` of the elements reach.
* `isGreatest_nth`: the same for the values of a list that is not sorted, as `nth_element` finds it.
-/

namespace ZosCore

variable {ι α : Type} [LinearOrder α]

/-- From the place `i` on all elements reach the one there. -/
lemma length_sub_le_countP {l : List α} (hl : l.Pairwise (· ≤ ·)) {i : ℕ} (hi : i < l.length) :
    l.length - i ≤ l.countP (l[i] ≤ ·) := by
  have hdrop : ∀ x ∈ l.drop i, l[i] ≤ x := by
    rw [List.drop_eq_getElem_cons hi]
    refine List.forall_mem_cons.mpr ⟨le_rfl, fun x hx => ?_⟩
    obtain ⟨j, hj, rfl⟩ := List.mem_iff_getElem.mp hx
    rw [List.getElem_drop]
    exact List.pairwise_iff_getElem.mp hl _ _ _ _ (by omega)
  have hcount : (l.drop i).countP (l[i] ≤ ·) = (l.drop i).length :=
    List.countP_eq_length.mpr fun x hx => decide_eq_true (hdrop x hx)
  rw [List.length_drop] at hcount
  rw [← hcount]
  exact (List.drop_sublist i l).countP_le

/-- Up to the place `i` no element reaches more than the one there. -/
lemma countP_le_length_sub {l : List α} (hl : l.Pairwise (· ≤ ·)) {i : ℕ} (hi : i < l.length)
    {x : α} (hx : l[i] < x) : l.countP (x ≤ ·) ≤ l.length - (i + 1) := by
  have htake : (l.take (i + 1)).countP (x ≤ ·) = 0 := by
    refine List.countP_eq_zero.mpr fun y hy => ?_
    obtain ⟨j, hj, rfl⟩ := List.mem_iff_getElem.mp hy
    rw [List.length_take] at hj
    have hle : l[j] ≤ l[i] := by
      rcases lt_or_eq_of_le (by omega : j ≤ i) with hlt | rfl
      · exact List.pairwise_iff_getElem.mp hl _ _ _ _ hlt
      · exact le_rfl
    simpa using hle.trans_lt hx
  have hsplit : l.countP (x ≤ ·) = (l.take (i + 1) ++ l.drop (i + 1)).countP (x ≤ ·) := by
    rw [List.take_append_drop]
  rw [hsplit, List.countP_append, htake, Nat.zero_add, ← List.length_drop]
  exact List.countP_le_length

/-- The element at the place `i` is the greatest one that all but `i` of the elements reach. -/
lemma isGreatest_getElem {l : List α} (hl : l.Pairwise (· ≤ ·)) {i : ℕ} (hi : i < l.length) :
    IsGreatest {x | l.length - i ≤ l.countP (x ≤ ·)} l[i] := by
  refine ⟨length_sub_le_countP hl hi, fun x hx => ?_⟩
  by_contra hlt
  have hcount := countP_le_length_sub hl hi (not_le.mp hlt)
  have hle : l.length - i ≤ l.countP (x ≤ ·) := hx
  omega

/-- The value at the place `i`, were the values sorted. -/
lemma isGreatest_nth {l : List ι} {f : ι → α} {i : ℕ} {x : α}
    (h : ((l.map f).insertionSort (· ≤ ·))[i]? = some x) :
    IsGreatest {y | l.length - i ≤ l.countP (y ≤ f ·)} x := by
  obtain ⟨hi, rfl⟩ := List.getElem?_eq_some_iff.mp h
  have hperm := List.perm_insertionSort (· ≤ ·) (l.map f)
  have hgreatest := isGreatest_getElem (List.pairwise_insertionSort (· ≤ ·) (l.map f)) hi
  have hlength : ((l.map f).insertionSort (· ≤ ·)).length = l.length := by
    rw [hperm.length_eq, List.length_map]
  have hcount : ∀ y, ((l.map f).insertionSort (· ≤ ·)).countP (y ≤ ·) = l.countP (y ≤ f ·) := by
    intro y
    rw [hperm.countP_eq, List.countP_map]
    rfl
  simp only [hlength, hcount] at hgreatest
  exact hgreatest

end ZosCore
