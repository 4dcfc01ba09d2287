import Mathlib.Data.List.Basic
import Mathlib.Data.List.Perm.Subperm
import Mathlib.Data.List.Sort

/-!
Searches in sorted lists, and parts of lists.

* `rel_of_find?_eq_some`: what a search in a sorted list finds comes before all else that
  it could have found.
* `takeWhile_eq_filter`, `dropWhile_eq_filter`: where a property is lost once and for all
  along a list, the elements up to there are those that have it.
* **`filter_eq_of_sublist`**: a part of a list that leaves out no element with a property has the
  same elements with it, in the same order.
-/

namespace ZosCore.SortedLists

variable {α : Type} {r : α → α → Prop} {p : α → Bool} {l l' : List α} {x : α}

/-- The first element with a property comes before all others that have it. -/
lemma rel_of_find?_eq_some (hrefl : ∀ a, r a a) (hl : l.Pairwise r) (hx : l.find? p = some x) :
    ∀ y ∈ l, p y = true → r x y := by
  intro y hy hpy
  induction l with
  | nil => simp at hy
  | cons a l ih =>
      obtain ⟨ha, hl⟩ := List.pairwise_cons.mp hl
      rw [List.find?_cons] at hx
      cases hpa : p a with
      | true =>
          rw [hpa] at hx
          cases hx
          rcases List.mem_cons.mp hy with rfl | hy
          · exact hrefl _
          · exact ha y hy
      | false =>
          rw [hpa] at hx
          rcases List.mem_cons.mp hy with rfl | hy
          · rw [hpy] at hpa
            cases hpa
          · exact ih hl hx hy

/-- Where `p` is lost once and for all along the list, what is taken is what has it. -/
lemma takeWhile_eq_filter (hl : l.Pairwise fun a b => p b = true → p a = true) :
    l.takeWhile p = l.filter p := by
  induction l with
  | nil => rfl
  | cons a l ih =>
      obtain ⟨ha, hl⟩ := List.pairwise_cons.mp hl
      cases hpa : p a with
      | true => rw [List.takeWhile_cons_of_pos hpa, List.filter_cons_of_pos hpa, ih hl]
      | false =>
          have hnone : l.filter p = [] := List.filter_eq_nil_iff.mpr fun b hb hpb => by
            rw [ha b hb hpb] at hpa
            cases hpa
          rw [List.takeWhile_cons_of_neg (by simp [hpa]), List.filter_cons_of_neg (by simp [hpa]),
            hnone]

/-- Where `p` is lost once and for all along the list, the first elements that have it are among the
first elements. -/
lemma filter_take (hl : l.Pairwise fun a b => p b = true → p a = true) (n : ℕ) :
    (l.take n).filter p = (l.filter p).take n := by
  rw [← takeWhile_eq_filter hl, ← takeWhile_eq_filter (hl.sublist (List.take_sublist n l)),
    List.take_takeWhile]

/-- What is taken from a sorted list comes before what is left. -/
lemma rel_of_mem_take (hl : l.Pairwise r) {n : ℕ} {y : α} (hx : x ∈ l.take n) (hy : y ∈ l)
    (hy' : y ∉ l.take n) : r x y := by
  rw [← List.take_append_drop n l] at hl hy
  exact (List.pairwise_append.mp hl).2.2 x hx y ((List.mem_append.mp hy).resolve_left hy')

lemma dropWhile_eq_filter (hl : l.Pairwise fun a b => p b = true → p a = true) :
    l.dropWhile p = l.filter fun a => !p a := by
  induction l with
  | nil => rfl
  | cons a l ih =>
      obtain ⟨ha, hl⟩ := List.pairwise_cons.mp hl
      cases hpa : p a with
      | true => rw [List.dropWhile_cons_of_pos hpa, List.filter_cons_of_neg (by simp [hpa]), ih hl]
      | false =>
          have hall : l.filter (fun a => !p a) = l := List.filter_eq_self.mpr fun b hb => by
            cases hpb : p b with
            | true =>
                rw [ha b hb hpb] at hpa
                cases hpa
            | false => rfl
          rw [List.dropWhile_cons_of_neg (by simp [hpa]), List.filter_cons_of_pos (by simp [hpa]),
            hall]

/-- A part of a list that leaves out no element with a property has the same ones. -/
theorem filter_eq_of_sublist (h : l.Sublist l') (hl' : l'.Nodup)
    (hp : ∀ a ∈ l', p a = true → a ∈ l) : l.filter p = l'.filter p := by
  refine (h.filter p).eq_of_length_le ?_
  refine (List.subperm_of_subset (hl'.filter p) fun a ha => ?_).length_le
  obtain ⟨ha, hpa⟩ := List.mem_filter.mp ha
  exact List.mem_filter.mpr ⟨hp a ha hpa, hpa⟩

end ZosCore.SortedLists
