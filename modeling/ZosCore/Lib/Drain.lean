import Mathlib.Data.List.Basic
import Mathlib.Data.List.Count
import Mathlib.Data.List.Infix
import Mathlib.Data.List.Perm.Subperm

/-!
A pile of items that is gone through against lists that are waited for.

An item of the pile is due if one of the lists starts with it. It is then taken from the front of all
the lists that start with it, and from the pile, and the search begins again.

* `due n pile lists`: the items that become due, in their order, `n` of them at most.
* **`due_complete`**: if there are fewer, no item that is left in the pile is due.
* **`popAll_split`**, **`exists_taken`**: what is taken from a list became due, and what became due
  was taken from a list.
-/

namespace ZosCore.Drain

variable {α : Type} [DecidableEq α]

/-- The item is taken from the front of a list that starts with it. -/
def pop (x : α) (l : List α) : List α := if l.head? = some x then l.tail else l

/-- Several items, one after the other. -/
def popAll (xs : List α) (l : List α) : List α := xs.foldl (fun l x => pop x l) l

/-- One of the lists starts with the item. -/
def isDue (lists : List (List α)) (x : α) : Bool := lists.any fun l => l.head? = some x

/-- The items of the pile that become due, in their order, and `n` of them at most. -/
def due : ℕ → List α → List (List α) → List α
  | 0, _, _ => []
  | n + 1, pile, lists =>
      match pile.find? (isDue lists) with
      | none => []
      | some x => x :: due n (pile.erase x) (lists.map (pop x))

variable {n : ℕ} {pile : List α} {lists : List (List α)} {x : α}

@[simp] lemma popAll_nil (l : List α) : popAll [] l = l := rfl

@[simp] lemma popAll_cons (x : α) (xs l : List α) : popAll (x :: xs) l = popAll xs (pop x l) := rfl

lemma isDue_iff {lists : List (List α)} {x : α} :
    isDue lists x = true ↔ ∃ l ∈ lists, l.head? = some x := by
  simp [isDue]

lemma pop_of_head {l : List α} (h : l.head? = some x) : l = x :: pop x l := by
  obtain ⟨l', rfl⟩ := List.head?_eq_some_iff.mp h
  simp [pop]

lemma due_of_none (h : pile.find? (isDue lists) = none) : due n pile lists = [] := by
  cases n with
  | zero => rfl
  | succ n => simp [due, h]

lemma due_of_some (h : pile.find? (isDue lists) = some x) :
    due (n + 1) pile lists = x :: due n (pile.erase x) (lists.map (pop x)) := by
  simp [due, h]

lemma due_length_le (n : ℕ) (pile : List α) (lists : List (List α)) :
    (due n pile lists).length ≤ n := by
  induction n generalizing pile lists with
  | zero => simp [due]
  | succ n ih =>
      cases hfind : pile.find? (isDue lists) with
      | none => simp [due_of_none hfind]
      | some x => simpa [due_of_some hfind] using ih (pile.erase x) (lists.map (pop x))

/-- The items that become due are items of the pile, each of them as often at most. -/
lemma due_subperm (n : ℕ) (pile : List α) (lists : List (List α)) :
    (due n pile lists).Subperm pile := by
  induction n generalizing pile lists with
  | zero => exact List.nil_subperm
  | succ n ih =>
      cases hfind : pile.find? (isDue lists) with
      | none => simp [due_of_none hfind, List.nil_subperm]
      | some x =>
          rw [due_of_some hfind]
          have hx : x ∈ pile := List.mem_of_find?_eq_some hfind
          exact ((List.subperm_cons x).mpr (ih _ _)).trans (List.perm_cons_erase hx).symm.subperm

/-- **The pile is gone through**: if fewer than `n` items became due, none that is left is. -/
theorem due_complete (h : (due n pile lists).length < n) :
    ∀ x ∈ pile.diff (due n pile lists),
      ¬ isDue (lists.map (popAll (due n pile lists))) x := by
  induction n generalizing pile lists with
  | zero => simp at h
  | succ n ih =>
      cases hfind : pile.find? (isDue lists) with
      | none =>
          rw [due_of_none hfind]
          intro x hx
          simpa [isDue_iff] using List.find?_eq_none.mp hfind x (by simpa using hx)
      | some y =>
          rw [due_of_some hfind] at h ⊢
          intro x hx
          rw [List.diff_cons] at hx
          simpa [isDue_iff] using ih (by simpa using h) x hx

/-- What is taken from the front of a list is among the items. -/
theorem popAll_split (xs l : List α) : ∃ taken, l = taken ++ popAll xs l ∧ taken ⊆ xs := by
  induction xs generalizing l with
  | nil => exact ⟨[], by simp⟩
  | cons x xs ih =>
      obtain ⟨taken, hsplit, hsub⟩ := ih (pop x l)
      by_cases hx : l.head? = some x
      · refine ⟨x :: taken, ?_, List.cons_subset_cons x hsub⟩
        rw [popAll_cons, List.cons_append, ← hsplit]
        exact pop_of_head hx
      · refine ⟨taken, ?_, fun y hy => List.mem_cons_of_mem x (hsub hy)⟩
        rw [popAll_cons, ← hsplit, pop, if_neg hx]

/-- Every item that became due was taken from one of the lists. -/
theorem exists_taken (h : x ∈ due n pile lists) :
    ∃ l ∈ lists, ∃ taken, l = taken ++ popAll (due n pile lists) l ∧ x ∈ taken := by
  induction n generalizing pile lists with
  | zero => simp [due] at h
  | succ n ih =>
      cases hfind : pile.find? (isDue lists) with
      | none => simp [due_of_none hfind] at h
      | some y =>
          rw [due_of_some hfind] at h ⊢
          rcases List.mem_cons.mp h with rfl | h
          · obtain ⟨l, hl, hhead⟩ := isDue_iff.mp (List.find?_some hfind)
            obtain ⟨taken, hsplit, -⟩ :=
              popAll_split (due n (pile.erase x) (lists.map (pop x))) (pop x l)
            refine ⟨l, hl, x :: taken, ?_, List.mem_cons_self⟩
            rw [popAll_cons, List.cons_append, ← hsplit]
            exact pop_of_head hhead
          · obtain ⟨l', hl', taken, hsplit, hx⟩ := ih h
            obtain ⟨l, hl, rfl⟩ := List.mem_map.mp hl'
            by_cases hy : l.head? = some y
            · refine ⟨l, hl, y :: taken, ?_, List.mem_cons_of_mem y hx⟩
              rw [popAll_cons, List.cons_append, ← hsplit]
              exact pop_of_head hy
            · have hsame : pop y l = l := if_neg hy
              rw [hsame] at hsplit
              exact ⟨l, hl, taken, by rw [popAll_cons, hsame]; exact hsplit, hx⟩

/-- What is taken is taken from the front in one way. -/
lemma taken_subset {xs l taken : List α} (h : l = taken ++ popAll xs l) : taken ⊆ xs := by
  obtain ⟨taken', hsplit, hsub⟩ := popAll_split xs l
  have hsame : taken = taken' := List.append_cancel_right (h.symm.trans hsplit)
  exact hsame ▸ hsub

omit [DecidableEq α] in
/-- The pile may be one of things that carry the items. -/
lemma map_eraseP_of_find? {γ : Type} [DecidableEq γ] {f : α → γ} {p : γ → Bool} {l : List α} {m : α}
    (h : l.find? (fun y => p (f y)) = some m) :
    (l.eraseP fun y => p (f y)).map f = (l.map f).erase (f m) := by
  induction l with
  | nil => simp at h
  | cons y l ih =>
      by_cases hy : p (f y)
      · obtain rfl : y = m := by simpa [hy] using h
        simp [hy]
      · have hm : p (f m) = true := by
          have hsome := List.find?_some h
          exact hsome
        have hne : f y ≠ f m := fun heq => hy (heq ▸ hm)
        simpa [hy, hne, List.erase_cons] using ih (by simpa [hy] using h)

end ZosCore.Drain
