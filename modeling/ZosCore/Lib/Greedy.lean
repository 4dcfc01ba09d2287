import Mathlib.Data.List.Perm.Basic
import Mathlib.Data.List.Nodup

/-!
Handing out things one after the other, each to the first who can take it.

* `Greedy.assign`: what is left, and what has been given to whom; nobody gets two things.
* `Greedy.perm`: everything is either left or given.
* **`Greedy.taken_before`**: who could have taken what is left was given something that comes before it.
-/

namespace ZosCore.Greedy

variable {α β : Type} [DecidableEq β]

/-- Each thing goes to the first of those who are free and can take it, who then is free no more. -/
def assign (takes : α → β → Bool) : List β → List α → List α × List (α × β)
  | _, [] => ([], [])
  | free, a :: as =>
      match free.find? (takes a) with
      | some b =>
          let (left, given) := assign takes (free.erase b) as
          (left, (a, b) :: given)
      | none =>
          let (left, given) := assign takes free as
          (a :: left, given)

variable {takes : α → β → Bool} {free : List β} {as : List α} {a : α} {b : β}

/-- What comes out for a thing that someone takes. -/
lemma assign_cons_some (h : free.find? (takes a) = some b) :
    assign takes free (a :: as) =
      ((assign takes (free.erase b) as).1, (a, b) :: (assign takes (free.erase b) as).2) := by
  simp [assign, h]

/-- What comes out for a thing that nobody takes. -/
lemma assign_cons_none (h : free.find? (takes a) = none) :
    assign takes free (a :: as) =
      (a :: (assign takes free as).1, (assign takes free as).2) := by
  simp [assign, h]

/-- Things are given to those who can take them. -/
lemma takes_of_given (h : (a, b) ∈ (assign takes free as).2) : b ∈ free ∧ takes a b := by
  induction as generalizing free with
  | nil => simp [assign] at h
  | cons c as ih =>
      cases hc : free.find? (takes c) with
      | none =>
          rw [assign_cons_none hc] at h
          exact ih h
      | some d =>
          rw [assign_cons_some hc] at h
          rcases List.mem_cons.mp h with heq | h
          · obtain ⟨rfl, rfl⟩ := Prod.mk.inj heq
            exact ⟨List.mem_of_find?_eq_some hc, List.find?_some hc⟩
          · exact ⟨List.mem_of_mem_erase (ih h).1, (ih h).2⟩

/-- Everything is either left or given. -/
lemma perm : as.Perm ((assign takes free as).1 ++ (assign takes free as).2.map Prod.fst) := by
  induction as generalizing free with
  | nil => simp [assign]
  | cons c as ih =>
      cases hc : free.find? (takes c) with
      | none =>
          rw [assign_cons_none hc]
          exact ih.cons c
      | some d =>
          rw [assign_cons_some hc]
          exact (ih.cons c).trans List.perm_middle.symm

/-- What is left keeps its order. -/
lemma left_sublist : (assign takes free as).1.Sublist as := by
  induction as generalizing free with
  | nil => simp [assign]
  | cons c as ih =>
      cases hc : free.find? (takes c) with
      | none =>
          rw [assign_cons_none hc]
          exact ih.cons_cons c
      | some d =>
          rw [assign_cons_some hc]
          exact ih.cons c

/-- Nobody is given two things. -/
lemma nodup_receivers (hfree : free.Nodup) : ((assign takes free as).2.map Prod.snd).Nodup := by
  induction as generalizing free with
  | nil => simp [assign]
  | cons c as ih =>
      cases hc : free.find? (takes c) with
      | none =>
          rw [assign_cons_none hc]
          exact ih hfree
      | some d =>
          rw [assign_cons_some hc]
          refine List.nodup_cons.mpr ⟨fun hd => ?_, ih (hfree.erase d)⟩
          obtain ⟨⟨x, e⟩, hx, heq : e = d⟩ := List.mem_map.mp hd
          have hfree' : e ∈ free.erase d := (takes_of_given hx).1
          exact hfree.not_mem_erase (heq ▸ hfree')

/-- **Priority.** Someone who could have taken what is left was given something that comes before it. -/
theorem taken_before (ha : a ∈ (assign takes free as).1) (hb : b ∈ free) (htakes : takes a b) :
    ∃ a', (a', b) ∈ (assign takes free as).2 ∧ [a', a].Sublist as := by
  induction as generalizing free with
  | nil => simp [assign] at ha
  | cons c as ih =>
      cases hc : free.find? (takes c) with
      | none =>
          rw [assign_cons_none hc] at ha ⊢
          rcases List.mem_cons.mp ha with rfl | ha
          · exact absurd htakes (List.find?_eq_none.mp hc b hb)
          · obtain ⟨a', hgiven, hbefore⟩ := ih ha hb
            exact ⟨a', hgiven, hbefore.cons c⟩
      | some d =>
          rw [assign_cons_some hc] at ha ⊢
          by_cases hbd : b = d
          · subst hbd
            exact ⟨c, List.mem_cons_self,
              (List.singleton_sublist.mpr (left_sublist.subset ha)).cons_cons c⟩
          · obtain ⟨a', hgiven, hbefore⟩ := ih ha ((List.mem_erase_of_ne hbd).mpr hb)
            exact ⟨a', List.mem_cons_of_mem _ hgiven, hbefore.cons c⟩

end ZosCore.Greedy
