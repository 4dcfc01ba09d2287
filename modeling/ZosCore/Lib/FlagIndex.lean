import Mathlib.Data.List.TakeWhile
import Mathlib.Tactic

/-!
Indices that are ordered by a flag, with the elements that have it at the end.

An element that is changed stays where it is if the order allows it. Else it is taken out, and put in after
those that it is not to come before.

* `Ordered`, `put`, `replace`: the order, and what happens to it when an element is put in or changed.
* `ordered_replace`, `replace_perm`: the index stays ordered, and the other elements are as before.
* **`flag_of_getLast`**: when the last element does not have the flag, none has it.
-/

namespace ZosCore.FlagIndex

variable {α : Type} (flag : α → Bool)

/-- The order of the index. -/
def Ordered (l : List α) : Prop := l.Pairwise fun a b => flag a = true → flag b = true

/-- A new element comes after those that it is not to come before. -/
def put (a : α) (l : List α) : List α :=
  if flag a then l ++ [a]
  else l.takeWhile (fun b => !flag b) ++ a :: l.dropWhile fun b => !flag b

/-- An element between two parts of the index has been changed into `a`. -/
def replace (before after : List α) (a : α) : List α :=
  if (before.all fun b => !flag b || flag a) && after.all fun b => !flag a || flag b then
    before ++ a :: after
  else put flag a (before ++ after)

variable {flag} {a b : α} {l before after : List α}

lemma put_perm : (put flag a l).Perm (a :: l) := by
  rw [put]
  split_ifs
  · exact List.perm_append_singleton a l
  · refine List.perm_middle.trans ?_
    rw [List.takeWhile_append_dropWhile]

lemma replace_perm : (replace flag before after a).Perm (a :: (before ++ after)) := by
  rw [replace]
  split_ifs
  · exact List.perm_middle
  · exact put_perm

lemma ordered_put (h : Ordered flag l) : Ordered flag (put flag a l) := by
  rw [put]
  split_ifs with hflag
  · rw [Ordered, List.pairwise_append]
    refine ⟨h, List.pairwise_singleton _ _, fun x _ y hy _ => ?_⟩
    rw [List.mem_singleton.mp hy]
    exact hflag
  · have htake : ∀ x ∈ l.takeWhile fun b => !flag b, flag x = false := by
      intro x hx
      have hnot := List.mem_takeWhile_imp (p := fun b => !flag b) hx
      rwa [Bool.not_eq_true'] at hnot
    rw [Ordered, List.pairwise_append, List.pairwise_cons]
    refine ⟨h.sublist (List.takeWhile_sublist _), ⟨fun y _ hy => absurd hy hflag,
      h.sublist (List.dropWhile_sublist _)⟩, fun x hx y _ hx' => ?_⟩
    rw [htake x hx] at hx'
    cases hx'

lemma ordered_replace (h : Ordered flag (before ++ b :: after)) :
    Ordered flag (replace flag before after a) := by
  have hrest : Ordered flag (before ++ after) :=
    h.sublist ((List.sublist_cons_self b after).append_left before)
  rw [replace]
  split_ifs with hplace
  · rw [Bool.and_eq_true, List.all_eq_true, List.all_eq_true] at hplace
    obtain ⟨hbefore, hafter⟩ := hplace
    obtain ⟨hfirst, hsecond, hcross⟩ := List.pairwise_append.mp hrest
    rw [Ordered, List.pairwise_append, List.pairwise_cons]
    refine ⟨hfirst, ⟨fun y hy ha => ?_, hsecond⟩, fun x hx y hy hflag => ?_⟩
    · have hor := hafter y hy
      rw [ha] at hor
      exact hor
    · have hor := hbefore x hx
      rw [hflag] at hor
      rcases List.mem_cons.mp hy with rfl | hy
      · exact hor
      · exact hcross x hx y hy hflag
  · exact ordered_put hrest

/-- **The last element tells.** -/
theorem flag_of_getLast (h : Ordered flag l) (hlast : l.getLast? = some a) (ha : flag a = false) :
    ∀ b ∈ l, flag b = false := by
  obtain ⟨front, rfl⟩ := List.getLast?_eq_some_iff.mp hlast
  intro b hb
  rcases List.mem_append.mp hb with hb | hb
  · by_contra hflag
    have hflag' := (List.pairwise_append.mp h).2.2 b hb a (List.mem_singleton_self a)
      (Bool.not_eq_false _ ▸ hflag)
    rw [ha] at hflag'
    cases hflag'
  · rw [List.mem_singleton.mp hb]
    exact ha

end ZosCore.FlagIndex
