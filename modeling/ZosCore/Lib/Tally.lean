import Mathlib.Algebra.BigOperators.Group.List.Basic
import Mathlib.Algebra.Ring.Nat
import Mathlib.Data.List.Nodup
import Mathlib.Data.List.TakeDrop

/-!
Sums that are kept in a table of numbers of a fixed width: each ballot adds its weight at some places
of the table.

* `addAt`: a weight is added at a place, if there is one.
* `tallied`: the table of given numbers, of which the width keeps the rest.
* `foldl_addAt_tallied`: the same weight is added at several places.
* `sum_range_buckets`: where a ballot is counted at one place, the table adds up to the weights that are
  counted at all.
-/

namespace ZosCore

namespace Tally

variable {β : Type} {M n place x : ℕ} {f g : ℕ → ℕ}

/-- The table `t` with `x` added at a place; without the place it stays as it was. -/
def addAt (M : ℕ) (t : List ℕ) (place x : ℕ) : List ℕ := t.modify place fun y => (y + x) % M

/-- The table of the numbers `f 0`, …, `f (n - 1)`. -/
def tallied (M n : ℕ) (f : ℕ → ℕ) : List ℕ := (List.range n).map fun i => f i % M

@[simp] lemma length_addAt (t : List ℕ) : (addAt M t place x).length = t.length :=
  List.length_modify _ _ _

@[simp] lemma length_tallied : (tallied M n f).length = n := by
  rw [tallied, List.length_map, List.length_range]

lemma getElem?_tallied {i : ℕ} (hi : i < n) : (tallied M n f)[i]? = some (f i % M) := by
  rw [tallied, List.getElem?_map, List.getElem?_range hi]
  rfl

lemma tallied_congr (h : ∀ i < n, f i = g i) : tallied M n f = tallied M n g :=
  List.map_congr_left fun i hi => by rw [h i (List.mem_range.mp hi)]

/-- The table at the beginning. -/
lemma tallied_zero : tallied M n (fun _ => 0) = List.replicate n 0 := by
  rw [tallied, List.map_const', Nat.zero_mod, List.length_range]

/-- Where the numbers have the width, nothing is lost of them. -/
lemma tallied_of_lt (h : ∀ i < n, f i < M) : tallied M n f = (List.range n).map f :=
  List.map_congr_left fun i hi => Nat.mod_eq_of_lt (h i (List.mem_range.mp hi))

/-- A weight at one place. -/
lemma addAt_tallied (M n : ℕ) (f : ℕ → ℕ) (place x : ℕ) :
    addAt M (tallied M n f) place x = tallied M n fun i => f i + if i = place then x else 0 := by
  refine List.ext_getElem? fun i => ?_
  rw [addAt, List.getElem?_modify]
  rcases Nat.lt_or_ge i n with hi | hi
  · rw [getElem?_tallied hi, getElem?_tallied hi]
    show some (if place = i then (f i % M + x) % M else f i % M) = _
    by_cases h : place = i
    · rw [if_pos h, if_pos h.symm, Nat.mod_add_mod]
    · rw [if_neg h, if_neg (Ne.symm h), Nat.add_zero]
  · rw [List.getElem?_eq_none (by simpa using hi), List.getElem?_eq_none (by simpa using hi)]
    rfl

/-- The same weight at several places. -/
lemma foldl_addAt_tallied (M n : ℕ) (f : ℕ → ℕ) {places : List ℕ} (hnodup : places.Nodup) (x : ℕ) :
    places.foldl (fun t place => addAt M t place x) (tallied M n f) =
      tallied M n fun i => f i + if i ∈ places then x else 0 := by
  induction places generalizing f with
  | nil => simp
  | cons p places ih =>
      obtain ⟨hp, hnodup⟩ := List.nodup_cons.mp hnodup
      rw [List.foldl_cons, addAt_tallied, ih _ hnodup]
      refine tallied_congr fun i _ => ?_
      by_cases h : i = p
      · subst h
        rw [if_pos rfl, if_neg hp, if_pos List.mem_cons_self, Nat.add_zero]
      · rw [if_neg h, Nat.add_zero]
        simp [List.mem_cons, h]

/-! ### Buckets -/

/-- A weight that is added to at most one of the entries. -/
lemma sum_range_ite (n place x : ℕ) :
    ((List.range n).map fun i => if place = i then x else 0).sum = if place < n then x else 0 := by
  induction n with
  | zero => simp
  | succ n ih =>
      rw [List.range_succ, List.map_append, List.sum_append, ih, List.map_singleton,
        List.sum_singleton]
      rcases Nat.lt_trichotomy place n with h | h | h
      · rw [if_pos h, if_neg (Nat.ne_of_lt h), if_pos (by omega), Nat.add_zero]
      · rw [if_neg (by omega), if_pos h, if_pos (by omega), Nat.zero_add]
      · rw [if_neg (by omega), if_neg (Nat.ne_of_gt h), if_neg (by omega)]

/-- Each ballot is counted at one place at most: together the entries are the weights of those that are
counted. -/
lemma sum_range_buckets (n : ℕ) (ballots : List β) (bucket weight : β → ℕ) :
    ((List.range n).map fun i =>
        (ballots.map fun b => if bucket b = i then weight b else 0).sum).sum =
      (ballots.map fun b => if bucket b < n then weight b else 0).sum := by
  induction ballots with
  | nil => simp
  | cons b ballots ih =>
      simp only [List.map_cons, List.sum_cons]
      rw [List.sum_map_add, sum_range_ite, ih]

end Tally

end ZosCore
